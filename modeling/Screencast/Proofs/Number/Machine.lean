import Screencast.Proofs.Number.Lawful
import Screencast.Proofs.Number.Packed

/-!
The machine's numbers keep the laws of numbers. Each stands for a rational, NaN apart and the
infinities for the limits; what is computed of finite ones is the exact result rounded, and rounding
keeps the order.
-/

namespace Screencast.Machine

open Float.Model Float.Model.UnpackedFloat Rounding

variable {x y z : Float} {a b c : Rat}

def value? (x : Float) : Option Rat :=
  Rounding.value? x.toModel.unpack

theorem inRange (x : Float) : InRange x.toModel.unpack :=
  unpack_inRange _

theorem le_iff : x ≤ y ↔ ∃ a b, value? x = some a ∧ value? y = some b ∧ a ≤ b := by
  refine Iff.trans ?_ (Rounding.le_iff (inRange x) (inRange y))
  change decide (x.toModel.le y.toModel = true) = true ↔ _
  exact decide_eq_true_iff

theorem lt_iff : x < y ↔ ∃ a b, value? x = some a ∧ value? y = some b ∧ a < b := by
  refine Iff.trans ?_ (Rounding.lt_iff (inRange x) (inRange y))
  change decide (x.toModel.lt y.toModel = true) = true ↔ _
  exact decide_eq_true_iff

theorem beq_iff : (x == y) = true ↔ ∃ a, value? x = some a ∧ value? y = some a :=
  Rounding.beq_iff (inRange x) (inRange y)

def Stands (x : Float) (a : Rat) : Prop :=
  Rounded x.toModel.unpack a

theorem Stands.value (stands : Stands x a) : value? x = some a :=
  Rounded.value stands

theorem unpack_add (x y : Float) : (x + y).toModel.unpack = unpack Format.binary64
    (pack Format.binary64 (x.toModel.unpack.add Format.binary64 y.toModel.unpack)) :=
  rfl

theorem unpack_sub (x y : Float) : (x - y).toModel.unpack = unpack Format.binary64
    (pack Format.binary64 (x.toModel.unpack.sub Format.binary64 y.toModel.unpack)) :=
  rfl

theorem unpack_mul (x y : Float) : (x * y).toModel.unpack = unpack Format.binary64
    (pack Format.binary64 (x.toModel.unpack.mul Format.binary64 y.toModel.unpack)) :=
  rfl

theorem unpack_div (x y : Float) : (x / y).toModel.unpack = unpack Format.binary64
    (pack Format.binary64 (x.toModel.unpack.div Format.binary64 y.toModel.unpack)) :=
  rfl

theorem unpack_neg (x : Float) : (-x).toModel.unpack = unpack Format.binary64
    (pack Format.binary64 x.toModel.unpack.neg) :=
  rfl

theorem value_add (left : Stands x a) (right : Stands y b) :
    value? (x + y) = some (Rounding.round (a + b)) :=
  (add_rounded left right).value_unpack_pack

theorem value_sub (left : Stands x a) (right : Stands y b) :
    value? (x - y) = some (Rounding.round (a - b)) :=
  (sub_rounded left right).value_unpack_pack

theorem value_mul (left : Stands x a) (right : Stands y b) :
    value? (x * y) = some (Rounding.round (a * b)) :=
  (mul_rounded left right).value_unpack_pack

theorem value_div (left : Stands x a) (right : Stands y b) (nonzero : b ≠ 0) :
    value? (x / y) = some (Rounding.round (a / b)) :=
  (div_rounded left right nonzero).value_unpack_pack

theorem isFinite_exact (x : Float) :
    (Binary.exact x).isFinite = true ↔ x.toBits.toNat / 2 ^ 52 % 2 ^ 11 ≠ 2047 := by
  unfold Binary.exact Binary.fields
  dsimp only
  split
  · next top =>
    have exponent : x.toBits.toNat / 2 ^ 52 % 2 ^ 11 = 2047 := top
    rw [exponent]
    split <;> simp [Exact.isFinite]
  · next notTop =>
    have exponent : x.toBits.toNat / 2 ^ 52 % 2 ^ 11 ≠ 2047 := notTop
    simp only [exponent, ne_eq, not_false_eq_true, iff_true]
    split <;> rfl

theorem isFinite_iff_unpack : Number.isFinite x = true ↔ x.toModel.unpack.isFinite = true :=
  (isFinite_exact x).trans (isFinite_unpack x.toModel.toBits.toBitVec).symm

theorem isFinite_iff : Number.isFinite x = true ↔ ∃ a, Stands x a := by
  have range := inRange x
  rw [isFinite_iff_unpack]
  unfold Stands
  generalize x.toModel.unpack = f at range ⊢
  cases f with
  | notANumber => exact ⟨fun finite => (nomatch finite), fun ⟨_, rounded⟩ => (nomatch rounded)⟩
  | infinity s => exact ⟨fun finite => (nomatch finite), fun ⟨_, rounded⟩ => (nomatch rounded)⟩
  | zero s => exact ⟨fun _ => ⟨0, .zero s⟩, fun _ => rfl⟩
  | finite s m e pos => exact ⟨fun _ => ⟨_, .finite s pos range.1⟩, fun _ => rfl⟩

/-- What can be compared stands for a rational or is an infinity. -/
theorem stands_or_infinity (value : value? x = some a) :
    Stands x a ∨ ∃ s, x.toModel.unpack = .infinity s ∧ a = signed s limit := by
  have range := inRange x
  unfold Machine.value? at value
  unfold Stands
  generalize x.toModel.unpack = f at range value ⊢
  cases f with
  | notANumber => exact nomatch value
  | infinity s =>
    cases value
    exact Or.inr ⟨s, rfl, rfl⟩
  | zero s =>
    cases value
    exact Or.inl (.zero s)
  | finite s m e pos =>
    cases value
    exact Or.inl (.finite s pos range.1)

theorem Stands.bounds (stands : Stands x a) : -limit < a ∧ a < limit := by
  have range := inRange x
  have positive := limit_pos
  unfold Stands at stands
  generalize x.toModel.unpack = f at range stands
  cases stands with
  | zero s => exact ⟨by linarith, positive⟩
  | finite s pos canonical => exact signed_bounds s pos range

theorem Stands.round (stands : Stands x a) : Rounding.round a = a := by
  have bounds := stands.bounds
  rw [Rounding.round, Rounded.toPlaces stands, clamp_of_abs_le bounds.1.le bounds.2.le]

theorem stands_of_bounds (value : value? x = some a) (lower : -limit < a) (upper : a < limit) :
    Stands x a := by
  rcases stands_or_infinity value with stands | ⟨s, _, rfl⟩
  · exact stands
  · cases s with
    | negative => exact absurd lower (lt_irrefl _)
    | positive => exact absurd upper (lt_irrefl _)

theorem value_infinity {s : Sign} (infinite : x.toModel.unpack = .infinity s) :
    value? x = some (signed s limit) := by
  rw [value?, infinite]
  rfl

theorem value_neg (value : value? x = some a) : value? (-x) = some (-a) := by
  rcases stands_or_infinity value with stands | ⟨s, infinite, rfl⟩
  · have bounds := stands.bounds
    have packed := (Rounded.neg stands).value_unpack_pack
    rw [clamp_of_abs_le (by linarith) (by linarith)] at packed
    exact packed
  · rw [← signed_neg]
    refine value_infinity ?_
    rw [unpack_neg, infinite]
    exact unpack_pack_infinity _

/-- An operation keeps the order if it rounds what keeps the order and leaves the infinities. -/
theorem le_of_mono (op : Float → Float) (precise : Rat → Rat)
    (mono : ∀ a b, a ≤ b → precise a ≤ precise b)
    (finite : ∀ x a, Stands x a → value? (op x) = some (Rounding.round (precise a)))
    (infinite : ∀ x s, x.toModel.unpack = .infinity s → value? (op x) = some (signed s limit))
    (le : x ≤ y) : op x ≤ op y := by
  obtain ⟨a, b, left, right, ordered⟩ := le_iff.mp le
  rw [le_iff]
  rcases stands_or_infinity left with standsX | ⟨s, infiniteX, rfl⟩
  · rcases stands_or_infinity right with standsY | ⟨t, infiniteY, rfl⟩
    · exact ⟨_, _, finite x a standsX, finite y b standsY, round_mono (mono a b ordered)⟩
    · cases t with
      | negative => exact absurd ordered (not_le.mpr standsX.bounds.1)
      | positive => exact ⟨_, _, finite x a standsX, infinite y _ infiniteY, clamp_le_limit _⟩
  · rcases stands_or_infinity right with standsY | ⟨t, infiniteY, rfl⟩
    · cases s with
      | negative => exact ⟨_, _, infinite x _ infiniteX, finite y b standsY, neg_limit_le_clamp _⟩
      | positive => exact absurd ordered (not_le.mpr standsY.bounds.2)
    · exact ⟨_, _, infinite x s infiniteX, infinite y t infiniteY, ordered⟩

theorem stands_one : Stands (Float.ofBits 0x3FF0000000000000) 1 := by
  have canonical : Canonical (2 ^ 52) (-52) := ⟨by norm_num, by norm_num, Or.inl le_rfl⟩
  have read : unpack Format.binary64 (packComponents Format.binary64 .positive 1023#11 0#52)
      = .finite .positive (2 ^ 52) (-52) (by norm_num) := by
    rw [unpack_packComponents, if_neg (by decide), if_neg (by decide)]
    rfl
  have packed : (Float.ofBits 0x3FF0000000000000).toModel.unpack
      = .finite .positive (2 ^ 52) (-52) (by norm_num) := by
    change unpack Format.binary64 (pack Format.binary64 (unpack Format.binary64
      (packComponents Format.binary64 .positive 1023#11 0#52))) = _
    rw [read, unpack_pack_finite .positive (by norm_num) canonical (by norm_num)]
  have rounded := Rounded.finite .positive (by norm_num) canonical
  have one : signed .positive (((2 ^ 52 : Nat) : Rat) * 2 ^ (-52 : Int)) = 1 := by
    norm_num [signed]
  rw [one] at rounded
  unfold Stands
  rw [packed]
  exact rounded

theorem natCast_lt_limit {n : Nat} (small : n ≤ 2 ^ 53) : (n : Rat) < limit := by
  have size : (n : Rat) ≤ 2 ^ 53 := by exact_mod_cast small
  have less : (2 : Rat) ^ 53 < limit := pow_lt_pow_right₀ (by norm_num) (by norm_num)
  exact lt_of_le_of_lt size less

theorem neg_limit_lt_natCast (n : Nat) : -limit < (n : Rat) := by
  have positive := limit_pos
  have nonneg : (0 : Rat) ≤ n := n.cast_nonneg
  linarith

theorem round_natCast {n : Nat} (small : n ≤ 2 ^ 53) : Rounding.round n = n := by
  have places : magnitude n = n := by
    rcases small.lt_or_eq with less | rfl
    · have kept := magnitude_of_places (e := 0) less (by norm_num)
      rwa [zpow_zero, mul_one] at kept
    · have kept := magnitude_of_places (m := 1) (e := 53) (by norm_num) (by norm_num)
      rw [Nat.cast_one, one_mul] at kept
      exact_mod_cast kept
  rw [Rounding.round, toPlaces_of_nonneg n.cast_nonneg, places,
    clamp_of_abs_le (neg_limit_lt_natCast n).le (natCast_lt_limit small).le]

theorem stands_toFloat {n : Nat} (small : n < 2 ^ 53) : Stands n.toUInt64.toFloat n := by
  have same : n.toUInt64.toNat = n := Nat.mod_eq_of_lt (by omega)
  have rounded := (normalize_rounded n 0 .positive).value_unpack_pack
  rw [Int.cast_natCast, zpow_zero, mul_one] at rounded
  refine stands_of_bounds ?_ (neg_limit_lt_natCast n) (natCast_lt_limit small.le)
  change Rounding.value? (unpack Format.binary64 (pack Format.binary64
    (UnpackedFloat.normalize Format.binary64 n.toUInt64.toNat 0 .positive))) = _
  rw [same, rounded]
  exact congrArg some (round_natCast small.le)

theorem value_ofScientific {n e : Nat} (pos : 0 < n) (small : e ≤ 2048) :
    value? (Float.ofModel (Float.Model.ofScientific n e)) =
      some (Rounding.round (n * 10 ^ e)) := by
  have product : 0 < n * 10 ^ e := by positivity
  have whole : ((n * 10 ^ e : Nat) : Rat) = n * 10 ^ e := by push_cast; rfl
  have positive : (0 : Rat) < n * 10 ^ e := by rw [← whole]; exact_mod_cast product
  have scaled : ((n <<< 53 * 10 ^ e : Nat) : Rat) * 2 ^ (-53 + 0 : Int) = n * 10 ^ e := by
    rw [Nat.shiftLeft_eq, ← whole]
    push_cast
    norm_num
    ring
  have above : (2 : Rat) ^ (-53 + 0 + 52 : Int) ≤ n * 10 ^ e := by
    have one : (1 : Rat) ≤ n * 10 ^ e := by rw [← whole]; exact_mod_cast product
    exact le_trans (zpow_le_one_of_nonpos₀ (by norm_num) (by norm_num)) one
  have placed := placed_exact (n <<< 53 * 10 ^ e) (-53 + 0)
  rw [scaled] at placed
  have rounded := roundWithAccuracy_rounded .positive positive placed (le_place positive above)
  change Rounding.value? (unpack Format.binary64 (pack Format.binary64
    (UnpackedFloat.ofScientific Format.binary64 n e))) = _
  have low : ¬ (e : Int) < -((2 ^ 11 : Int) + n.log2) := by omega
  unfold UnpackedFloat.ofScientific
  rw [dif_neg pos.ne', if_neg (by norm_num; omega), if_neg low, if_pos (by omega)]
  exact rounded.value_unpack_pack

theorem value_ofNat (n : Nat) : value? (Float.ofNat n) = some (Rounding.round n) := by
  change value? (Float.ofScientific n false 0) = _
  unfold Float.ofScientific
  split
  · next fast =>
    have product := value_mul (stands_toFloat fast.1) stands_one
    rw [mul_one] at product
    exact product
  · next slow =>
    have scaled := value_ofScientific (n := n) (e := 0) (by omega) (by omega)
    rw [pow_zero, mul_one] at scaled
    exact scaled

theorem value_ofInt (n : Int) : value? (Float.ofInt n) = some (Rounding.round n) := by
  cases n with
  | ofNat n => exact value_ofNat n
  | negSucc n =>
    have negated := value_neg (value_ofNat (n + 1))
    rw [← Rounding.round_neg] at negated
    rw [Int.cast_negSucc]
    exact negated

theorem value_zero : value? (Float.ofInt 0) = some 0 := by
  have value := value_ofInt 0
  rw [Int.cast_zero, Rounding.round_zero] at value
  exact value

theorem isFinite_ofInt {n : Int} (small : n.natAbs ≤ 2 ^ 53) :
    Number.isFinite (Float.ofInt n) = true := by
  have below := natCast_lt_limit (n := 2 ^ 53) le_rfl
  have kept := round_natCast (n := 2 ^ 53) le_rfl
  have upper : Rounding.round n ≤ Rounding.round ((2 ^ 53 : Nat) : Rat) :=
    round_mono (by exact_mod_cast (by omega : n ≤ (2 ^ 53 : Nat)))
  have lower : Rounding.round (-((2 ^ 53 : Nat) : Rat)) ≤ Rounding.round n :=
    round_mono (by exact_mod_cast (by omega : -((2 ^ 53 : Nat) : Int) ≤ n))
  rw [Rounding.round_neg, kept] at lower
  rw [kept] at upper
  exact isFinite_iff.mpr ⟨_, stands_of_bounds (value_ofInt n) (by linarith) (by linarith)⟩

theorem nonneg_iff : Float.ofInt 0 ≤ x ↔ ∃ a, value? x = some a ∧ 0 ≤ a := by
  rw [le_iff, value_zero]
  simp

theorem pos_iff : Float.ofInt 0 < x ↔ ∃ a, value? x = some a ∧ 0 < a := by
  rw [lt_iff, value_zero]
  simp

theorem stands_of_pos (finite : Number.isFinite z = true) (positive : Float.ofInt 0 < z) :
    ∃ c, Stands z c ∧ 0 < c := by
  obtain ⟨c, stands⟩ := isFinite_iff.mp finite
  obtain ⟨c', value, above⟩ := pos_iff.mp positive
  cases stands.value.symm.trans value
  exact ⟨c, stands, above⟩

theorem ofInt_pos {n : Int} (positive : 0 < n) : Float.ofInt 0 < Float.ofInt n := by
  have kept := round_natCast (n := 1) (by norm_num)
  have rounded : Rounding.round ((1 : Nat) : Rat) ≤ Rounding.round n :=
    round_mono (by exact_mod_cast positive)
  rw [kept, Nat.cast_one] at rounded
  exact pos_iff.mpr ⟨_, value_ofInt n, by linarith⟩

theorem stands_ofNat {n : Nat} (small : n ≤ 2 ^ 53) : Stands (Float.ofInt n) n := by
  have value := value_ofInt n
  rw [Int.cast_natCast, round_natCast small] at value
  exact stands_of_bounds value (neg_limit_lt_natCast n) (natCast_lt_limit small)

theorem value_half : value? (Number.half : Float) = some (1 / 2) := by
  have places := magnitude_of_places (m := 1) (e := -1) (by norm_num) (by norm_num)
  have positive := limit_pos
  have rounded : Rounding.round (1 / 2) = 1 / 2 := by
    rw [Nat.cast_one, one_mul, zpow_neg_one, ← one_div] at places
    have large : (1 : Rat) ≤ limit := one_le_pow₀ (by norm_num)
    rw [Rounding.round, toPlaces_of_nonneg (by norm_num), places,
      clamp_of_abs_le (by linarith) (by linarith)]
  have quotient := value_div (stands_ofNat (n := 1) (by norm_num))
    (stands_ofNat (n := 2) (by norm_num)) (by norm_num)
  simp only [Nat.cast_one, Nat.cast_ofNat, rounded] at quotient
  exact quotient

theorem sub_le_sub (finite : Number.isFinite z = true) (le : x ≤ y) : x - z ≤ y - z := by
  obtain ⟨c, stands⟩ := isFinite_iff.mp finite
  refine le_of_mono (fun x => x - z) (fun a => a - c)
    (fun a b le => sub_le_sub_right le c) (fun x a left => value_sub left stands) ?_ le
  intro x s infinite
  refine value_infinity ?_
  rw [unpack_sub, infinite, infinity_sub s stands, unpack_pack_infinity]

theorem mul_le_mul (finite : Number.isFinite z = true) (positive : Float.ofInt 0 < z)
    (le : x ≤ y) : x * z ≤ y * z := by
  obtain ⟨c, stands, above⟩ := stands_of_pos finite positive
  refine le_of_mono (fun x => x * z) (fun a => a * c)
    (fun a b le => mul_le_mul_of_nonneg_right le above.le) (fun x a left => value_mul left stands)
    ?_ le
  intro x s infinite
  refine value_infinity ?_
  rw [unpack_mul, infinite, infinity_mul s stands above, unpack_pack_infinity]

theorem div_le_div (finite : Number.isFinite z = true) (positive : Float.ofInt 0 < z)
    (le : x ≤ y) : x / z ≤ y / z := by
  obtain ⟨c, stands, above⟩ := stands_of_pos finite positive
  refine le_of_mono (fun x => x / z) (fun a => a / c)
    (fun a b le => div_le_div_of_nonneg_right le above.le)
    (fun x a left => value_div left stands above.ne') ?_ le
  intro x s infinite
  refine value_infinity ?_
  rw [unpack_div, infinite, infinity_div s stands above, unpack_pack_infinity]

theorem stands_zero : Stands (Float.ofInt 0) 0 := by
  have positive := limit_pos
  exact stands_of_bounds value_zero (by linarith) positive

theorem sub_nonneg (finite : Number.isFinite y = true) (le : y ≤ x) : Float.ofInt 0 ≤ x - y := by
  obtain ⟨b, stands⟩ := isFinite_iff.mp finite
  have none := value_sub stands stands
  rw [sub_self, Rounding.round_zero] at none
  obtain ⟨zero, a, left, right, ordered⟩ := le_iff.mp (sub_le_sub finite le)
  cases none.symm.trans left
  exact nonneg_iff.mpr ⟨a, right, ordered⟩

theorem mul_nonneg (finite : Number.isFinite z = true) (positive : Float.ofInt 0 < z)
    (nonneg : Float.ofInt 0 ≤ x) : Float.ofInt 0 ≤ x * z := by
  obtain ⟨c, stands⟩ := isFinite_iff.mp finite
  have none := value_mul stands_zero stands
  rw [zero_mul, Rounding.round_zero] at none
  obtain ⟨zero, a, left, right, ordered⟩ := le_iff.mp (mul_le_mul finite positive nonneg)
  cases none.symm.trans left
  exact nonneg_iff.mpr ⟨a, right, ordered⟩

theorem stands_or_top (nonneg : Float.ofInt 0 ≤ x) :
    (∃ a, Stands x a ∧ 0 ≤ a) ∨ x.toModel.unpack = .infinity .positive := by
  have limited := limit_pos
  obtain ⟨a, value, above⟩ := nonneg_iff.mp nonneg
  rcases stands_or_infinity value with stands | ⟨s, infinite, rfl⟩
  · exact Or.inl ⟨a, stands, above⟩
  · cases s with
    | negative =>
      rw [signed] at above
      linarith
    | positive => exact Or.inr infinite

theorem value_le_top {w : Float} (value : value? x = some a)
    (infinite : w.toModel.unpack = .infinity .positive) : x ≤ w := by
  refine le_iff.mpr ⟨a, limit, value, value_infinity infinite, ?_⟩
  rcases stands_or_infinity value with stands | ⟨s, _, rfl⟩
  · exact stands.bounds.2.le
  · have positive := limit_pos
    cases s <;> simp only [signed] <;> linarith

theorem le_add (finite : Number.isFinite x = true ∨ Float.ofInt 0 ≤ x)
    (nonneg : Float.ofInt 0 ≤ y) : x ≤ x + y := by
  have known : (∃ a, Stands x a) ∨ x.toModel.unpack = .infinity .positive := by
    rcases finite with finite | above
    · exact Or.inl (isFinite_iff.mp finite)
    · exact (stands_or_top above).imp_left fun ⟨a, stands, _⟩ => ⟨a, stands⟩
  rcases known with ⟨a, left⟩ | infiniteX
  · rcases stands_or_top nonneg with ⟨b, right, above⟩ | infiniteY
    · have rounded : Rounding.round a ≤ Rounding.round (a + b) := round_mono (by linarith)
      rw [left.round] at rounded
      exact le_iff.mpr ⟨a, _, left.value, value_add left right, rounded⟩
    · refine value_le_top left.value ?_
      rw [unpack_add, infiniteY, add_infinity _ left, unpack_pack_infinity]
  · refine value_le_top (value_infinity infiniteX) ?_
    rcases stands_or_top nonneg with ⟨b, right, above⟩ | infiniteY
    · rw [unpack_add, infiniteX, infinity_add _ right, unpack_pack_infinity]
    · rw [unpack_add, infiniteX, infiniteY]
      exact unpack_pack_infinity _

theorem isFinite_of_mul (finite : Number.isFinite (x * y) = true) :
    Number.isFinite y = true := by
  rw [isFinite_iff_unpack] at finite ⊢
  exact Rounding.isFinite_of_mul (isFinite_of_pack finite)

end Machine

instance : LawfulNumber Float where
  le_trans left right := by
    obtain ⟨a, b, valueX, valueY, first⟩ := Machine.le_iff.mp left
    obtain ⟨b', c, valueY', valueZ, second⟩ := Machine.le_iff.mp right
    cases valueY.symm.trans valueY'
    exact Machine.le_iff.mpr ⟨a, c, valueX, valueZ, first.trans second⟩
  lt_iff := by
    intro x y
    constructor
    · intro less
      obtain ⟨a, b, left, right, ordered⟩ := Machine.lt_iff.mp less
      refine ⟨Machine.le_iff.mpr ⟨a, b, left, right, ordered.le⟩, ?_⟩
      intro back
      obtain ⟨b', a', right', left', above⟩ := Machine.le_iff.mp back
      cases left.symm.trans left'
      cases right.symm.trans right'
      exact absurd ordered (not_lt.mpr above)
    · rintro ⟨le, notBack⟩
      obtain ⟨a, b, left, right, ordered⟩ := Machine.le_iff.mp le
      refine Machine.lt_iff.mpr ⟨a, b, left, right, lt_of_not_ge ?_⟩
      intro above
      exact notBack (Machine.le_iff.mpr ⟨b, a, right, left, above⟩)
  le_total left right := by
    obtain ⟨a, _, valueX, _, _⟩ := Machine.le_iff.mp left
    obtain ⟨b, _, valueY, _, _⟩ := Machine.le_iff.mp right
    rcases le_total a b with le | le
    · exact Or.inl (Machine.le_iff.mpr ⟨a, b, valueX, valueY, le⟩)
    · exact Or.inr (Machine.le_iff.mpr ⟨b, a, valueY, valueX, le⟩)
  self_le_left le := by
    obtain ⟨a, _, value, _, _⟩ := Machine.le_iff.mp le
    exact Machine.le_iff.mpr ⟨a, a, value, value, le_rfl⟩
  self_le_right le := by
    obtain ⟨_, b, _, value, _⟩ := Machine.le_iff.mp le
    exact Machine.le_iff.mpr ⟨b, b, value, value, le_rfl⟩
  self_le finite := by
    obtain ⟨a, stands⟩ := Machine.isFinite_iff.mp finite
    exact Machine.le_iff.mpr ⟨a, a, stands.value, stands.value, le_rfl⟩
  isFinite_ofInt := Machine.isFinite_ofInt
  ofInt_le le :=
    Machine.le_iff.mpr ⟨_, _, Machine.value_ofInt _, Machine.value_ofInt _,
      Rounding.round_mono (by exact_mod_cast le)⟩
  ofInt_pos := Machine.ofInt_pos
  le_add := Machine.le_add
  sub_nonneg := Machine.sub_nonneg
  sub_le_sub := Machine.sub_le_sub
  mul_nonneg := Machine.mul_nonneg
  mul_le_mul := Machine.mul_le_mul
  div_le_div := Machine.div_le_div
  isFinite_of_mul := Machine.isFinite_of_mul

end Screencast
