import Screencast.Number.Shortest
import Screencast.Proofs.Number.Scientific

/-!
The shortest decimal of a machine number is read back to that number. The search stays inside the
decimals that are rounded to the number: on each grid it takes one of them, and the last grid is so
fine that the one just below the number is among them.
-/

namespace Screencast

namespace Rounding

variable {v : Rat} {m : Nat} {e : Int}

theorem lt_two_zpow_of_le (small : m < 2 ^ 53) (upper : v ≤ (m + 1 / 2) * 2 ^ e) :
    v < 2 ^ (e + 53) := by
  have unit := two_zpow_pos e
  have size : (m : Rat) + 1 ≤ 2 ^ (53 : Int) := by exact_mod_cast small
  calc v ≤ (m + 1 / 2) * 2 ^ e := upper
    _ < (m + 1) * 2 ^ e := mul_lt_mul_of_pos_right (by linarith) unit
    _ ≤ 2 ^ (53 : Int) * 2 ^ e := mul_le_mul_of_nonneg_right size unit.le
    _ = 2 ^ (e + 53) := by rw [← two_zpow_add, add_comm]

theorem magnitude_of_place (same : place v = e) (lower : ((m : Rat) - 1 / 2) * 2 ^ e ≤ v)
    (upper : v ≤ (m + 1 / 2) * 2 ^ e)
    (inside : m % 2 = 0 ∨ ((m : Rat) - 1 / 2) * 2 ^ e < v ∧ v < (m + 1 / 2) * 2 ^ e) :
    magnitude v = m * 2 ^ e := by
  have unit := two_zpow_pos e
  have rounded : nearest (v / 2 ^ e) = m := by
    apply nearest_eq
    · rw [le_div_iff₀ unit]
      exact lower
    · rw [div_le_iff₀ unit]
      exact upper
    · apply inside.imp
      · intro even
        exact_mod_cast even
      · rintro ⟨left, right⟩
        rw [lt_div_iff₀ unit, div_lt_iff₀ unit]
        exact ⟨left, right⟩
  rw [magnitude, same, rounded]
  norm_cast

/-- Just below a power of two the units are half as long, and a quarter of the units above is the
half of them. -/
theorem magnitude_below_power (above : -1074 < e) (under : v < 2 ^ (52 : Int) * 2 ^ e)
    (near : (2 ^ 52 - 1 / 4) * 2 ^ e ≤ v) : magnitude v = 2 ^ 52 * 2 ^ e := by
  have unit := two_zpow_pos e
  have unit' := two_zpow_pos (e - 1)
  have units : (2 : Rat) ^ e = 2 ^ (e - 1) * 2 := by
    rw [← zpow_add_one₀ (by norm_num), sub_add_cancel]
  have positive : 0 < v := lt_of_lt_of_le (mul_pos (by norm_num) unit) near
  have half : 2 ^ (e + 51) ≤ v := by
    calc (2 : Rat) ^ (e + 51) = 2 ^ (51 : Int) * 2 ^ e := by rw [← two_zpow_add, add_comm]
      _ ≤ (2 ^ 52 - 1 / 4) * 2 ^ e := mul_le_mul_of_nonneg_right (by norm_num) unit.le
      _ ≤ v := near
  have placed : place v = e - 1 := by
    have least := (two_zpow_le_iff positive).mp half
    rw [← two_zpow_add, lt_two_zpow_iff positive] at under
    unfold place
    omega
  have rounded : nearest (v / 2 ^ (e - 1)) = 2 ^ 53 := by
    rw [units] at near under
    apply nearest_eq
    · rw [le_div_iff₀ unit']
      push_cast
      linarith
    · rw [div_le_iff₀ unit']
      push_cast
      linarith
    · exact Or.inl (by norm_num)
  rw [magnitude, placed, rounded, units]
  push_cast
  ring

/-- What is less than half a unit away from a number is rounded to it, and at half a unit if its
mantissa is even. Below a power of two the units are half as long. -/
theorem magnitude_eq (pos : 0 < m) (canonical : Canonical m e)
    (lower : ((m : Rat) - 1 / 2) * 2 ^ e ≤ v) (upper : v ≤ (m + 1 / 2) * 2 ^ e)
    (inside : m % 2 = 0 ∨ ((m : Rat) - 1 / 2) * 2 ^ e < v ∧ v < (m + 1 / 2) * 2 ^ e)
    (shorter : m = 2 ^ 52 → -1074 < e → ((m : Rat) - 1 / 4) * 2 ^ e ≤ v) :
    magnitude v = m * 2 ^ e := by
  obtain ⟨small, low, full⟩ := canonical
  have unit := two_zpow_pos e
  have one : (1 : Rat) ≤ m := by exact_mod_cast pos
  have positive : 0 < v := lt_of_lt_of_le (mul_pos (by linarith) unit) lower
  have log := (lt_two_zpow_iff positive).mp (lt_two_zpow_of_le small upper)
  have placed : place v ≤ e := by
    unfold place
    omega
  rcases placed.lt_or_eq with less | same
  · -- Only just below a power of two is the last place of the decimal another one.
    have above : -1074 < e := (low_place v).trans_lt less
    have under : v < 2 ^ (52 : Int) * 2 ^ e := by
      rw [← two_zpow_add, lt_two_zpow_iff positive]
      unfold place at less
      omega
    have power : m = 2 ^ 52 := by
      have filled : 2 ^ 52 ≤ m := full.resolve_right above.ne'
      by_contra other
      have larger : (2 : Rat) ^ (52 : Int) + 1 ≤ m := by
        exact_mod_cast (by omega : 2 ^ 52 + 1 ≤ m)
      have more : 2 ^ (52 : Int) * 2 ^ e < ((m : Rat) - 1 / 2) * 2 ^ e :=
        mul_lt_mul_of_pos_right (by linarith) unit
      linarith
    have near := shorter power above
    rw [power] at near ⊢
    push_cast at near ⊢
    exact magnitude_below_power above under near
  · exact magnitude_of_place same lower upper inside

end Rounding

namespace Shortest

open Rounding Machine

def Scientific.value (s : Scientific) : Rat :=
  s.digits * 10 ^ s.exponent

namespace Interval

variable {i : Interval} {v : Rat} {n : Nat} {k : Int}

def Contains (i : Interval) (v : Rat) : Prop :=
  (i.low ≤ v * i.den ∧ v * i.den ≤ i.high) ∧
    (i.closed = true ∨ i.low < v * i.den ∧ v * i.den < i.high)

theorem contains_of_lt (lower : i.low < v * i.den) (upper : v * i.den < i.high) : i.Contains v :=
  ⟨⟨lower.le, upper.le⟩, Or.inr ⟨lower, upper⟩⟩

theorem natCast_units (n den : Nat) (k : Int) :
    ((n * (den * tenTo k.toNat) : Nat) : Rat) = n * 10 ^ k * den * (tenTo (-k).toNat : Nat) := by
  have units : ((tenTo k.toNat : Nat) : Rat) = 10 ^ k * (tenTo (-k).toNat : Nat) := by
    rw [natCast_tenTo, natCast_tenTo, ← zpow_add₀ (by norm_num)]
    congr 1
    omega
  push_cast
  rw [units]
  ring

theorem holds_inUnits : (i.inUnits k).holds n = true ↔ i.Contains (n * 10 ^ k) := by
  have positive : (0 : Rat) < (tenTo (-k).toNat : Nat) := by exact_mod_cast tenTo_pos _
  have place := natCast_units n i.den k
  have low : i.low * tenTo (-k).toNat ≤ n * (i.den * tenTo k.toNat) ↔
      (i.low : Rat) ≤ n * 10 ^ k * i.den := by
    rw [← Nat.cast_le (α := Rat), place, Nat.cast_mul, mul_le_mul_iff_of_pos_right positive]
  have high : n * (i.den * tenTo k.toNat) ≤ i.high * tenTo (-k).toNat ↔
      (n : Rat) * 10 ^ k * i.den ≤ i.high := by
    rw [← Nat.cast_le (α := Rat), place, Nat.cast_mul, mul_le_mul_iff_of_pos_right positive]
  have above : i.low * tenTo (-k).toNat < n * (i.den * tenTo k.toNat) ↔
      (i.low : Rat) < n * 10 ^ k * i.den := by
    rw [← Nat.cast_lt (α := Rat), place, Nat.cast_mul, mul_lt_mul_iff_of_pos_right positive]
  have below : n * (i.den * tenTo k.toNat) < i.high * tenTo (-k).toNat ↔
      (n : Rat) * 10 ^ k * i.den < i.high := by
    rw [← Nat.cast_lt (α := Rat), place, Nat.cast_mul, mul_lt_mul_iff_of_pos_right positive]
  unfold holds inUnits Contains
  dsimp only
  split
  · next closed =>
    rw [Bool.and_eq_true, decide_eq_true_eq, decide_eq_true_eq, low, high]
    simp [closed]
  · next opened =>
    rw [Bool.and_eq_true, decide_eq_true_eq, decide_eq_true_eq, above, below]
    constructor
    · rintro ⟨left, right⟩
      exact contains_of_lt left right
    · rintro ⟨-, closed | strict⟩
      · exact absurd closed opened
      · exact strict

theorem holds_of_nearest? (found : i.nearest? = some n) : i.holds n = true := by
  unfold nearest? at found
  dsimp only at found
  split at found
  · next down up =>
    cases found
    split
    · exact up
    · exact down
  · next down up =>
    cases found
    exact down
  · next down up =>
    cases found
    exact up
  · cases found

theorem contains_floor (pos : 0 < i.den) (fine : (10 : Rat) ^ k * i.den ≤ i.mid - i.low)
    (high : i.mid < i.high) :
    i.Contains (((i.inUnits k).mid / (i.inUnits k).den : Nat) * 10 ^ k) := by
  have unit : (0 : Rat) < (tenTo (-k).toNat : Nat) := by exact_mod_cast tenTo_pos _
  have den : (0 : Rat) < i.den := by exact_mod_cast pos
  have step : (0 : Rat) < 10 ^ k := by positivity
  have whole : i.mid * tenTo (-k).toNat / (i.den * tenTo k.toNat) * (i.den * tenTo k.toNat)
      ≤ i.mid * tenTo (-k).toNat := Nat.div_mul_le_self _ _
  have rest : i.mid * tenTo (-k).toNat
      < (i.mid * tenTo (-k).toNat / (i.den * tenTo k.toNat) + 1) * (i.den * tenTo k.toNat) := by
    have parts := Nat.div_add_mod (i.mid * tenTo (-k).toNat) (i.den * tenTo k.toNat)
    have small := Nat.mod_lt (i.mid * tenTo (-k).toNat) (Nat.mul_pos pos (tenTo_pos k.toNat))
    rw [Nat.mul_comm] at parts
    rw [Nat.add_mul]
    omega
  unfold inUnits
  dsimp only
  generalize i.mid * tenTo (-k).toNat / (i.den * tenTo k.toNat) = down at whole rest
  have under : (down : Rat) * 10 ^ k * i.den ≤ i.mid := by
    apply le_of_mul_le_mul_right _ unit
    rw [← natCast_units]
    exact_mod_cast whole
  have beyond : (i.mid : Rat) < (down + 1 : Nat) * 10 ^ k * i.den := by
    apply lt_of_mul_lt_mul_right _ unit.le
    rw [← natCast_units]
    exact_mod_cast rest
  push_cast at beyond
  have top : (i.mid : Rat) < i.high := by exact_mod_cast high
  apply contains_of_lt
  · linarith
  · linarith

/-- What the search finds lies inside if the decimal it falls back on does. -/
theorem contains_search (i : Interval) (k : Int) (tries n : Nat)
    (last : i.Contains (((i.inUnits (k - (n + tries : Nat))).mid /
      (i.inUnits (k - (n + tries : Nat))).den : Nat) * 10 ^ (k - (n + tries : Nat)))) :
    i.Contains (i.search k tries n).value := by
  induction tries generalizing n with
  | zero => exact last
  | succ tries ih =>
    unfold search
    split
    · next digits found => exact holds_inUnits.mp (holds_of_nearest? found)
    · apply ih
      rw [Nat.add_right_comm]
      exact last

theorem ten_zpow_le_two_zpow {g b : Int} (digits : 10 * g ≤ 3 * b) (digits' : 93 * g ≤ 28 * b) :
    (10 : Rat) ^ g ≤ 2 ^ b := by
  rcases le_or_gt 0 b with nonneg | negative
  · rcases le_or_gt g 0 with low | high
    · exact (zpow_le_one_of_nonpos₀ (by norm_num) low).trans
        (one_le_zpow₀ (by norm_num) nonneg)
    · apply le_of_pow_le_pow_left₀ (by decide : 3 ≠ 0) (two_zpow_pos b).le
      calc ((10 : Rat) ^ g) ^ 3 = (10 ^ 3) ^ g := by rw [← zpow_natCast, zpow_comm, zpow_natCast]
        _ ≤ (2 ^ 10) ^ g := zpow_le_zpow_left₀ high.le (by norm_num) (by norm_num)
        _ = 2 ^ (10 * g) := by rw [zpow_mul]; norm_num
        _ ≤ 2 ^ (b * 3) := two_zpow_le (by omega)
        _ = (2 ^ b) ^ 3 := by rw [zpow_mul]; norm_cast
  · apply le_of_pow_le_pow_left₀ (by decide : 93 ≠ 0) (two_zpow_pos b).le
    have powers : ((2 : Rat) ^ 93) ^ (-b) ≤ (10 ^ 28) ^ (-b) :=
      zpow_le_zpow_left₀ (by omega) (by norm_num) (by norm_num)
    rw [zpow_neg, zpow_neg] at powers
    calc ((10 : Rat) ^ g) ^ 93 = 10 ^ (g * 93) := by rw [zpow_mul]; norm_cast
      _ ≤ 10 ^ (28 * b) := Binary.ten_zpow_le (by omega)
      _ = (10 ^ 28) ^ b := by rw [zpow_mul]; norm_num
      _ ≤ (2 ^ 93) ^ b := (inv_le_inv₀ (by positivity) (by positivity)).mp powers
      _ = (2 ^ b) ^ 93 := by rw [← zpow_natCast, zpow_comm, zpow_natCast]

theorem two_zpow_log_le (mid : 0 < i.mid) :
    (2 : Rat) ^ ((i.mid.log2 : Int) - i.den.log2 - 1) * i.den ≤ i.mid := by
  have lower : ((2 ^ i.mid.log2 : Nat) : Rat) ≤ i.mid := by
    exact_mod_cast Nat.log2_self_le mid.ne'
  have upper : (i.den : Rat) ≤ ((2 ^ (i.den.log2 + 1) : Nat) : Rat) := by
    exact_mod_cast Nat.lt_log2_self.le
  calc (2 : Rat) ^ ((i.mid.log2 : Int) - i.den.log2 - 1) * i.den
      ≤ 2 ^ ((i.mid.log2 : Int) - i.den.log2 - 1) * ((2 ^ (i.den.log2 + 1) : Nat) : Rat) :=
        mul_le_mul_of_nonneg_left upper (two_zpow_pos _).le
    _ = 2 ^ ((i.mid.log2 : Int) - i.den.log2 - 1) * 2 ^ ((i.den.log2 + 1 : Nat) : Int) := by
        rw [zpow_natCast, Nat.cast_pow, Nat.cast_ofNat]
    _ = ((2 ^ i.mid.log2 : Nat) : Rat) := by
        rw [← two_zpow_add, Nat.cast_pow, Nat.cast_ofNat, ← zpow_natCast]
        congr 1
        push_cast
        omega
    _ ≤ i.mid := lower

theorem ten_zpow_magnitude_le (mid : 0 < i.mid) (den : 0 < i.den)
    (near : -1900 ≤ (i.mid.log2 : Int) - i.den.log2)
    (near' : (i.mid.log2 : Int) - i.den.log2 ≤ 1900) :
    (10 : Rat) ^ (i.magnitude - 2) * i.den ≤ i.mid := by
  have positive : (0 : Rat) < i.den := by exact_mod_cast den
  have reached : ∀ k : Int, ¬ i.mid * tenTo (-k).toNat < i.den * tenTo k.toNat →
      (10 : Rat) ^ k * i.den ≤ i.mid := by
    intro k notAbove
    have unit : (0 : Rat) < (tenTo (-k).toNat : Nat) := by exact_mod_cast tenTo_pos _
    have units := natCast_units 1 i.den k
    rw [Nat.one_mul, Nat.cast_one, one_mul] at units
    apply le_of_mul_le_mul_right _ unit
    rw [← units]
    exact_mod_cast not_lt.mp notAbove
  have smaller : ∀ {j k : Int}, j ≤ k → (10 : Rat) ^ k * i.den ≤ i.mid →
      (10 : Rat) ^ j * i.den ≤ i.mid :=
    fun le bound => (mul_le_mul_of_nonneg_right (Binary.ten_zpow_le le) positive.le).trans bound
  have logs := two_zpow_log_le mid
  unfold magnitude
  dsimp only
  generalize (i.mid.log2 : Int) - i.den.log2 = bits at near near' logs ⊢
  obtain ⟨guess, isGuess⟩ : ∃ guess, guess = Int.fdiv ((bits - 1) * 30103) 100000 := ⟨_, rfl⟩
  have small : 100000 * guess ≤ (bits - 1) * 30103 := by
    rw [Int.fdiv_eq_ediv_of_nonneg _ (by decide)] at isGuess
    omega
  rw [← isGuess]
  simp only [decide_eq_true_eq]
  split
  · have power : (10 : Rat) ^ (guess - 2) ≤ 2 ^ (bits - 1) :=
      ten_zpow_le_two_zpow (by omega) (by omega)
    exact (mul_le_mul_of_nonneg_right power positive.le).trans logs
  · next notAbove =>
    split
    · exact smaller (by omega) (reached guess notAbove)
    · next notAbove' => exact smaller (by omega) (reached (guess + 1) notAbove')

/-- The shortest decimal lies inside if the middle is not too near to the lower end. -/
theorem contains_shortest (den : 0 < i.den) (mid : 0 < i.mid) (high : i.mid < i.high)
    (near : -1900 ≤ (i.mid.log2 : Int) - i.den.log2)
    (near' : (i.mid.log2 : Int) - i.den.log2 ≤ 1900)
    (wide : (i.mid : Rat) ≤ 2 ^ 55 * (i.mid - i.low)) : i.Contains i.shortest.value := by
  have least := ten_zpow_magnitude_le mid den near near'
  have positive : (0 : Rat) < i.mid := by exact_mod_cast mid
  apply contains_search
  apply contains_floor den _ high
  calc (10 : Rat) ^ (i.magnitude - (1 + 18 : Nat)) * i.den
      = 10 ^ (i.magnitude - 2) * i.den / 10 ^ 17 := by
        rw [show i.magnitude - (1 + 18 : Nat) = i.magnitude - 2 - 17 by push_cast; omega,
          zpow_sub₀ (by norm_num)]
        norm_num
        ring
    _ ≤ i.mid / 10 ^ 17 := div_le_div_of_nonneg_right least (by norm_num)
    _ ≤ i.mid - i.low := by
        rw [div_le_iff₀ (by norm_num)]
        linarith

end Interval

/-- The interval of a number with this mantissa; the lower end is `gap` quarters of the last place
away. -/
def around (m step gap : Nat) : Interval :=
  ⟨(4 * m - gap) * twoTo (step - 1076), 4 * m * twoTo (step - 1076),
    (4 * m + 2) * twoTo (step - 1076), twoTo (1076 - step), m % 2 = 0⟩

def gap (exponent mantissa : Nat) : Nat :=
  if mantissa = 0 ∧ 1 < exponent then 1 else 2

theorem interval_eq_around (exponent mantissa : Nat) :
    interval exponent mantissa = around (Binary.scaled exponent mantissa).1
      (Binary.scaled exponent mantissa).2 (gap exponent mantissa) :=
  rfl

theorem gap_bounds (exponent mantissa : Nat) :
    0 < gap exponent mantissa ∧ gap exponent mantissa ≤ 2 := by
  unfold gap
  split <;> omega

section Around

variable {m step gap : Nat} {v : Rat}

theorem natCast_quarter (step : Nat) :
    ((twoTo (step - 1076) : Nat) : Rat) =
      2 ^ ((step : Int) - 1074) / 4 * (twoTo (1076 - step) : Nat) := by
  have quarter : (2 : Rat) ^ ((step : Int) - 1074) / 4 = 2 ^ ((step : Int) - 1076) := by
    rw [show (step : Int) - 1074 = step - 1076 + 2 by omega, two_zpow_add]
    norm_num
  rw [quarter, natCast_twoTo, natCast_twoTo, ← two_zpow_add]
  congr 1
  omega

theorem contains_around (pos : 0 < m) (few : gap ≤ 2) :
    (around m step gap).Contains v ↔
      (((m : Rat) - gap / 4) * 2 ^ ((step : Int) - 1074) ≤ v ∧
        v ≤ (m + 1 / 2) * 2 ^ ((step : Int) - 1074)) ∧
      (m % 2 = 0 ∨ ((m : Rat) - gap / 4) * 2 ^ ((step : Int) - 1074) < v ∧
        v < (m + 1 / 2) * 2 ^ ((step : Int) - 1074)) := by
  have quarter := natCast_quarter step
  have den : (0 : Rat) < (twoTo (1076 - step) : Nat) := by exact_mod_cast twoTo_pos _
  have low : (((4 * m - gap) * twoTo (step - 1076) : Nat) : Rat) =
      ((m : Rat) - gap / 4) * 2 ^ ((step : Int) - 1074) * (twoTo (1076 - step) : Nat) := by
    rw [Nat.cast_mul, Nat.cast_sub (by omega), quarter]
    push_cast
    ring
  have high : (((4 * m + 2) * twoTo (step - 1076) : Nat) : Rat) =
      ((m : Rat) + 1 / 2) * 2 ^ ((step : Int) - 1074) * (twoTo (1076 - step) : Nat) := by
    rw [Nat.cast_mul, quarter]
    push_cast
    ring
  unfold Interval.Contains around
  dsimp only
  rw [low, high, mul_le_mul_iff_of_pos_right den, mul_le_mul_iff_of_pos_right den,
    mul_lt_mul_iff_of_pos_right den, mul_lt_mul_iff_of_pos_right den, decide_eq_true_eq]

/-- The decimals of the interval are rounded to the number. -/
theorem magnitude_of_contains (pos : 0 < m) (canonical : Canonical m ((step : Int) - 1074))
    (few : gap ≤ 2) (shorter : m = 2 ^ 52 → 0 < step → gap = 1)
    (contains : (around m step gap).Contains v) :
    magnitude v = m * 2 ^ ((step : Int) - 1074) := by
  obtain ⟨⟨lower, upper⟩, inside⟩ := (contains_around pos few).mp contains
  have unit := two_zpow_pos ((step : Int) - 1074)
  have width : ((m : Rat) - 1 / 2) * 2 ^ ((step : Int) - 1074)
      ≤ (m - gap / 4) * 2 ^ ((step : Int) - 1074) := by
    have quarters : (gap : Rat) ≤ 2 := by exact_mod_cast few
    exact mul_le_mul_of_nonneg_right (by linarith) unit.le
  apply magnitude_eq pos canonical (width.trans lower) upper
  · exact inside.imp id fun strict => ⟨width.trans_lt strict.1, strict.2⟩
  · intro power above
    rw [shorter power (by omega), Nat.cast_one] at lower
    exact lower

theorem contains_shortest_around (pos : 0 < m) (places : m < 2 ^ 53) (finite : step < 2047)
    (some : 0 < gap) (few : gap ≤ 2) :
    (around m step gap).Contains (around m step gap).shortest.value := by
  have up := twoTo_pos (step - 1076)
  have size : 4 * m < 2 ^ 55 := by omega
  have middle : 0 < 4 * m * twoTo (step - 1076) :=
    Nat.mul_pos (Nat.mul_pos (by decide) pos) up
  have logDen : (twoTo (1076 - step)).log2 = 1076 - step := Nat.log2_two_pow
  have logMid : (4 * m * twoTo (step - 1076)).log2 < 55 + (step - 1076) := by
    rw [Nat.log2_lt middle.ne']
    calc 4 * m * twoTo (step - 1076)
        < 2 ^ 55 * twoTo (step - 1076) := Nat.mul_lt_mul_of_pos_right size up
      _ = 2 ^ (55 + (step - 1076)) := (Nat.pow_add _ _ _).symm
  apply Interval.contains_shortest
  · exact twoTo_pos _
  · exact middle
  · exact Nat.mul_lt_mul_of_pos_right (by omega) up
  · change -1900 ≤ ((4 * m * twoTo (step - 1076)).log2 : Int) - (twoTo (1076 - step)).log2
    omega
  · change ((4 * m * twoTo (step - 1076)).log2 : Int) - (twoTo (1076 - step)).log2 ≤ 1900
    omega
  · have unit : (0 : Rat) < (twoTo (step - 1076) : Nat) := by exact_mod_cast up
    have part : (1 : Rat) ≤ gap := by exact_mod_cast some
    have whole : (4 * m : Rat) ≤ 2 ^ 55 := by exact_mod_cast size.le
    change ((4 * m * twoTo (step - 1076) : Nat) : Rat) ≤ 2 ^ 55 *
      ((4 * m * twoTo (step - 1076) : Nat) - ((4 * m - gap) * twoTo (step - 1076) : Nat))
    rw [Nat.cast_mul, Nat.cast_mul (4 * m - gap), Nat.cast_sub (by omega)]
    push_cast
    calc (4 * m : Rat) * (twoTo (step - 1076) : Nat)
        ≤ 2 ^ 55 * (gap * (twoTo (step - 1076) : Nat)) := by
          apply mul_le_mul whole _ unit.le (by norm_num)
          exact le_mul_of_one_le_left unit.le part
      _ = 2 ^ 55 * (4 * m * (twoTo (step - 1076) : Nat)
          - (4 * m - gap) * (twoTo (step - 1076) : Nat)) := by ring

end Around

/-- Whatever decimal has the value of the shortest one is read back to the number. -/
theorem ofDecimal_shortest {x : Float} {negative : Bool} {exponent mantissa digits : Nat}
    {power : Int} (fields : Binary.fields x = (negative, exponent, mantissa))
    (notTop : exponent ≠ 2047) (some : ¬ (exponent = 0 ∧ mantissa = 0))
    (same : (digits : Rat) * 10 ^ power = (interval exponent mantissa).shortest.value) :
    Binary.ofDecimal negative digits power = x := by
  have positive := scaled_pos some
  obtain ⟨stands, canonical⟩ := stands_of_fields fields notTop positive
  have bounds := stands.bounds
  have small := (fields_lt fields).1
  have few := gap_bounds exponent mantissa
  have step : (Binary.scaled exponent mantissa).2 < 2047 := by
    unfold Binary.scaled
    split <;> dsimp only <;> omega
  have shorter : (Binary.scaled exponent mantissa).1 = 2 ^ 52 →
      0 < (Binary.scaled exponent mantissa).2 → gap exponent mantissa = 1 := by
    have full : twoTo 52 = 2 ^ 52 := rfl
    unfold Binary.scaled
    split
    · intro _ above
      cases above
    · dsimp only
      intro whole above
      exact if_pos ⟨by omega, by omega⟩
  -- The decimal lies where all is rounded to this number.
  have contains := contains_shortest_around positive canonical.1 step few.1 few.2
  rw [← interval_eq_around, ← same] at contains
  have rounded := magnitude_of_contains positive canonical few.2 shorter contains
  have value := Binary.value_ofDecimal negative digits power
  have nonneg : (0 : Rat) ≤ digits * 10 ^ power := by positivity
  rw [Rounding.round, toPlaces_signed _ nonneg, rounded,
    clamp_of_abs_le bounds.1.le bounds.2.le] at value
  have nonzero : signed (signOf negative) ((Binary.scaled exponent mantissa).1 *
      2 ^ (((Binary.scaled exponent mantissa).2 : Int) - 1074)) ≠ 0 := by
    have above := pos_of_mantissa positive (((Binary.scaled exponent mantissa).2 : Int) - 1074)
    cases signOf negative with
    | negative => exact neg_ne_zero.mpr above.ne'
    | positive => exact above.ne'
  exact (stands_of_bounds value bounds.1 bounds.2).unique stands nonzero

theorem shortest_digits_pos {x : Float} {negative : Bool} {exponent mantissa : Nat}
    (fields : Binary.fields x = (negative, exponent, mantissa)) (notTop : exponent ≠ 2047)
    (some : ¬ (exponent = 0 ∧ mantissa = 0)) :
    0 < (interval exponent mantissa).shortest.digits := by
  have positive := scaled_pos some
  obtain ⟨stands, -⟩ := stands_of_fields fields notTop positive
  have above := pos_of_mantissa positive (((Binary.scaled exponent mantissa).2 : Int) - 1074)
  by_contra none
  have value := Binary.value_ofDecimal negative (interval exponent mantissa).shortest.digits
    (interval exponent mantissa).shortest.exponent
  rw [ofDecimal_shortest fields notTop some rfl, Nat.eq_zero_of_not_pos none, Nat.cast_zero,
    zero_mul, round_signed, round_zero, stands.value, Option.some_inj] at value
  cases sign : signOf negative <;> rw [sign] at value <;> simp only [signed] at value <;> linarith

end Shortest

end Screencast
