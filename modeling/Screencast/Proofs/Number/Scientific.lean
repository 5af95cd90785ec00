import Screencast.Proofs.Number.Bits

/-!
Decimals of any size are read to the nearest of the machine's numbers, and to the limit beyond them.
-/

namespace Screencast

open Float.Model Float.Model.UnpackedFloat Rounding

theorem natCast_twoTo (n : Nat) : ((twoTo n : Nat) : Rat) = 2 ^ (n : Int) := by
  rw [zpow_natCast]
  exact Nat.cast_pow 2 n

theorem natCast_tenTo (n : Nat) : ((tenTo n : Nat) : Rat) = 10 ^ (n : Int) := by
  rw [zpow_natCast]
  exact Nat.cast_pow 10 n

namespace Machine

variable {x : Float} {m e : Nat} {a : Rat}

theorem fields_powersOfTen : ∀ e : Fin 23,
    let parts := Binary.fields (getElem Float.exactlyRepresentablePowersOfTen e
      (by simp [Float.exactlyRepresentablePowersOfTen]))
    parts.1 = false ∧ parts.2.1 ≠ 0 ∧ parts.2.1 ≠ 2047 ∧
      (2 ^ 52 + parts.2.2) * 2 ^ (parts.2.1 - 1) = 10 ^ e.val * twoTo 1074 := by
  decide +kernel

theorem stands_powersOfTen (small : e ≤ 22) :
    Stands (getElem Float.exactlyRepresentablePowersOfTen e
      (by simp [Float.exactlyRepresentablePowersOfTen]; omega)) (10 ^ e) := by
  obtain ⟨positive, notBottom, notTop, value⟩ := fields_powersOfTen ⟨e, by omega⟩
  dsimp only [Fin.getElem_fin] at positive notBottom notTop value
  generalize getElem Float.exactlyRepresentablePowersOfTen e _ = x
    at positive notBottom notTop value ⊢
  generalize parts : Binary.fields x = fields at positive notBottom notTop value
  obtain ⟨negative, exponent, mantissa⟩ := fields
  dsimp only at positive notBottom notTop value
  have stands := (stands_of_fields parts notTop (scaled_pos fun none => notBottom none.1)).1
  have scaled : Binary.scaled exponent mantissa = (2 ^ 52 + mantissa, exponent - 1) :=
    if_neg notBottom
  have exact : ((2 ^ 52 + mantissa : Nat) : Rat) * 2 ^ (exponent - 1)
      = 10 ^ e * 2 ^ ((1074 : Nat) : Int) := by
    rw [← natCast_twoTo]
    exact_mod_cast value
  have kept := mul_div_cancel_right₀ ((10 : Rat) ^ e) (two_zpow_pos (1074 : Nat)).ne'
  rw [Nat.cast_ofNat] at exact kept
  rw [positive, scaled, signOf, if_neg (by decide), signed] at stands
  dsimp only at stands
  rw [zpow_sub₀ (by norm_num), zpow_natCast, ← mul_div_assoc, exact, kept] at stands
  exact stands

theorem value_scientific (pos : 0 < m) (small : e ≤ 2048) :
    value? (Float.ofScientific m false e) = some (Rounding.round (m * 10 ^ e)) := by
  unfold Float.ofScientific
  split
  · next fast => exact value_mul (stands_toFloat fast.1) (stands_powersOfTen fast.2)
  · exact value_ofScientific pos small

theorem value_scientific_down (pos : 0 < m) (small : e ≤ 2048 + m.log2) :
    value? (Float.ofScientific m true e) = some (Rounding.round (m / 10 ^ e)) := by
  have positive : (0 : Rat) < 10 ^ e := by positivity
  unfold Float.ofScientific
  split
  · next fast =>
    exact value_div (stands_toFloat fast.1) (stands_powersOfTen fast.2) positive.ne'
  · next slow =>
    by_cases none : e = 0
    · subst none
      have whole := value_ofScientific pos (e := 0) (by omega)
      rw [pow_zero, mul_one] at whole
      rw [pow_zero, div_one]
      exact whole
    · change Rounding.value? (unpack Format.binary64 (pack Format.binary64
        (UnpackedFloat.ofScientific Format.binary64 m (Int.negOfNat e)))) = _
      have negated : Int.negOfNat e = -(e : Int) := Int.negOfNat_eq
      have low : ¬ -(e : Int) < -((2 ^ 11 : Int) + m.log2) := by omega
      have rounded := finite_div_rounded .positive .positive pos
        (Nat.pow_pos (by decide : 0 < 10) (n := e)) 0 0
      rw [zpow_zero, mul_one, mul_one, signed, signed, Nat.cast_pow, Nat.cast_ofNat] at rounded
      unfold UnpackedFloat.ofScientific
      rw [negated, dif_neg pos.ne', if_neg (by norm_num), if_neg low, if_neg (by omega)]
      simp only [neg_neg, Int.toNat_natCast]
      exact rounded.value_unpack_pack

end Machine

namespace Rounding

variable {v : Rat}

theorem round_of_lt (nonneg : 0 ≤ v) (tiny : v < 2 ^ (-1075 : Int)) : round v = 0 := by
  rcases nonneg.eq_or_lt with rfl | positive
  · exact round_zero
  · have log := (lt_two_zpow_iff positive).mp tiny
    have lowest : place v = -1074 := by
      unfold place
      omega
    have half : v / 2 ^ (-1074 : Int) < 1 / 2 := by
      rw [div_lt_iff₀ (two_zpow_pos _)]
      calc v < 2 ^ (-1 + -1074 : Int) := tiny
        _ = 1 / 2 * 2 ^ (-1074 : Int) := by rw [two_zpow_add]; norm_num
    have floor : ⌊v / 2 ^ (-1074 : Int)⌋ = 0 := by
      rw [Int.floor_eq_zero_iff]
      exact ⟨div_nonneg nonneg (two_zpow_pos _).le, half.trans (by norm_num)⟩
    have none : nearest (v / 2 ^ (-1074 : Int)) = 0 := by
      unfold nearest
      rw [floor, if_pos (by rw [Int.cast_zero, sub_zero]; exact half)]
    have positive' := limit_pos
    rw [round, toPlaces_of_nonneg nonneg, magnitude, lowest, none, Int.cast_zero, zero_mul,
      clamp_of_abs_le (by linarith) positive'.le]

theorem round_of_limit_le (above : limit ≤ v) : round v = limit := by
  have kept := magnitude_of_places (m := 1) (e := 1024) (by norm_num) (by norm_num)
  rw [Nat.cast_one, one_mul] at kept
  have least : magnitude limit = limit := kept
  have larger := magnitude_mono limit_pos above
  rw [least] at larger
  rw [round, toPlaces_of_nonneg (limit_pos.le.trans above), clamp_of_limit_le larger]

theorem round_signed (s : Sign) (v : Rat) : round (signed s v) = signed s (round v) := by
  cases s with
  | negative => exact round_neg v
  | positive => rfl

theorem tenTo_lt_least : (10 : Rat) ^ (-330 : Int) < 2 ^ (-1075 : Int) := by
  have root : (10 : Rat) ^ (-66 : Int) < 2 ^ (-215 : Int) := by norm_num
  calc (10 : Rat) ^ (-330 : Int)
      = (10 ^ (-66 : Int)) ^ 5 := by rw [← zpow_natCast, ← zpow_mul]; norm_num
    _ < (2 ^ (-215 : Int)) ^ 5 := pow_lt_pow_left₀ root (by positivity) (by norm_num)
    _ = 2 ^ (-1075 : Int) := by rw [← zpow_natCast, ← zpow_mul]; norm_num

theorem limit_le_tenTo : limit ≤ (10 : Rat) ^ (310 : Int) := by
  have root : (2 : Rat) ^ (205 : Int) ≤ 10 ^ (62 : Int) := by norm_num
  calc limit = 2 ^ (1024 : Int) := rfl
    _ ≤ 2 ^ (1025 : Int) := two_zpow_le (by norm_num)
    _ = (2 ^ (205 : Int)) ^ 5 := by rw [← zpow_natCast, ← zpow_mul]; norm_num
    _ ≤ (10 ^ (62 : Int)) ^ 5 := pow_le_pow_left₀ (two_zpow_pos _).le root 5
    _ = 10 ^ (310 : Int) := by rw [← zpow_natCast, ← zpow_mul]; norm_num

end Rounding

namespace Binary

open Machine

variable {digits : Nat} {exponent : Int}

theorem value_applySign {x : Float} {a : Rat} (negative : Bool)
    (value : Machine.value? x = some a) :
    Machine.value? (applySign negative x) = some (signed (signOf negative) a) := by
  cases negative with
  | false => exact value
  | true => exact value_neg value

theorem unpack_infinity (negative : Bool) :
    (infinity negative).toModel.unpack = .infinity (signOf negative) := by
  cases negative with
  | false =>
    exact unpack_of_top (by decide +kernel : fields (infinity false) = (false, 2047, 0)) rfl
  | true => exact unpack_of_top (by decide +kernel : fields (infinity true) = (true, 2047, 0)) rfl

theorem unpack_nought : (0.0 : Float).toModel.unpack = .zero .positive :=
  unpack_of_nought (by decide +kernel : fields 0.0 = (false, 0, 0)) rfl rfl

theorem stands_nought : Stands 0.0 0 := by
  unfold Stands
  rw [unpack_nought]
  exact .zero _

theorem decimal_bounds (pos : 0 < digits) (exponent : Int) :
    (10 : Rat) ^ ((Nat.toDigits 10 digits).length + exponent - 1) ≤ digits * 10 ^ exponent ∧
      (digits : Rat) * 10 ^ exponent < 10 ^ ((Nat.toDigits 10 digits).length + exponent) := by
  have unit : (0 : Rat) < 10 ^ exponent := by positivity
  have some : 0 < (Nat.toDigits 10 digits).length := Nat.length_toDigits_pos
  obtain ⟨count, more⟩ : ∃ count, (Nat.toDigits 10 digits).length = count + 1 :=
    ⟨_, (Nat.succ_pred_eq_of_pos some).symm⟩
  have upper : digits < 10 ^ (count + 1) :=
    (Nat.length_toDigits_le_iff (by decide) count.succ_pos).mp more.le
  have lower : 10 ^ count ≤ digits := by
    rcases Nat.eq_zero_or_pos count with rfl | least
    · exact pos
    · by_contra less
      have short := (Nat.length_toDigits_le_iff (by decide) least).mpr (not_le.mp less)
      omega
  rw [more]
  constructor
  · rw [show ((count + 1 : Nat) : Int) + exponent - 1 = count + exponent by push_cast; omega,
      zpow_add₀ (by norm_num), zpow_natCast]
    exact mul_le_mul_of_nonneg_right (by exact_mod_cast lower) unit.le
  · rw [zpow_add₀ (by norm_num), zpow_natCast]
    exact mul_lt_mul_of_pos_right (by exact_mod_cast upper) unit

theorem ten_zpow_le {e k : Int} (le : e ≤ k) : (10 : Rat) ^ e ≤ 10 ^ k :=
  zpow_le_zpow_right₀ (by norm_num) le

theorem length_toDigits_le_log (digits : Nat) :
    (Nat.toDigits 10 digits).length ≤ digits.log2 + 1 := by
  rw [Nat.length_toDigits_le_iff (by decide) (Nat.succ_pos _)]
  calc digits < 2 ^ (digits.log2 + 1) := Nat.lt_log2_self
    _ ≤ 10 ^ (digits.log2 + 1) := Nat.pow_le_pow_left (by decide) _

/-- A decimal of any size is read to the nearest number, beyond all of them to an infinity. -/
theorem value_ofDecimal (negative : Bool) (digits : Nat) (exponent : Int) :
    Machine.value? (ofDecimal negative digits exponent) =
      some (Rounding.round (signed (signOf negative) (digits * 10 ^ exponent))) := by
  rw [round_signed]
  apply value_applySign
  by_cases none : digits = 0
  · rw [if_pos (Or.inl none), none, Nat.cast_zero, zero_mul, round_zero]
    exact stands_nought.value
  · have pos := Nat.pos_of_ne_zero none
    have length := length_toDigits_le_log digits
    obtain ⟨lower, upper⟩ := decimal_bounds pos exponent
    have positive : (0 : Rat) < digits * 10 ^ exponent := by positivity
    by_cases tiny : ((Nat.toDigits 10 digits).length : Int) + exponent < -330
    · have below := (upper.trans_le (ten_zpow_le tiny.le)).trans tenTo_lt_least
      rw [if_pos (Or.inr tiny), round_of_lt positive.le below]
      exact stands_nought.value
    · rw [if_neg (by rintro (zero | small) <;> omega)]
      by_cases huge : 310 < ((Nat.toDigits 10 digits).length : Int) + exponent
      · have above := limit_le_tenTo.trans ((ten_zpow_le (by omega)).trans lower)
        rw [if_pos huge, round_of_limit_le above]
        exact value_infinity (unpack_infinity false)
      · rw [if_neg huge]
        by_cases whole : 0 ≤ exponent
        · obtain ⟨power, rfl⟩ := Int.eq_ofNat_of_zero_le whole
          rw [if_pos whole, Int.toNat_natCast, zpow_natCast]
          exact value_scientific pos (by omega)
        · obtain ⟨power, rfl⟩ : ∃ power : Nat, exponent = -power := ⟨exponent.natAbs, by omega⟩
          rw [if_neg whole, neg_neg, Int.toNat_natCast, zpow_neg, zpow_natCast, ← div_eq_mul_inv]
          exact value_scientific_down pos (by omega)

end Binary

end Screencast
