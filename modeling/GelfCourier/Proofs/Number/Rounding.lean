import GelfCourier.Number.Binary64
import Mathlib.Algebra.Order.Field.Power
import Mathlib.Data.Rat.Cast.Order
import Mathlib.Tactic.FieldSimp
import Mathlib.Tactic.Positivity
import Mathlib.Tactic.Ring

/-!
When a rounded quotient is finite. The exponent that `ofRatio` chooses puts the quotient below 2^53,
and at 2^52 or above unless it is the least exponent, so the rounded significand is one of the
format; the exponent itself is within the format while the quotient is below 2^1023.
-/

set_option autoImplicit false

namespace GelfCourier.Binary64

/-- A power of two as the quotient in which `ofRatio` applies it. -/
theorem two_zpow_eq (e : Int) : (2 : ℚ) ^ e = (2 ^ e.toNat : ℕ) / (2 ^ (-e).toNat : ℕ) := by
  rcases Int.le_total 0 e with hnonneg | hneg
  · obtain ⟨n, rfl⟩ := Int.eq_ofNat_of_zero_le hnonneg
    simp
  · obtain ⟨n, hn⟩ := Int.eq_ofNat_of_zero_le (Int.neg_nonneg.mpr hneg)
    obtain rfl : e = -(n : ℤ) := by omega
    simp

theorem two_zpow_le_iff {num den : Nat} (hden : den ≠ 0) (e : Int) :
    (2 : ℚ) ^ e ≤ num / den ↔ den * Nat.pow 2 e.toNat ≤ num * Nat.pow 2 (-e).toNat := by
  have hdenPos : (0 : ℚ) < den := by exact_mod_cast Nat.pos_of_ne_zero hden
  have hpowPos : (0 : ℚ) < (2 ^ (-e).toNat : ℕ) := by positivity
  rw [two_zpow_eq, div_le_div_iff₀ hpowPos hdenPos, Nat.pow_eq, Nat.pow_eq]
  constructor
  · intro h
    rw [Nat.mul_comm]
    exact_mod_cast h
  · intro h
    rw [Nat.mul_comm] at h
    exact_mod_cast h

/-- The binary exponent of a quotient is the one of the power of two at or below it. -/
theorem binaryExponent_spec {num den : Nat} (hnum : num ≠ 0) (hden : den ≠ 0) :
    (2 : ℚ) ^ binaryExponent num den ≤ num / den ∧
      (num : ℚ) / den < 2 ^ (binaryExponent num den + 1) := by
  have hdenPos : (0 : ℚ) < den := by exact_mod_cast Nat.pos_of_ne_zero hden
  have hnumLow : (2 : ℚ) ^ (num.log2 : ℤ) ≤ num := by
    exact_mod_cast Nat.log2_self_le hnum
  have hnumHigh : (num : ℚ) < 2 ^ ((num.log2 : ℤ) + 1) := by
    exact_mod_cast Nat.lt_log2_self (n := num)
  have hdenLow : (2 : ℚ) ^ (den.log2 : ℤ) ≤ den := by
    exact_mod_cast Nat.log2_self_le hden
  have hdenHigh : (den : ℚ) < 2 ^ ((den.log2 : ℤ) + 1) := by
    exact_mod_cast Nat.lt_log2_self (n := den)
  have hlow : (2 : ℚ) ^ ((num.log2 : ℤ) - den.log2 - 1) ≤ num / den := by
    rw [le_div_iff₀ hdenPos]
    calc (2 : ℚ) ^ ((num.log2 : ℤ) - den.log2 - 1) * den
        ≤ 2 ^ ((num.log2 : ℤ) - den.log2 - 1) * 2 ^ ((den.log2 : ℤ) + 1) := by
          gcongr
      _ = 2 ^ (num.log2 : ℤ) := by
          rw [← zpow_add₀ (by norm_num)]
          congr 1
          ring
      _ ≤ num := hnumLow
  have hhigh : (num : ℚ) / den < 2 ^ ((num.log2 : ℤ) - den.log2 + 1) := by
    rw [div_lt_iff₀ hdenPos]
    calc (num : ℚ) < 2 ^ ((num.log2 : ℤ) + 1) := hnumHigh
      _ = 2 ^ ((num.log2 : ℤ) - den.log2 + 1) * 2 ^ (den.log2 : ℤ) := by
          rw [← zpow_add₀ (by norm_num)]
          congr 1
          ring
      _ ≤ 2 ^ ((num.log2 : ℤ) - den.log2 + 1) * den := by gcongr
  unfold binaryExponent
  dsimp only
  split
  · next hguess =>
    exact ⟨(two_zpow_le_iff hden _).mpr hguess, hhigh⟩
  · next hguess =>
    refine ⟨hlow, ?_⟩
    rw [Int.sub_add_cancel]
    exact lt_of_not_ge fun hge ↦ hguess ((two_zpow_le_iff hden _).mp hge)

theorem roundHalfEven_le {num den bound : Nat} (h : num < den * bound) :
    roundHalfEven num den ≤ bound := by
  have hquotient : num / den < bound := Nat.div_lt_of_lt_mul h
  unfold roundHalfEven
  dsimp only
  split_ifs <;> omega

theorem le_roundHalfEven {num den bound : Nat} (hden : 0 < den) (h : den * bound ≤ num) :
    bound ≤ roundHalfEven num den := by
  have hquotient : bound ≤ num / den := (Nat.le_div_iff_mul_le hden).mpr (by rwa [Nat.mul_comm])
  unfold roundHalfEven
  dsimp only
  split_ifs <;> omega

/-- Both sides of a comparison of a scaled quotient with a power of two. -/
theorem scaled_eq {num den : Nat} (hden : den ≠ 0) (e : Int) (k : Nat) :
    ((num * Nat.pow 2 (-e).toNat : ℕ) : ℚ) = num / den * (den * (2 ^ (-e).toNat : ℕ)) ∧
      ((den * Nat.pow 2 e.toNat * 2 ^ k : ℕ) : ℚ) =
        2 ^ (e + k) * (den * (2 ^ (-e).toNat : ℕ)) := by
  have hdenNe : (den : ℚ) ≠ 0 := by exact_mod_cast hden
  have hpowNe : ((2 ^ (-e).toNat : ℕ) : ℚ) ≠ 0 := by positivity
  have hpow : (2 : ℚ) ^ e * (2 ^ (-e).toNat : ℕ) = (2 ^ e.toNat : ℕ) := by
    rw [two_zpow_eq, div_mul_cancel₀ _ hpowNe]
  constructor
  · rw [Nat.pow_eq]
    push_cast
    field_simp
  · calc ((den * Nat.pow 2 e.toNat * 2 ^ k : ℕ) : ℚ)
        = den * (2 ^ e.toNat : ℕ) * 2 ^ k := by
          rw [Nat.pow_eq]
          push_cast
          ring
      _ = den * (2 ^ e * (2 ^ (-e).toNat : ℕ)) * 2 ^ k := by rw [hpow]
      _ = 2 ^ (e + k) * (den * (2 ^ (-e).toNat : ℕ)) := by
          rw [zpow_add₀ (by norm_num), zpow_natCast]
          ring

theorem scaled_lt {num den : Nat} (hden : den ≠ 0) {e : Int} {k : Nat}
    (h : (num : ℚ) / den < 2 ^ (e + k)) :
    num * Nat.pow 2 (-e).toNat < den * Nat.pow 2 e.toNat * 2 ^ k := by
  obtain ⟨hleft, hright⟩ := @scaled_eq num den hden e k
  have hpos : (0 : ℚ) < den * (2 ^ (-e).toNat : ℕ) := by
    have hdenPos : 0 < den := Nat.pos_of_ne_zero hden
    positivity
  rw [← Nat.cast_lt (α := ℚ), hleft, hright]
  exact mul_lt_mul_of_pos_right h hpos

theorem le_scaled {num den : Nat} (hden : den ≠ 0) {e : Int} {k : Nat}
    (h : (2 : ℚ) ^ (e + k) ≤ num / den) :
    den * Nat.pow 2 e.toNat * 2 ^ k ≤ num * Nat.pow 2 (-e).toNat := by
  obtain ⟨hleft, hright⟩ := @scaled_eq num den hden e k
  rw [← Nat.cast_le (α := ℚ), hleft, hright]
  exact mul_le_mul_of_nonneg_right h (by positivity)

theorem isFinite_ofScaled {negative : Bool} {significand : Nat} {exponent : Int}
    (h : IsCanonical significand exponent) : (ofScaled negative significand exponent).IsFinite := by
  rw [ofScaled, dif_pos h]
  trivial

/-- A quotient below 2^1023 is rounded to a finite number. -/
theorem isFinite_ofRatio (negative : Bool) {num den : Nat} (hden : den ≠ 0)
    (hsmall : num < den * 2 ^ 1023) : (ofRatio negative num den).IsFinite := by
  unfold ofRatio
  split_ifs with hnum
  · trivial
  obtain ⟨hlow, hhigh⟩ := binaryExponent_spec hnum hden
  have hexponent : binaryExponent num den < 1023 := by
    have hvalue : (num : ℚ) / den < 2 ^ (1023 : ℤ) := by
      rw [div_lt_iff₀ (by exact_mod_cast Nat.pos_of_ne_zero hden), mul_comm]
      exact_mod_cast hsmall
    exact (zpow_lt_zpow_iff_right₀ (by norm_num)).mp (lt_of_le_of_lt hlow hvalue)
  dsimp only
  generalize hchosen : max (-1074) (binaryExponent num den - 52) = exponent
  have hbelow : num * Nat.pow 2 (-exponent).toNat < den * Nat.pow 2 exponent.toNat * 2 ^ 53 := by
    refine scaled_lt hden (lt_of_lt_of_le hhigh ?_)
    exact zpow_le_zpow_right₀ (by norm_num) (by push_cast; omega)
  have hatMost := roundHalfEven_le hbelow
  split_ifs with hcarry
  · exact isFinite_ofScaled ⟨by decide, by omega, by omega, Or.inl (Nat.le_refl _)⟩
  · refine isFinite_ofScaled ⟨by omega, by omega, by omega, ?_⟩
    by_cases hleast : exponent = -1074
    · exact Or.inr hleast
    · refine Or.inl (le_roundHalfEven ?_ ?_)
      · have hdenPos : 0 < den := Nat.pos_of_ne_zero hden
        rw [Nat.pow_eq]
        positivity
      · refine le_scaled (k := 52) hden (le_trans ?_ hlow)
        exact zpow_le_zpow_right₀ (by norm_num) (by push_cast; omega)

/-- Integers up to 2^64 are rounded to finite numbers. -/
theorem isFinite_ofInt {n : Int} (hsmall : n.natAbs ≤ 18446744073709551616) :
    (ofInt n).IsFinite := by
  refine isFinite_ofRatio _ Nat.one_ne_zero ?_
  calc n.natAbs ≤ 2 ^ 64 := hsmall
    _ < 2 ^ 1023 := by gcongr <;> decide
    _ = 1 * 2 ^ 1023 := (Nat.one_mul _).symm

/-- Halving or dividing further keeps every number finite. -/
theorem IsFinite.divNat {x : Binary64} (hx : x.IsFinite) {divisor : Nat} (hdivisor : 2 ≤ divisor) :
    (x.divNat divisor).IsFinite := by
  cases x with
  | nan => cases hx
  | infinity negative => cases hx
  | finite negative significand exponent canonical =>
    obtain ⟨hsignificand, -, hexponent, -⟩ := canonical
    refine isFinite_ofRatio negative ?_ ?_
    · rw [Nat.pow_eq]
      positivity
    · rw [Nat.pow_eq, Nat.pow_eq]
      calc significand * 2 ^ exponent.toNat
          < 2 ^ 53 * 2 ^ exponent.toNat := by gcongr; omega
        _ ≤ 2 ^ 53 * 2 ^ 971 := by gcongr <;> omega
        _ = 2 * 1 * 2 ^ 1023 := by rw [← pow_add, mul_one, ← pow_succ']
        _ ≤ divisor * 2 ^ (-exponent).toNat * 2 ^ 1023 := by
          gcongr
          exact Nat.one_le_two_pow

end GelfCourier.Binary64
