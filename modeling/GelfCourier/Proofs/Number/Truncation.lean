import GelfCourier.Json.Tree
import GelfCourier.Proofs.Number.Nearest

/-!
Numbers cut off after the point. Whatever way a number of a JSON text takes to a signed integer of
64 bits (an integer as it is, a float, or an integer beyond the signed range by way of a float), it
is cut off towards zero and moved into the range (`Json.Number.toInt_toInt64`).
-/

set_option autoImplicit false

namespace GelfCourier

/-- A number cut off after the point. -/
def towardZero (q : ℚ) : ℤ :=
  if 0 ≤ q then ⌊q⌋ else ⌈q⌉

@[simp] theorem towardZero_intCast (n : ℤ) : towardZero n = n := by
  unfold towardZero
  split <;> simp

/-- The integer of the signed 64-bit range that is nearest to an integer. -/
def intoInt64 (n : ℤ) : ℤ :=
  max (-9223372036854775808) (min 9223372036854775807 n)

namespace Binary64

variable {x : Binary64}

theorem towardZero_sign_mul (negative : Bool) (m n : Nat) :
    towardZero (sign negative * (m / n)) =
      if negative then -((m / n : Nat) : ℤ) else (m / n : Nat) := by
  have hnonneg : (0 : ℚ) ≤ m / n := by positivity
  have hfloor : ⌊(m / n : ℚ)⌋ = ((m / n : Nat) : ℤ) := by
    exact_mod_cast Rat.floor_natCast_div_natCast m n
  cases negative with
  | false => simpa [sign, towardZero, hnonneg] using hfloor
  | true =>
    have hnegated : sign true * ((m : ℚ) / n) = -(m / n) := by simp [sign]
    rw [hnegated, towardZero, if_pos rfl]
    split
    · next hzero =>
      have hnone : (m : ℚ) / n = 0 := le_antisymm (neg_nonneg.mp hzero) hnonneg
      rw [hnone, Int.floor_zero] at hfloor
      rw [hnone, neg_zero, Int.floor_zero, ← hfloor, neg_zero]
    · rw [Int.ceil_neg, hfloor]

theorem truncate?_eq (hx : x.IsFinite) : x.truncate? = some (towardZero x.value) := by
  cases x with
  | nan => cases hx
  | infinity negative => cases hx
  | finite negative m e canonical =>
    have hquotient :
        (m : ℚ) * 2 ^ e = (m * Nat.pow 2 e.toNat : ℕ) / (Nat.pow 2 (-e).toNat : ℕ) := by
      rw [two_zpow_eq, Nat.cast_mul, Nat.pow_eq, Nat.pow_eq, mul_div_assoc]
    rw [value, hquotient, towardZero_sign_mul]
    rfl

theorem toInt_clampInt64 (n : ℤ) : (clampInt64 n).toInt = intoInt64 n := by
  unfold clampInt64 intoInt64
  split_ifs with hlow hhigh
  · change (-9223372036854775808 : ℤ) = _
    omega
  · change (9223372036854775807 : ℤ) = _
    omega
  · rw [Int64.toInt_ofInt_of_le (by omega) (by omega)]
    omega

theorem toInt_toInt64 (hx : x.IsFinite) : x.toInt64.toInt = intoInt64 (towardZero x.value) := by
  have hclamped : x.toInt64 = clampInt64 (x.truncate?.getD 0) := by
    cases x with
    | nan => cases hx
    | infinity negative => cases hx
    | finite negative m e canonical => rfl
  rw [hclamped, truncate?_eq hx, Option.getD_some, toInt_clampInt64]

theorem isNearest_self (hx : x.IsFinite) : x.IsNearest x.value := by
  refine ⟨hx, fun y _ ↦ ?_, fun y _ hsame ↦ .inl ?_⟩
  · rw [sub_self, abs_zero]
    exact abs_nonneg _
  · rw [sub_self, abs_zero, eq_comm, abs_eq_zero, sub_eq_zero] at hsame
    exact hsame.symm

/-- What is nearest to a number is not below the numbers of the format that are not above it. -/
theorem IsNearest.le_value {q : ℚ} (h : x.IsNearest q) {y : Binary64} (hy : y.IsFinite)
    (hbelow : y.value ≤ q) : y.value ≤ x.value := by
  have hnear := h.nearest y hy
  rw [abs_of_nonpos (sub_nonpos.mpr hbelow)] at hnear
  have hleft := neg_abs_le (x.value - q)
  linarith

/-- The least integer above the signed 64-bit range. -/
def beyondInt64 : Binary64 :=
  .finite false 4503599627370496 11 (by decide)

theorem value_beyondInt64 : beyondInt64.value = 9223372036854775808 := by
  norm_num [beyondInt64, value, sign]

end Binary64

namespace Json.Number

/-- The number that a number of a JSON text stands for. -/
def value : Number → ℚ
  | .integer n _ => n
  | .float x _ => x.value

theorem isNearest_toBinary64 (n : Number) : n.toBinary64.IsNearest n.value := by
  cases n with
  | float x hx => exact Binary64.isNearest_self hx
  | integer n hrange => exact Binary64.isNearest_ofInt (by omega)

theorem toInt_toInt64 (n : Number) : n.toInt64.toInt = intoInt64 (towardZero n.value) := by
  cases n with
  | float x hx => exact Binary64.toInt_toInt64 hx
  | integer n hrange =>
    rw [value, towardZero_intCast, toInt64]
    split
    · next hsmall =>
      rw [Int64.toInt_ofInt_of_le (by omega) (by omega), intoInt64]
      omega
    · next hlarge =>
      -- 2^63 is a number of the format, so the float nearest to `n` is not below it.
      have hnearest : (Binary64.ofInt n).IsNearest n := Binary64.isNearest_ofInt (by omega)
      have hbelow : Binary64.beyondInt64.value ≤ n := by
        rw [Binary64.value_beyondInt64]
        exact_mod_cast Int.not_lt.mp hlarge
      have hfinite : Binary64.beyondInt64.IsFinite := trivial
      have hvalue := hnearest.le_value hfinite hbelow
      rw [Binary64.value_beyondInt64] at hvalue
      have hwhole : 9223372036854775808 ≤ towardZero (Binary64.ofInt n).value := by
        rw [towardZero, if_pos (by linarith)]
        exact Int.le_floor.mpr (by exact_mod_cast hvalue)
      rw [Binary64.toInt_toInt64 hnearest.isFinite, intoInt64, intoInt64]
      omega

end Json.Number

end GelfCourier
