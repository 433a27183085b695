import GelfCourier.Proofs.Number.Rounding
import Mathlib.Data.Rat.Floor
import Mathlib.Tactic.Linarith
import Mathlib.Tactic.LinearCombination

/-!
What a rounded quotient is worth. The exponent that `ofRatio` chooses spans a grid on which every
number of the format stands that could be nearer than the grid point taken, so the result is nearest
among all numbers of the format, and of two that are nearest it is the one with the even significand
(`isNearest_ofRatio`).
-/

set_option autoImplicit false

namespace GelfCourier.Binary64

def sign (negative : Bool) : ℚ :=
  if negative then -1 else 1

/-- The number that a finite float stands for. -/
def value : Binary64 → ℚ
  | .finite negative significand exponent _ => sign negative * (significand * 2 ^ exponent)
  | _ => 0

def HasEvenSignificand : Binary64 → Prop
  | .finite _ significand _ _ => significand % 2 = 0
  | _ => False

/-- A finite float that no other is nearer to a number than; where another is as near, its
significand is even. -/
structure IsNearest (x : Binary64) (q : ℚ) : Prop where
  isFinite : x.IsFinite
  nearest : ∀ y : Binary64, y.IsFinite → |x.value - q| ≤ |y.value - q|
  even : ∀ y : Binary64, y.IsFinite → |x.value - q| = |y.value - q| →
    x.value = y.value ∨ x.HasEvenSignificand

theorem abs_sign (negative : Bool) : |sign negative| = 1 := by
  cases negative <;> simp [sign]

theorem sign_mul_sign (negative : Bool) : sign negative * sign negative = 1 := by
  cases negative <;> simp [sign]

/-! ### The nearest integer -/

section Integers

variable {num den : Nat}

theorem div_eq_quotient_add (hden : 0 < den) :
    (num : ℚ) / den = (num / den : ℕ) + (num % den : ℕ) / den := by
  have hdenPos : (0 : ℚ) < den := by exact_mod_cast hden
  have hparts : (num : ℚ) = (num / den : ℕ) * den + (num % den : ℕ) := by
    exact_mod_cast (Nat.div_add_mod' num den).symm
  rw [div_eq_iff hdenPos.ne', add_mul, div_mul_cancel₀ _ hdenPos.ne']
  exact hparts

theorem roundHalfEven_near (hden : 0 < den) :
    |(roundHalfEven num den : ℚ) - num / den| ≤ 1 / 2 := by
  have hdenPos : (0 : ℚ) < den := by exact_mod_cast hden
  have hnonneg : (0 : ℚ) ≤ (num % den : ℕ) / den := by positivity
  have hbelow : ((num % den : ℕ) : ℚ) / den ≤ 1 := by
    rw [div_le_one hdenPos]
    exact_mod_cast (Nat.mod_lt num hden).le
  have hless : 2 * (num % den) ≤ den → ((num % den : ℕ) : ℚ) / den ≤ 1 / 2 := by
    intro h
    rw [div_le_iff₀ hdenPos]
    have hcast : (2 : ℚ) * (num % den : ℕ) ≤ den := by exact_mod_cast h
    linarith
  have hmore : den ≤ 2 * (num % den) → (1 : ℚ) / 2 ≤ (num % den : ℕ) / den := by
    intro h
    rw [le_div_iff₀ hdenPos]
    have hcast : (den : ℚ) ≤ 2 * (num % den : ℕ) := by exact_mod_cast h
    linarith
  rw [div_eq_quotient_add hden, abs_le]
  unfold roundHalfEven
  dsimp only
  split_ifs with hlow hhigh heven
  · have := hless hlow.le
    constructor <;> linarith
  · have := hmore hhigh.le
    push_cast
    constructor <;> linarith
  · have := hless (by omega)
    constructor <;> linarith
  · have := hmore (by omega)
    push_cast
    constructor <;> linarith

/-- Half-way between two integers the even one is taken. -/
theorem roundHalfEven_even (hden : 0 < den)
    (hhalf : |(roundHalfEven num den : ℚ) - num / den| = 1 / 2) :
    roundHalfEven num den % 2 = 0 := by
  have hdenPos : (0 : ℚ) < den := by exact_mod_cast hden
  have htwice : 2 * (num % den) = den := by
    have hrest : ((num % den : ℕ) : ℚ) / den = 1 / 2 := by
      have hnonneg : (0 : ℚ) ≤ (num % den : ℕ) / den := by positivity
      have hbelow : ((num % den : ℕ) : ℚ) / den < 1 := by
        rw [div_lt_one hdenPos]
        exact_mod_cast Nat.mod_lt num hden
      have hround : (roundHalfEven num den : ℚ) = (num / den : ℕ) ∨
          (roundHalfEven num den : ℚ) = (num / den : ℕ) + 1 := by
        unfold roundHalfEven
        dsimp only
        split_ifs <;> simp
      rw [div_eq_quotient_add hden] at hhalf
      rcases hround with hround | hround <;> rw [hround] at hhalf
      · rw [abs_of_nonpos (by linarith)] at hhalf
        linarith
      · rw [abs_of_nonneg (by linarith)] at hhalf
        linarith
    rw [div_eq_iff hdenPos.ne'] at hrest
    have hcast : ((2 * (num % den) : ℕ) : ℚ) = den := by
      push_cast
      linarith
    exact_mod_cast hcast
  unfold roundHalfEven
  dsimp only
  split_ifs <;> omega

end Integers

/-- What is at most half away is a nearest integer, and any other that is as near is half away. -/
theorem nearest_of_near {n : ℤ} {t : ℚ} (hnear : |(n : ℚ) - t| ≤ 1 / 2) (k : ℤ) :
    |(n : ℚ) - t| ≤ |(k : ℚ) - t| ∧
      (|(n : ℚ) - t| = |(k : ℚ) - t| → n = k ∨ |(n : ℚ) - t| = 1 / 2) := by
  rcases eq_or_ne n k with rfl | hne
  · exact ⟨le_refl _, fun _ ↦ .inl rfl⟩
  · have hgap : (1 : ℚ) ≤ |(n : ℚ) - k| := by
      have hint : (1 : ℤ) ≤ |n - k| := Int.one_le_abs (sub_ne_zero.mpr hne)
      exact_mod_cast hint
    have htriangle : |(n : ℚ) - k| ≤ |(n : ℚ) - t| + |(k : ℚ) - t| := by
      have := abs_sub_le (n : ℚ) t k
      rwa [abs_sub_comm t] at this
    refine ⟨by linarith, fun hsame ↦ .inr ?_⟩
    linarith

/-! ### The grid of a rounded quotient -/

/-- A distance to a signed number is one on the grid, times its width. -/
theorem distance_eq_on_grid {negative : Bool} (exponent : ℤ) (v t : ℚ) :
    |v - sign negative * t| =
      |sign negative * (v / 2 ^ exponent) - t / 2 ^ exponent| * 2 ^ exponent := by
  have hunit : (0 : ℚ) < 2 ^ exponent := by positivity
  have hsquare := sign_mul_sign negative
  have hscaled : v - sign negative * t =
      sign negative * ((sign negative * (v / 2 ^ exponent) - t / 2 ^ exponent) * 2 ^ exponent) := by
    field_simp
    linear_combination (-v) * hsquare
  rw [hscaled, abs_mul, abs_sign, one_mul, abs_mul, abs_of_pos hunit]

/-- Assumes: the least exponent, or a number not below the end of the next finer grid. -/
theorem value_on_grid_or_below {y : Binary64} (hy : y.IsFinite) {exponent : ℤ} {t : ℚ}
    (hfine : exponent ≤ -1074 ∨ 2 ^ 52 ≤ t) :
    (∃ k : ℤ, y.value / 2 ^ exponent = k) ∨ |y.value / 2 ^ exponent| < 2 ^ 52 ∧ 2 ^ 52 ≤ t := by
  cases y with
  | nan => cases hy
  | infinity negative => cases hy
  | finite negative m f canonical =>
    have ⟨hm, hleast, _, _⟩ := canonical
    have hscaled : value (.finite negative m f canonical) / 2 ^ exponent =
        sign negative * (m * 2 ^ (f - exponent)) := by
      rw [value, zpow_sub₀ (by norm_num)]
      ring
    rw [hscaled]
    rcases le_or_gt exponent f with hcoarse | hfiner
    · left
      refine ⟨(if negative then -1 else 1) * (m * 2 ^ (f - exponent).toNat), ?_⟩
      have hpow : (2 : ℚ) ^ (f - exponent) = 2 ^ (f - exponent).toNat := by
        rw [← zpow_natCast, Int.toNat_of_nonneg (by omega)]
      rw [hpow]
      cases negative <;> push_cast <;> rfl
    · refine .inr ⟨?_, hfine.resolve_left (by omega)⟩
      have hnonneg : (0 : ℚ) ≤ m * 2 ^ (f - exponent) := by positivity
      have hmCast : (m : ℚ) < 2 ^ 53 := by exact_mod_cast hm
      have hpow : (2 : ℚ) ^ (f - exponent) ≤ 2 ^ (-1 : ℤ) :=
        zpow_le_zpow_right₀ (by norm_num) (by omega)
      rw [abs_mul, abs_sign, one_mul, abs_of_nonneg hnonneg]
      calc (m : ℚ) * 2 ^ (f - exponent)
          ≤ m * 2 ^ (-1 : ℤ) := by gcongr
        _ < 2 ^ 53 * 2 ^ (-1 : ℤ) := by gcongr
        _ = 2 ^ 52 := by norm_num

/-- What is below the grid is farther away than the least point of it. -/
theorem nearest_of_grid {n : ℤ} {t v : ℚ} (hnear : |(n : ℚ) - t| ≤ 1 / 2)
    (hv : (∃ k : ℤ, v = k) ∨ |v| < 2 ^ 52 ∧ 2 ^ 52 ≤ t) :
    |(n : ℚ) - t| ≤ |v - t| ∧ (|(n : ℚ) - t| = |v - t| → (n : ℚ) = v ∨ |(n : ℚ) - t| = 1 / 2) := by
  rcases hv with ⟨k, rfl⟩ | ⟨hbelow, habove⟩
  · obtain ⟨hle, htie⟩ := nearest_of_near hnear k
    exact ⟨hle, fun hsame ↦ (htie hsame).imp_left fun hnk ↦ by rw [hnk]⟩
  · have hleast := (nearest_of_near hnear (2 ^ 52)).1
    have hfar : |((2 ^ 52 : ℤ) : ℚ) - t| < |v - t| := by
      have hv := le_abs_self v
      push_cast
      rw [abs_of_nonpos (by linarith), abs_of_nonpos (by linarith)]
      linarith
    exact ⟨hleast.trans hfar.le, fun hsame ↦ absurd hsame (lt_of_le_of_lt hleast hfar).ne⟩

/-! ### Rounded quotients -/

section Quotients

variable {negative : Bool} {num den : Nat}

/-- The exponent that `ofRatio` chooses. -/
def chosenExponent (num den : Nat) : ℤ :=
  max (-1074) (binaryExponent num den - 52)

/-- The significand that `ofRatio` chooses; a carry makes it 2^53. -/
def chosenSignificand (num den : Nat) : Nat :=
  roundHalfEven (num * Nat.pow 2 (-chosenExponent num den).toNat)
    (den * Nat.pow 2 (chosenExponent num den).toNat)

theorem ofRatio_eq (hnum : num ≠ 0) : ofRatio negative num den =
    if chosenSignificand num den = 9007199254740992 then
      ofScaled negative 4503599627370496 (chosenExponent num den + 1)
    else ofScaled negative (chosenSignificand num den) (chosenExponent num den) :=
  if_neg hnum

theorem canonical_of_isFinite {significand : Nat} {exponent : ℤ}
    (h : (ofScaled negative significand exponent).IsFinite) :
    ∃ canonical, ofScaled negative significand exponent =
      .finite negative significand exponent canonical := by
  unfold ofScaled at h ⊢
  split_ifs at h ⊢ with hcanonical
  · exact ⟨hcanonical, rfl⟩
  · cases h

/-- A finite result is the chosen point of the grid, and its significand is even where that is. -/
theorem ofRatio_of_isFinite (hnum : num ≠ 0) (h : (ofRatio negative num den).IsFinite) :
    (ofRatio negative num den).value =
        sign negative * (chosenSignificand num den * 2 ^ chosenExponent num den) ∧
      (chosenSignificand num den % 2 = 0 → (ofRatio negative num den).HasEvenSignificand) := by
  rw [ofRatio_eq hnum] at h ⊢
  split_ifs at h ⊢ with hcarry
  · obtain ⟨canonical, hresult⟩ := canonical_of_isFinite h
    rw [hresult, hcarry]
    refine ⟨?_, fun _ ↦ rfl⟩
    rw [value, zpow_add_one₀ (by norm_num)]
    push_cast
    ring
  · obtain ⟨canonical, hresult⟩ := canonical_of_isFinite h
    rw [hresult]
    exact ⟨rfl, id⟩

theorem scaled_div_scaled (hden : den ≠ 0) (e : ℤ) :
    ((num * Nat.pow 2 (-e).toNat : ℕ) : ℚ) / (den * Nat.pow 2 e.toNat : ℕ) =
      num / den / 2 ^ e := by
  obtain ⟨hleft, hright⟩ := @scaled_eq num den hden e 0
  have hunit : (den * (2 ^ (-e).toNat : ℕ) : ℚ) ≠ 0 := by
    have hdenNe : (den : ℚ) ≠ 0 := by exact_mod_cast hden
    positivity
  rw [Nat.pow_zero, Nat.mul_one, Nat.cast_zero, add_zero] at hright
  rw [hleft, hright, mul_div_mul_right _ _ hunit]

/-- The chosen significand is a nearest integer, on a grid that is fine enough. -/
theorem chosenSignificand_near (hnum : num ≠ 0) (hden : den ≠ 0) :
    |((chosenSignificand num den : ℤ) : ℚ) - num / den / 2 ^ chosenExponent num den| ≤ 1 / 2 ∧
      (|((chosenSignificand num den : ℤ) : ℚ) - num / den / 2 ^ chosenExponent num den| = 1 / 2 →
        chosenSignificand num den % 2 = 0) ∧
      (chosenExponent num den ≤ -1074 ∨ 2 ^ 52 ≤ (num : ℚ) / den / 2 ^ chosenExponent num den) := by
  have hgrid : 0 < den * Nat.pow 2 (chosenExponent num den).toNat :=
    Nat.mul_pos (Nat.pos_of_ne_zero hden) (Nat.pow_pos (by decide))
  rw [← scaled_div_scaled hden, Int.cast_natCast]
  refine ⟨roundHalfEven_near hgrid, roundHalfEven_even hgrid, ?_⟩
  rcases le_or_gt (binaryExponent num den - 52) (-1074) with hleast | habove
  · exact .inl (max_eq_left hleast).le
  · right
    have hchosen : chosenExponent num den = binaryExponent num den - 52 := max_eq_right habove.le
    rw [scaled_div_scaled hden, hchosen, le_div_iff₀ (by positivity)]
    calc (2 : ℚ) ^ 52 * 2 ^ (binaryExponent num den - 52)
        = 2 ^ binaryExponent num den := by
          rw [← zpow_natCast, ← zpow_add₀ (by norm_num)]
          congr 1
          push_cast
          ring
      _ ≤ num / den := (binaryExponent_spec hnum hden).1

/-- A quotient that is rounded to a finite number is rounded to the nearest, a tie to even. -/
theorem isNearest_ofRatio (hden : den ≠ 0) (h : (ofRatio negative num den).IsFinite) :
    IsNearest (ofRatio negative num den) (sign negative * (num / den)) := by
  rcases eq_or_ne num 0 with rfl | hnum
  · have hzero : ofRatio negative 0 den = .finite negative 0 (-1074) zero_canonical := rfl
    refine ⟨h, fun y _ ↦ ?_, fun y _ _ ↦ .inr ?_⟩
    · simp [hzero, value]
    · rw [hzero]
      rfl
  obtain ⟨hvalue, heven⟩ := ofRatio_of_isFinite hnum h
  obtain ⟨hnear, htie, hfine⟩ := chosenSignificand_near hnum hden
  generalize chosenExponent num den = exponent at hvalue hnear htie hfine
  generalize chosenSignificand num den = significand at hvalue heven hnear htie
  have hunit : (0 : ℚ) < 2 ^ exponent := by positivity
  have hsquare := sign_mul_sign negative
  have hself : sign negative * ((ofRatio negative num den).value / 2 ^ exponent) =
      (significand : ℤ) := by
    rw [hvalue, Int.cast_natCast, mul_div_assoc, mul_div_cancel_right₀ _ hunit.ne', ← mul_assoc,
      hsquare, one_mul]
  have hothers (y : Binary64) (hy : y.IsFinite) :
      (∃ k : ℤ, sign negative * (y.value / 2 ^ exponent) = k) ∨
        |sign negative * (y.value / 2 ^ exponent)| < 2 ^ 52 ∧
          2 ^ 52 ≤ (num : ℚ) / den / 2 ^ exponent := by
    rw [abs_mul, abs_sign, one_mul]
    refine (value_on_grid_or_below hy hfine).imp_left fun ⟨k, hk⟩ ↦ ?_
    refine ⟨if negative then -k else k, ?_⟩
    rw [hk]
    cases negative <;> simp [sign]
  refine ⟨h, fun y hy ↦ ?_, fun y hy hsame ↦ ?_⟩
  · rw [distance_eq_on_grid exponent, distance_eq_on_grid exponent, hself]
    exact mul_le_mul_of_nonneg_right (nearest_of_grid hnear (hothers y hy)).1 hunit.le
  · rw [distance_eq_on_grid exponent, distance_eq_on_grid exponent, hself] at hsame
    have hgrid := (nearest_of_grid hnear (hothers y hy)).2 (mul_right_cancel₀ hunit.ne' hsame)
    refine hgrid.imp (fun heq ↦ ?_) fun hhalf ↦ heven (htie hhalf)
    rw [← hself] at heq
    have hcancel := mul_left_cancel₀ (left_ne_zero_of_mul_eq_one hsquare) heq
    exact (div_left_inj' hunit.ne').mp hcancel

/-- An integer of at most 64 bits, rounded. -/
theorem isNearest_ofInt {n : Int} (hsmall : n.natAbs ≤ 18446744073709551616) :
    IsNearest (ofInt n) n := by
  have hnearest := isNearest_ofRatio Nat.one_ne_zero (isFinite_ofInt hsmall)
  have hself : sign (decide (n < 0)) * ((n.natAbs : ℚ) / (1 : ℕ)) = n := by
    rw [Nat.cast_one, div_one, Nat.cast_natAbs]
    rcases lt_or_ge n 0 with hneg | hnonneg
    · simp [sign, hneg, abs_of_neg hneg]
    · simp [sign, not_lt.mpr hnonneg, abs_of_nonneg hnonneg]
  rwa [hself] at hnearest

end Quotients

end GelfCourier.Binary64
