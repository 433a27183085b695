import GelfCourier.Text.WholeNumber

/-!
An integer is read back from its decimal text, which has no characters but digits and a sign.
-/

set_option autoImplicit false

namespace GelfCourier.Text

theorem isDigit_iff {c : Char} : isDigit c = true ↔ c.isDigit = true := by
  simp only [isDigit, Char.isDigit, Bool.and_eq_true, decide_eq_true_eq]
  exact Iff.rfl

theorem isDigit_of_mem_toDigits {n : Nat} {c : Char} (hc : c ∈ Nat.toDigits 10 n) :
    isDigit c = true :=
  isDigit_iff.mpr (Nat.isDigit_of_mem_toDigits (by decide) (Nat.le_refl 10) hc)

theorem natural?_toDigits (n : Nat) : natural? (Nat.toDigits 10 n) = some n := by
  have hsome : (Nat.toDigits 10 n).isEmpty = false :=
    List.isEmpty_eq_false_iff.mpr Nat.toDigits_ne_nil
  have hdigits : (Nat.toDigits 10 n).any (fun c ↦ !isDigit c) = false := by
    refine List.any_eq_false.mpr fun c hc ↦ ?_
    simp [isDigit_of_mem_toDigits hc]
  rw [natural?, hsome, hdigits]
  exact congrArg some (Nat.ofDigitChars_toDigits (by decide) (Nat.le_refl 10))

theorem toList_toString (n : Int) : (toString n).toList =
    if n < 0 then '-' :: Nat.toDigits 10 n.natAbs else Nat.toDigits 10 n.natAbs := by
  cases n with
  | ofNat n => exact String.toList_ofList
  | negSucc n =>
    change ("-" ++ String.ofList _).toList = _
    rw [if_pos (Int.negSucc_lt_zero n), String.toList_append]
    exact congrArg ('-' :: ·) String.toList_ofList

theorem isDigit_or_of_mem_toString {n : Int} {c : Char} (hc : c ∈ (toString n).toList) :
    isDigit c = true ∨ c = '-' := by
  rw [toList_toString] at hc
  split at hc
  · rcases List.mem_cons.mp hc with hsign | hdigit
    · exact .inr hsign
    · exact .inl (isDigit_of_mem_toDigits hdigit)
  · exact .inl (isDigit_of_mem_toDigits hc)

/-- A run of digits has no sign in front. -/
theorem integerWithin?_toDigits (low high : Int) (n : Nat) :
    integerWithin? low high (Nat.toDigits 10 n) =
      if low ≤ n ∧ (n : Int) ≤ high then some (n : Int) else none := by
  have hvalue := natural?_toDigits n
  cases hdigits : Nat.toDigits 10 n with
  | nil => exact absurd hdigits Nat.toDigits_ne_nil
  | cons c rest =>
    have hc : isDigit c = true := isDigit_of_mem_toDigits (hdigits ▸ List.mem_cons_self)
    have hplus : c ≠ '+' := fun hsame ↦ by rw [hsame] at hc; cases hc
    have hminus : c ≠ '-' := fun hsame ↦ by rw [hsame] at hc; cases hc
    rw [hdigits] at hvalue
    unfold integerWithin?
    split
    · next heq => exact absurd (List.cons.inj heq).1 hplus
    · next heq => exact absurd (List.cons.inj heq).1 hminus
    · rw [hvalue]
      rfl

theorem integerWithin?_minus (low high : Int) (digits : List Char) :
    integerWithin? low high ('-' :: digits) = (natural? digits).bind fun n ↦
      if low ≤ -(n : Int) ∧ -(n : Int) ≤ high then some (-(n : Int)) else none := by
  cases hvalue : natural? digits <;> simp [integerWithin?, hvalue]

theorem integerWithin?_toString {low high n : Int} (hn : low ≤ n ∧ n ≤ high) :
    integerWithin? low high (toString n).toList = some n := by
  rw [toList_toString]
  by_cases hneg : n < 0
  · have hvalue : -(n.natAbs : Int) = n := by omega
    rw [if_pos hneg, integerWithin?_minus, natural?_toDigits, Option.bind_some, hvalue, if_pos hn]
  · have hvalue : (n.natAbs : Int) = n := by omega
    rw [if_neg hneg, integerWithin?_toDigits, hvalue, if_pos hn]

end GelfCourier.Text
