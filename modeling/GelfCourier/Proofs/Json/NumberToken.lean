import GelfCourier.Json.Reader
import Mathlib.Data.List.TakeWhile

/-!
Number tokens. A token is read in the same way before anything that does not continue it, and every
integer reads back as itself. Floats are read with a rounding in every step, so whether one reads
back is a property of that float (`Number.ReadsBack`).
-/

set_option autoImplicit false

namespace GelfCourier

/-! ### Decimal digits of naturals -/

namespace Decimal

theorem lt_ten_of_mem_digits {n d : Nat} (hd : d ∈ digits n) : d < 10 := by
  fun_induction digits n with
  | case1 n hn =>
    rw [List.mem_singleton] at hd
    exact hd ▸ hn
  | case2 n _ ih =>
    rcases List.mem_append.mp hd with hleading | hlast
    · exact ih hleading
    · rw [List.mem_singleton] at hlast
      omega

theorem ofDigits_append_singleton (ds : List Nat) (d : Nat) :
    ofDigits (ds ++ [d]) = 10 * ofDigits ds + d := by
  simp [ofDigits]

@[simp] theorem ofDigits_digits (n : Nat) : ofDigits (digits n) = n := by
  fun_induction digits n with
  | case1 n hn => simp [ofDigits]
  | case2 n _ ih =>
    rw [ofDigits_append_singleton, ih]
    omega

/-- Zero has the one digit zero, and every other natural begins with another digit. -/
theorem digits_head (n : Nat) :
    digits n = [0] ∨ ∃ d ds, digits n = d :: ds ∧ d ≠ 0 := by
  fun_induction digits n with
  | case1 n _ =>
    by_cases hzero : n = 0
    · exact Or.inl (by rw [hzero])
    · exact Or.inr ⟨n, [], rfl, hzero⟩
  | case2 n hn ih =>
    rcases ih with hzero | ⟨d, ds, hdigits, hd⟩
    · have hvalue := congrArg ofDigits hzero
      rw [ofDigits_digits] at hvalue
      simp only [ofDigits, List.foldl_cons, List.foldl_nil] at hvalue
      omega
    · exact Or.inr ⟨d, ds ++ [n % 10], by rw [hdigits, List.cons_append], hd⟩

end Decimal

namespace Json

/-! ### Written digits -/

theorem isDigit_digitByte {d : Nat} (hd : d < 10) : isDigit (0x30 + d).toUInt8 = true := by
  have hall : ∀ digit < 10, isDigit (0x30 + digit).toUInt8 = true := by decide
  exact hall d hd

theorem isDigit_of_mem_digitBytes {ds : List Nat} (hds : ∀ d ∈ ds, d < 10) {c : UInt8}
    (hc : c ∈ digitBytes ds) : isDigit c = true := by
  obtain ⟨d, hd, rfl⟩ := List.mem_map.mp hc
  exact isDigit_digitByte (hds d hd)

theorem digitValues_digitBytes {ds : List Nat} (hds : ∀ d ∈ ds, d < 10) :
    digitValues (digitBytes ds) = ds := by
  have hall : ∀ digit < 10, (0x30 + digit).toUInt8.toNat - 0x30 = digit := by decide
  induction ds with
  | nil => rfl
  | cons d ds ih =>
    have hrest := ih fun other hother ↦ hds other (List.mem_cons_of_mem _ hother)
    have hhead := hall d (hds d List.mem_cons_self)
    calc digitValues (digitBytes (d :: ds))
        = ((0x30 + d).toUInt8.toNat - 0x30) :: digitValues (digitBytes ds) := rfl
      _ = d :: ds := by rw [hhead, hrest]

theorem isDigit_of_mem_naturalBytes {n : Nat} {c : UInt8} (hc : c ∈ naturalBytes n) :
    isDigit c = true :=
  isDigit_of_mem_digitBytes (fun _ hd ↦ Decimal.lt_ten_of_mem_digits hd) hc

@[simp] theorem ofDigits_naturalBytes (n : Nat) :
    Decimal.ofDigits (digitValues (naturalBytes n)) = n := by
  rw [naturalBytes, digitValues_digitBytes fun _ hd ↦ Decimal.lt_ten_of_mem_digits hd,
    Decimal.ofDigits_digits]

/-- The written form of a natural begins with zero only if it is a single zero. -/
theorem naturalBytes_head (n : Nat) :
    naturalBytes n = [0x30] ∨
      ∃ c rest, naturalBytes n = c :: rest ∧ isDigit c = true ∧ c ≠ 0x30 := by
  have hall : ∀ digit < 10, digit ≠ 0 → (0x30 + digit).toUInt8 ≠ 0x30 := by decide
  rcases Decimal.digits_head n with hzero | ⟨d, ds, hdigits, hd⟩
  · exact Or.inl (by rw [naturalBytes, hzero]; rfl)
  · have hlt : d < 10 := Decimal.lt_ten_of_mem_digits (hdigits ▸ List.mem_cons_self)
    exact Or.inr ⟨(0x30 + d).toUInt8, digitBytes ds, by rw [naturalBytes, hdigits]; rfl,
      isDigit_digitByte hlt, hall d hlt hd⟩

/-! ### Reading a token whatever follows it -/

/-- Octets that do not continue a number token. -/
def EndsNumber (rest : Bytes) : Prop :=
  ∀ c ∈ rest.head?, isDigit c = false ∧ c ≠ 0x2e ∧ c ≠ 0x65 ∧ c ≠ 0x45

theorem takeWhile_isDigit_append {rest : Bytes} (hends : EndsNumber rest) (s : Bytes) :
    (s ++ rest).takeWhile isDigit = s.takeWhile isDigit := by
  induction s with
  | nil =>
    cases rest with
    | nil => rfl
    | cons c rest => rw [List.nil_append, List.takeWhile_cons, (hends c rfl).1]; rfl
  | cons c s ih =>
    rw [List.cons_append, List.takeWhile_cons, List.takeWhile_cons, ih]

theorem dropWhile_isDigit_append {rest : Bytes} (hends : EndsNumber rest) (s : Bytes) :
    (s ++ rest).dropWhile isDigit = s.dropWhile isDigit ++ rest := by
  induction s with
  | nil =>
    cases rest with
    | nil => rfl
    | cons c rest => rw [List.nil_append, List.dropWhile_cons, (hends c rfl).1]; rfl
  | cons c s ih =>
    rw [List.cons_append, List.dropWhile_cons, List.dropWhile_cons, ih]
    split <;> rfl

theorem digitRun_append {s ds after rest : Bytes} (h : digitRun s = .ok (ds, after))
    (hends : EndsNumber rest) : digitRun (s ++ rest) = .ok (ds, after ++ rest) := by
  cases s with
  | nil => cases h
  | cons c tail =>
    have htake := takeWhile_isDigit_append hends (c :: tail)
    have hdrop := dropWhile_isDigit_append hends (c :: tail)
    rw [List.cons_append] at htake hdrop ⊢
    rw [digitRun] at h ⊢
    split at h
    · next hdigit =>
      cases h
      rw [if_pos hdigit, htake, hdrop]
    · cases h

theorem wholePart_append {s whole after rest : Bytes} (h : wholePart s = .ok (whole, after))
    (hends : EndsNumber rest) : wholePart (s ++ rest) = .ok (whole, after ++ rest) := by
  match s, h with
  | [], h => cases h
  | [c], h =>
    by_cases hzero : c = 0x30
    · subst hzero
      have hwhole : wholePart [0x30] = .ok ([0x30], []) := rfl
      cases hwhole.symm.trans h
      cases rest with
      | nil => rfl
      | cons d rest => simp [wholePart, (hends d rfl).1]
    · have hrun : digitRun [c] = .ok (whole, after) := by simpa [wholePart, hzero] using h
      have happend := digitRun_append hrun hends
      cases rest with
      | nil => simpa [wholePart, hzero] using happend
      | cons d rest => simpa [wholePart, hzero] using happend
  | c :: d :: tail, h =>
    by_cases hzero : c = 0x30
    · subst hzero
      simp only [wholePart] at h
      split at h
      · cases h
      · next hdigit =>
        cases h
        simp [wholePart, hdigit]
    · have hrun : digitRun (c :: d :: tail) = .ok (whole, after) := by
        simpa [wholePart, hzero] using h
      have happend := digitRun_append hrun hends
      simpa [wholePart, hzero] using happend

theorem fractionPart_append {s after rest : Bytes} {fraction : Option Bytes}
    (h : fractionPart s = .ok (fraction, after)) (hends : EndsNumber rest) :
    fractionPart (s ++ rest) = .ok (fraction, after ++ rest) := by
  cases s with
  | nil =>
    cases h
    cases rest with
    | nil => rfl
    | cons c rest => simp [fractionPart, (hends c rfl).2.1]
  | cons c tail =>
    by_cases hpoint : c = 0x2e
    · subst hpoint
      obtain ⟨⟨ds, left⟩, hrun, hresult⟩ := map_ok h
      cases hresult
      rw [List.cons_append, fractionPart, digitRun_append hrun hends]
      rfl
    · have hnone : (Except.ok (none, c :: tail) : Reading (Option Bytes)) =
          .ok (fraction, after) := by simpa [fractionPart, hpoint] using h
      cases hnone
      simp [fractionPart, hpoint]

theorem exponentSign_append {s : Bytes} (hne : s ≠ []) (rest : Bytes) :
    exponentSign (s ++ rest) = ((exponentSign s).1, (exponentSign s).2 ++ rest) := by
  cases s with
  | nil => exact absurd rfl hne
  | cons c tail =>
    by_cases hplus : c = 0x2b
    · rw [hplus]
      rfl
    · by_cases hminus : c = 0x2d
      · rw [hminus]
        rfl
      · simp [exponentSign, hplus, hminus]

theorem exponentPart_append {s after rest : Bytes} {exponent : Option Int}
    (h : exponentPart s = .ok (exponent, after)) (hends : EndsNumber rest) :
    exponentPart (s ++ rest) = .ok (exponent, after ++ rest) := by
  cases s with
  | nil =>
    cases h
    cases rest with
    | nil => rfl
    | cons c rest => simp [exponentPart, (hends c rfl).2.2]
  | cons c tail =>
    rw [List.cons_append]
    rw [exponentPart] at h ⊢
    split at h
    · next hletter =>
      obtain ⟨⟨ds, left⟩, hrun, hresult⟩ := map_ok h
      have hne : tail ≠ [] := by
        rintro rfl
        cases hrun
      have happend : digitRun ((exponentSign tail).2 ++ rest) = .ok (ds, left ++ rest) :=
        digitRun_append hrun hends
      cases hresult
      rw [if_pos hletter, exponentSign_append hne]
      simp only [happend]
      rfl
    · next hletter =>
      cases h
      rw [if_neg hletter]
      rfl

theorem unsignedNumber_append {negative : Bool} {s after rest : Bytes} {n : Number}
    (h : unsignedNumber negative s = .ok (n, after)) (hends : EndsNumber rest) :
    unsignedNumber negative (s ++ rest) = .ok (n, after ++ rest) := by
  simp only [unsignedNumber, bind, Except.bind, pure, Except.pure] at h ⊢
  cases hwhole : wholePart s with
  | error fault => simp [hwhole] at h
  | ok parts =>
    obtain ⟨whole, afterWhole⟩ := parts
    cases hfraction : fractionPart afterWhole with
    | error fault => simp [hwhole, hfraction] at h
    | ok parts =>
      obtain ⟨fraction, afterFraction⟩ := parts
      cases hexponent : exponentPart afterFraction with
      | error fault => simp [hwhole, hfraction, hexponent] at h
      | ok parts =>
        obtain ⟨exponent, left⟩ := parts
        simp only [hwhole, hfraction, hexponent] at h
        simp only [wholePart_append hwhole hends, fractionPart_append hfraction hends,
          exponentPart_append hexponent hends]
        cases hnumber : numberOfParts negative whole fraction exponent with
        | error fault => simp [hnumber] at h
        | ok number =>
          simp only [hnumber] at h ⊢
          cases h
          rfl

theorem number_of_ne_minus {c : UInt8} (hminus : c ≠ 0x2d) (s : Bytes) :
    number (c :: s) = unsignedNumber false (c :: s) := by
  simp [number, hminus]

theorem number_append {s after rest : Bytes} {n : Number} (h : number s = .ok (n, after))
    (hends : EndsNumber rest) : number (s ++ rest) = .ok (n, after ++ rest) := by
  cases s with
  | nil => cases h
  | cons c tail =>
    by_cases hminus : c = 0x2d
    · subst hminus
      exact unsignedNumber_append h hends
    · rw [number_of_ne_minus hminus] at h
      rw [List.cons_append, number_of_ne_minus hminus, ← List.cons_append]
      exact unsignedNumber_append h hends

/-- A number token begins with a minus sign or a digit. -/
theorem number_head {s : Bytes} {n : Number} {after : Bytes} (h : number s = .ok (n, after)) :
    ∃ c tail, s = c :: tail ∧ (c = 0x2d ∨ isDigit c = true) := by
  cases s with
  | nil => cases h
  | cons c tail =>
    refine ⟨c, tail, rfl, ?_⟩
    by_cases hminus : c = 0x2d
    · exact Or.inl hminus
    · refine Or.inr (Decidable.byContradiction fun hdigit ↦ ?_)
      have hwhole : wholePart (c :: tail) = .error .malformed := by
        have hzero : c ≠ 0x30 := by
          rintro rfl
          exact hdigit rfl
        simp [wholePart, hzero, digitRun, hdigit]
      rw [number_of_ne_minus hminus] at h
      simp [unsignedNumber, hwhole, bind, Except.bind] at h

/-! ### Numbers that read back -/

/-- The written form of the number is read as this number. -/
def Number.ReadsBack (n : Number) : Prop :=
  number n.bytes = .ok (n, [])

instance (n : Number) : Decidable n.ReadsBack :=
  match h : number n.bytes with
  | .error fault => .isFalse fun hreads ↦ by cases h.symm.trans hreads
  | .ok (m, rest) =>
    decidable_of_iff (m = n ∧ rest = []) <| by
      rw [Number.ReadsBack, h]
      simp

theorem Number.ReadsBack.number_append {n : Number} (h : n.ReadsBack) {rest : Bytes}
    (hends : EndsNumber rest) : number (n.bytes ++ rest) = .ok (n, rest) :=
  Json.number_append h hends

theorem wholePart_naturalBytes (n : Nat) :
    wholePart (naturalBytes n) = .ok (naturalBytes n, []) := by
  rcases naturalBytes_head n with hzero | ⟨c, tail, hbytes, hdigit, hne⟩
  · rw [hzero]
    rfl
  · have hall : ∀ b ∈ c :: tail, isDigit b = true := fun b hb ↦
      isDigit_of_mem_naturalBytes (hbytes ▸ hb)
    have htake : (c :: tail).takeWhile isDigit = c :: tail := List.takeWhile_eq_self_iff.mpr hall
    have hdrop : (c :: tail).dropWhile isDigit = [] := by
      exact List.dropWhile_eq_nil_iff.mpr hall
    rw [hbytes]
    simp [wholePart, hne, digitRun, hdigit, htake, hdrop]

theorem unsignedNumber_naturalBytes (negative : Bool) (n : Nat) :
    unsignedNumber negative (naturalBytes n) =
      (wholeNumber negative (naturalBytes n)).map fun number ↦ (number, []) := by
  simp only [unsignedNumber, wholePart_naturalBytes, bind, Except.bind, fractionPart,
    exponentPart, numberOfParts, pure, Except.pure]
  cases wholeNumber negative (naturalBytes n) <;> rfl

/-- Assumes: digits of the integer's magnitude, and a minus sign for no zero. -/
theorem wholeNumber_eq {negative : Bool} {n : Int} {magnitude : Nat}
    (h : -9223372036854775808 ≤ n ∧ n < 18446744073709551616)
    (hvalue : (if negative = true then -(magnitude : Int) else magnitude) = n)
    (hsign : ¬ (negative = true ∧ (magnitude : Int) = 0)) :
    wholeNumber negative (naturalBytes magnitude) = .ok (.integer n h) := by
  subst hvalue
  unfold wholeNumber
  rw [ofDigits_naturalBytes]
  dsimp only
  rw [dif_pos h, if_neg hsign]

/-- Every integer reads back. -/
theorem Number.readsBack_integer (n : Int)
    (h : -9223372036854775808 ≤ n ∧ n < 18446744073709551616) :
    (Number.integer n h).ReadsBack := by
  rw [ReadsBack, bytes, integerBytes]
  split
  · next hneg =>
    have hmagnitude : -(n.natAbs : Int) = n := by omega
    have hsign : ¬ (true = true ∧ (n.natAbs : Int) = 0) := by omega
    have hwhole : wholeNumber true (naturalBytes n.natAbs) = .ok (.integer n h) :=
      wholeNumber_eq h hmagnitude hsign
    rw [number, unsignedNumber_naturalBytes, hwhole]
    rfl
  · next hpos =>
    have hmagnitude : (n.natAbs : Int) = n := by omega
    have hwhole : wholeNumber false (naturalBytes n.natAbs) = .ok (.integer n h) :=
      wholeNumber_eq h hmagnitude fun hminus ↦ nomatch hminus.1
    have hminus : number (naturalBytes n.natAbs) =
        unsignedNumber false (naturalBytes n.natAbs) := by
      rcases naturalBytes_head n.natAbs with hzero | ⟨c, tail, hbytes, hdigit, -⟩
      · rw [hzero]
        rfl
      · rw [hbytes]
        refine number_of_ne_minus ?_ tail
        rintro rfl
        cases hdigit
    rw [hminus, unsignedNumber_naturalBytes, hwhole]
    rfl

end Json

end GelfCourier
