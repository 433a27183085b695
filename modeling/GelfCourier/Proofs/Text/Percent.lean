import GelfCourier.Text.Percent

/-!
Percent-encoding can be undone. An octet that stands for itself is not a percent sign, and the two
digits behind a percent sign tell the octet, so the first octet of an encoded text is known from how
the text begins. No encoded text holds a character that divides an address.
-/

set_option autoImplicit false

namespace GelfCourier.Text.Percent

/-- The characters that encoded texts are made of: ASCII letters and digits, four marks, and the
percent sign. -/
def isWritten (c : Char) : Bool :=
  c.isAlphanum || ['-', '.', '_', '~', '%'].contains c

variable {b c : UInt8}

/-! ### One octet -/

/-- An octet that stands for itself is a letter, a digit or one of four marks. -/
theorem isWritten_of_isUnreserved (hb : isUnreserved b = true) :
    isWritten (Char.ofNat b.toNat) = true ∧ Char.ofNat b.toNat ≠ '%' := by
  have hall : ∀ n < 256, isUnreserved (UInt8.ofNat n) = true →
      isWritten (Char.ofNat n) = true ∧ Char.ofNat n ≠ '%' := by
    decide +kernel
  exact hall b.toNat b.toNat_lt (by rwa [UInt8.ofNat_toNat])

theorem isWritten_hexDigit {n : Nat} (hn : n < 16) : isWritten (hexDigit n) = true := by
  have hall : ∀ n < 16, isWritten (hexDigit n) = true := by decide
  exact hall n hn

theorem eq_of_hexDigit_eq {m n : Nat} (hm : m < 16) (hn : n < 16)
    (hsame : hexDigit m = hexDigit n) : m = n := by
  have hall : ∀ m < 16, ∀ n < 16, hexDigit m = hexDigit n → m = n := by decide
  exact hall m hm n hn hsame

theorem toNat_charOfNat (b : UInt8) : (Char.ofNat b.toNat).toNat = b.toNat := by
  have hlt := b.toNat_lt
  have hvalid : b.toNat.isValidChar := .inl (by omega)
  rw [Char.ofNat, dif_pos hvalid]
  rfl

theorem eq_of_charOfNat_eq (hsame : Char.ofNat b.toNat = Char.ofNat c.toNat) : b = c := by
  have hnat := congrArg Char.toNat hsame
  rw [toNat_charOfNat, toNat_charOfNat] at hnat
  exact UInt8.toNat_inj.mp hnat

theorem isWritten_of_mem_encodeByte {char : Char} (hmem : char ∈ encodeByte b) :
    isWritten char = true := by
  have hlt := b.toNat_lt
  unfold encodeByte at hmem
  split at hmem
  · next hb =>
    rw [List.mem_singleton.mp hmem]
    exact (isWritten_of_isUnreserved hb).1
  · simp only [List.mem_cons, List.not_mem_nil, or_false] at hmem
    rcases hmem with rfl | rfl | rfl
    · decide
    · exact isWritten_hexDigit (by omega)
    · exact isWritten_hexDigit (by omega)

/-- The first octet is told from the beginning of the text. -/
theorem encodeByte_append_inj {rest other : List Char}
    (hsame : encodeByte b ++ rest = encodeByte c ++ other) : b = c ∧ rest = other := by
  have hb := b.toNat_lt
  have hc := c.toNat_lt
  unfold encodeByte at hsame
  by_cases hplain : isUnreserved b = true
  · by_cases hplain' : isUnreserved c = true
    · rw [if_pos hplain, if_pos hplain'] at hsame
      obtain ⟨hhead, hrest⟩ := List.cons.inj hsame
      exact ⟨eq_of_charOfNat_eq hhead, hrest⟩
    · rw [if_pos hplain, if_neg hplain'] at hsame
      exact absurd (List.cons.inj hsame).1 (isWritten_of_isUnreserved hplain).2
  · by_cases hplain' : isUnreserved c = true
    · rw [if_neg hplain, if_pos hplain'] at hsame
      exact absurd (List.cons.inj hsame).1.symm (isWritten_of_isUnreserved hplain').2
    · rw [if_neg hplain, if_neg hplain'] at hsame
      simp only [List.cons_append, List.nil_append, List.cons.injEq, true_and] at hsame
      obtain ⟨hhigh, hlow, hrest⟩ := hsame
      have hhigh := eq_of_hexDigit_eq (by omega) (by omega) hhigh
      have hlow := eq_of_hexDigit_eq (by omega) (by omega) hlow
      exact ⟨UInt8.toNat_inj.mp (by omega), hrest⟩

theorem encodeByte_ne_nil (b : UInt8) : encodeByte b ≠ [] := by
  unfold encodeByte
  split <;> exact List.cons_ne_nil _ _

/-! ### Whole texts -/

theorem encode_empty : encode "" = "" := rfl

theorem eq_of_encodeBytes_eq {first second : Bytes}
    (hsame : encodeBytes first = encodeBytes second) : first = second := by
  unfold encodeBytes at hsame
  induction first generalizing second with
  | nil =>
    cases second with
    | nil => rfl
    | cons c rest => simp [encodeByte_ne_nil] at hsame
  | cons b tail ih =>
    cases second with
    | nil => simp [encodeByte_ne_nil] at hsame
    | cons c rest =>
      rw [List.flatMap_cons, List.flatMap_cons] at hsame
      obtain ⟨rfl, htail⟩ := encodeByte_append_inj hsame
      rw [ih htail]

theorem encode_injective : Function.Injective encode := by
  intro first second hsame
  have hbytes := congrArg String.toList hsame
  unfold encode at hbytes
  rw [String.toList_ofList, String.toList_ofList] at hbytes
  exact Bytes.ofString_injective (eq_of_encodeBytes_eq hbytes)

theorem isWritten_of_mem_encode {s : String} {char : Char} (hmem : char ∈ (encode s).toList) :
    isWritten char = true := by
  rw [encode, String.toList_ofList] at hmem
  obtain ⟨b, -, hchar⟩ := List.mem_flatMap.mp hmem
  exact isWritten_of_mem_encodeByte hchar

/-- What is not written does not occur. -/
theorem not_mem_encode {char : Char} (hchar : isWritten char = false) (s : String) :
    char ∉ (encode s).toList := by
  intro hmem
  rw [isWritten_of_mem_encode hmem] at hchar
  cases hchar

end GelfCourier.Text.Percent
