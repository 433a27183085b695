import GelfCourier.Json.Writer
import GelfCourier.Json.Text

/-!
Strings read back as they were written. Each octet of a string is read from what stands for it, so
the octets before the closing quote are those of the string, and they are valid UTF-8.
-/

set_option autoImplicit false

namespace GelfCourier

theorem Bytes.hexDigitValue?_hexDigit {n : Nat} (hn : n < 16) :
    hexDigitValue? (hexDigit n) = some n := by
  have hall : ∀ digit < 16, hexDigitValue? (hexDigit digit) = some digit := by decide
  exact hall n hn

namespace Json

/-- A character below 128 is its own octet. -/
theorem utf8EncodeChar_ofNat {n : Nat} (hn : n < 0x20) :
    String.utf8EncodeChar (Char.ofNat n) = [n.toUInt8] := by
  have hall : ∀ code < 0x20, String.utf8EncodeChar (Char.ofNat code) = [code.toUInt8] := by decide
  exact hall n hn

theorem hexQuad_hexDigit {n : Nat} (hn : n < 0x100) (rest : Bytes) :
    hexQuad (0x30 :: 0x30 :: Bytes.hexDigit (n / 16) :: Bytes.hexDigit (n % 16) :: rest) =
      .ok (n, rest) := by
  have hzero : Bytes.hexDigitValue? 0x30 = some 0 := by decide
  have hhigh := Bytes.hexDigitValue?_hexDigit (n := n / 16) (by omega)
  have hlow := Bytes.hexDigitValue?_hexDigit (n := n % 16) (by omega)
  have hvalue : ((16 * 0 + 0) * 16 + n / 16) * 16 + n % 16 = n := by omega
  simp only [hexQuad, hzero, hhigh, hlow, hvalue]

theorem codePoint_control {b : UInt8} (hb : b < 0x20) (rest : Bytes) :
    codePoint (0x30 :: 0x30 :: Bytes.hexDigit (b.toNat / 16) :: Bytes.hexDigit (b.toNat % 16) ::
      rest) = .ok ([b], rest) := by
  have hsmall : b.toNat < 0x20 := hb
  have hlow : isLowSurrogate b.toNat = false := by
    simp only [isLowSurrogate, Bool.and_eq_false_imp, decide_eq_true_eq, decide_eq_false_iff_not]
    omega
  have hhigh : isHighSurrogate b.toNat = false := by
    simp only [isHighSurrogate, Bool.and_eq_false_imp, decide_eq_true_eq, decide_eq_false_iff_not]
    omega
  simp [codePoint, hexQuad_hexDigit (n := b.toNat) (by omega), hlow, hhigh,
    utf8EncodeChar_ofNat hsmall]

theorem text_escape {s after bytes : Bytes} (h : escape s = .ok (bytes, after)) (read : Bytes) :
    text read (0x5c :: s) = text (bytes.reverse ++ read) after := by
  rw [text, if_neg (by decide), if_pos rfl]
  split
  · next hfault => cases h.symm.trans hfault
  · next hfound =>
    cases h.symm.trans hfound
    rfl

/-- What stands for an octet is read as that octet. -/
theorem text_escapeByte (read : Bytes) (b : UInt8) (s : Bytes) :
    text read (escapeByte b ++ s) = text (b :: read) s := by
  have hescape (letter : UInt8) (h : escape (letter :: s) = .ok ([b], s)) :
      text read ([0x5c, letter] ++ s) = text (b :: read) s := text_escape h read
  unfold escapeByte
  split
  · next h => exact hescape 0x22 (by simp [escape, h])
  split
  · next h => exact hescape 0x5c (by simp [escape, h])
  split
  · next h => exact hescape 0x62 (by simp [escape, h])
  split
  · next h => exact hescape 0x66 (by simp [escape, h])
  split
  · next h => exact hescape 0x6e (by simp [escape, h])
  split
  · next h => exact hescape 0x72 (by simp [escape, h])
  split
  · next h => exact hescape 0x74 (by simp [escape, h])
  split
  · next hcontrol =>
    have hfound : escape ([0x75, 0x30, 0x30, Bytes.hexDigit (b.toNat / 16),
        Bytes.hexDigit (b.toNat % 16)] ++ s) = .ok ([b], s) := by
      simpa [escape] using codePoint_control hcontrol s
    exact text_escape hfound read
  · next hquote hslash _ _ _ _ _ hcontrol =>
    rw [List.cons_append, List.nil_append, text, if_neg hquote, if_neg hslash, if_neg hcontrol]

theorem text_flatMap_escapeByte {bytes : Bytes} {value : String} (read : Bytes)
    (hvalid : Bytes.toString? (read.reverse ++ bytes) = some value) (rest : Bytes) :
    text read (bytes.flatMap escapeByte ++ 0x22 :: rest) = .ok (value, rest) := by
  induction bytes generalizing read with
  | nil =>
    rw [List.append_nil] at hvalid
    rw [List.flatMap_nil, List.nil_append, text, if_pos rfl, hvalid]
  | cons b bytes ih =>
    rw [List.flatMap_cons, List.append_assoc, text_escapeByte]
    exact ih (b :: read) (by simpa using hvalid)

/-- After its opening quote a written string is read as itself. -/
theorem text_ofString (s : String) (rest : Bytes) :
    text [] ((Bytes.ofString s).flatMap escapeByte ++ 0x22 :: rest) = .ok (s, rest) := by
  refine text_flatMap_escapeByte [] ?_ rest
  rw [List.reverse_nil, List.nil_append, Bytes.toString?_ofString]

theorem stringBytes_append (s : String) (rest : Bytes) :
    stringBytes s ++ rest =
      0x22 :: ((Bytes.ofString s).flatMap escapeByte ++ 0x22 :: rest) := by
  simp [stringBytes]

end Json

end GelfCourier
