import GelfCourier.Proofs.Text.Trim
import GelfCourier.Record.Encoder

/-!
The text of a log call survives in its message but for the blanks around it. The short message is
the first line, and the full message is empty just where that line is all there is. Both ends of a
trimmed text are not blank and a line break is, so there is something before the first break and
behind it.
-/

set_option autoImplicit false

namespace GelfCourier

/-- The text as far as the message has it. -/
def Message.text (message : Message) : String :=
  if message.fullMessage = "" then message.shortMessage else message.fullMessage

namespace Encoder

variable {text : List Char}

theorem newline_not_mem_shortText (text : List Char) : '\n' ∉ shortText text := by
  intro hmem
  simpa using List.mem_takeWhile_imp hmem

theorem shortText_of_one_line (hline : '\n' ∉ Text.trim text) :
    shortText text = Text.trim text := by
  refine List.takeWhile_eq_self_iff.mpr fun c hc ↦ ?_
  have hne : c ≠ '\n' := fun hc' ↦ hline (hc' ▸ hc)
  simpa using hne

theorem fullText_of_one_line (hline : '\n' ∉ Text.trim text) : fullText text = [] :=
  if_neg hline

theorem fullText_of_lines (hlines : '\n' ∈ Text.trim text) : fullText text = Text.trim text :=
  if_pos hlines

theorem fullText_eq_nil_iff : fullText text = [] ↔ '\n' ∉ Text.trim text := by
  refine ⟨fun hnil hlines ↦ ?_, fullText_of_one_line⟩
  rw [fullText_of_lines hlines] at hnil
  rw [hnil] at hlines
  cases hlines

/-- The first line break of a text has more text behind it. -/
theorem exists_trim_eq (hlines : '\n' ∈ Text.trim text) :
    ∃ rest : List Char, rest ≠ [] ∧ Text.trim text = shortText text ++ '\n' :: rest := by
  have hsplit : shortText text ++ (Text.trim text).dropWhile (· ≠ '\n') = Text.trim text :=
    List.takeWhile_append_dropWhile
  cases hdrop : (Text.trim text).dropWhile (· ≠ '\n') with
  | nil =>
    rw [hdrop, List.append_nil] at hsplit
    exact (newline_not_mem_shortText text (hsplit ▸ hlines)).elim
  | cons first rest =>
    have hfirst := List.head?_dropWhile_not (· ≠ '\n') (Text.trim text)
    rw [hdrop] at hfirst
    obtain rfl : first = '\n' := by simpa using hfirst
    rw [hdrop] at hsplit
    refine ⟨rest, ?_, hsplit.symm⟩
    rintro rfl
    have hlast := (Text.isTrimmed_trim text).last '\n' (by rw [← hsplit]; simp)
    cases hlast

theorem shortText_eq_nil_iff : shortText text = [] ↔ ∀ c ∈ text, Text.isBlank c = true := by
  rw [← Text.trim_eq_nil_iff]
  constructor
  · intro hnil
    by_cases hlines : '\n' ∈ Text.trim text
    · obtain ⟨rest, -, hsplit⟩ := exists_trim_eq hlines
      rw [hnil, List.nil_append] at hsplit
      have hfirst := (Text.isTrimmed_trim text).first '\n' (by rw [hsplit]; rfl)
      cases hfirst
    · exact (shortText_of_one_line hlines).symm.trans hnil
  · intro hnil
    rw [shortText, hnil]
    rfl

theorem shortText_trim (text : List Char) : shortText (Text.trim text) = shortText text := by
  rw [shortText, Text.trim_trim, ← shortText]

theorem fullText_trim (text : List Char) : fullText (Text.trim text) = fullText text := by
  rw [fullText, Text.trim_trim, ← fullText]

/-- A message has all of the trimmed text. -/
theorem text_encode (encoder : Encoder) (record : Record) :
    (encoder.encode record).text = Text.trimString record.message := by
  unfold Message.text encode Text.trimString
  by_cases hlines : '\n' ∈ Text.trim record.message.toList
  · have hne : String.ofList (fullText record.message.toList) ≠ "" := by
      intro hempty
      have hnil := congrArg String.toList hempty
      rw [String.toList_ofList] at hnil
      exact fullText_eq_nil_iff.mp hnil hlines
    rw [if_neg hne, fullText_of_lines hlines]
  · rw [fullText_of_one_line hlines, if_pos rfl, shortText_of_one_line hlines]

/-- How the text of a log call is divided. -/
structure Divides (text short full : List Char) : Prop where
  /-- What trimming leaves is the text without the blanks around it. -/
  core : ∀ core, Text.IsCore core text ↔ core = Text.trim text
  line : '\n' ∉ short
  full_eq_nil_iff : full = [] ↔ '\n' ∉ Text.trim text
  alone : full = [] → short = Text.trim text
  split : full ≠ [] → full = Text.trim text ∧ ∃ rest, rest ≠ [] ∧ full = short ++ '\n' :: rest
  short_eq_nil_iff : short = [] ↔ ∀ c ∈ text, Text.isBlank c = true

theorem divides_shortText (text : List Char) :
    Divides text (shortText text) (fullText text) where
  core := fun _ ↦ Text.isCore_iff
  line := newline_not_mem_shortText text
  full_eq_nil_iff := fullText_eq_nil_iff
  alone := fun hnil ↦ shortText_of_one_line (fullText_eq_nil_iff.mp hnil)
  split := by
    intro hne
    have hlines : '\n' ∈ Text.trim text := by
      by_contra hline
      exact hne (fullText_of_one_line hline)
    rw [fullText_of_lines hlines]
    exact ⟨rfl, exists_trim_eq hlines⟩
  short_eq_nil_iff := shortText_eq_nil_iff

/-- Only blanks around the text of a log call are lost, and a log call of the text that its message
has is divided in the same way, by any encoder. -/
theorem divides_encode (encoder : Encoder) (record : Record) :
    Divides record.message.toList (encoder.encode record).shortMessage.toList
        (encoder.encode record).fullMessage.toList ∧
      ∀ (other : Encoder) (again : Record),
        let message := other.encode { again with message := (encoder.encode record).text }
        message.shortMessage = (encoder.encode record).shortMessage ∧
          message.fullMessage = (encoder.encode record).fullMessage := by
  refine ⟨?_, fun other again ↦ ?_⟩
  · have hdivides := divides_shortText record.message.toList
    unfold encode
    rw [String.toList_ofList, String.toList_ofList]
    exact hdivides
  · rw [text_encode]
    unfold encode Text.trimString
    simp only [String.toList_ofList, shortText_trim, fullText_trim, and_self]

example : shortText "\u3000disk full\r\n\n on sda \t".toList = "disk full\r".toList ∧
    fullText "\u3000disk full\r\n\n on sda \t".toList = "disk full\r\n\n on sda".toList := by
  decide

end Encoder

end GelfCourier
