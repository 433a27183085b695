import Mathlib.Data.List.DropRight
import GelfCourier.Text.Blank

/-!
A text is some blanks, a core that neither begins nor ends with a blank, and some blanks again.
This can be said of it in one way only, and trimming gives the core: it takes the blanks of both
ends away and nothing else.
-/

set_option autoImplicit false

namespace GelfCourier.Text

structure IsTrimmed (text : List Char) : Prop where
  first : ∀ c ∈ text.head?, isBlank c = false
  last : ∀ c ∈ text.getLast?, isBlank c = false

structure IsCore (core text : List Char) : Prop where
  trimmed : IsTrimmed core
  between : ∃ before after : List Char, text = before ++ (core ++ after) ∧
    (∀ c ∈ before, isBlank c = true) ∧ ∀ c ∈ after, isBlank c = true

variable {text core : List Char}

theorem trimEnd_eq (text : List Char) : trimEnd text = text.rdropWhile isBlank := rfl

theorem isTrimmed_trim (text : List Char) : IsTrimmed (trim text) where
  first := by
    intro c hc
    have hprefix : trim text <+: text.dropWhile isBlank := List.rdropWhile_prefix _ _
    obtain ⟨rest, hrest⟩ := List.head?_eq_some_iff.mp (Option.mem_def.mp hc)
    obtain ⟨after, hafter⟩ := hrest ▸ hprefix
    have hhead := List.head?_dropWhile_not isBlank text
    rw [← hafter] at hhead
    exact hhead
  last := by
    intro c hc
    obtain ⟨hne, rfl⟩ := List.mem_getLast?_eq_getLast hc
    exact Bool.eq_false_iff.mpr (List.rdropWhile_last_not isBlank _ hne)

theorem isCore_trim (text : List Char) : IsCore (trim text) text where
  trimmed := isTrimmed_trim text
  between := by
    refine ⟨text.takeWhile isBlank, (text.dropWhile isBlank).rtakeWhile isBlank, ?_,
      fun _ hc ↦ List.mem_takeWhile_imp hc, fun _ hc ↦ List.mem_rtakeWhile_imp hc⟩
    rw [trim, trimEnd_eq, List.rdropWhile_append_rtakeWhile, List.takeWhile_append_dropWhile]

theorem trimEnd_of_isTrimmed (h : IsTrimmed text) : trimEnd text = text := by
  refine List.rdropWhile_eq_self_iff.mpr fun hne ↦ ?_
  rw [h.last _ (List.getLast?_eq_some_getLast hne)]
  exact Bool.false_ne_true

theorem trimEnd_append (text : List Char) {after : List Char}
    (hafter : ∀ c ∈ after, isBlank c = true) : trimEnd (text ++ after) = trimEnd text := by
  have hreverse : ∀ c ∈ after.reverse, isBlank c = true := fun c hc ↦
    hafter c (List.mem_reverse.mp hc)
  unfold trimEnd
  rw [List.reverse_append, List.dropWhile_append_of_pos hreverse]

theorem trim_append {before : List Char} (hbefore : ∀ c ∈ before, isBlank c = true)
    (text : List Char) : trim (before ++ text) = trim text := by
  unfold trim
  rw [List.dropWhile_append_of_pos hbefore]

theorem trim_eq_nil_iff : trim text = [] ↔ ∀ c ∈ text, isBlank c = true := by
  constructor
  · intro hnil
    obtain ⟨before, after, htext, hbefore, hafter⟩ := (isCore_trim text).between
    rw [htext, hnil, List.nil_append]
    exact List.forall_mem_append.mpr ⟨hbefore, hafter⟩
  · intro hblank
    have hdrop : text.dropWhile isBlank = [] := List.dropWhile_eq_nil_iff.mpr hblank
    rw [trim, hdrop]
    rfl

/-- The core of a text is what trimming gives. -/
theorem IsCore.eq_trim (h : IsCore core text) : core = trim text := by
  obtain ⟨htrimmed, before, after, rfl, hbefore, hafter⟩ := h
  rw [trim_append hbefore]
  cases core with
  | nil => exact (trim_eq_nil_iff.mpr hafter).symm
  | cons first rest =>
    have hfirst : ¬ isBlank first = true := by
      rw [htrimmed.first first rfl]
      exact Bool.false_ne_true
    rw [trim, List.cons_append, List.dropWhile_cons_of_neg hfirst, ← List.cons_append,
      trimEnd_append _ hafter, trimEnd_of_isTrimmed htrimmed]

theorem isCore_iff : IsCore core text ↔ core = trim text :=
  ⟨IsCore.eq_trim, fun hcore ↦ hcore ▸ isCore_trim text⟩

theorem trim_of_isTrimmed (h : IsTrimmed text) : trim text = text := by
  have hcore : IsCore text text :=
    ⟨h, [], [], (List.append_nil text).symm, fun _ hc ↦ (nomatch hc), fun _ hc ↦ (nomatch hc)⟩
  exact hcore.eq_trim.symm

@[simp] theorem trim_trim (text : List Char) : trim (trim text) = trim text :=
  trim_of_isTrimmed (isTrimmed_trim text)

end GelfCourier.Text
