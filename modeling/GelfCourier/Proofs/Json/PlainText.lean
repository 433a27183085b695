import GelfCourier.Json.Writer
import GelfCourier.Proofs.Json.NumberToken

/-!
Written values are plain: none of their octets is below the blank. Inside strings every such octet
is escaped, and what stands around strings is brackets, commas, colons, words and numbers. So an
octet below the blank never occurs in a value and may stand between values (`isPlain_write`).
-/

set_option autoImplicit false

namespace GelfCourier

/-! ### Plain octets -/

/-- None of the octets is below the blank. -/
def Bytes.IsPlain (s : Bytes) : Prop :=
  ∀ b ∈ s, 0x20 ≤ b

instance (s : Bytes) : Decidable s.IsPlain :=
  List.decidableBAll (fun b ↦ 0x20 ≤ b) s

namespace Bytes

variable {s t : Bytes}

@[simp] theorem isPlain_append : (s ++ t).IsPlain ↔ s.IsPlain ∧ t.IsPlain :=
  List.forall_mem_append

@[simp] theorem isPlain_cons {b : UInt8} : IsPlain (b :: s) ↔ 0x20 ≤ b ∧ s.IsPlain :=
  List.forall_mem_cons

@[simp] theorem isPlain_nil : IsPlain [] :=
  fun _ hb ↦ nomatch hb

theorem IsPlain.subset (h : t.IsPlain) (hsubset : s ⊆ t) : s.IsPlain :=
  fun b hb ↦ h b (hsubset hb)

theorem IsPlain.flatMap {α : Type} {list : List α} {write : α → Bytes}
    (h : ∀ item ∈ list, (write item).IsPlain) : IsPlain (list.flatMap write) := by
  intro b hb
  obtain ⟨item, hitem, hwritten⟩ := List.mem_flatMap.mp hb
  exact h item hitem b hwritten

theorem IsPlain.not_mem {b : UInt8} (h : s.IsPlain) (hb : b < 0x20) : b ∉ s :=
  fun hmem ↦ absurd (h b hmem) (UInt8.not_le.mpr hb)

theorem le_hexDigit {n : Nat} (hn : n < 16) : 0x20 ≤ hexDigit n := by
  have hall : ∀ digit < 16, 0x20 ≤ hexDigit digit := by decide
  exact hall n hn

end Bytes

namespace Json

open Bytes (IsPlain isPlain_append isPlain_cons)

/-! ### Strings -/

theorem isPlain_escapeByte (b : UInt8) : (escapeByte b).IsPlain := by
  unfold escapeByte
  iterate 7
    split
    · decide
  split
  · next hcontrol =>
    have hsmall : b.toNat < 0x20 := hcontrol
    have hhigh := Bytes.le_hexDigit (n := b.toNat / 16) (by omega)
    have hlow := Bytes.le_hexDigit (n := b.toNat % 16) (by omega)
    simp [hhigh, hlow]
  · next hnone => simpa using hnone

theorem isPlain_stringBytes (s : String) : (stringBytes s).IsPlain := by
  unfold stringBytes
  rw [isPlain_append, isPlain_cons]
  exact ⟨⟨by decide, .flatMap fun b _ ↦ isPlain_escapeByte b⟩, by decide⟩

/-! ### Numbers -/

theorem isPlain_of_isDigit {s : Bytes} (h : ∀ b ∈ s, isDigit b = true) : s.IsPlain := by
  intro b hb
  have hdigit := h b hb
  simp only [isDigit, Bool.and_eq_true, decide_eq_true_eq] at hdigit
  exact UInt8.le_trans (by decide) hdigit.1

theorem isPlain_naturalBytes (n : Nat) : (naturalBytes n).IsPlain :=
  isPlain_of_isDigit fun _ hb ↦ isDigit_of_mem_naturalBytes hb

theorem isPlain_zeros (count : Nat) : (zeros count).IsPlain := by
  intro b hb
  rw [List.eq_of_mem_replicate hb]
  decide

theorem isPlain_positional {ds : Bytes} (h : ds.IsPlain) (leading : Int) :
    (positional ds leading).IsPlain := by
  have htake (count : Nat) : IsPlain (ds.take count) := h.subset (List.take_subset count ds)
  have hdrop (count : Nat) : IsPlain (ds.drop count) := h.subset (List.drop_subset count ds)
  unfold positional
  split
  · simp [isPlain_zeros, h]
  · dsimp only
    split
    · simp [isPlain_zeros, h]
    · simp [htake, hdrop]

theorem isPlain_scientific {ds : Bytes} (h : ds.IsPlain) (leading : Int) :
    (scientific ds leading).IsPlain := by
  have hsign : (0x20 : UInt8) ≤ if leading < 0 then 0x2d else 0x2b := by split <;> decide
  unfold scientific
  dsimp only
  rw [isPlain_append, isPlain_append, isPlain_cons, isPlain_cons]
  refine ⟨⟨?_, by decide, hsign, Bytes.isPlain_nil⟩, isPlain_naturalBytes _⟩
  split
  · rw [isPlain_cons] at h
    exact isPlain_cons.mpr ⟨h.1, isPlain_cons.mpr ⟨by decide, h.2⟩⟩
  · exact h

theorem isPlain_decimalBytes (d : Decimal) : (decimalBytes d).IsPlain := by
  unfold decimalBytes
  dsimp only
  split
  · exact isPlain_positional (isPlain_naturalBytes _) _
  · exact isPlain_scientific (isPlain_naturalBytes _) _

theorem isPlain_floatBytes (x : Binary64) : (floatBytes x).IsPlain := by
  unfold floatBytes
  split
  · next negative significand exponent hcanonical =>
    have hbody : IsPlain (if significand = 0 then [0x30, 0x2e, 0x30]
        else decimalBytes (Decimal.shortest significand exponent)) := by
      split
      · decide
      · exact isPlain_decimalBytes _
    dsimp only
    split
    · exact isPlain_cons.mpr ⟨by decide, hbody⟩
    · exact hbody
  · decide

theorem isPlain_integerBytes (n : Int) : (integerBytes n).IsPlain := by
  unfold integerBytes
  split
  · exact isPlain_cons.mpr ⟨by decide, isPlain_naturalBytes _⟩
  · exact isPlain_naturalBytes _

theorem Number.isPlain_bytes (n : Number) : n.bytes.IsPlain := by
  cases n with
  | integer value inRange => exact isPlain_integerBytes value
  | float value isFinite => exact isPlain_floatBytes value

/-! ### Values -/

namespace Tree

mutual

/-- The written form of a value holds no octet below the blank. -/
theorem isPlain_write : ∀ tree : Tree, tree.write.IsPlain
  | .null => by decide
  | .bool true => by decide
  | .bool false => by decide
  | .number n => n.isPlain_bytes
  | .string s => isPlain_stringBytes s
  | .array items => by
    rw [write, isPlain_append, isPlain_cons]
    exact ⟨⟨by decide, isPlain_writeItems items⟩, by decide⟩
  | .object members => by
    rw [write, isPlain_append, isPlain_cons]
    exact ⟨⟨by decide, isPlain_writeMembers members⟩, by decide⟩

theorem isPlain_writeItems : ∀ items : List Tree, (writeItems items).IsPlain
  | [] => Bytes.isPlain_nil
  | [item] => item.isPlain_write
  | item :: next :: rest => by
    rw [writeItems, isPlain_append, isPlain_cons]
    · exact ⟨item.isPlain_write, by decide, isPlain_writeItems (next :: rest)⟩
    · simp

theorem isPlain_writeMembers : ∀ members : List (String × Tree), (writeMembers members).IsPlain
  | [] => Bytes.isPlain_nil
  | [(name, value)] => by
    rw [writeMembers, isPlain_append, isPlain_cons]
    exact ⟨isPlain_stringBytes name, by decide, value.isPlain_write⟩
  | (name, value) :: next :: rest => by
    rw [writeMembers, isPlain_append, isPlain_append, isPlain_cons, isPlain_cons]
    · exact ⟨⟨isPlain_stringBytes name, by decide, value.isPlain_write⟩, by decide,
        isPlain_writeMembers (next :: rest)⟩
    · simp

end

end Tree

end Json

end GelfCourier
