import GelfCourier.Proofs.Json.PlainText
import GelfCourier.Stream.Frame

/-!
A stream of frames is read in one way only. No written form holds the octet that ends a frame, so
the pieces between these octets are the written forms of the messages, in order; what follows the
last of them is the beginning of a frame that has not arrived whole.
-/

set_option autoImplicit false

namespace GelfCourier

theorem Message.isPlain_toBytes (message : Message) : message.toBytes.IsPlain :=
  message.toTree.isPlain_write

theorem Message.toBytes_ne_nil (message : Message) : message.toBytes ≠ [] := by
  rw [Message.toBytes, Message.toTree, Json.Tree.write]
  exact List.cons_ne_nil _ _

namespace Stream

theorem terminator_not_mem_toBytes (message : Message) : terminator ∉ message.toBytes :=
  message.isPlain_toBytes.not_mem (by decide)

/-! ### Pieces that hold no terminator -/

section Pieces

variable {piece last : Bytes} {pieces : List Bytes}

theorem splitFrom_append (hpiece : terminator ∉ piece) (read rest : Bytes) :
    splitFrom read (piece ++ rest) = splitFrom (piece.reverse ++ read) rest := by
  induction piece generalizing read with
  | nil => rfl
  | cons b piece ih =>
    rw [List.mem_cons, not_or] at hpiece
    obtain ⟨hb, hrest⟩ := hpiece
    rw [List.cons_append, splitFrom, if_neg (Ne.symm hb), ih hrest]
    simp

theorem splitFrom_piece (hpiece : terminator ∉ piece) (rest : Bytes) :
    splitFrom [] (piece ++ terminator :: rest) =
      (piece :: (splitFrom [] rest).1, (splitFrom [] rest).2) := by
  rw [splitFrom_append hpiece, splitFrom, if_pos rfl]
  simp

theorem split_pieces (hpieces : ∀ piece ∈ pieces, terminator ∉ piece) (hlast : terminator ∉ last) :
    split (pieces.flatMap (· ++ [terminator]) ++ last) = (pieces, last) := by
  unfold split
  induction pieces with
  | nil =>
    rw [List.flatMap_nil, List.nil_append, ← List.append_nil last, splitFrom_append hlast]
    simp [splitFrom]
  | cons piece pieces ih =>
    obtain ⟨hpiece, hrest⟩ := List.forall_mem_cons.mp hpieces
    rw [List.flatMap_cons, List.append_assoc, List.append_assoc, List.singleton_append,
      splitFrom_piece hpiece, ih hrest]

theorem splitOn_pieces (hpieces : ∀ piece ∈ pieces, terminator ∉ piece)
    (hlast : terminator ∉ last) :
    (pieces.flatMap (· ++ [terminator]) ++ last).splitOn terminator = pieces ++ [last] := by
  induction pieces with
  | nil => exact List.splitOn_eq_singleton hlast
  | cons piece pieces ih =>
    obtain ⟨hpiece, hrest⟩ := List.forall_mem_cons.mp hpieces
    have hcut (rest : Bytes) : (piece ++ terminator :: rest).splitOn terminator =
        piece.splitOn terminator ++ rest.splitOn terminator :=
      List.splitOnP_append_cons piece rest BEq.rfl
    rw [List.flatMap_cons, List.append_assoc, List.append_assoc, List.singleton_append, hcut,
      List.splitOn_eq_singleton hpiece, ih hrest]
    rfl

end Pieces

/-! ### Frames -/

variable (messages : List Message)

theorem flatMap_frame :
    messages.flatMap frame = (messages.map Message.toBytes).flatMap (· ++ [terminator]) := by
  rw [List.flatMap_map]
  rfl

theorem terminator_not_mem_map :
    ∀ piece ∈ messages.map Message.toBytes, terminator ∉ piece := by
  rintro _ hpiece
  obtain ⟨message, -, rfl⟩ := List.mem_map.mp hpiece
  exact terminator_not_mem_toBytes message

/-- What has arrived of a frame that is not whole is no piece yet. -/
theorem split_frames_append {cut : Bytes} {message : Message} (hcut : cut <+: message.toBytes) :
    split (messages.flatMap frame ++ cut) = (messages.map Message.toBytes, cut) := by
  have hnone : terminator ∉ cut := fun hmem ↦
    terminator_not_mem_toBytes message (hcut.subset hmem)
  rw [flatMap_frame]
  exact split_pieces (terminator_not_mem_map messages) hnone

/-- The stream of any messages, cut at each terminator, is the list of their written forms and an
empty piece behind them. It splits in the same way when a part of one more frame follows, and no
written form is empty or holds an octet below the blank. -/
theorem splitOn_frames :
    (messages.flatMap frame).splitOn terminator = messages.map Message.toBytes ++ [[]] ∧
      (∀ next cut, cut <+: Message.toBytes next →
        split (messages.flatMap frame ++ cut) = (messages.map Message.toBytes, cut)) ∧
      ∀ message : Message, message.toBytes ≠ [] ∧ ∀ b ∈ message.toBytes, 0x20 ≤ b := by
  have hnone : terminator ∉ ([] : Bytes) := List.not_mem_nil
  have hwhole := splitOn_pieces (terminator_not_mem_map messages) hnone
  rw [List.append_nil, ← flatMap_frame] at hwhole
  exact ⟨hwhole, fun next cut hcut ↦ split_frames_append messages hcut,
    fun message ↦ ⟨message.toBytes_ne_nil, message.isPlain_toBytes⟩⟩

/-- Controls in a text and in a nested value are escaped, so one zero octet ends the frame. -/
example : (frame { shortMessage := "\x00a\n", extra := Fields.ofList [("_\x00",
    ⟨.array [.string "\x00\x1f"],
      by simp [Json.Tree.Canonical, Json.Tree.ItemsCanonical]⟩)] }).count 0 = 1 := by
  decide +kernel

end Stream

end GelfCourier
