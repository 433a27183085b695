import GelfCourier.Datagram.Sending
import GelfCourier.Proofs.Concurrent.Numbered
import GelfCourier.Proofs.Datagram.Chunks
import Mathlib.Algebra.Order.Floor.Div
import Mathlib.GroupTheory.GroupAction.Ring

/-!
How large the datagrams of a payload are, and what stands where in them. The number of chunks is
found by a division, and the chunks by cutting pieces off the payload; both come to the same number
for every length (`length_pieces_of_count`), so that no chunk is empty and none is missing. The
limits of one datagram and of 255 chunks are exact.
-/

set_option autoImplicit false

namespace GelfCourier.Datagram

/-! ### The number of chunks -/

section Count

variable {length : Nat}

theorem count_eq_ceilDiv (hlarge : 1420 < length) : count length = length ⌈/⌉ 1408 :=
  (count_of_lt hlarge).trans (Nat.ceilDiv_eq_add_pred_div length 1408).symm

theorem two_le_count (hlarge : 1420 < length) : 2 ≤ count length := by
  rw [count_of_lt hlarge, chunkSize_eq]
  omega

theorem maxChunks_lt_count (hlength : 255 * 1408 < length) : maxChunks < count length := by
  rw [count_of_lt (by unfold maxSize; omega), chunkSize_eq]
  unfold maxChunks
  omega

/-- The chunks before the last are not enough. -/
theorem pred_count_mul_lt (hlarge : 1420 < length) : (count length - 1) * 1408 < length := by
  rw [count_of_lt hlarge, chunkSize_eq]
  omega

end Count

/-! ### Pieces cut off for as long as there are any -/

theorem getElem_pieces {size : Nat} (hsize : 0 < size) {data : Bytes} {index : Nat}
    (hindex : index < (pieces size data).length) :
    (pieces size data)[index] = (data.drop (size * index)).take size := by
  obtain ⟨less, rfl⟩ : ∃ less, size = less + 1 := ⟨size - 1, by omega⟩
  induction data using pieces.induct (less + 1) generalizing index with
  | case1 =>
    rw [pieces] at hindex
    cases hindex
  | case2 octet rest ih =>
    have hcut : pieces (less + 1) (octet :: rest) =
        (octet :: rest.take less) :: pieces (less + 1) (rest.drop less) := by
      rw [pieces]
      rfl
    cases index with
    | zero =>
      rw [List.getElem_of_eq hcut]
      rfl
    | succ index =>
      have hlater : index < (pieces (less + 1) (rest.drop less)).length := by
        rw [hcut, List.length_cons] at hindex
        omega
      have hdrop : (octet :: rest).drop ((less + 1) * (index + 1)) =
          (rest.drop less).drop ((less + 1) * index) := by
        rw [Nat.mul_succ, Nat.add_comm, ← List.drop_drop]
        rfl
      rw [List.getElem_of_eq hcut, List.getElem_cons_succ, hdrop]
      exact ih hlater

/-! ### Chunks one by one -/

section Chunks

variable {id : Id} {payload : Bytes}

theorem getElem_chunks {total index : Nat} (hindex : index < (chunks id total payload).length) :
    (chunks id total payload)[index] =
      header id index total ++ payload.extract (1408 * index)
        (min (1408 * (index + 1)) payload.length) := by
  have hpiece : index < (pieces chunkSize payload).length := by
    rwa [length_chunks] at hindex
  have hwidth : min (1408 * (index + 1)) payload.length - 1408 * index =
      min 1408 (payload.length - 1408 * index) := by
    omega
  have hslice : (payload.drop (chunkSize * index)).take chunkSize =
      payload.extract (1408 * index) (min (1408 * (index + 1)) payload.length) := by
    rw [List.extract_eq_take_drop, hwidth, chunkSize_eq, ← List.length_drop, ← List.take_take,
      List.take_length]
  have hmapped : (chunks id total payload)[index] =
      header id index total ++ (pieces chunkSize payload)[index] :=
    List.getElem_mapIdx
  rw [hmapped, getElem_pieces (by decide) hpiece, hslice]

/-- Behind their headers the chunks are the pieces. -/
theorem map_drop_chunks (id : Id) (total : Nat) (payload : Bytes) :
    (chunks id total payload).map (·.drop headerSize) = pieces chunkSize payload := by
  refine List.ext_getElem (by simp) fun index hleft hright ↦ ?_
  rw [List.getElem_map]
  unfold chunks
  rw [List.getElem_mapIdx, List.drop_left' (length_header _ _ _)]

/-- What the datagrams of a payload are that does not fit in one. -/
structure Chunked (id : Id) (payload : Bytes) (datagrams : List Bytes) : Prop where
  length_eq : datagrams.length = payload.length ⌈/⌉ 1408
  two_le : 2 ≤ datagrams.length
  le_max : datagrams.length ≤ 255
  datagram_eq : ∀ index (hindex : index < datagrams.length), datagrams[index] =
    [0x1e, 0x0f] ++ id.toList ++ [index.toUInt8, datagrams.length.toUInt8] ++
      payload.extract (1408 * index) (min (1408 * (index + 1)) payload.length)
  /-- The index and the number of chunks stand whole in their octets. -/
  octets : ∀ index < datagrams.length, index.toUInt8.toNat = index ∧
    datagrams.length.toUInt8.toNat = datagrams.length
  full : ∀ index (hindex : index < datagrams.length), index + 1 ≠ datagrams.length →
    datagrams[index].length = 1420
  last : ∀ index (hindex : index < datagrams.length), index + 1 = datagrams.length →
    13 ≤ datagrams[index].length ∧ datagrams[index].length ≤ 1420
  /-- Behind their headers they are the pieces cut off for as long as there are any. -/
  sliced : datagrams.map (·.drop 12) = pieces 1408 payload
  whole : datagrams.flatMap (·.drop 12) = payload

/-- Assumes: a payload that is too large for one datagram, and not for 255 chunks. -/
theorem chunked_chunks (hlarge : 1420 < payload.length) (hlength : payload.length ≤ 255 * 1408) :
    Chunked id payload (chunks id (count payload.length) payload) := by
  have hmany := two_le_count hlarge
  have hmax : count payload.length ≤ 255 := count_le_maxChunks hlength
  have hpred := pred_count_mul_lt hlarge
  have hall : (chunks id (count payload.length) payload).length = count payload.length := by
    rw [length_chunks, length_pieces_of_count (by omega)]
  have hwidth : ∀ index (hindex : index < (chunks id (count payload.length) payload).length),
      (chunks id (count payload.length) payload)[index].length =
        12 + (min (1408 * (index + 1)) payload.length - 1408 * index) := by
    intro index hindex
    rw [getElem_chunks hindex, List.length_append, length_header, List.extract_eq_take_drop,
      List.length_take, List.length_drop]
    unfold headerSize
    omega
  have hcontents := map_drop_chunks id (count payload.length) payload
  constructor
  case length_eq => rw [hall, count_eq_ceilDiv hlarge]
  case two_le => rwa [hall]
  case le_max => rwa [hall]
  case datagram_eq =>
    intro index hindex
    rw [getElem_chunks hindex, hall]
    rfl
  case octets =>
    intro index hindex
    rw [hall] at hindex ⊢
    have htotal : count payload.length < 256 := by omega
    exact ⟨UInt8.toNat_ofNat_of_lt' (Nat.lt_trans hindex htotal), UInt8.toNat_ofNat_of_lt' htotal⟩
  case full =>
    intro index hindex hnotLast
    rw [hwidth index hindex]
    rw [hall] at hindex hnotLast
    omega
  case last =>
    intro index hindex hlast
    rw [hwidth index hindex]
    rw [hall] at hlast
    omega
  case sliced => exact hcontents
  case whole =>
    rw [List.flatMap_def]
    exact (congrArg List.flatten hcontents).trans (flatten_pieces chunkSize payload)

end Chunks

/-! ### Payloads of any length -/

section Split

variable {id : Id} {payload : Bytes}

theorem split_of_small (hsmall : payload.length ≤ 1420) : split id payload = .ok [payload] := by
  have hone : count payload.length = 1 := count_of_le hsmall
  simp only [split, hone]
  rfl

theorem split_of_large (hlarge : 1420 < payload.length)
    (hlength : payload.length ≤ 255 * 1408) :
    split id payload = .ok (chunks id (count payload.length) payload) := by
  have hmany := two_le_count hlarge
  have hmax : ¬ maxChunks < count payload.length := Nat.not_lt.mpr (count_le_maxChunks hlength)
  have hseveral : ¬ count payload.length = 1 := by omega
  simp only [split, if_neg hmax, if_neg hseveral]

theorem split_of_excess (hexcess : 255 * 1408 < payload.length) :
    split id payload = .error (payload.length ⌈/⌉ 1408) := by
  have hmax := maxChunks_lt_count hexcess
  have hcount : count payload.length = payload.length ⌈/⌉ 1408 := count_eq_ceilDiv (by omega)
  rw [split, if_pos hmax, hcount]

/-- What cutting a payload comes to, by the length of the payload. -/
structure Cut (id : Id) (payload : Bytes) : Prop where
  whole : payload.length ≤ 1420 → split id payload = .ok [payload]
  chunked : 1420 < payload.length → payload.length ≤ 255 * 1408 →
    ∃ datagrams, split id payload = .ok datagrams ∧ Chunked id payload datagrams
  refused : 255 * 1408 < payload.length →
    split id payload = .error (payload.length ⌈/⌉ 1408)
  /-- A send of it is then over with a fault that tells how many chunks it would take. -/
  told : 255 * 1408 < payload.length → ∀ (transport : Transport) number,
    transport.task? number = none → (transport.beginSend number id payload).task? number =
      some ⟨number, .send [], .finished (.error (.tooManyChunks (payload.length ⌈/⌉ 1408)))⟩
  counted : ∀ datagrams, split id payload = .ok datagrams →
    datagrams.length = count payload.length

/-- A payload of any length is one datagram, or chunks of exactly these sizes, or refused. -/
theorem cut_of_split (id : Id) (payload : Bytes) : Cut id payload where
  whole := split_of_small
  chunked := fun hlarge hlength ↦ ⟨_, split_of_large hlarge hlength, chunked_chunks hlarge hlength⟩
  refused := split_of_excess
  told := by
    intro hexcess transport number hfresh
    simp only [Transport.beginSend, split_of_excess hexcess]
    exact (Numbered.find?_append_singleton Task.number transport.tasks
      ⟨number, .send [], .finished (.error (.tooManyChunks (payload.length ⌈/⌉ 1408)))⟩ number
      hfresh).trans (if_pos rfl)
  counted := fun _ hsplit ↦ length_of_split hsplit

/-- The first length that takes chunks takes two, and 255 full chunks are still sent. -/
example : count 1420 = 1 ∧ count 1421 = 2 ∧ count (255 * 1408) = 255 ∧
    count (255 * 1408 + 1) = 256 := by
  decide

end Split

end GelfCourier.Datagram
