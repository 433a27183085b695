import GelfCourier.Proofs.Datagram.Chunks

/-!
Messages put together again, whatever order their datagrams arrive in. Payloads are cut under
identifiers of their own, and all the datagrams of all of them reach a collector, each once, in any
order. Every payload comes out once, nothing else does, and no chunk is left behind
(`receiveAll_of_perm`).

An account of the arrivals carries the proof (`Pending`). The chunks that the collector holds and
the datagrams that are still to arrive are the datagrams of the payloads that are still due, and a
payload is not due any more once its last chunk is there.
-/

set_option autoImplicit false

namespace GelfCourier.Datagram

/-! ### Arrivals -/

/-- A datagram as the collector takes it. -/
inductive Arrival where
  | whole (payload : Bytes)
  | part (chunk : Chunk)
  deriving DecidableEq

namespace Arrival

def ofDatagram (datagram : Bytes) : Arrival :=
  ((Chunk.ofDatagram? datagram).map part).getD (whole datagram)

/-- The chunk that arrives, if it is one of the identifier. -/
def chunkOf? (id : Bytes) : Arrival → Option Chunk
  | part chunk => if chunk.id = id then some chunk else none
  | whole _ => none

@[simp] theorem filterMap_chunkOf?_map_part (id : Bytes) (chunks : List Chunk) :
    (chunks.map part).filterMap (chunkOf? id) = chunks.filter fun chunk ↦ chunk.id = id := by
  induction chunks with
  | nil => rfl
  | cons chunk rest ih =>
    rw [List.map_cons, List.filter_cons]
    by_cases hid : chunk.id = id <;> simp [chunkOf?, hid, ih]

theorem of_mem_filterMap_chunkOf? {id : Bytes} {arrivals : List Arrival} {chunk : Chunk}
    (hchunk : chunk ∈ arrivals.filterMap (chunkOf? id)) :
    part chunk ∈ arrivals ∧ chunk.id = id := by
  obtain ⟨arrival, harrival, hsome⟩ := List.mem_filterMap.mp hchunk
  cases arrival with
  | whole payload => cases hsome
  | part other =>
    obtain ⟨hid, hsame⟩ := Option.ite_none_right_eq_some.mp hsome
    cases hsame
    exact ⟨harrival, hid⟩

end Arrival

/-! ### Parcels -/

/-- A payload and the identifier that it is cut under. -/
structure Parcel where
  id : Id
  payload : Bytes
  deriving DecidableEq

namespace Parcel

variable (parcel : Parcel)

def count : Nat :=
  Datagram.count parcel.payload.length

def datagrams : List Bytes :=
  if parcel.count = 1 then [parcel.payload] else chunks parcel.id parcel.count parcel.payload

def parts : List Chunk :=
  Datagram.parts parcel.id parcel.count parcel.payload

/-- What the collector takes the datagrams for. -/
def arrivals : List Arrival :=
  if parcel.count = 1 then [.whole parcel.payload] else parcel.parts.map .part

/-- The payload fits the chunks there may be, and begins as gzip does. -/
structure Fits : Prop where
  length_le : parcel.payload.length ≤ maxChunks * chunkSize
  isPacked : [0x1f, 0x8b] <+: parcel.payload

variable {parcel}

theorem split_eq (h : parcel.Fits) : split parcel.id parcel.payload = .ok parcel.datagrams := by
  have hcount : ¬ maxChunks < parcel.count := Nat.not_lt.mpr (count_le_maxChunks h.length_le)
  have hsplit : split parcel.id parcel.payload =
      if maxChunks < parcel.count then .error parcel.count
      else if parcel.count = 1 then .ok [parcel.payload]
      else .ok (chunks parcel.id parcel.count parcel.payload) := rfl
  rw [hsplit, if_neg hcount, datagrams]
  split <;> rfl

theorem length_datagrams : parcel.datagrams.length = parcel.count := by
  unfold datagrams
  split
  · next hone => rw [hone, List.length_singleton]
  · next hcount => rw [length_chunks, length_pieces_of_count hcount, count]

theorem map_ofDatagram_datagrams (h : parcel.Fits) :
    parcel.datagrams.map Arrival.ofDatagram = parcel.arrivals := by
  unfold datagrams arrivals
  by_cases hone : parcel.count = 1
  · rw [if_pos hone, if_pos hone, List.map_singleton, Arrival.ofDatagram,
      Chunk.ofDatagram?_eq_none h.isPacked]
    rfl
  · have htotal : parcel.count < 256 := Nat.lt_succ_of_le (count_le_maxChunks h.length_le)
    rw [if_neg hone, if_neg hone, parts]
    refine List.ext_getElem (by simp [chunks]) fun index hleft hright ↦ ?_
    have hpieces := Nat.le_of_eq (length_pieces_of_count hone)
    have hread := List.getElem_of_eq (map_ofDatagram?_chunks parcel.id parcel.payload htotal hpieces)
      (by simpa using hleft)
    rw [List.getElem_map, List.getElem_map] at hread
    rw [List.getElem_map, List.getElem_map, Arrival.ofDatagram, hread]
    rfl

theorem eq_whole {payload : Bytes} (hmem : .whole payload ∈ parcel.arrivals) :
    parcel.payload = payload ∧ parcel.arrivals = [.whole payload] := by
  unfold arrivals at hmem ⊢
  by_cases hone : parcel.count = 1
  · rw [if_pos hone, List.mem_singleton] at hmem
    cases hmem
    exact ⟨rfl, if_pos hone⟩
  · rw [if_neg hone] at hmem
    simp at hmem

theorem mem_parts {chunk : Chunk} (hmem : .part chunk ∈ parcel.arrivals) :
    parcel.count ≠ 1 ∧ chunk ∈ parcel.parts := by
  unfold arrivals at hmem
  by_cases hone : parcel.count = 1
  · rw [if_pos hone] at hmem
    simp at hmem
  · rw [if_neg hone] at hmem
    exact ⟨hone, by simpa using hmem⟩

theorem id_of_mem_arrivals {chunk : Chunk} (hmem : .part chunk ∈ parcel.arrivals) :
    chunk.id = parcel.id.toList :=
  (of_mem_parts (mem_parts hmem).2).1

theorem arrivals_eq (hcount : parcel.count ≠ 1) : parcel.arrivals = parcel.parts.map .part :=
  if_neg hcount

theorem filterMap_chunkOf?_arrivals (hcount : parcel.count ≠ 1) :
    parcel.arrivals.filterMap (Arrival.chunkOf? parcel.id.toList) = parcel.parts := by
  rw [arrivals_eq hcount, Arrival.filterMap_chunkOf?_map_part]
  exact List.filter_eq_self.mpr fun chunk hchunk ↦ decide_eq_true (of_mem_parts hchunk).1

theorem filterMap_chunkOf?_of_ne {id : Id} (hid : parcel.id ≠ id) :
    parcel.arrivals.filterMap (Arrival.chunkOf? id.toList) = [] := by
  refine List.eq_nil_iff_forall_not_mem.mpr fun chunk hchunk ↦ hid ?_
  obtain ⟨harrives, hsame⟩ := Arrival.of_mem_filterMap_chunkOf? hchunk
  exact Vector.toList_inj.mp ((id_of_mem_arrivals harrives).symm.trans hsame)

end Parcel

namespace Collector

/-- Takes in an arrival. -/
def take (collector : Collector) : Arrival → Collector × Option Bytes
  | .whole payload => (collector, some payload)
  | .part chunk => collector.accept chunk

theorem receive_eq_take (collector : Collector) (datagram : Bytes) :
    collector.receive datagram = collector.take (.ofDatagram datagram) := by
  unfold receive Arrival.ofDatagram
  cases Chunk.ofDatagram? datagram <;> rfl

end Collector

/-! ### The account of the arrivals -/

/-- What is held and what is still to arrive are the datagrams of the parcels that are due. -/
structure Pending (due : List Parcel) (held : List Chunk) (rest : List Arrival) : Prop where
  nodup : (due.map Parcel.id).Nodup
  account : (held.map Arrival.part ++ rest).Perm (due.flatMap Parcel.arrivals)
  /-- Of a parcel with chunks that is due, a chunk is missing. -/
  awaits : ∀ parcel ∈ due, parcel.count ≠ 1 → ∃ chunk ∈ parcel.parts, .part chunk ∈ rest

namespace Pending

variable {due others : List Parcel} {parcel : Parcel} {held : List Chunk} {rest : List Arrival}
  {arrival : Arrival} {chunk : Chunk} {payload : Bytes}

theorem of_perm (h : Pending due held rest) (hperm : due.Perm others) :
    Pending others held rest where
  nodup := (hperm.map _).nodup h.nodup
  account := h.account.trans (hperm.flatMap_right _)
  awaits := fun parcel hparcel ↦ h.awaits parcel (hperm.mem_iff.mpr hparcel)

/-- What arrives belongs to a parcel that is due. -/
theorem exists_due (h : Pending due held (arrival :: rest)) :
    ∃ parcel others, due.Perm (parcel :: others) ∧ arrival ∈ parcel.arrivals := by
  have hmem := h.account.mem_iff.mp (List.mem_append_right _ List.mem_cons_self)
  obtain ⟨parcel, hparcel, harrival⟩ := List.mem_flatMap.mp hmem
  exact ⟨parcel, due.erase parcel, List.perm_cons_erase hparcel, harrival⟩

theorem id_ne (h : Pending (parcel :: others) held rest) {other : Parcel}
    (hother : other ∈ others) : other.id ≠ parcel.id := fun hsame ↦
  (List.nodup_cons.mp h.nodup).1 (hsame ▸ List.mem_map_of_mem hother)

/-- A payload in one datagram comes out at once. -/
theorem whole (h : Pending (parcel :: others) held (.whole payload :: rest))
    (hmem : .whole payload ∈ parcel.arrivals) : Pending others held rest where
  nodup := (List.nodup_cons.mp h.nodup).2
  account := by
    have haccount := h.account
    rw [List.flatMap_cons, (Parcel.eq_whole hmem).2] at haccount
    exact (List.perm_middle.symm.trans haccount).cons_inv
  awaits := by
    intro other hother hcount
    obtain ⟨chunk, hchunk, harrives⟩ := h.awaits other (List.mem_cons_of_mem _ hother) hcount
    exact ⟨chunk, hchunk, by simpa using harrives⟩

section Part

variable (h : Pending (parcel :: others) held (.part chunk :: rest))
  (hmem : .part chunk ∈ parcel.arrivals)

include h hmem

/-- The chunks of one parcel, held and to come, are all it has. -/
theorem account_parts : ((held.filter fun other ↦ other.id = chunk.id) ++
    chunk :: rest.filterMap (Arrival.chunkOf? chunk.id)).Perm parcel.parts := by
  have hcount := (Parcel.mem_parts hmem).1
  have hid := Parcel.id_of_mem_arrivals hmem
  have hothers : (others.flatMap Parcel.arrivals).filterMap (Arrival.chunkOf? chunk.id) = [] := by
    rw [List.filterMap_flatMap]
    refine List.flatMap_eq_nil_iff.mpr fun other hother ↦ ?_
    rw [hid]
    exact Parcel.filterMap_chunkOf?_of_ne (h.id_ne hother)
  have harrives : Arrival.chunkOf? parcel.id.toList (.part chunk) = some chunk := if_pos hid
  have hsame := h.account.filterMap (Arrival.chunkOf? chunk.id)
  rwa [List.flatMap_cons, List.filterMap_append, List.filterMap_append, hothers,
    Arrival.filterMap_chunkOf?_map_part, hid, Parcel.filterMap_chunkOf?_arrivals hcount,
    List.append_nil, List.filterMap_cons_some harrives, ← hid] at hsame

/-- A parcel with another identifier does not get what it waits for. -/
theorem awaits_of_ne {other : Parcel} (hother : other ∈ others) (hcount : other.count ≠ 1) :
    ∃ later ∈ other.parts, .part later ∈ rest := by
  obtain ⟨later, hlater, harrives⟩ := h.awaits other (List.mem_cons_of_mem _ hother) hcount
  refine ⟨later, hlater, (List.mem_cons.mp harrives).resolve_left fun hsame ↦ ?_⟩
  cases hsame
  have hid := Parcel.id_of_mem_arrivals hmem
  exact h.id_ne hother (Vector.toList_inj.mp ((of_mem_parts hlater).1.symm.trans hid))

/-- The chunk that arrives was not there before. -/
theorem store_eq : Collector.store held chunk = held ++ [chunk] := by
  have hindices := (h.account_parts hmem).map Chunk.index
  have hnodup : (parcel.parts.map Chunk.index).Nodup :=
    List.pairwise_map.mpr (pairwise_parts.imp Nat.ne_of_lt)
  have hheld := hindices.symm.nodup hnodup
  rw [List.map_append, List.nodup_append] at hheld
  refine congrArg (· ++ [chunk]) (List.filter_eq_self.mpr fun other hother ↦ ?_)
  refine decide_eq_true fun hsame ↦ ?_
  have hkept : other ∈ held.filter fun other ↦ other.id = chunk.id :=
    List.mem_filter.mpr ⟨hother, decide_eq_true hsame.1⟩
  exact hheld.2.2 _ (List.mem_map_of_mem hkept) _ (by simp) hsame.2

/-- The chunks of its parcel decide what becomes of a chunk. -/
theorem accept_eq : Collector.accept ⟨held⟩ chunk =
    if parcel.count ≤ (held.filter fun other ↦ other.id = chunk.id).length + 1 then
      (⟨held.filter fun other ↦ other.id ≠ chunk.id⟩,
        some (Collector.assemble ((held.filter fun other ↦ other.id = chunk.id) ++ [chunk])))
    else (⟨held ++ [chunk]⟩, none) := by
  have htotal : chunk.total = parcel.count := (of_mem_parts (Parcel.mem_parts hmem).2).2
  have hpresent : (held ++ [chunk]).filter (fun other ↦ other.id = chunk.id) =
      (held.filter fun other ↦ other.id = chunk.id) ++ [chunk] := by simp
  have habsent : (held ++ [chunk]).filter (fun other ↦ other.id ≠ chunk.id) =
      held.filter fun other ↦ other.id ≠ chunk.id := by simp
  simp only [Collector.accept, h.store_eq hmem]
  rw [hpresent, habsent, htotal, List.length_append, List.length_singleton]

theorem length_account :
    (held.filter fun other ↦ other.id = chunk.id).length + 1 +
      (rest.filterMap (Arrival.chunkOf? chunk.id)).length = parcel.count := by
  have hlength := (h.account_parts hmem).length_eq
  have hpieces := length_pieces_of_count (Parcel.mem_parts hmem).1
  rw [List.length_append, List.length_cons, Parcel.parts, length_parts, hpieces] at hlength
  unfold Parcel.count
  omega

/-- While chunks of its parcel are to come, a chunk is only kept. -/
theorem keep (hmissing : rest.filterMap (Arrival.chunkOf? chunk.id) ≠ []) :
    Collector.accept ⟨held⟩ chunk = (⟨held ++ [chunk]⟩, none) ∧
      Pending (parcel :: others) (held ++ [chunk]) rest := by
  refine ⟨?_, h.nodup, ?_, fun other hother hcount ↦ ?_⟩
  · have hlength := h.length_account hmem
    have hlater := List.length_pos_iff.mpr hmissing
    rw [h.accept_eq hmem, if_neg (by omega)]
  · rw [List.map_append, List.append_assoc]
    exact h.account
  · rcases List.mem_cons.mp hother with rfl | hothers
    · obtain ⟨later, hlater⟩ := List.exists_mem_of_ne_nil _ hmissing
      have hpart := (h.account_parts hmem).mem_iff.mp
        (List.mem_append_right _ (List.mem_cons_of_mem _ hlater))
      exact ⟨later, hpart, (Arrival.of_mem_filterMap_chunkOf? hlater).1⟩
    · exact h.awaits_of_ne hmem hothers hcount

/-- With the last of its chunks a payload comes out, and its chunks are dropped. -/
theorem complete (hlast : rest.filterMap (Arrival.chunkOf? chunk.id) = []) :
    Collector.accept ⟨held⟩ chunk =
        (⟨held.filter fun other ↦ other.id ≠ chunk.id⟩, some parcel.payload) ∧
      Pending others (held.filter fun other ↦ other.id ≠ chunk.id) rest := by
  have hcount := (Parcel.mem_parts hmem).1
  have hparts := h.account_parts hmem
  rw [hlast] at hparts
  refine ⟨?_, (List.nodup_cons.mp h.nodup).2, ?_, fun other hother hmany ↦
    h.awaits_of_ne hmem hother hmany⟩
  · have hlength := h.length_account hmem
    rw [hlast, List.length_nil] at hlength
    rw [h.accept_eq hmem, if_pos (by omega), assemble_of_perm hparts]
  · have haccount := h.account
    rw [List.flatMap_cons, Parcel.arrivals_eq hcount] at haccount
    have hsplit := List.filter_append_perm (fun other ↦ decide (other.id = chunk.id)) held
    simp only [← decide_not] at hsplit
    generalize (held.filter fun other ↦ other.id = chunk.id) = present at hparts hsplit
    generalize (held.filter fun other ↦ other.id ≠ chunk.id) = absent at hsplit ⊢
    refine (List.perm_append_left_iff (parcel.parts.map Arrival.part)).mp ?_
    calc List.Perm (parcel.parts.map Arrival.part ++ (absent.map Arrival.part ++ rest))
          ((present ++ [chunk]).map Arrival.part ++ (absent.map Arrival.part ++ rest)) :=
        (hparts.symm.map _).append_right _
      _ = present.map Arrival.part ++ .part chunk :: (absent.map Arrival.part ++ rest) := by simp
      List.Perm _ (present.map Arrival.part ++ (absent.map Arrival.part ++ .part chunk :: rest)) :=
        List.perm_middle.symm.append_left _
      _ = (present ++ absent).map Arrival.part ++ .part chunk :: rest := by simp
      List.Perm _ (held.map Arrival.part ++ .part chunk :: rest) :=
        (hsplit.map _).append_right _
      List.Perm _ (parcel.parts.map Arrival.part ++ others.flatMap Parcel.arrivals) := haccount

end Part

/-- An arrival takes what it completes out of the account, and the collector lets it out. -/
theorem step (h : Pending due held (arrival :: rest)) : ∃ dueNext heldNext out,
    Collector.take ⟨held⟩ arrival = (⟨heldNext⟩, out) ∧ Pending dueNext heldNext rest ∧
      (out.toList ++ dueNext.map Parcel.payload).Perm (due.map Parcel.payload) := by
  obtain ⟨parcel, others, hdue, hmem⟩ := h.exists_due
  have hpayloads := (hdue.map Parcel.payload).symm
  have hparcel := h.of_perm hdue
  cases arrival with
  | whole payload =>
    refine ⟨others, held, some payload, rfl, hparcel.whole hmem, ?_⟩
    rw [← (Parcel.eq_whole hmem).1]
    exact hpayloads
  | part chunk =>
    by_cases hlast : rest.filterMap (Arrival.chunkOf? chunk.id) = []
    · obtain ⟨htake, hnext⟩ := hparcel.complete hmem hlast
      exact ⟨others, _, some parcel.payload, htake, hnext, hpayloads⟩
    · obtain ⟨htake, hnext⟩ := hparcel.keep hmem hlast
      exact ⟨parcel :: others, _, none, htake, hnext, hpayloads⟩

/-- When nothing is to arrive any more, nothing is due and nothing is held. -/
theorem eq_nil (h : Pending due held []) : due = [] ∧ held = [] := by
  have hdue : due = [] := by
    refine List.eq_nil_iff_forall_not_mem.mpr fun parcel hparcel ↦ ?_
    by_cases hcount : parcel.count = 1
    · have hwhole : Arrival.whole parcel.payload ∈ due.flatMap Parcel.arrivals :=
        List.mem_flatMap.mpr ⟨parcel, hparcel, by simp [Parcel.arrivals, hcount]⟩
      simpa using h.account.mem_iff.mpr hwhole
    · obtain ⟨chunk, -, harrives⟩ := h.awaits parcel hparcel hcount
      exact absurd harrives List.not_mem_nil
  have haccount := h.account
  rw [hdue, List.append_nil] at haccount
  exact ⟨hdue, List.map_eq_nil_iff.mp haccount.eq_nil⟩

end Pending

/-- Assumes: an account of the datagrams that is balanced at the start. -/
theorem Collector.receiveAll_of_pending {datagrams : List Bytes} {due : List Parcel}
    {held : List Chunk} (h : Pending due held (datagrams.map .ofDatagram)) :
    (receiveAll ⟨held⟩ datagrams).1 = {} ∧
      (receiveAll ⟨held⟩ datagrams).2.Perm (due.map Parcel.payload) := by
  induction datagrams generalizing due held with
  | nil =>
    obtain ⟨rfl, rfl⟩ := h.eq_nil
    exact ⟨rfl, .refl _⟩
  | cons datagram rest ih =>
    obtain ⟨dueNext, heldNext, out, htake, hnext, hpayloads⟩ := h.step
    obtain ⟨hempty, hrest⟩ := ih hnext
    rw [← receive_eq_take] at htake
    simp only [receiveAll, htake]
    exact ⟨hempty, (hrest.append_left _).trans hpayloads⟩

section Family

variable {family : List Parcel}

theorem mapM_split (hfits : ∀ parcel ∈ family, parcel.Fits) :
    family.mapM (fun parcel ↦ split parcel.id parcel.payload) =
      .ok (family.map Parcel.datagrams) := by
  induction family with
  | nil => rfl
  | cons parcel rest ih =>
    rw [List.mapM_cons, Parcel.split_eq (hfits parcel List.mem_cons_self),
      ih fun other hother ↦ hfits other (List.mem_cons_of_mem _ hother)]
    rfl

/-- At the start all datagrams are to arrive. -/
theorem Pending.of_fits (hids : (family.map Parcel.id).Nodup)
    (hfits : ∀ parcel ∈ family, parcel.Fits) {datagrams : List Bytes}
    (hperm : datagrams.Perm (family.map Parcel.datagrams).flatten) :
    Pending family [] (datagrams.map .ofDatagram) := by
  have hperParcel : family.map (fun parcel ↦ parcel.datagrams.map Arrival.ofDatagram) =
      family.map Parcel.arrivals :=
    List.map_congr_left fun parcel hparcel ↦ Parcel.map_ofDatagram_datagrams (hfits parcel hparcel)
  have hall : (datagrams.map Arrival.ofDatagram).Perm (family.flatMap Parcel.arrivals) := by
    refine (hperm.map _).trans (.of_eq ?_)
    rw [List.map_flatten, List.map_map, List.flatMap_def, ← hperParcel]
    rfl
  refine ⟨hids, hall, fun parcel hparcel hcount ↦ ?_⟩
  have hpositive : 0 < parcel.parts.length := by
    rw [Parcel.parts, length_parts, length_pieces_of_count hcount]
    exact count_pos _
  obtain ⟨chunk, hchunk⟩ := List.exists_mem_of_length_pos hpositive
  refine ⟨chunk, hchunk, hall.mem_iff.mpr (List.mem_flatMap.mpr ⟨parcel, hparcel, ?_⟩)⟩
  rw [Parcel.arrivals_eq hcount]
  exact List.mem_map_of_mem hchunk

/-- Assumes: different identifiers, and payloads that fit and begin as gzip does. -/
theorem receiveAll_of_perm (hids : (family.map Parcel.id).Nodup)
    (hlength : ∀ parcel ∈ family, parcel.payload.length ≤ maxChunks * chunkSize)
    (hpacked : ∀ parcel ∈ family, [0x1f, 0x8b] <+: parcel.payload) :
    (∀ parcel ∈ family, Chunk.ofDatagram? parcel.payload = none) ∧
      ∃ cuts, family.mapM (fun parcel ↦ split parcel.id parcel.payload) = .ok cuts ∧
        ∀ datagrams : List Bytes, datagrams.Perm cuts.flatten →
          (({} : Collector).receiveAll datagrams).1 = {} ∧
            (({} : Collector).receiveAll datagrams).2.Perm (family.map Parcel.payload) := by
  have hfits : ∀ parcel ∈ family, parcel.Fits := fun parcel hparcel ↦
    ⟨hlength parcel hparcel, hpacked parcel hparcel⟩
  refine ⟨fun parcel hparcel ↦ Chunk.ofDatagram?_eq_none (hpacked parcel hparcel), ?_⟩
  exact ⟨family.map Parcel.datagrams, mapM_split hfits, fun datagrams hperm ↦
    Collector.receiveAll_of_pending (.of_fits hids hfits hperm)⟩

end Family

/-- A payload of so many octets behind the first two. -/
def packedOf (size : Nat) : Bytes :=
  [0x1f, 0x8b] ++ List.replicate size 0

@[simp] theorem length_packedOf (size : Nat) : (packedOf size).length = size + 2 := by
  simp [packedOf]

@[simp] theorem prefix_packedOf (size : Nat) : [0x1f, 0x8b] <+: packedOf size :=
  List.prefix_append _ _

/-- A payload of one datagram between one of two chunks and one of 255. -/
def mixedFamily : List Parcel :=
  [⟨.replicate 8 1, packedOf 1419⟩, ⟨.replicate 8 2, packedOf 3⟩, ⟨.replicate 8 3, packedOf 359038⟩]

theorem receiveAll_of_mixedFamily :
    ∃ cuts, mixedFamily.mapM (fun parcel ↦ split parcel.id parcel.payload) = .ok cuts ∧
      cuts.map List.length = [2, 1, 255] ∧
      (({} : Collector).receiveAll cuts.flatten.reverse).1 = {} ∧
      (({} : Collector).receiveAll cuts.flatten.reverse).2.Perm
        (mixedFamily.map Parcel.payload) := by
  have hids : (mixedFamily.map Parcel.id).Nodup := by decide
  have hlength : ∀ parcel ∈ mixedFamily, parcel.payload.length ≤ maxChunks * chunkSize := by
    simp [mixedFamily, maxChunks, chunkSize_eq]
  have hpacked : ∀ parcel ∈ mixedFamily, [0x1f, 0x8b] <+: parcel.payload := by
    simp [mixedFamily]
  have hcounts : mixedFamily.map Parcel.count = [2, 1, 255] := by
    simp only [mixedFamily, Parcel.count, List.map_cons, List.map_nil, length_packedOf]
    decide
  obtain ⟨-, cuts, hcuts, hreceived⟩ := receiveAll_of_perm hids hlength hpacked
  refine ⟨cuts, hcuts, ?_, hreceived _ (List.reverse_perm _)⟩
  have hcut := mapM_split fun parcel hparcel ↦ ⟨hlength parcel hparcel, hpacked parcel hparcel⟩
  cases hcut.symm.trans hcuts
  rw [List.map_map, ← hcounts]
  exact List.map_congr_left fun parcel _ ↦ Parcel.length_datagrams

end GelfCourier.Datagram
