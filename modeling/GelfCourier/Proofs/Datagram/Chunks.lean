import GelfCourier.Datagram.Collector

/-!
What the datagrams of one payload are to the receiver. A datagram that begins with the header of a
cut reads back as the chunk behind it (`Chunk.ofDatagram?_header_append`), since the index and the
total of at most 255 chunks are single octets; a datagram that begins as a packed payload does is no
chunk (`Chunk.ofDatagram?_eq_none`). The chunks of a payload stand in the order of their indices
(`pairwise_parts`), and their contents in this order are the payload (`flatMap_content_parts`).
-/

set_option autoImplicit false

namespace GelfCourier.Datagram

/-! ### The number of datagrams -/

section Count

variable {length : Nat}

theorem chunkSize_eq : chunkSize = 1408 := rfl

theorem count_of_le (hsmall : length ≤ maxSize) : count length = 1 :=
  if_pos hsmall

theorem count_of_lt (hlarge : maxSize < length) :
    count length = (length + chunkSize - 1) / chunkSize :=
  if_neg (Nat.not_le.mpr hlarge)

theorem count_pos (length : Nat) : 0 < count length := by
  rcases Nat.lt_or_ge maxSize length with hlarge | hsmall
  · rw [count_of_lt hlarge, chunkSize_eq]
    unfold maxSize at hlarge
    omega
  · rw [count_of_le hsmall]
    decide

/-- What is allowed to be sent is never refused. -/
theorem count_le_maxChunks (hlength : length ≤ maxChunks * chunkSize) :
    count length ≤ maxChunks := by
  rcases Nat.lt_or_ge maxSize length with hlarge | hsmall
  · rw [count_of_lt hlarge, chunkSize_eq]
    rw [chunkSize_eq] at hlength
    unfold maxChunks at *
    omega
  · rw [count_of_le hsmall]
    decide

/-- One piece more than for what is left behind the first. -/
theorem pieceCount_eq_succ {size : Nat} (hsize : 0 < size) (hlength : 0 < length) :
    (length + size - 1) / size = (length - size + size - 1) / size + 1 := by
  rcases Nat.lt_or_ge size length with hlarge | hsmall
  · have hmore : length + size - 1 = length - size + size - 1 + size := by omega
    rw [hmore, Nat.add_div_right _ hsize]
  · have hfirst : length + size - 1 = length - 1 + size := by omega
    have hnone : length - size + size - 1 = size - 1 := by omega
    rw [hfirst, hnone, Nat.add_div_right _ hsize, Nat.div_eq_of_lt (by omega),
      Nat.div_eq_of_lt (by omega)]

end Count

/-! ### Pieces -/

theorem flatten_pieces (size : Nat) (data : Bytes) : (pieces size data).flatten = data := by
  induction data using pieces.induct size with
  | case1 =>
    rw [pieces]
    rfl
  | case2 octet rest ih =>
    rw [pieces, List.flatten_cons, ih, List.cons_append, List.take_append_drop]

/-- Cutting for as long as anything is left gives as many pieces as the division. -/
theorem length_pieces {size : Nat} (hsize : 0 < size) (data : Bytes) :
    (pieces size data).length = (data.length + size - 1) / size := by
  induction data using pieces.induct size with
  | case1 =>
    rw [pieces, List.length_nil, List.length_nil, Nat.zero_add,
      Nat.div_eq_of_lt (Nat.sub_lt hsize Nat.one_pos)]
  | case2 octet rest ih =>
    have hleft : (octet :: rest).length - size = (rest.drop (size - 1)).length := by
      rw [List.length_cons, List.length_drop]
      omega
    have hsome : 0 < (octet :: rest).length := Nat.succ_pos _
    rw [pieces, pieceCount_eq_succ hsize hsome, hleft, List.length_cons, ih]

/-! ### How many datagrams there are -/

/-- A payload that takes more than one datagram is cut into as many chunks as are counted. -/
theorem length_pieces_of_count {payload : Bytes} (hcount : count payload.length ≠ 1) :
    (pieces chunkSize payload).length = count payload.length := by
  have hlarge : maxSize < payload.length := Nat.lt_of_not_le fun hsmall ↦
    hcount (count_of_le hsmall)
  rw [length_pieces (by decide), count_of_lt hlarge]

@[simp] theorem length_chunks (id : Id) (total : Nat) (payload : Bytes) :
    (chunks id total payload).length = (pieces chunkSize payload).length := by
  rw [chunks, List.length_mapIdx]

/-- Cutting gives as many datagrams as the division. -/
theorem length_of_split {id : Id} {payload : Bytes} {datagrams : List Bytes}
    (hsplit : split id payload = .ok datagrams) : datagrams.length = count payload.length := by
  unfold split at hsplit
  dsimp only at hsplit
  split at hsplit
  · cases hsplit
  · split at hsplit
    · next hone =>
      cases hsplit
      exact hone.symm
    · next hcount =>
      cases hsplit
      rw [length_chunks, length_pieces_of_count hcount]

/-! ### Reading a datagram back -/

@[simp] theorem length_header (id : Id) (index total : Nat) :
    (header id index total).length = headerSize := by
  simp [header, magic, headerSize]

/-- Assumes: an index and a total that fit an octet each. -/
theorem Chunk.ofDatagram?_header_append (id : Id) {index total : Nat} (hindex : index < 256)
    (htotal : total < 256) (content : Bytes) :
    Chunk.ofDatagram? (header id index total ++ content) =
      some ⟨id.toList, index, total, content⟩ := by
  have hid : id.toList.length = 8 := by simp
  have hparts : header id index total ++ content =
      magic ++ (id.toList ++ index.toUInt8 :: total.toUInt8 :: content) := by
    simp [header]
  have hmagic : (header id index total ++ content).take 2 = magic := by
    rw [hparts]
    rfl
  have hafterMagic : (header id index total ++ content).drop 2 =
      id.toList ++ index.toUInt8 :: total.toUInt8 :: content := by
    rw [hparts]
    rfl
  have hbeforeContent : (header id index total ++ content).drop headerSize = content :=
    List.drop_left' (length_header id index total)
  have hten : (magic ++ id.toList).length = 10 := by simp [magic]
  have hoctet (offset : Nat) : (header id index total ++ content).getD (10 + offset) 0 =
      (index.toUInt8 :: total.toUInt8 :: content).getD offset 0 := by
    rw [hparts, ← List.append_assoc, ← hten, List.getD_eq_getElem?_getD,
      List.getElem?_append_right (Nat.le_add_right _ _), Nat.add_sub_cancel_left,
      List.getD_eq_getElem?_getD]
  have hlength : headerSize ≤ (header id index total ++ content).length := by
    rw [List.length_append, length_header]
    omega
  rw [Chunk.ofDatagram?, if_pos ⟨hmagic, hlength⟩, hafterMagic, hbeforeContent,
    List.take_left' hid, hoctet 0, hoctet 1]
  have hindexOctet : index.toUInt8.toNat = index := UInt8.toNat_ofNat_of_lt' hindex
  have htotalOctet : total.toUInt8.toNat = total := UInt8.toNat_ofNat_of_lt' htotal
  simp only [List.getD_cons_zero, List.getD_cons_succ, hindexOctet, htotalOctet]

/-- A packed payload, whole in its datagram, is not taken for a chunk. -/
theorem Chunk.ofDatagram?_eq_none {payload : Bytes} (hpacked : [0x1f, 0x8b] <+: payload) :
    Chunk.ofDatagram? payload = none := by
  obtain ⟨rest, rfl⟩ := hpacked
  refine if_neg fun hmagic ↦ ?_
  have hboth : ([0x1f, 0x8b] : Bytes) = magic := hmagic.1
  exact absurd hboth (by decide)

/-! ### The chunks of a payload -/

/-- The chunks that a payload is cut into, as the receiver reads them. -/
def parts (id : Id) (total : Nat) (payload : Bytes) : List Chunk :=
  (pieces chunkSize payload).mapIdx fun index content ↦ ⟨id.toList, index, total, content⟩

section Parts

variable (id : Id) (total : Nat) (payload : Bytes)

@[simp] theorem length_parts :
    (parts id total payload).length = (pieces chunkSize payload).length := by
  simp [parts]

/-- Assumes: no more chunks than the total says. -/
theorem map_ofDatagram?_chunks {total : Nat} (htotal : total < 256)
    (hpieces : (pieces chunkSize payload).length ≤ total) :
    (chunks id total payload).map Chunk.ofDatagram? = (parts id total payload).map some := by
  refine List.ext_getElem (by simp) fun index hleft hright ↦ ?_
  have hindex : index < total := by
    rw [List.length_map, length_chunks] at hleft
    exact Nat.lt_of_lt_of_le hleft hpieces
  simp [chunks, parts, Chunk.ofDatagram?_header_append id (Nat.lt_trans hindex htotal) htotal]

variable {id total payload}

theorem of_mem_parts {chunk : Chunk} (hchunk : chunk ∈ parts id total payload) :
    chunk.id = id.toList ∧ chunk.total = total := by
  obtain ⟨index, hindex, rfl⟩ := List.mem_mapIdx.mp hchunk
  exact ⟨rfl, rfl⟩

theorem eq_of_index_eq {left right : Chunk} (hleft : left ∈ parts id total payload)
    (hright : right ∈ parts id total payload) (hindex : left.index = right.index) :
    left = right := by
  obtain ⟨first, hfirst, rfl⟩ := List.mem_mapIdx.mp hleft
  obtain ⟨second, hsecond, rfl⟩ := List.mem_mapIdx.mp hright
  have hsame : first = second := hindex
  subst hsame
  rfl

theorem pairwise_parts :
    (parts id total payload).Pairwise fun left right ↦ left.index < right.index := by
  refine List.pairwise_iff_getElem.mpr fun left right hleft hright hlt ↦ ?_
  simpa [parts] using hlt

theorem flatMap_content_parts : (parts id total payload).flatMap (·.content) = payload := by
  have hcontents : (parts id total payload).map (·.content) = pieces chunkSize payload := by
    refine List.ext_getElem (by simp) fun index hleft hright ↦ ?_
    simp [parts]
  rw [List.flatMap_def, hcontents, flatten_pieces chunkSize]

/-- However its chunks stand, they are put together to the payload. -/
theorem assemble_of_perm {present : List Chunk}
    (hperm : present.Perm (parts id total payload)) : Collector.assemble present = payload := by
  have hsort := List.mergeSort_perm present fun left right ↦ left.index ≤ right.index
  have hsorted : (present.mergeSort fun left right ↦ left.index ≤ right.index).Pairwise
      fun left right ↦ decide (left.index ≤ right.index) = true := by
    refine List.pairwise_mergeSort (fun first second third hle hge ↦ ?_) (fun left right ↦ ?_) _
    · exact decide_eq_true (Nat.le_trans (of_decide_eq_true hle) (of_decide_eq_true hge))
    · simpa using Nat.le_total left.index right.index
  have hparts : (parts id total payload).Pairwise fun left right ↦
      decide (left.index ≤ right.index) = true :=
    pairwise_parts.imp fun hlt ↦ decide_eq_true (Nat.le_of_lt hlt)
  have hordered : (present.mergeSort fun left right ↦ left.index ≤ right.index) =
      parts id total payload := by
    refine List.Perm.eq_of_pairwise (fun left right hleft hright hle hge ↦ ?_) hsorted hparts
      (hsort.trans hperm)
    have hmem := (hsort.trans hperm).mem_iff.mp hleft
    exact eq_of_index_eq hmem hright
      (Nat.le_antisymm (of_decide_eq_true hle) (of_decide_eq_true hge))
  rw [Collector.assemble, hordered, flatMap_content_parts]

end Parts

end GelfCourier.Datagram
