import GelfCourier.Gzip.Member
import GelfCourier.Proofs.Gzip.Extension

/-!
Whatever is packed is unpacked again, with every effort. A compressed stream is only used where it
gives the data back, so all that is left to show is that stored blocks do, and that the header and
the trailer of a member do not stand in the way.
-/

set_option autoImplicit false

namespace GelfCourier

@[simp]
theorem Bytes.length_littleEndian (size value : Nat) :
    (littleEndian size value).length = size := by
  induction size generalizing value with
  | zero => rfl
  | succ size ih => rw [littleEndian, List.length_cons, ih]

namespace Gzip

/-! ### Stored blocks -/

namespace Inflate

theorem twoOctets_littleEndian {value : Nat} (hvalue : value ≤ 65535) (rest : Bytes) :
    twoOctets (Bytes.littleEndian 2 value ++ rest) = .ok (value, rest) := by
  have hoctets : (value.toUInt8).toNat + 256 * ((value / 256).toUInt8).toNat = value := by
    simp only [UInt8.toNat_ofNat', Nat.toUInt8]
    omega
  change Except.ok (_, rest) = _
  rw [hoctets]

theorem stored_storedBlock (output : Array UInt8) {content : Bytes}
    (hlength : content.length ≤ Deflate.maxStored) (more : Bytes) :
    stored output (Bytes.littleEndian 2 content.length ++
        (Bytes.littleEndian 2 (65535 - content.length) ++ (content ++ more))) =
      .ok (output ++ content.toArray, .ofBytes more) := by
  have hlength : content.length ≤ 65535 := hlength
  rw [stored, twoOctets_littleEndian hlength]
  dsimp only
  rw [twoOctets_littleEndian (Nat.sub_le _ _)]
  dsimp only
  rw [if_neg (by omega), List.take_left, List.drop_left, if_neg (Nat.lt_irrefl _)]

/-- The three bits before a stored block are in an octet of their own. -/
theorem block_stored (turns : Nat) (output : Array UInt8) (last : Bool) (octets : Bytes) :
    block turns output (.ofBytes ((if last then 1 else 0) :: octets)) =
      stored output octets >>= fun read ↦ pure (last, read) := by
  cases last <;> rfl

theorem block_storedBlock (turns : Nat) (output : Array UInt8) (last : Bool) {content : Bytes}
    (hlength : content.length ≤ Deflate.maxStored) (more : Bytes) :
    block turns output (.ofBytes (Deflate.storedBlock last content ++ more)) =
      .ok (last, output ++ content.toArray, .ofBytes more) := by
  rw [Deflate.storedBlock, List.append_assoc, List.cons_append, List.cons_append,
    List.append_assoc, block_stored, stored_storedBlock output hlength more]
  rfl

theorem blocks_storedBlocks (limit : Nat) (data more : Bytes) :
    ∀ {turns : Nat} {output : Array UInt8}, data.length < turns →
      blocks limit turns output (.ofBytes (Deflate.storedBlocks data ++ more)) =
        .ok (output ++ data.toArray, more) := by
  induction data using Deflate.storedBlocks.induct with
  | case1 data hfits =>
    intro turns output hturns
    obtain ⟨turns, rfl⟩ : ∃ fewer, turns = fewer + 1 := ⟨turns - 1, by omega⟩
    rw [Deflate.storedBlocks, if_pos hfits, blocks, block_storedBlock limit output true hfits]
    rfl
  | case2 data hlong ih =>
    intro turns output hturns
    obtain ⟨turns, rfl⟩ : ∃ fewer, turns = fewer + 1 := ⟨turns - 1, by omega⟩
    have hfirst : (data.take Deflate.maxStored).length ≤ Deflate.maxStored :=
      List.length_take_le _ _
    have hrest : (data.drop Deflate.maxStored).length < turns := by
      rw [List.length_drop]
      simp only [Deflate.maxStored] at hlong ⊢
      omega
    rw [Deflate.storedBlocks, if_neg hlong, List.append_assoc, blocks,
      block_storedBlock limit output false hfirst]
    dsimp only
    have hwhole : (data.take Deflate.maxStored).toArray ++
        (data.drop Deflate.maxStored).toArray = data.toArray := by
      rw [List.append_toArray, List.take_append_drop]
    rw [ih hrest, Array.append_assoc, hwhole]

end Inflate

theorem length_le_storedBlocks (data : Bytes) :
    data.length ≤ (Deflate.storedBlocks data).length := by
  induction data using Deflate.storedBlocks.induct with
  | case1 data hfits =>
    rw [Deflate.storedBlocks, if_pos hfits]
    simp only [Deflate.storedBlock, List.length_append]
    omega
  | case2 data hlong ih =>
    have hfirst : (data.take Deflate.maxStored).length = Deflate.maxStored :=
      List.length_take_of_le (by omega)
    rw [List.length_drop] at ih
    rw [Deflate.storedBlocks, if_neg hlong]
    simp only [Deflate.storedBlock, List.length_append, hfirst]
    omega

/-- Stored blocks give the data back, and what stands behind them. -/
theorem inflate_storedBlocks (data more : Bytes) :
    inflate (Deflate.storedBlocks data ++ more) = .ok (data, more) := by
  have hlength := length_le_storedBlocks data
  have hturns : data.length < 8 * (Deflate.storedBlocks data ++ more).length + 1 := by
    rw [List.length_append]
    omega
  rw [inflate, Inflate.blocks_storedBlocks _ data more hturns]
  simp

/-! ### Members -/

theorem inflate_deflate (effort : Effort) (data more : Bytes) :
    inflate (deflate effort data ++ more) = .ok (data, more) := by
  unfold deflate
  split
  · exact inflate_storedBlocks data more
  · dsimp only
    split
    · next content hpacked =>
      split
      · next hsame =>
        rw [inflate_append hpacked more, hsame]
        rfl
      · exact inflate_storedBlocks data more
    · exact inflate_storedBlocks data more

/-- The header names none of the optional parts. -/
theorem readHeader_header (effort : Effort) (rest : Bytes) :
    readHeader (header effort ++ rest) = .ok rest := rfl

theorem length_trailer (content : Bytes) : (trailer content).length = 8 := by
  rw [trailer, List.length_append, Bytes.length_littleEndian, Bytes.length_littleEndian]

theorem unpack_pack (effort : Effort) (data : Bytes) : unpack (pack effort data) = .ok data := by
  rw [unpack, pack, List.append_assoc, readHeader_header]
  dsimp only
  rw [inflate_deflate]
  dsimp only
  rw [List.take_of_length_le (Nat.le_of_eq (length_trailer data)), length_trailer,
    if_neg (Nat.lt_irrefl 8), if_pos rfl]

end Gzip

end GelfCourier
