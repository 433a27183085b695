import GelfCourier.Gzip.Inflate

/-!
Reading ahead of more octets. What is read from a source is read from it in the same way when more
octets follow, and when more turns are allowed. So a deflate stream can be unpacked where it stands,
with other octets behind it.
-/

set_option autoImplicit false

namespace GelfCourier.Gzip

namespace BitSource

/-- The source with more octets behind it. -/
def extend (source : BitSource) (more : Bytes) : BitSource :=
  ⟨source.pending, source.rest ++ more⟩

variable {source left : BitSource} {bit : Bool} {value width : Nat}

theorem ofBytes_append (bytes more : Bytes) :
    ofBytes (bytes ++ more) = (ofBytes bytes).extend more := rfl

theorem next?_extend (h : source.next? = some (bit, left)) (more : Bytes) :
    (source.extend more).next? = some (bit, left.extend more) := by
  obtain ⟨pending, rest⟩ := source
  cases pending with
  | cons first pending =>
    cases h
    rfl
  | nil =>
    cases rest with
    | nil => cases h
    | cons b rest =>
      cases h
      rfl

theorem take?_extend (h : source.take? width = some (value, left)) (more : Bytes) :
    (source.extend more).take? width = some (value, left.extend more) := by
  induction width generalizing source value left with
  | zero =>
    cases h
    rfl
  | succ width ih =>
    obtain ⟨⟨bit, between⟩, hbit, hrest⟩ := Option.bind_eq_some_iff.mp h
    obtain ⟨⟨high, last⟩, hhigh, hlast⟩ := Option.bind_eq_some_iff.mp hrest
    cases hlast
    simp only [take?, next?_extend hbit, Option.bind_eq_bind, Option.bind_some, ih hhigh]
    rfl

end BitSource

theorem PrefixCode.decodeFrom_extend {levels : List (Array Nat)} {first word value : Nat}
    {source left : BitSource} (h : decodeFrom levels first word source = .symbol value left)
    (more : Bytes) :
    decodeFrom levels first word (source.extend more) = .symbol value (left.extend more) := by
  induction levels generalizing first word source with
  | nil => cases h
  | cons symbols levels ih =>
    unfold decodeFrom at h ⊢
    split at h
    · cases h
    · next bit between hbit =>
      rw [BitSource.next?_extend hbit]
      dsimp only at h ⊢
      split at h
      · cases h
        rfl
      · exact ih h

namespace Inflate

variable {source left : BitSource} {output written : Array UInt8} {value : Nat}

theorem bits_extend {width : Nat} (h : bits width source = .ok (value, left)) (more : Bytes) :
    bits width (source.extend more) = .ok (value, left.extend more) := by
  unfold bits at h ⊢
  split at h
  · next result htake =>
    cases h
    rw [BitSource.take?_extend htake]
  · cases h

theorem symbol_extend {code : PrefixCode} (h : symbol code source = .ok (value, left))
    (more : Bytes) : symbol code (source.extend more) = .ok (value, left.extend more) := by
  unfold symbol PrefixCode.decode at h ⊢
  split at h
  · next found between hfound =>
    cases h
    rw [PrefixCode.decodeFrom_extend hfound]
  · cases h
  · cases h

theorem tableValue_extend {table : Array (Nat × Nat)} {index : Nat}
    (h : tableValue table index source = .ok (value, left)) (more : Bytes) :
    tableValue table index (source.extend more) = .ok (value, left.extend more) := by
  unfold tableValue at h ⊢
  split at h
  · cases h
  · split at h
    · cases h
    · next high between hbits =>
      cases h
      rw [bits_extend hbits]

theorem turn_extend {codes : Codes} {last : Bool}
    (h : turn codes output source = .ok (last, written, left)) (more : Bytes) :
    turn codes output (source.extend more) = .ok (last, written, left.extend more) := by
  unfold turn at h ⊢
  split at h
  · cases h
  · next value second hvalue =>
    rw [symbol_extend hvalue]
    dsimp only
    split at h
    · next hliteral =>
      rw [if_pos hliteral]
      cases h
      rfl
    · next hliteral =>
      rw [if_neg hliteral]
      split at h
      · next hend =>
        rw [if_pos hend]
        cases h
        rfl
      · next hend =>
        rw [if_neg hend]
        split at h
        · cases h
        · next length third hlength =>
          rw [tableValue_extend hlength]
          dsimp only
          split at h
          · cases h
          · next index fourth hindex =>
            rw [symbol_extend hindex]
            dsimp only
            split at h
            · cases h
            · next distance fifth hdistance =>
              rw [tableValue_extend hdistance]
              cases h
              rfl

theorem symbols_extend {codes : Codes} {turns allowed : Nat}
    (h : symbols codes turns output source = .ok (written, left)) (hallowed : turns ≤ allowed)
    (more : Bytes) :
    symbols codes allowed output (source.extend more) = .ok (written, left.extend more) := by
  induction turns generalizing allowed output source with
  | zero => cases h
  | succ turns ih =>
    obtain ⟨allowed, rfl⟩ : ∃ fewer, allowed = fewer + 1 := ⟨allowed - 1, by omega⟩
    unfold symbols at h ⊢
    split at h
    · cases h
    · next grown between hturn =>
      rw [turn_extend hturn]
      cases h
      rfl
    · next grown between hturn =>
      rw [turn_extend hturn]
      exact ih h (Nat.le_of_succ_le_succ hallowed)

/-- Reads a part, and then what follows it. -/
theorem bind_extend {α β : Type} {first second : Inflating (α × BitSource)}
    {next next' : α × BitSource → Inflating β} {result result' : β} {more : Bytes}
    (h : first >>= next = .ok result)
    (hfirst : ∀ value between, first = .ok (value, between) →
      second = .ok (value, between.extend more))
    (hnext : ∀ value between, next (value, between) = .ok result →
      next' (value, between.extend more) = .ok result') : second >>= next' = .ok result' := by
  cases hvalue : first with
  | error fault =>
    rw [hvalue] at h
    cases h
  | ok read =>
    rw [hvalue] at h
    rw [hfirst read.1 read.2 hvalue]
    exact hnext read.1 read.2 h

/-- A check that reads nothing comes out as before. -/
theorem check_extend {α β : Type} {check : Inflating α} {next next' : α → Inflating β}
    {result result' : β} (h : check >>= next = .ok result)
    (hnext : ∀ value, next value = .ok result → next' value = .ok result') :
    check >>= next' = .ok result' := by
  cases check with
  | error fault => cases h
  | ok value => exact hnext value h

theorem widths_extend {width count : Nat} {values : List Nat}
    (h : widths width count source = .ok (values, left)) (more : Bytes) :
    widths width count (source.extend more) = .ok (values, left.extend more) := by
  induction count generalizing source values left with
  | zero =>
    cases h
    rfl
  | succ count ih =>
    refine bind_extend h (fun _ _ hvalue ↦ bits_extend hvalue more) fun value between h ↦ ?_
    refine bind_extend h (fun _ _ hothers ↦ ih hothers) fun others last h ↦ ?_
    cases h
    rfl

theorem codeLengths_extend {code : PrefixCode} {total turns : Nat} {read all : List Nat}
    (h : codeLengths code total turns read source = .ok (all, left)) (more : Bytes) :
    codeLengths code total turns read (source.extend more) = .ok (all, left.extend more) := by
  induction turns generalizing read source with
  | zero => cases h
  | succ turns ih =>
    unfold codeLengths at h ⊢
    split at h
    · cases h
    · next hroom =>
      rw [if_neg hroom]
      split at h
      · next hfull =>
        rw [if_pos hfull]
        cases h
        rfl
      · next hfull =>
        rw [if_neg hfull]
        split at h
        · cases h
        · next value between hvalue =>
          rw [symbol_extend hvalue]
          dsimp only at h ⊢
          split at h
          · next hlength =>
            rw [if_pos hlength]
            exact ih h
          · next hlength =>
            rw [if_neg hlength]
            split at h
            · next hrepeat =>
              rw [if_pos hrepeat]
              cases read with
              | nil => cases h
              | cons last earlier =>
                dsimp only at h ⊢
                split at h
                · cases h
                · next count after hcount =>
                  rw [bits_extend hcount]
                  exact ih h
            · next hrepeat =>
              rw [if_neg hrepeat]
              split at h
              · cases h
              · next count after hcount =>
                rw [bits_extend hcount]
                exact ih h

theorem givenCodes_extend {codes : Codes} (h : givenCodes source = .ok (codes, left))
    (more : Bytes) : givenCodes (source.extend more) = .ok (codes, left.extend more) := by
  refine bind_extend h (fun _ _ hread ↦ bits_extend hread more) fun literalCount second h ↦ ?_
  refine bind_extend h (fun _ _ hread ↦ bits_extend hread more) fun distanceCount third h ↦ ?_
  refine bind_extend h (fun _ _ hread ↦ bits_extend hread more) fun orderCount fourth h ↦ ?_
  dsimp only at h ⊢
  split at h
  · cases h
  · next hroom =>
    rw [if_neg hroom]
    refine bind_extend h (fun _ _ hread ↦ widths_extend hread more) fun given fifth h ↦ ?_
    dsimp only at h ⊢
    split at h
    · cases h
    · next hcomplete =>
      rw [if_neg hcomplete]
      refine bind_extend h (fun _ _ hread ↦ codeLengths_extend hread more) fun all sixth h ↦ ?_
      refine check_extend h fun distances h ↦ check_extend h fun literals h ↦ ?_
      cases h
      rfl

theorem twoOctets_append {bytes rest : Bytes} {value : Nat}
    (h : twoOctets bytes = .ok (value, rest)) (more : Bytes) :
    twoOctets (bytes ++ more) = .ok (value, rest ++ more) := by
  unfold twoOctets at h
  split at h
  · cases h
    rfl
  · cases h

theorem stored_extend {bytes : Bytes} (h : stored output bytes = .ok (written, left))
    (more : Bytes) : stored output (bytes ++ more) = .ok (written, left.extend more) := by
  unfold stored at h ⊢
  split at h
  · cases h
  · next length second hlength =>
    rw [twoOctets_append hlength]
    dsimp only
    split at h
    · cases h
    · next complement third hcomplement =>
      rw [twoOctets_append hcomplement]
      dsimp only
      split at h
      · cases h
      · next hmatch =>
        rw [if_neg hmatch]
        dsimp only at h ⊢
        split at h
        · cases h
        · next henough =>
          have hlength : length ≤ third.length := by
            rw [List.length_take] at henough
            omega
          rw [List.take_append_of_le_length hlength, List.drop_append_of_le_length hlength,
            if_neg henough]
          cases h
          rfl

theorem block_extend {turns allowed : Nat} {last : Bool}
    (h : block turns output source = .ok (last, written, left)) (hallowed : turns ≤ allowed)
    (more : Bytes) :
    block allowed output (source.extend more) = .ok (last, written, left.extend more) := by
  refine bind_extend h (fun _ _ hread ↦ bits_extend hread more) fun final second h ↦ ?_
  refine bind_extend h (fun _ _ hread ↦ bits_extend hread more) fun kind third h ↦ ?_
  have hdone : ∀ grown (fourth : BitSource),
      (pure (decide (final = 1), grown, fourth) : Inflating _) = .ok (last, written, left) →
      (pure (decide (final = 1), grown, fourth.extend more) : Inflating _) =
        .ok (last, written, left.extend more) := by
    rintro grown fourth h
    cases h
    rfl
  dsimp only at h ⊢
  split at h
  · next hstored =>
    rw [if_pos hstored]
    exact bind_extend h (fun _ _ hread ↦ stored_extend hread more) hdone
  · next hstored =>
    rw [if_neg hstored]
    split at h
    · next hfixed =>
      rw [if_pos hfixed]
      exact bind_extend h (fun _ _ hread ↦ symbols_extend hread hallowed more) hdone
    · next hfixed =>
      rw [if_neg hfixed]
      split at h
      · next hgiven =>
        rw [if_pos hgiven]
        refine bind_extend h (fun _ _ hread ↦ givenCodes_extend hread more) fun codes fourth h ↦ ?_
        exact bind_extend h (fun _ _ hread ↦ symbols_extend hread hallowed more) hdone
      · cases h

theorem blocks_extend {limit turns allowed moreTurns : Nat} {rest : Bytes}
    (h : blocks limit turns output source = .ok (written, rest)) (hlimit : limit ≤ allowed)
    (hturns : turns ≤ moreTurns) (more : Bytes) :
    blocks allowed moreTurns output (source.extend more) = .ok (written, rest ++ more) := by
  induction turns generalizing moreTurns output source with
  | zero => cases h
  | succ turns ih =>
    obtain ⟨moreTurns, rfl⟩ : ∃ fewer, moreTurns = fewer + 1 := ⟨moreTurns - 1, by omega⟩
    unfold blocks at h ⊢
    split at h
    · cases h
    · next grown between hblock =>
      rw [block_extend hblock hlimit]
      cases h
      rfl
    · next grown between hblock =>
      rw [block_extend hblock hlimit]
      exact ih h (Nat.le_of_succ_le_succ hturns)

end Inflate

/-- A stream is unpacked in the same way where other octets follow it. -/
theorem inflate_append {bytes content rest : Bytes} (h : inflate bytes = .ok (content, rest))
    (more : Bytes) : inflate (bytes ++ more) = .ok (content, rest ++ more) := by
  have hturns : 8 * bytes.length + 1 ≤ 8 * (bytes ++ more).length + 1 := by
    rw [List.length_append]
    omega
  unfold inflate at h ⊢
  dsimp only at h ⊢
  split at h
  · cases h
  · next output after hblocks =>
    rw [BitSource.ofBytes_append, Inflate.blocks_extend hblocks hturns hturns]
    cases h
    rfl

end GelfCourier.Gzip
