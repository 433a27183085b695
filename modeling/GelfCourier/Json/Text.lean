import GelfCourier.Text.Bytes

/-!
Strings of JSON as octets: everything up to the closing quote, with escapes replaced by what they
stand for. A fault says whether more input could have mended it.
-/

set_option autoImplicit false

namespace GelfCourier.Json

/-- Why a text is not JSON: it ended too early, or no continuation makes it right. -/
inductive Fault where
  | truncated
  | malformed
  deriving DecidableEq, Repr

abbrev Reading (α : Type) := Except Fault (α × Bytes)

/-- Four hexadecimal digits. -/
def hexQuad : Bytes → Reading Nat
  | a :: b :: c :: d :: rest =>
    match Bytes.hexDigitValue? a, Bytes.hexDigitValue? b, Bytes.hexDigitValue? c,
        Bytes.hexDigitValue? d with
    | some a, some b, some c, some d => .ok (((16 * a + b) * 16 + c) * 16 + d, rest)
    | _, _, _, _ => .error .malformed
  | _ => .error .truncated

def isHighSurrogate (n : Nat) : Bool := 0xd800 ≤ n && n ≤ 0xdbff

def isLowSurrogate (n : Nat) : Bool := 0xdc00 ≤ n && n ≤ 0xdfff

/-- The second half of a surrogate pair: a backslash, the letter u and four digits. -/
def lowSurrogate : Bytes → Reading Nat
  | [] => .error .truncated
  | b :: rest =>
    if b ≠ 0x5c then .error .malformed
    else match rest with
      | [] => .error .truncated
      | u :: digits =>
        if u ≠ 0x75 then .error .malformed
        else match hexQuad digits with
          | .error fault => .error fault
          | .ok (low, after) =>
            if isLowSurrogate low then .ok (low, after) else .error .malformed

/-- The octets of the character that four digits, or a surrogate pair, stand for. -/
def codePoint (s : Bytes) : Reading Bytes :=
  match hexQuad s with
  | .error fault => .error fault
  | .ok (n, rest) =>
    if isLowSurrogate n then .error .malformed
    else if isHighSurrogate n then
      match lowSurrogate rest with
      | .error fault => .error fault
      | .ok (low, after) =>
        .ok (String.utf8EncodeChar (Char.ofNat (0x10000 + (n - 0xd800) * 0x400 + (low - 0xdc00))),
          after)
    else .ok (String.utf8EncodeChar (Char.ofNat n), rest)

/-- The octets that an escape stands for, read after its backslash. -/
def escape : Bytes → Reading Bytes
  | [] => .error .truncated
  | c :: rest =>
    if c = 0x22 ∨ c = 0x5c ∨ c = 0x2f then .ok ([c], rest)
    else if c = 0x62 then .ok ([0x08], rest)
    else if c = 0x66 then .ok ([0x0c], rest)
    else if c = 0x6e then .ok ([0x0a], rest)
    else if c = 0x72 then .ok ([0x0d], rest)
    else if c = 0x74 then .ok ([0x09], rest)
    else if c = 0x75 then codePoint rest
    else .error .malformed

theorem hexQuad_shorter {s rest : Bytes} {n : Nat} (h : hexQuad s = .ok (n, rest)) :
    rest.length < s.length := by
  unfold hexQuad at h
  split at h
  · split at h
    · cases h
      simp only [List.length_cons]
      omega
    · cases h
  · cases h

theorem lowSurrogate_shorter {s rest : Bytes} {n : Nat} (h : lowSurrogate s = .ok (n, rest)) :
    rest.length < s.length := by
  unfold lowSurrogate at h
  split at h
  · cases h
  · split at h
    · cases h
    · split at h
      · cases h
      · split at h
        · cases h
        · split at h
          · cases h
          · next found =>
            split at h
            · cases h
              have := hexQuad_shorter found
              simp only [List.length_cons]
              omega
            · cases h

theorem codePoint_shorter {s rest bytes : Bytes} (h : codePoint s = .ok (bytes, rest)) :
    rest.length < s.length := by
  unfold codePoint at h
  split at h
  · cases h
  · next found =>
    have first := hexQuad_shorter found
    split at h
    · cases h
    · split at h
      · split at h
        · cases h
        · next paired =>
          have second := lowSurrogate_shorter paired
          simp only [Except.ok.injEq, Prod.mk.injEq] at h
          obtain ⟨_, rfl⟩ := h
          omega
      · simp only [Except.ok.injEq, Prod.mk.injEq] at h
        obtain ⟨_, rfl⟩ := h
        exact first

theorem escape_shorter {s rest bytes : Bytes} (h : escape s = .ok (bytes, rest)) :
    rest.length < s.length := by
  cases s with
  | nil => cases h
  | cons c tail =>
    have plain : ∀ {b : Bytes}, (Except.ok (b, tail) : Reading Bytes) = .ok (bytes, rest) →
        rest.length < (c :: tail).length := by
      intro b same
      simp only [Except.ok.injEq, Prod.mk.injEq] at same
      obtain ⟨_, rfl⟩ := same
      simp
    rw [escape] at h
    split at h
    · exact plain h
    · split at h
      · exact plain h
      · split at h
        · exact plain h
        · split at h
          · exact plain h
          · split at h
            · exact plain h
            · split at h
              · exact plain h
              · split at h
                · have := codePoint_shorter h
                  simp only [List.length_cons]
                  omega
                · cases h

/-- The rest of a string, up to its closing quote. `read` holds the octets read so far, the last one
first; whether they are valid UTF-8 is judged when the quote is reached. -/
def text (read : Bytes) (s : Bytes) : Reading String :=
  match s with
  | [] => .error .truncated
  | c :: rest =>
    if c = 0x22 then
      match Bytes.toString? read.reverse with
      | some value => .ok (value, rest)
      | none => .error .malformed
    else if c = 0x5c then
      match _found : escape rest with
      | .error fault => .error fault
      | .ok (bytes, after) => text (bytes.reverse ++ read) after
    else if c < 0x20 then .error .malformed
    else text (c :: read) rest
termination_by s.length
decreasing_by
  · have := escape_shorter (by assumption)
    simp only [List.length_cons]
    omega
  · simp

end GelfCourier.Json
