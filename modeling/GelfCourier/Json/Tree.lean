import GelfCourier.Fields
import GelfCourier.Number.Binary64

/-!
JSON values. A `Tree` is a value as it is written, with the members of an object in the order in
which they stand. A `Value` is a tree whose objects list their members in ascending order of the
names, each name once, so that equal values are equal terms.
-/

set_option autoImplicit false

namespace GelfCourier.Json

/-- A number is an integer of 64 bits, from -2^63 or up to 2^64, or a finite floating-point number. -/
inductive Number where
  | integer (value : Int) (inRange : -9223372036854775808 ≤ value ∧ value < 18446744073709551616)
  | float (value : Binary64) (isFinite : value.IsFinite)
  deriving DecidableEq

namespace Number

def toBinary64 : Number → Binary64
  | .integer n _ => .ofInt n
  | .float x _ => x

/-- The integer that the number is or is cut off to, moved into the signed 64-bit range. -/
def toInt64 : Number → Int64
  | .integer n _ =>
    if n < 9223372036854775808 then Int64.ofInt n else (Binary64.ofInt n).toInt64
  | .float x _ => x.toInt64

/-- Integers are equal as integers and floats as floats; the two kinds are never equal. -/
def numericEq : Number → Number → Bool
  | .integer m _, .integer n _ => m == n
  | .float x _, .float y _ => x.numericEq y
  | _, _ => false

end Number

inductive Tree where
  | null
  | bool (value : Bool)
  | number (value : Number)
  | string (value : String)
  | array (items : List Tree)
  | object (members : List (String × Tree))

namespace Tree

mutual

/-- Objects at every level list their members in ascending order of the names. -/
def Canonical : Tree → Prop
  | .array items => ItemsCanonical items
  | .object members => Fields.Ascending members ∧ MembersCanonical members
  | _ => True

def ItemsCanonical : List Tree → Prop
  | [] => True
  | item :: rest => item.Canonical ∧ ItemsCanonical rest

def MembersCanonical : List (String × Tree) → Prop
  | [] => True
  | (_, value) :: rest => value.Canonical ∧ MembersCanonical rest

end

mutual

/-- How many arrays and objects stand inside each other, at most. -/
def nesting : Tree → Nat
  | .array items => itemsNesting items + 1
  | .object members => membersNesting members + 1
  | _ => 0

def itemsNesting : List Tree → Nat
  | [] => 0
  | item :: rest => max item.nesting (itemsNesting rest)

def membersNesting : List (String × Tree) → Nat
  | [] => 0
  | (_, value) :: rest => max value.nesting (membersNesting rest)

end

mutual

/-- Equality with numbers compared by value. -/
def numericEq : Tree → Tree → Bool
  | .null, .null => true
  | .bool a, .bool b => a == b
  | .number a, .number b => a.numericEq b
  | .string a, .string b => a == b
  | .array a, .array b => itemsEq a b
  | .object a, .object b => membersEq a b
  | _, _ => false

def itemsEq : List Tree → List Tree → Bool
  | [], [] => true
  | a :: as, b :: bs => numericEq a b && itemsEq as bs
  | _, _ => false

def membersEq : List (String × Tree) → List (String × Tree) → Bool
  | [], [] => true
  | (k, a) :: as, (l, b) :: bs => k == l && numericEq a b && membersEq as bs
  | _, _ => false

end

theorem itemsCanonical_iff {items : List Tree} :
    ItemsCanonical items ↔ ∀ item ∈ items, item.Canonical := by
  induction items with
  | nil => simp [ItemsCanonical]
  | cons item rest ih => simp [ItemsCanonical, ih]

theorem membersCanonical_iff {members : List (String × Tree)} :
    MembersCanonical members ↔ ∀ member ∈ members, member.2.Canonical := by
  induction members with
  | nil => simp [MembersCanonical]
  | cons member rest ih =>
    obtain ⟨name, value⟩ := member
    simp [MembersCanonical, ih]

end Tree

structure Value where
  tree : Tree
  canonical : tree.Canonical

namespace Value

def null : Value := ⟨.null, by simp [Tree.Canonical]⟩

def bool (b : Bool) : Value := ⟨.bool b, by simp [Tree.Canonical]⟩

def number (n : Number) : Value := ⟨.number n, by simp [Tree.Canonical]⟩

def string (s : String) : Value := ⟨.string s, by simp [Tree.Canonical]⟩

/-- An integer of 64 bits, with or without sign; null beyond that range. -/
def integer (n : Int) : Value :=
  if h : -9223372036854775808 ≤ n ∧ n < 18446744073709551616 then number (.integer n h) else null

/-- A float; null stands for the values that are not finite. -/
def float (x : Binary64) : Value :=
  if h : x.IsFinite then number (.float x h) else null

theorem members_canonical {members : List (String × Tree)} (h : (Tree.object members).Canonical)
    {member : String × Tree} (present : member ∈ members) : member.2.Canonical := by
  rw [Tree.Canonical] at h
  exact Tree.membersCanonical_iff.mp h.2 member present

/-- The members of a canonical object as named fields. -/
def fieldsOf (members : List (String × Tree)) (h : (Tree.object members).Canonical) :
    Fields Value where
  entries := members.attach.map fun member =>
    (member.1.1, ⟨member.1.2, members_canonical h member.2⟩)
  ascending := by
    have ordered : Fields.Ascending members := by
      rw [Tree.Canonical] at h
      exact h.1
    unfold Fields.Ascending at ordered ⊢
    rw [List.pairwise_map]
    rw [← List.attach_map_subtype_val members, List.pairwise_map] at ordered
    exact ordered

/-- The named fields of an object. -/
def fields? (value : Value) : Option (Fields Value) :=
  match value with
  | ⟨.object members, h⟩ => some (fieldsOf members h)
  | _ => none

end Value

end GelfCourier.Json
