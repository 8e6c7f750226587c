import Listing.Entries
import Listing.Number.Binary64
import Listing.Number.Decimal
import Listing.Time.DateTime
import Listing.Time.Packed
set_option autoImplicit false

/-!
# Values

The values of parameters, filters, bound statement parameters and records. A map keeps its
entries in order, each key once.
-/

namespace Listing

/-- An enumeration. A member has a name, which is stored, and a label, which a request names it
by. -/
structure Enumeration where
  name : String
  members : List (String × String)
  names_nodup : (members.map (·.1)).Nodup
  labels_nodup : (members.map (·.2)).Nodup
deriving DecidableEq, Repr

structure Member where
  enumeration : Enumeration
  name : String
  label : String
  isMember : (name, label) ∈ enumeration.members
deriving DecidableEq, Repr

namespace Enumeration

def all (e : Enumeration) : List Member := e.members.attach.map fun p => ⟨e, p.1.1, p.1.2, p.2⟩

def ofLabel? (e : Enumeration) (s : String) : Option Member := e.all.find? (·.label == s)

def ofName? (e : Enumeration) (s : String) : Option Member := e.all.find? (·.name == s)

def nameLength (e : Enumeration) : Nat := e.members.foldl (fun n p => max n p.1.length) 0

theorem mem_all {e : Enumeration} {m : Member} : m ∈ e.all ↔ m.enumeration = e := by
  unfold all
  rw [List.mem_map]
  constructor
  · rintro ⟨p, -, rfl⟩
    rfl
  · rintro rfl
    exact ⟨⟨_, m.isMember⟩, List.mem_attach _ _, rfl⟩

end Enumeration

inductive Value where
  | null
  | bool (b : Bool)
  | int (n : Int)
  | float (x : Binary64)
  | text (s : String)
  | list (items : List Value)
  | map (entries : List (Value × Value))
  | datetime (t : DateTime)
  | date (d : Day)
  | time (t : Clock)
  | decimal (d : Decimal)
  | uuid (n : Nat)
  | member (m : Member)
deriving Repr, Inhabited

inductive Kind where
  | null
  | bool
  | int
  | float
  | text
  | list
  | map
  | datetime
  | date
  | time
  | duration
  | decimal
  | uuid
  | enum (e : Enumeration)
  | bytes
deriving DecidableEq, Repr

namespace Value

def kind : Value → Kind
  | null => .null
  | bool _ => .bool
  | int _ => .int
  | float _ => .float
  | text _ => .text
  | list _ => .list
  | map _ => .map
  | datetime _ => .datetime
  | date _ => .date
  | time _ => .time
  | decimal _ => .decimal
  | uuid _ => .uuid
  | member m => .enum m.enumeration

def toRat? : Value → Option Rat
  | bool b => some (b.toNat : Rat)
  | int n => some (n : Rat)
  | float x => x.toRat?
  | _ => none

/-- Whether two keys are the same: numbers by their value, other scalars by identity. -/
def sameKey : Value → Value → Bool
  | null, null => true
  | text a, text b => a == b
  | datetime a, datetime b => a == b
  | float (.infinite a), float (.infinite b) => a == b
  | a, b =>
    match a.toRat?, b.toRat? with
    | some x, some y => x == y
    | _, _ => false

instance : BEq Value := ⟨sameKey⟩

/-- The last item of a list, null for an empty list; any other value itself. -/
def last : Value → Value
  | list items => items.getLast?.getD null
  | v => v

def isEmpty : Value → Bool
  | null => true
  | text s => s.isEmpty
  | list items => items.isEmpty
  | map entries => entries.isEmpty
  | _ => false

def isTruthy : Value → Bool
  | bool b => b
  | int n => n != 0
  | float x => x.toRat? != some 0
  | v => !v.isEmpty

end Value
end Listing
