import Listing.Fault
set_option autoImplicit false

/-!
# Values as maps

A map is its own entries. A list of pairs is a map too, a pair being any two items: a list of two,
a text of two characters, or a map with two keys.
-/

namespace Listing.Value

def parts? : Value → Option (List Value)
  | list items => some items
  | text s => some (s.toList.map fun c => text (String.singleton c))
  | map entries => some (entries.map (·.1))
  | _ => none

def isKey : Value → Bool
  | list _ => false
  | map _ => false
  | _ => true

def pairAt (position : Nat) (v : Value) : Outcome (Value × Value) :=
  match v.parts? with
  | none => .error (.notAPair position)
  | some [key, value] => if key.isKey then .ok (key, value) else .error (.unhashable key.kind)
  | some items => .error (.wrongPairSize position items.length)

def pairsFrom (position : Nat) (entries : List (Value × Value)) :
    List Value → Outcome (List (Value × Value))
  | [] => .ok entries
  | v :: vs => do
    let (key, value) ← pairAt position v
    pairsFrom (position + 1) (Entries.insert entries key value) vs

def entriesOf (v : Value) : Outcome (List (Value × Value)) :=
  match v with
  | map entries => .ok entries
  | v =>
    match v.parts? with
    | some items => pairsFrom 0 [] items
    | none => .error (.notIterable v.kind)

end Listing.Value
