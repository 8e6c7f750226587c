import Listing.Params.UrlEncoded
import Listing.Value.Basic
set_option autoImplicit false

namespace Listing

/-- Keys with their values, in order, each key once. -/
abbrev Params := Entries String Value

namespace Params

def get (params : Params) (key : String) : Value := (params.lookup? key).getD .null

/-- One more occurrence of a key that has a value. -/
def repeated : Value → Value → Value
  | .list items, v => .list (items ++ [v])
  | first, v => .list [first, v]

def add (params : Params) (f : String × String) : Params :=
  match params.lookup? f.1 with
  | some v => params.insert f.1 (repeated v (.text f.2))
  | none => params ++ [(f.1, .text f.2)]

def ofFields (fields : List (String × String)) : Params := fields.foldl add []

def ofQuery (query : String) : Params := ofFields (UrlEncoded.fields query.toList)

end Params
end Listing
