import Listing.Quantity
set_option autoImplicit false

namespace Listing

structure Page (α : Type) where
  data : List α
  currentPage : Int
  perPage : Int
  total : Int
  lastPage : Int
deriving Repr

namespace Paging

def ceiling (x : Binary64) : Outcome Int :=
  match x.toRat? with
  | some r => .ok r.ceil
  | none => if x.isNan then .error .nanToInteger else .error .infiniteToInteger

def quotient (total perPage : Int) : Outcome Binary64 :=
  if perPage = 0 then .error .divisionByZero
  else
    match Binary64.ofQuotient (decide (total < 0) != decide (perPage < 0)) total.natAbs
      perPage.natAbs with
    | .infinite _ => .error .quotientTooLarge
    | x => .ok x

def lastPage (total perPage : Int) : Outcome Int := do ceiling (← quotient total perPage)

/-- `quotient` on quantities: floating point operands are divided as such. -/
def quotientOf (total perPage : Quantity) : Outcome Binary64 :=
  match total.int?, perPage.int? with
  | some m, some n => quotient m n
  | _, _ => do
    let x ← total.toReal
    let y ← perPage.toReal
    match x.div? y with
    | some q => .ok q
    | none => .error .realDivisionByZero

def lastPageOf (total perPage : Quantity) : Outcome Int := do ceiling (← quotientOf total perPage)

def lastPageValue (total perPage : Value) : Outcome Int := do
  let (m, n) ← Value.operands "/" total perPage
  lastPageOf m n

def offset (limit page : Int) : Int := (page - 1) * limit

def page {α : Type} (data : List α) (total limit page : Int) : Outcome (Page α) := do
  .ok { data, currentPage := page, perPage := limit, total, lastPage := ← lastPage total limit }

end Paging
end Listing
