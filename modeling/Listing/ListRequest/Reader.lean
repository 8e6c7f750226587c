import Listing.Config
import Listing.ListRequest.Validation
import Listing.Params.Basic
import Listing.Value.Text
set_option autoImplicit false

/-!
# Reading parameters

Raw parameters become a normalized request. Page and page size are read as numbers and bounded by
the configuration; texts that are no numbers give the defaults. Keys `columnSearch[alias]` are
column searches, keys `field[op]` with a known operator are operator filters, and every other key
that is not reserved is a plain filter. Of a repeated parameter that has one value the last
occurrence counts.
-/

namespace Listing.ListRequest
open Listing.Text

/-- The integer a text denotes: an integer numeral, or the integer part of a fractional one. -/
def integerOfText? (cs : List Char) : Option Int :=
  match Numeral.readInteger? cs with
  | some n => some n
  | none => (Numeral.readBinary64? cs).bind Binary64.truncate?

def integerOf? : Value → Option Int
  | .null => none
  | v => integerOfText? (trim v.display.toList)

def quantityOr (default : Quantity) (v : Value) : Quantity :=
  (integerOf? v).elim default .whole

def dropLineBreak (cs : List Char) : List Char :=
  if cs.getLast? = some '\n' then cs.dropLast else cs

def beforeBracket? (cs : List Char) : Option (List Char) :=
  let cs := dropLineBreak cs
  if cs.getLast? = some ']' then some cs.dropLast else none

def isName (cs : List Char) : Bool := !cs.isEmpty && !cs.contains '\n'

def columnSearchAlias? (key : String) : Option String :=
  let opening := "columnSearch[".toList
  if opening.isPrefixOf key.toList then
    match beforeBracket? (key.toList.drop opening.length) with
    | some field => if isName field then some (String.ofList field) else none
    | none => none
  else none

/-- The field and the operator in a key `field[op]` with a known operator. The operator is in the
last brackets. -/
def operatorKey? (key : String) : Option (String × FilterOperator) :=
  match beforeBracket? key.toList with
  | none => none
  | some cs =>
    let word := (cs.reverse.takeWhile (· != '[')).reverse
    let field := cs.take (cs.length - word.length - 1)
    if isName field && word.length < cs.length then
      (FilterOperator.ofWord? (String.ofList word)).map (String.ofList field, ·)
    else none

def reservedKeys : List String :=
  ["page", "limit", "search", "sortBy", "sort_by", "sortOrder", "sort_order", "with",
    "columnSearch"]

def isFilterKey (key : String) : Bool :=
  !reservedKeys.contains key && (columnSearchAlias? key).isNone

def sortOrderOf? : Value → Option SortOrder
  | .null => none
  | v => SortOrder.ofWord? (String.ofList (lowerAscii (trim v.display.toList)))

/-- Column searches: of a map under `columnSearch`, else of the keys `columnSearch[alias]`. -/
def columnSearchOf (params : Params) : List (String × String) :=
  match params.get "columnSearch" with
  | .map entries =>
    entries.foldl (fun terms e => Entries.insert terms e.1.display e.2.last.term) []
  | _ =>
    params.foldl (fun terms e =>
      match columnSearchAlias? e.1 with
      | some field => Entries.insert terms field e.2.last.term
      | none => terms) []

def relationsOf (v : Value) : List String :=
  if v.isTruthy then
    ((v.display.toList.splitOn ',').map trim).filter (!·.isEmpty) |>.map String.ofList
  else []

def eqKey : Value := .text FilterOperator.eq.word

def operatorMap : Option Value → List (Value × Value)
  | none => []
  | some (.map entries) => entries
  | some v => [(eqKey, v)]

/-- A plain value without empty items; a single item stands for itself. None if nothing is left. -/
def plainValue? : Value → Option Value
  | .list items =>
    match items.filter (!·.isEmpty) with
    | [] => none
    | [v] => some v
    | vs => some (.list vs)
  | v => some v

def addFilter (filters : Params) (e : String × Value) : Params :=
  if !isFilterKey e.1 || e.2.isEmpty then filters
  else
    match operatorKey? e.1 with
    | some (field, operator) =>
      filters.insert field
        (.map (Entries.insert (operatorMap (filters.lookup? field)) (.text operator.word) e.2))
    | none =>
      match plainValue? e.2 with
      | none => filters
      | some v =>
        match filters.lookup? e.1 with
        | some (.map entries) => filters.insert e.1 (.map (Entries.insert entries eqKey v))
        | _ => filters.insert e.1 v

def filtersOf (params : Params) : Params := params.foldl addFilter []

def firstOf (params : Params) (key other : String) : Value :=
  ((params.lookup? key).getD (params.get other)).last

def ofParams (c : Config) (params : Params) : Outcome ListRequest :=
  let page := c.boundPage (quantityOr c.defaultPage (params.get "page").last)
  let limit := c.boundPerPage (quantityOr c.defaultPerPage (params.get "limit").last)
  match Validation.positiveField "page" page.toValue,
    Validation.positiveField "limit" limit.toValue with
  | .ok page, .ok limit =>
    .ok {
      page, limit
      search := (params.get "search").last.term
      columnSearch := columnSearchOf params
      sortBy := (firstOf params "sortBy" "sort_by").term
      sortOrder := (sortOrderOf? (firstOf params "sortOrder" "sort_order")).getD c.defaultSortOrder
      filters := filtersOf params
      relations := relationsOf (params.get "with").last }
  | page, limit => .error (.invalid (Validation.flaws page ++ Validation.flaws limit))

end Listing.ListRequest
