import Listing.Words
set_option autoImplicit false

namespace Listing

/-- What a client asks for. Column searches and filters are in the order given, each key once. -/
structure ListRequest where
  page : Int := 1
  limit : Int := 10
  search : String := ""
  columnSearch : List (String × String) := []
  sortBy : String := ""
  sortOrder : SortOrder := .desc
  filters : List (String × Value) := []
  relations : List String := []
deriving Repr

namespace ListRequest

def toFields (r : ListRequest) : List (String × Value) :=
  [("page", .int r.page), ("limit", .int r.limit), ("search", .text r.search),
    ("column_search", .map (r.columnSearch.map fun e => (.text e.1, .text e.2))),
    ("sort_by", .text r.sortBy), ("sort_order", .text r.sortOrder.word),
    ("filters", .map (r.filters.map fun e => (.text e.1, e.2))),
    ("relations", .list (r.relations.map .text))]

end ListRequest
end Listing
