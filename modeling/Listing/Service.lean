import Listing.Envelope
import Listing.ListRequest.Reader
import Listing.Pagination
import Listing.Session
set_option autoImplicit false

namespace Listing

structure Service where
  policy : Policy
  config : Config := .default
  registry : Registry := .builtin
  hook : Option (Hook Query) := none

/-- Where requests come from: raw parameters, a normalized request, or fields of one. -/
inductive Incoming where
  | params (params : Params)
  | fields (fields : List (String × Value))
deriving Repr

structure Answer where
  diagnostics : List Diagnostic := []
  told : List HookArguments := []
  result : Outcome (Envelope Item)

namespace Service

def request (s : Service) : Incoming → Outcome ListRequest
  | .params params => ListRequest.ofParams s.config params
  | .fields fields => ListRequest.ofFields fields

def page (s : Service) (r : ListRequest) : Int :=
  ((s.config.boundPage (.whole r.page)).truncate?).getD r.page

def pageSize (s : Service) (r : ListRequest) : Quantity := s.config.boundPerPage (.whole r.limit)

def respond (s : Service) (session : Session) (db : Sql.Database) (url : Option Url)
    (r : ListRequest) (q : Query) : Outcome (Envelope Item) := do
  let along := (session.countsAlong s.config.useWindowFunction).isTruthy
  let number := s.page r
  let e ← match s.pageSize r with
    | .whole limit => do RichEnvelope.ofPage url (← q.paginate db along limit number)
    | size => do
      let (data, total) ← Paging.read (q.source db) along size number
      let last ← Paging.lastPageOf (.whole total) size
      RichEnvelope.ofFacts url data ⟨.int number, size.toValue, .int total, .int last⟩
  .ok (e.inShape s.config.envelope)

def answerRequest (s : Service) (session : Session) (db : Sql.Database) (url : Option Url)
    (q : Query) (r : ListRequest) : Answer :=
  let receiver := Query.receiver s.registry
  let diagnostics := Plan.diagnostics s.policy r
  match Plan.select receiver s.policy r q with
  | .error e => { diagnostics, result := .error e }
  | .ok q =>
    { diagnostics
      told := if s.hook.isSome then [Plan.hookArguments receiver s.policy r q] else []
      result := do
        s.respond session db url r (← Plan.finish receiver s.hook s.policy r q) }

def answer (s : Service) (session : Session) (db : Sql.Database) (url : Option Url) (q : Query)
    (incoming : Incoming) : Answer :=
  match s.request incoming with
  | .error e => { result := .error e }
  | .ok r => s.answerRequest session db url q r

end Service
end Listing
