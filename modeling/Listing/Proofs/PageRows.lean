import Listing.Proofs.Changes
import Listing.Proofs.PageSources
import Listing.Proofs.RequestReading
import Listing.Service

set_option autoImplicit false

namespace Listing

open Outcome Sql

/-! ## Page sizes that are integers -/

namespace Quantity

variable {a b q : Quantity} {m n : Int}

theorem truncate_of_int? (h : q.int? = some n) : q.truncate? = some n := by
  cases q with
  | real x => cases h
  | flag b => exact h
  | whole n => exact h

theorem toInteger_of_int? (h : q.int? = some n) : q.toInteger = .ok n := by
  unfold toInteger
  rw [truncate_of_int? h]

theorem mul_of_int? (ha : a.int? = some m) (hb : b.int? = some n) :
    a.mul b = .ok (.whole (m * n)) := by
  unfold mul combine
  rw [ha, hb]

end Quantity

namespace Paging

variable {α : Type} {s : Source α} {along : Bool} {size : Quantity} {limit number : Int}

theorem read_of_int? (h : size.int? = some limit) : read s along size number =
    (if along && offset limit number ≤ maxOffset then do
      let (data, total) ← s.counted limit (offset limit number)
      if data.isEmpty then .ok (data, ← s.count) else .ok (data, total)
    else do
      let total ← s.count
      if (total : Int) ≤ offset limit number then .ok ([], total)
      else .ok (← s.rows limit (offset limit number), total)) := by
  have hmul : (Quantity.whole (number - 1)).mul size = .ok (.whole (offset limit number)) :=
    Quantity.mul_of_int? rfl h
  have hcompare (m n : Int) : (Quantity.whole m).compare? (.whole n) = some (compare m n) := rfl
  have hpast (m n : Int) : isPast (.whole m) n = decide (n ≤ m) := by
    unfold isPast
    rw [hcompare, Option.any_some, Bool.eq_iff_iff, decide_eq_true_eq]
    exact Std.isGE_compare
  have hnear (m n : Int) : ((some (compare m n)).any Ordering.isLE) = decide (m ≤ n) := by
    rw [Option.any_some, Bool.eq_iff_iff, decide_eq_true_eq]
    exact Std.isLE_compare
  unfold read
  rw [hmul, ok_bind]
  simp only [Quantity.toInteger_of_int? h, hpast, hcompare, hnear, decide_eq_true_eq]
  rfl

theorem paginate_eq (s : Source α) (along : Bool) (limit number : Int) :
    paginate s along limit number =
      read s along (.whole limit) number >>= fun x => page x.1 x.2 limit number := by
  rw [read_of_int? rfl]
  unfold paginate paginateAlong paginateCounting
  split_ifs
  · rw [bind_assoc]
    refine congrArg (_ >>= ·) (funext fun x => ?_)
    dsimp only
    split_ifs
    · rw [bind_assoc]
      rfl
    · rfl
  · rw [bind_assoc]
    refine congrArg (_ >>= ·) (funext fun total => ?_)
    split_ifs
    · rfl
    · rw [bind_assoc]
      rfl

end Paging

/-! ## Whole results, row by row -/

namespace Sql.Statement

variable {db : Database} {s : Statement} {counted : Bool} {limit offset : Int}

def listed (db : Database) (s : Statement) (counted : Bool) : Outcome (List (Outcome Result)) := do
  let p ← s.prepare db counted []
  s.checkPatterns db p
  if s.collapses then
    let rows := (s.read db p).map (·.row s.base.name)
    .ok [s.collapsed db rows >>= Fetched.result]
  else .ok ((s.ordered db p).map fun b => s.fetched db b >>= Fetched.result)

end Sql.Statement

namespace Query

variable {db : Database} {q : Query} {along : Bool} {limit offset number : Int}

end Query

/-! ## Labels of aggregates -/

namespace Query

variable {R : Registry} {q q' : Query} {p : Policy} {r : ListRequest}

end Query

/-! ## Answers -/

namespace Service

/-- The page of a query in its rich envelope, whatever form the page size has. -/
def wrapped (s : Service) (session : Session) (db : Database) (url : Option Url)
    (r : ListRequest) (q : Query) : Outcome (RichEnvelope Item) := do
  let (data, total) ← Paging.read (q.source db)
    (session.countsAlong s.config.useWindowFunction).isTruthy (s.pageSize r) (s.page r)
  let last ← Paging.lastPageOf (.whole total) (s.pageSize r)
  RichEnvelope.ofFacts url data ⟨.int (s.page r), (s.pageSize r).toValue, .int total, .int last⟩

theorem respond_eq (s : Service) (session : Session) (db : Database) (url : Option Url)
    (r : ListRequest) (q : Query) : s.respond session db url r q =
      (·.inShape s.config.envelope) <$> s.wrapped session db url r q := by
  unfold respond wrapped
  cases s.pageSize r with
  | whole limit =>
    dsimp only [Query.paginate]
    rw [Paging.paginate_eq]
    simp only [map_eq_pure_bind, bind_assoc, Paging.page]
    rfl
  | flag b =>
    simp only [map_eq_pure_bind, bind_assoc]
    rfl
  | real x =>
    simp only [map_eq_pure_bind, bind_assoc]
    rfl

variable {s : Service} {session : Session} {db : Database} {url : Option Url} {q : Query}
  {r : ListRequest} {incoming : Incoming}

theorem answer_result (url : Option Url)
    (hr : s.request incoming = .ok r) : (s.answer session db url q incoming).result =
      Plan.build (Query.receiver s.registry) s.hook s.policy r q >>=
        s.respond session db url r := by
  unfold answer answerRequest Plan.build
  rw [hr]
  dsimp only
  cases Plan.select (Query.receiver s.registry) s.policy r q <;> rfl

def noSession : Session := ⟨none, none⟩

end Service

end Listing
