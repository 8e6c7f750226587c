import Listing.Proofs.Outcomes
import Listing.Query

set_option autoImplicit false

/-!
# Changes of a query

A call is taken in two steps: catalog and model say what it changes, or that it fails, and then the
change is added to the statement. Catalog and model stay as they are, so whether a plan is carried
out can be told call by call from the handle that it begins with.
-/

namespace Listing

open Outcome Sql

namespace Query

inductive Change where
  | join (j : Join)
  | deselect
  | aggregate (a : Aggregate)
  | load (loads : List (List Attribute)) (paths : List String)
  | restrict (groups : List (List Condition))
  | order (o : Order)

def aggregateOf (q : Query) (kind : AggregateKind) (relation : String) (column : Option String) :
    Outcome Aggregate := do
  let some r := q.model.relation? relation | throw (.missingKey (.text relation))
  if r.link.isSome then throw (.aggregateOverMany relation)
  let some target := q.catalog.targetOf? r | throw (.missingKey (.text relation))
  let column ← aggregateColumn kind target.table column
  .ok { kind, target := target.table, column, pairs := r.pairs
        label := aggregateLabel kind relation (column.map (·.1)) }

def joinOf (q : Query) (table foreignKey relatedKey : String) : Outcome Join :=
  if !q.model.table.hasColumn foreignKey then .error (.missingKey (.text foreignKey))
  else if (q.catalog.table? table).any (!·.hasColumn relatedKey) then
    .error (.missingKey (.text relatedKey))
  else .ok ⟨table, foreignKey, relatedKey⟩

def changeOf (r : Registry) (q : Query) : Call → Outcome Change
  | .leftJoin table foreignKey relatedKey => .join <$> q.joinOf table foreignKey relatedKey
  | .selectBase => .ok .deselect
  | .withAggregate kind relation column => .aggregate <$> q.aggregateOf kind relation column
  | .withRelations paths => .ok (.load (paths.filterMap q.loader?) (paths.filter q.accepts))
  | .whereAny ps => (fun cs => .restrict (if cs.isEmpty then [] else [cs])) <$> q.conditions r ps
  | .whereAll ps => (fun cs => .restrict (cs.map fun c => [c])) <$> q.conditions r ps
  | .orderBy c order => .ok (.order ⟨q.column c, order, none⟩)
  | .orderByNulls c order nulls => .ok (.order ⟨q.column c, order, some nulls⟩)

def apply (q : Query) : Change → Query
  | .join j => { q with statement.joins := q.statement.joins ++ [j] }
  | .deselect => { q with statement.aggregates := [] }
  | .aggregate a => { q with statement.aggregates := q.statement.aggregates ++ [a] }
  | .load loads paths =>
    { q with statement.loads := q.statement.loads ++ loads, loaded := q.loaded ++ paths }
  | .restrict groups => q.restrict groups
  | .order o => { q with statement.orders := q.statement.orders ++ [o] }

variable {r : Registry} {q q' : Query}

theorem restrict_nil (q : Query) : q.restrict [] = q := by
  unfold restrict
  rw [List.append_nil]

theorem leftJoin_eq (table foreignKey relatedKey : String) :
    q.leftJoin table foreignKey relatedKey =
      (fun j => q.apply (.join j)) <$> q.joinOf table foreignKey relatedKey := by
  unfold leftJoin joinOf
  split_ifs <;> rfl

theorem withAggregate_eq (kind : AggregateKind) (relation : String) (column : Option String) :
    q.withAggregate kind relation column =
      (fun a => q.apply (.aggregate a)) <$> q.aggregateOf kind relation column := by
  unfold withAggregate aggregateOf
  cases q.model.relation? relation with
  | none => rfl
  | some relation =>
    dsimp only
    split_ifs
    · rfl
    · cases q.catalog.targetOf? relation with
      | none => rfl
      | some target =>
        dsimp only
        cases aggregateColumn kind target.table column <;> rfl

/-- An aggregate can be taken over a relation without a link, of a column that its target has. -/
theorem aggregateOf_eq_ok_iff {kind : AggregateKind} {name : String} {column : Option String}
    {a : Aggregate} : q.aggregateOf kind name column = .ok a ↔ ∃ relation target found,
      q.model.relation? name = some relation ∧ relation.link = none ∧
      q.catalog.targetOf? relation = some target ∧
      aggregateColumn kind target.table column = .ok found ∧
      a = { kind, target := target.table, column := found, pairs := relation.pairs
            label := aggregateLabel kind name (found.map (·.1)) } := by
  constructor
  · intro h
    unfold aggregateOf at h
    split at h
    · rename_i relation hrelation
      split_ifs at h with hlink
      · cases h
      · split at h
        · rename_i target htarget
          obtain ⟨found, hfound, h⟩ := bind_eq_ok_iff.1 h
          cases h
          exact ⟨relation, target, found, hrelation, Option.not_isSome_iff_eq_none.1 hlink,
            htarget, hfound, rfl⟩
        · cases h
    · cases h
  · rintro ⟨relation, target, found, hrelation, hlink, htarget, hfound, rfl⟩
    unfold aggregateOf
    rw [hrelation]
    dsimp only
    rw [hlink, htarget]
    dsimp only
    rw [hfound]
    rfl

theorem step_eq (call : Call) : q.step r call = q.apply <$> q.changeOf r call := by
  cases call with
  | leftJoin table foreignKey relatedKey =>
    exact (leftJoin_eq table foreignKey relatedKey).trans (Functor.map_map ..).symm
  | selectBase => rfl
  | withAggregate kind relation column =>
    exact (withAggregate_eq kind relation column).trans (Functor.map_map ..).symm
  | withRelations paths => rfl
  | whereAny ps =>
    change (q.conditions r ps >>= fun cs => .ok (if cs.isEmpty then q else q.restrict [cs])) =
      q.apply <$> (_ <$> q.conditions r ps)
    cases q.conditions r ps with
    | error e => rfl
    | ok cs =>
      cases cs with
      | nil => exact congrArg Except.ok (restrict_nil q).symm
      | cons c cs => rfl
  | whereAll ps =>
    change (q.conditions r ps >>= fun cs => .ok (q.restrict (cs.map fun c => [c]))) =
      q.apply <$> (_ <$> q.conditions r ps)
    cases q.conditions r ps <;> rfl
  | orderBy c order => rfl
  | orderByNulls c order nulls => rfl

def SharesModel (q q' : Query) : Prop := q.catalog = q'.catalog ∧ q.model = q'.model

theorem apply_sharesModel (q : Query) (d : Change) : (q.apply d).SharesModel q := by
  cases d <;> exact ⟨rfl, rfl⟩

theorem column_congr (h : q.SharesModel q') : q.column = q'.column := by
  funext c
  unfold column tableName
  rw [h.1, h.2]

theorem column_type (q : Query) (name : String) (b b' : Bool) :
    (q.column ⟨name, b⟩).type = (q.column ⟨name, b'⟩).type := by
  unfold column
  cases splitDot? name with
  | none =>
    dsimp only
    cases q.model.table.columnType? name with
    | none => rfl
    | some t => cases b <;> cases b' <;> rfl
  | some e => rfl

theorem conditions_congr (h : q.SharesModel q') : q.conditions r = q'.conditions r := by
  have hone : q.condition? r = q'.condition? r := by
    funext p
    cases p with
    | contains c term asText => rw [condition?, condition?, column_congr h]
    | compare c operator operand => rw [condition?, condition?, column_congr h]
  funext ps
  unfold conditions
  rw [hone]

theorem changeOf_congr (h : q.SharesModel q') : q.changeOf r = q'.changeOf r := by
  have hloader : q.loader? = q'.loader? := by
    funext path
    unfold loader?
    rw [h.1, h.2]
  have haccepts : q.accepts = q'.accepts := by
    unfold accepts
    rw [hloader]
  funext call
  cases call with
  | leftJoin table foreignKey relatedKey =>
    unfold changeOf joinOf
    rw [h.1, h.2]
  | selectBase => rfl
  | withAggregate kind relation column =>
    unfold changeOf aggregateOf
    rw [h.1, h.2]
  | withRelations paths =>
    unfold changeOf
    rw [hloader, haccepts]
  | whereAny ps =>
    unfold changeOf
    rw [conditions_congr h]
  | whereAll ps =>
    unfold changeOf
    rw [conditions_congr h]
  | orderBy c order =>
    unfold changeOf
    rw [column_congr h]
  | orderByNulls c order nulls =>
    unfold changeOf
    rw [column_congr h]

theorem carryOut_cons (q : Query) (call : Call) (calls : List Call) :
    Plan.carryOut (receiver r) (call :: calls) q =
      q.changeOf r call >>= fun d => Plan.carryOut (receiver r) calls (q.apply d) := by
  have hstep : (receiver r).step q call = q.apply <$> q.changeOf r call := step_eq call
  unfold Plan.carryOut
  rw [List.foldlM_cons, hstep]
  cases q.changeOf r call <;> rfl

/-- Calls are carried out exactly if each of them can be taken by the handle that they begin
with. -/
theorem carryOut_verdict (h : q.SharesModel q') (calls : List Call) :
    verdict (Plan.carryOut (receiver r) calls q) =
      forM calls fun call => verdict (q'.changeOf r call) := by
  induction calls generalizing q with
  | nil => rfl
  | cons call calls ih =>
    rw [carryOut_cons, changeOf_congr h, List.forM_cons, verdict_bind]
    cases q'.changeOf r call with
    | error e => rfl
    | ok d =>
      have hshares := apply_sharesModel q d
      exact ih ⟨hshares.1.trans h.1, hshares.2.trans h.2⟩

/-- What every call keeps true of a handle is true after all of them. -/
theorem carryOut_invariant {P : Query → Prop} {calls : List Call}
    (hkeeps : ∀ call ∈ calls, ∀ q d, P q → q.changeOf r call = .ok d → P (q.apply d))
    (h : Plan.carryOut (receiver r) calls q = .ok q') (hq : P q) : P q' := by
  induction calls generalizing q with
  | nil =>
    cases h
    exact hq
  | cons call calls ih =>
    rw [carryOut_cons] at h
    obtain ⟨d, hd, h⟩ := bind_eq_ok_iff.1 h
    have hnext := hkeeps call List.mem_cons_self q d hq hd
    exact ih (fun call' hcall' => hkeeps call' (List.mem_cons_of_mem _ hcall')) h hnext

end Query
end Listing
