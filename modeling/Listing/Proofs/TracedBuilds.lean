import Listing.Proofs.Restrictions
import Listing.Sample.Heroes

set_option autoImplicit false

namespace Listing

open Outcome

/-! ## Traces -/

/-- A handle, known by its name, gets a call, or a hook that has the handle is told something. -/
inductive Event (ι : Type) where
  | called (handle : ι) (call : Call)
  | hooked (handle : ι) (told : HookArguments)

structure Traced (H ι : Type) where
  handle : H
  events : List (Event ι) := []

section Traced

variable {H ι : Type} (name : H → ι)

def Receiver.traced (receiver : Receiver H) : Receiver (Traced H ι) where
  step t call := do
    .ok ⟨← receiver.step t.handle call, t.events ++ [.called (name t.handle) call]⟩
  tableName t := receiver.tableName t.handle
  knows := receiver.knows

def Hook.traced (hook : Hook H) : Hook (Traced H ι) := fun t told => do
  .ok (some ⟨(← hook t.handle told).getD t.handle, t.events ++ [.hooked (name t.handle) told]⟩)

/-- Calls change a handle, but it stays the same handle on the same table. -/
structure Receiver.KeepsHandles (receiver : Receiver H) : Prop where
  name : ∀ {h h' : H} {call : Call}, receiver.step h call = .ok h' → name h' = name h
  table : ∀ {h h' : H} {call : Call},
    receiver.step h call = .ok h' → receiver.tableName h' = receiver.tableName h

def Receiver.named (ι : Type) (receiver : Receiver H) : Receiver (ι × H) where
  step h call := (h.1, ·) <$> receiver.step h.2 call
  tableName h := receiver.tableName h.2
  knows := receiver.knows

end Traced

namespace Plan

variable {H ι : Type} {name : H → ι} {receiver : Receiver H} {hook : Option (Hook H)} {p : Policy}
  {r : ListRequest}

theorem carryOut_cons (calls : List Call) (call : Call) (h : H) :
    carryOut receiver (call :: calls) h = receiver.step h call >>= carryOut receiver calls := by
  unfold carryOut
  rw [List.foldlM_cons]

theorem carryOut_same {α : Type} {f : H → α}
    (hstep : ∀ {h h' : H} {call : Call}, receiver.step h call = .ok h' → f h' = f h)
    {calls : List Call} {h h' : H} (hrun : carryOut receiver calls h = .ok h') : f h' = f h := by
  induction calls generalizing h with
  | nil =>
    cases hrun
    rfl
  | cons call calls ih =>
    rw [carryOut_cons] at hrun
    obtain ⟨h₁, hfirst, hrun⟩ := bind_eq_ok_iff.1 hrun
    rw [ih hrun, hstep hfirst]

/-- Calls are taken as without a trace, and all of them are on the handle that took the first. -/
theorem carryOut_traced (hkeeps : receiver.KeepsHandles name) (calls : List Call)
    (t : Traced H ι) :
    carryOut (receiver.traced name) calls t =
      (fun h => ⟨h, t.events ++ calls.map (.called (name t.handle))⟩) <$>
        carryOut receiver calls t.handle := by
  induction calls generalizing t with
  | nil =>
    change Except.ok t = .ok ⟨t.handle, t.events ++ []⟩
    rw [List.append_nil]
  | cons call calls ih =>
    have hstep : (receiver.traced name).step t call = receiver.step t.handle call >>= fun h =>
        .ok ⟨h, t.events ++ [.called (name t.handle) call]⟩ := rfl
    rw [carryOut_cons, carryOut_cons, hstep]
    cases hnext : receiver.step t.handle call with
    | error e => rfl
    | ok h =>
      rw [ok_bind, ok_bind, ok_bind, ih, hkeeps.name hnext, List.append_assoc]
      rfl

theorem finish_some (f : Hook H) (h : H) : finish receiver (some f) p r h =
    f h (hookArguments receiver p r h) >>= fun given =>
      carryOut receiver (orderCalls p r) (given.getD h) := by
  unfold finish
  dsimp only
  cases f h (hookArguments receiver p r h) <;> rfl

theorem finish_traced (hkeeps : receiver.KeepsHandles name) (t : Traced H ι) :
    finish (receiver.traced name) (hook.map (Hook.traced name)) p r t =
      (fun h' => ⟨h', t.events ++
        (hook.map fun _ => .hooked (name t.handle) (hookArguments receiver p r t.handle)).toList ++
        (orderCalls p r).map (.called (name h'))⟩) <$> finish receiver hook p r t.handle := by
  have horder (t : Traced H ι) : carryOut (receiver.traced name) (orderCalls p r) t =
      (fun h' => ⟨h', t.events ++ (orderCalls p r).map (.called (name h'))⟩) <$>
        carryOut receiver (orderCalls p r) t.handle := by
    rw [carryOut_traced hkeeps]
    cases hrun : carryOut receiver (orderCalls p r) t.handle with
    | error e => rfl
    | ok h' =>
      -- An order keeps the handle, so its calls may be put down to the handle that comes out.
      have hname : name h' = name t.handle := carryOut_same hkeeps.name hrun
      exact congrArg (fun n => Except.ok (Traced.mk h' (t.events ++
        (orderCalls p r).map (.called n)))) hname.symm
  cases hook with
  | none =>
    change carryOut (receiver.traced name) (orderCalls p r) t = _
    rw [horder t, Option.map_none, Option.toList_none, List.append_nil]
    rfl
  | some f =>
    have hfirst : finish (receiver.traced name) ((some f).map (Hook.traced name)) p r t =
        (f t.handle (hookArguments receiver p r t.handle) >>= fun given =>
          .ok (some ⟨given.getD t.handle,
            t.events ++ [.hooked (name t.handle) (hookArguments receiver p r t.handle)]⟩)) >>=
          fun given => carryOut (receiver.traced name) (orderCalls p r) (given.getD t) :=
      finish_some (Hook.traced name f) t
    rw [hfirst, finish_some]
    cases f t.handle (hookArguments receiver p r t.handle) with
    | error e => rfl
    | ok given => exact horder _

/-- A build goes on as without a trace. The calls before the hook are on the handle that is given,
then the hook is told, and the order is on the handle that comes out. -/
theorem build_traced (hkeeps : receiver.KeepsHandles name) (h : H) :
    build (receiver.traced name) (hook.map (Hook.traced name)) p r ⟨h, []⟩ =
      (fun h' => ⟨h', (selection receiver.knows p r).map (.called (name h)) ++
        (hook.map fun _ => .hooked (name h) (hookArguments receiver p r h)).toList ++
        (orderCalls p r).map (.called (name h'))⟩) <$> build receiver hook p r h := by
  have hselect : select (receiver.traced name) p r ⟨h, []⟩ =
      (fun h₁ => ⟨h₁, (selection receiver.knows p r).map (.called (name h))⟩) <$>
        select receiver p r h := carryOut_traced hkeeps _ ⟨h, []⟩
  have hbuild : build receiver hook p r h =
      select receiver p r h >>= finish receiver hook p r := rfl
  change select (receiver.traced name) p r ⟨h, []⟩ >>= finish (receiver.traced name) _ p r = _
  rw [hselect, hbuild]
  cases hrun : select receiver p r h with
  | error e => rfl
  | ok h₁ =>
    have hname : name h₁ = name h := carryOut_same hkeeps.name hrun
    -- The hook is told the table of the handle as it is after the selection.
    have htable : receiver.tableName h₁ = receiver.tableName h := carryOut_same hkeeps.table hrun
    have htold : hookArguments receiver p r h₁ = hookArguments receiver p r h := by
      unfold hookArguments
      rw [htable]
    change finish (receiver.traced name) _ p r ⟨h₁, _⟩ = _
    rw [finish_traced hkeeps, hname, htold]
    rfl

end Plan

/-! ## The sort field -/

/-- The alias and the column that a request sorts by: those it asks for if they are listed, else the
first that are. -/
inductive Policy.SortsBy (p : Policy) (asked : String) : String → String → Prop where
  | listed {column : String} :
    p.sortableFields.lookup asked = some column → SortsBy p asked asked column
  | first {field column : String} {others : List (String × String)} :
    p.sortableFields.lookup asked = none → p.sortableFields = (field, column) :: others →
      SortsBy p asked field column

def Policy.SortJoins (p : Policy) (asked : String) (join : RelationJoin) : Prop :=
  ∃ field column, p.SortsBy asked field column ∧ p.relationJoins.lookup field = some join

namespace Call

def Joins : Call → Prop
  | .leftJoin .. => True
  | .selectBase => True
  | _ => False

def Orders : Call → Prop
  | .orderBy .. => True
  | .orderByNulls .. => True
  | _ => False

variable {call : Call}

theorem Selects.plain (h : call.Selects) : ¬ call.Joins ∧ ¬ call.Orders := by
  cases call with
  | whereAny | whereAll => exact ⟨id, id⟩
  | _ => exact h.elim

theorem Attaches.plain (h : call.Attaches) : ¬ call.Joins ∧ ¬ call.Orders := by
  cases call with
  | withAggregate | withRelations => exact ⟨id, id⟩
  | _ => exact h.elim

theorem groups_of_not_selects (h : ¬ call.Selects) : call.groups = [] := by
  cases call with
  | whereAny | whereAll => exact absurd trivial h
  | _ => rfl

end Call

namespace Plan

variable {H : Type} {p : Policy} {r : ListRequest}

theorem find?_eq_lookup {α : Type} (entries : List (String × α)) (field : String) :
    (entries.find? (·.1 == field)).map (·.2) = entries.lookup field := by
  induction entries with
  | nil => rfl
  | cons e entries ih =>
    rw [List.find?_cons, List.lookup_cons, Bool.beq_comm (a := field)]
    cases e.1 == field with
    | true => rfl
    | false => exact ih

theorem sortField?_eq_some_iff {field column : String} :
    sortField? p r = some (field, column) ↔ p.SortsBy r.sortBy field column := by
  have hlookup : Policy.columnOf? p.sortableFields r.sortBy = p.sortableFields.lookup r.sortBy :=
    find?_eq_lookup p.sortableFields r.sortBy
  unfold sortField?
  rw [hlookup]
  constructor
  · intro h
    cases hasked : p.sortableFields.lookup r.sortBy with
    | some column' =>
      rw [hasked] at h
      cases h
      exact .listed hasked
    | none =>
      rw [hasked] at h
      obtain ⟨others, hothers⟩ := List.head?_eq_some_iff.1 h
      exact .first hasked hothers
  · rintro (hasked | ⟨hasked, hothers⟩)
    · rw [hasked]
    · rw [hasked]
      exact congrArg List.head? hothers

theorem sortField?_eq_none_iff : sortField? p r = none ↔ p.sortableFields = [] := by
  unfold sortField?
  split
  · rename_i column hcolumn
    constructor
    · intro h
      cases h
    · intro hnil
      rw [hnil] at hcolumn
      cases hcolumn
  · exact List.head?_eq_none_iff

theorem mem_of_sortField? {e : String × String} (h : sortField? p r = some e) :
    e ∈ p.sortableFields := by
  unfold sortField? at h
  split at h
  · rename_i column hcolumn
    cases h
    obtain ⟨e, he, rfl⟩ := Option.map_eq_some_iff.1 hcolumn
    have hfield : (e.1 == r.sortBy) = true :=
      List.find?_some (p := fun e : String × String => e.1 == r.sortBy) he
    rw [← beq_iff_eq.1 hfield]
    exact List.mem_of_find?_eq_some he
  · exact List.mem_of_mem_head? h

theorem join?_eq_some_iff (hnamed : ∀ e ∈ p.sortableFields, e.1 ≠ "") {join : RelationJoin} :
    join? p r = some join ↔ p.SortJoins r.sortBy join := by
  have hjoin {field column : String} (hsort : sortField? p r = some (field, column)) :
      p.joinFor? field = p.relationJoins.lookup field := by
    have hfield : field.isEmpty = false := by
      rw [Bool.eq_false_iff, ne_eq, String.isEmpty_iff]
      exact hnamed _ (mem_of_sortField? hsort)
    unfold Policy.joinFor?
    rw [hfield]
    exact find?_eq_lookup p.relationJoins field
  unfold join? Policy.SortJoins
  rw [Option.bind_eq_some_iff]
  constructor
  · rintro ⟨⟨field, column⟩, hsort, hfound⟩
    exact ⟨field, column, sortField?_eq_some_iff.1 hsort, hjoin hsort ▸ hfound⟩
  · rintro ⟨field, column, hsorts, hfound⟩
    have hsort := sortField?_eq_some_iff.2 hsorts
    exact ⟨(field, column), hsort, (hjoin hsort).trans hfound⟩

/-! ## What the sort field decides -/

/-- The calls before the hook, what the hook is told, and the calls after it, as the sort field of
the request has them. -/
structure FollowsSort (knows : Value → Bool) (p : Policy) (r : ListRequest) (table : String)
    (before : List Call) (told : HookArguments) (after : List Call) : Prop where
  joined : ∀ join, p.SortJoins r.sortBy join → told.table = some table ∧ ∃ others,
    before = .leftJoin join.table join.foreignKey join.relatedKey :: .selectBase :: others ∧
      ∀ call ∈ others, ¬ call.Joins
  unjoined : (∀ join, ¬ p.SortJoins r.sortBy join) →
    told.table = none ∧ ∀ call ∈ before, ¬ call.Joins
  searches : told.columnSearch = r.columnSearch
  asked : before.flatMap Call.groups = predicates knows p r
  unordered : ∀ call ∈ before, ¬ call.Orders
  ordered : ∀ field column, p.SortsBy r.sortBy field column →
    after = [if column ∈ p.nullableColumns then
        .orderByNulls ⟨column, told.table.isSome⟩ r.sortOrder
          (if r.sortOrder = .desc then .last else .first)
      else .orderBy ⟨column, told.table.isSome⟩ r.sortOrder]
  unsorted : p.sortableFields = [] → after = []

structure Reports (p : Policy) (r : ListRequest) (ds : List Diagnostic) : Prop where
  unlisted : p.sortableFields ≠ [] → r.sortBy ≠ "" → p.sortableFields.lookup r.sortBy = none →
    ∃ field column, p.SortsBy r.sortBy field column ∧
      ds = [⟨"Invalid sortBy parameter", [(.text "provided", .text r.sortBy),
        (.text "using", .text column),
        (.text "allowed", .list (p.sortableFields.map fun e => .text e.1))]⟩]
  otherwise : p.sortableFields = [] ∨ r.sortBy = "" ∨ p.sortableFields.lookup r.sortBy ≠ none →
    ds = []

theorem selection_joins (knows : Value → Bool) (p : Policy) (r : ListRequest) :
    selection knows p r = joinCalls p r ++ (attachments p r ++ restrictions knows p r) := by
  rw [selection_eq, preliminaries, List.append_assoc]

theorem unjoined_plain {knows : Value → Bool} {call : Call}
    (h : call ∈ attachments p r ++ restrictions knows p r) : ¬ call.Joins ∧ ¬ call.Orders := by
  rcases List.mem_append.1 h with hattached | hrestricts
  · exact (attachments_attach hattached).plain
  · exact (restrictions_select knows p r call hrestricts).plain

theorem selection_groups (knows : Value → Bool) (p : Policy) (r : ListRequest) :
    (selection knows p r).flatMap Call.groups = predicates knows p r := by
  have hnone : (preliminaries p r).flatMap Call.groups = [] :=
    List.flatMap_eq_nil_iff.2 fun call hcall =>
      Call.groups_of_not_selects (preliminaries_not_select hcall)
  rw [selection_eq, List.flatMap_append, hnone, List.nil_append]
  rfl

theorem parts_followSort (hnamed : ∀ e ∈ p.sortableFields, e.1 ≠ "") (receiver : Receiver H)
    (h : H) : FollowsSort receiver.knows p r (receiver.tableName h) (selection receiver.knows p r)
      (hookArguments receiver p r h) (orderCalls p r) where
  joined join hneeds := by
    have hjoin := (join?_eq_some_iff hnamed).2 hneeds
    have hcalls : joinCalls p r =
        [.leftJoin join.table join.foreignKey join.relatedKey, .selectBase] := by
      unfold joinCalls
      rw [hjoin]
    constructor
    · unfold hookArguments isJoined
      rw [hjoin]
      rfl
    · rw [selection_joins, hcalls]
      exact ⟨_, rfl, fun call hcall => (unjoined_plain hcall).1⟩
  unjoined hnone := by
    have hjoin : join? p r = none := by
      refine Option.eq_none_iff_forall_ne_some.2 fun join hjoin => ?_
      exact hnone join ((join?_eq_some_iff hnamed).1 hjoin)
    have hcalls : joinCalls p r = [] := by
      unfold joinCalls
      rw [hjoin]
    constructor
    · unfold hookArguments isJoined
      rw [hjoin]
      rfl
    · rw [selection_joins, hcalls]
      exact fun call hcall => (unjoined_plain hcall).1
  searches := rfl
  asked := selection_groups receiver.knows p r
  unordered call hcall := by
    rw [selection_joins] at hcall
    rcases List.mem_append.1 hcall with hjoins | hcall
    · unfold joinCalls at hjoins
      split at hjoins
      · rcases List.mem_pair.1 hjoins with rfl | rfl <;> exact id
      · cases hjoins
    · exact (unjoined_plain hcall).2
  ordered field column hsorts := by
    have htold : (hookArguments receiver p r h).table.isSome = isJoined p r := by
      unfold hookArguments
      cases isJoined p r <;> rfl
    have hnulls : nullsFor r.sortOrder = if r.sortOrder = .desc then .last else .first := by
      cases r.sortOrder <;> rfl
    unfold orderCalls
    rw [sortField?_eq_some_iff.2 hsorts, htold, ← hnulls]
    dsimp only
    by_cases hnullable : column ∈ p.nullableColumns
    · have hdeclared : p.isNullable column = true := List.contains_iff_mem.2 hnullable
      rw [if_pos hdeclared, if_pos hnullable]
    · have hdeclared : ¬ p.isNullable column = true := mt List.contains_iff_mem.1 hnullable
      rw [if_neg hdeclared, if_neg hnullable]
  unsorted hnil := by
    unfold orderCalls
    rw [sortField?_eq_none_iff.2 hnil]

theorem isUnknownSort_iff : isUnknownSort p r = true ↔ p.sortableFields ≠ [] ∧ r.sortBy ≠ "" ∧
    p.sortableFields.lookup r.sortBy = none := by
  have hlookup : Policy.columnOf? p.sortableFields r.sortBy = p.sortableFields.lookup r.sortBy :=
    find?_eq_lookup p.sortableFields r.sortBy
  unfold isUnknownSort
  rw [hlookup, Bool.and_eq_true, Bool.and_eq_true, Bool.not_eq_true', Bool.not_eq_true',
    List.isEmpty_eq_false_iff, Option.isNone_iff_eq_none, Bool.eq_false_iff,
    ne_eq (r.sortBy.isEmpty), String.isEmpty_iff]
  tauto

theorem diagnostics_report (p : Policy) (r : ListRequest) : Reports p r (diagnostics p r) where
  unlisted hlisted hasked hunlisted := by
    obtain ⟨⟨field, column⟩, others, hfields⟩ := List.exists_cons_of_ne_nil hlisted
    refine ⟨field, column, .first hunlisted hfields, ?_⟩
    have hfirst : p.defaultSort? = some (field, column) := congrArg List.head? hfields
    unfold diagnostics unknownSort
    rw [if_pos (isUnknownSort_iff.2 ⟨hlisted, hasked, hunlisted⟩), hfirst]
    rfl
  otherwise hlisted := by
    refine if_neg fun hunknown => ?_
    obtain ⟨hsome, hasked, hunlisted⟩ := isUnknownSort_iff.1 hunknown
    rcases hlisted with hnil | hempty | hfound
    · exact hsome hnil
    · exact hasked hempty
    · exact hfound hunlisted

theorem query_keepsHandles (ι : Type) (R : Registry) :
    ((Query.receiver R).named ι).KeepsHandles Prod.fst where
  name hstep := by
    obtain ⟨q, -, rfl⟩ := map_eq_ok_iff.1 hstep
    rfl
  table {h h' call} hstep := by
    obtain ⟨q, hq, rfl⟩ := map_eq_ok_iff.1 hstep
    have hrun : carryOut (Query.receiver R) [call] h.2 = .ok q := by
      rw [carryOut_cons, hq]
      rfl
    have hmodel : q.model = h.2.model := congrArg (·.2.1) (Query.carryOut_model hrun)
    exact congrArg (·.table.name) hmodel

/-- The sort field of a request decides on the join a build begins with, on what a hook is told, on
the order at the end, which goes to the handle that comes out, and on the diagnostic. -/
theorem sort_field_decides {H ι : Type} {name : H → ι} {receiver : Receiver H}
    (hkeeps : receiver.KeepsHandles name) (hook : Option (Hook H)) {p : Policy}
    (hnamed : ∀ e ∈ p.sortableFields, e.1 ≠ "") (r : ListRequest) (h : H) :
    Reports p r (diagnostics p r) ∧ ∃ before told after,
      FollowsSort receiver.knows p r (receiver.tableName h) before told after ∧
      build (receiver.traced name) (hook.map (Hook.traced name)) p r ⟨h, []⟩ =
        (fun h' => ⟨h', before.map (.called (name h)) ++
          (hook.map fun _ => .hooked (name h) told).toList ++
          after.map (.called (name h'))⟩) <$> build receiver hook p r h :=
  ⟨diagnostics_report p r, _, _, _, parts_followSort hnamed receiver h, build_traced hkeeps h⟩

/-- Heroes are listed by the names of their teams first of all, and not every hero has a team. -/
def byTeam : Policy where
  sortableFields := [("team", "teams.name"), ("age", "age")]
  nullableColumns := ["teams.name"]
  relationJoins := [("team", ⟨"team", "team_id", "teams", "id"⟩)]

def changingHook : Hook (Nat × Query) := fun h _ => .ok (some (h.1 + 1, h.2))

/-- A sort key that is not listed gives way to the team. The hook hears of the join, and the order
is asked of the handle that it gives. -/
theorem sort_field_decides_byTeam :
    let receiver := (Query.receiver .builtin).named Nat
    let heroes := Query.ofModel Sample.Heroes.catalog
      { name := "Hero", table := Sample.Heroes.heroes, relations := [] }
    ∃ (h' : Nat × Query) (before : List Call),
      build (receiver.traced Prod.fst) (some (Hook.traced Prod.fst changingHook)) byTeam
        { sortBy := "strength" } ⟨(0, heroes), []⟩ = .ok ⟨h', before.map (.called 0) ++
          [.hooked 0 ⟨[], some "heroes"⟩] ++
          [.called 1 (.orderByNulls ⟨"teams.name", true⟩ .desc .last)]⟩ := by
  intro receiver heroes
  obtain ⟨-, before, told, after, hfollows, htraced⟩ := sort_field_decides
    (query_keepsHandles Nat .builtin) (some changingHook) (p := byTeam) (by decide)
    { sortBy := "strength" } (0, heroes)
  have hsorts : byTeam.SortsBy "strength" "team" "teams.name" := .first rfl rfl
  have htable : told.table = some "heroes" :=
    (hfollows.joined _ ⟨"team", "teams.name", hsorts, rfl⟩).1
  have htold : told = ⟨[], some "heroes"⟩ :=
    congrArg₂ HookArguments.mk hfollows.searches htable
  have hafter : after = [.orderByNulls ⟨"teams.name", true⟩ .desc .last] := by
    rw [hfollows.ordered _ _ hsorts, htable]
    rfl
  have hgiven : (build receiver (some changingHook) byTeam { sortBy := "strength" }
      (0, heroes)).toOption.map (·.1) = some 1 := by decide +kernel
  cases hbuilt : build receiver (some changingHook) byTeam { sortBy := "strength" } (0, heroes) with
  | error e =>
    rw [hbuilt] at hgiven
    cases hgiven
  | ok h' =>
    rw [hbuilt] at hgiven
    have hname : h'.1 = 1 := Option.some.inj hgiven
    rw [hbuilt, htold, hafter] at htraced
    refine ⟨h', before, ?_⟩
    rw [← hname]
    exact htraced

end Plan
end Listing
