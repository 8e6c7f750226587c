import Mathlib
import Listing.Policy
import Listing.Proofs.Outcomes

set_option autoImplicit false

namespace Listing

open Outcome

/-! ## The grammar of identifiers -/

namespace Identifier

def Starts (c : Char) : Prop := ('A' ≤ c ∧ c ≤ 'Z') ∨ ('a' ≤ c ∧ c ≤ 'z') ∨ c = '_'

def Continues (c : Char) : Prop := Starts c ∨ ('0' ≤ c ∧ c ≤ '9')

inductive Word : List Char → Prop where
  | spelled {c : Char} {rest : List Char} (hc : Starts c) (hrest : ∀ d ∈ rest, Continues d) :
      Word (c :: rest)

inductive Name : List Char → Prop where
  | word {cs : List Char} (h : Word cs) : Name cs
  | dotted {cs ds : List Char} (h : Word cs) (h' : Word ds) : Name (cs ++ '.' :: ds)

/-- A name, or a name with a line break behind it. -/
def Accepted (s : String) : Prop := Name s.toList ∨ ∃ cs, Name cs ∧ s.toList = cs ++ ['\n']

variable {c : Char} {cs ds : List Char} {s : String}

theorem isStart_iff : isStart c = true ↔ Starts c := by
  simp only [isStart, Starts, Char.isAlpha, Char.isUpper, Char.isLower, Bool.or_eq_true,
    Bool.and_eq_true, decide_eq_true_eq, beq_iff_eq, Char.le_def, ge_iff_le, or_assoc]

theorem isPart_iff : isPart c = true ↔ Continues c := by
  have hdigit : c.isDigit = true ↔ '0' ≤ c ∧ c ≤ '9' := by
    simp only [Char.isDigit, Bool.and_eq_true, decide_eq_true_eq, Char.le_def, ge_iff_le]
  rw [Continues, ← isStart_iff, ← hdigit]
  simp only [isPart, isStart, Char.isAlphanum, Bool.or_eq_true, beq_iff_eq]
  tauto

theorem isWord_iff : isWord cs = true ↔ Word cs := by
  cases cs with
  | nil => exact iff_of_false nofun nofun
  | cons c rest =>
    rw [isWord, Bool.and_eq_true, isStart_iff, List.all_eq_true]
    constructor
    · rintro ⟨hc, hrest⟩
      exact .spelled hc fun d hd => isPart_iff.1 (hrest d hd)
    · rintro (⟨hc, hrest⟩)
      exact ⟨hc, fun d hd => isPart_iff.2 (hrest d hd)⟩

theorem Word.continues (h : Word cs) : ∀ d ∈ cs, Continues d := by
  cases h with
  | spelled hc hrest => exact List.forall_mem_cons.2 ⟨.inl hc, hrest⟩

theorem Word.not_mem (h : Word cs) {mark : Char} (hmark : ¬ Continues mark) : mark ∉ cs :=
  fun hmem => hmark (h.continues mark hmem)

theorem not_continues_dot : ¬ Continues '.' := fun h => absurd (isPart_iff.2 h) (by decide)

theorem not_continues_break : ¬ Continues '\n' := fun h => absurd (isPart_iff.2 h) (by decide)

theorem Name.not_mem (h : Name cs) {mark : Char} (hmark : ¬ Continues mark) (hdot : mark ≠ '.') :
    mark ∉ cs := by
  cases h with
  | word h => exact h.not_mem hmark
  | dotted h h' =>
    rw [List.mem_append, List.mem_cons, not_or, not_or]
    exact ⟨h.not_mem hmark, hdot, h'.not_mem hmark⟩

theorem Name.not_mem_break (h : Name cs) : '\n' ∉ cs :=
  h.not_mem not_continues_break (by decide)

theorem isDotted_eq (cs : List Char) : isDotted cs = (isWord (cs.takeWhile (· != '.')) &&
    match cs.dropWhile (· != '.') with
    | [] => true
    | _ :: second => isWord second) :=
  congrArg (fun parts : List Char × List Char => isWord parts.1 && match parts.2 with
    | [] => true
    | _ :: second => isWord second) (List.span_eq_takeWhile_dropWhile _ cs)

theorem isDotted_iff : isDotted cs = true ↔ Name cs := by
  rw [isDotted_eq, Bool.and_eq_true, isWord_iff]
  constructor
  · rintro ⟨hfirst, hsecond⟩
    have hparts : cs.takeWhile (· != '.') ++ cs.dropWhile (· != '.') = cs :=
      List.takeWhile_append_dropWhile
    cases hrest : cs.dropWhile (· != '.') with
    | nil =>
      rw [hrest, List.append_nil] at hparts
      exact .word (hparts ▸ hfirst)
    | cons mark second =>
      rw [hrest] at hsecond
      have hmark : mark = '.' := by
        have hne : cs.dropWhile (· != '.') ≠ [] := by simp [hrest]
        have hhead := List.head_dropWhile_not _ hne
        simpa [hrest] using hhead
      rw [← hparts, hrest, hmark]
      exact .dotted hfirst (isWord_iff.1 hsecond)
  · have hinside {ds : List Char} (h : Word ds) : ∀ d ∈ ds, (d != '.') = true := by
      intro d hd
      rw [bne_iff_ne]
      rintro rfl
      exact h.not_mem not_continues_dot hd
    rintro (h | @⟨first, second, h, h'⟩)
    · rw [List.takeWhile_eq_self_iff.2 (hinside h), List.dropWhile_eq_nil_iff.2 (hinside h)]
      exact ⟨h, rfl⟩
    · rw [List.takeWhile_append_of_pos (hinside h), List.dropWhile_append_of_pos (hinside h)]
      exact ⟨by simpa using h, isWord_iff.2 h'⟩

theorem isIdentifier_iff : isIdentifier s = true ↔ Accepted s := by
  unfold isIdentifier Accepted
  dsimp only
  rw [isDotted_iff]
  split_ifs with hbreak
  · have hparts : s.toList.dropLast ++ ['\n'] = s.toList := List.dropLast_append_getLast? _ hbreak
    constructor
    · intro h
      exact .inr ⟨_, h, hparts.symm⟩
    · rintro (h | ⟨cs, h, hcs⟩)
      · exact absurd (List.mem_of_getLast? hbreak) h.not_mem_break
      · rw [hcs, List.dropLast_concat]
        exact h
  · refine ⟨.inl, fun h => h.resolve_right ?_⟩
    rintro ⟨cs, -, hcs⟩
    rw [hcs, List.getLast?_concat] at hbreak
    exact hbreak rfl

def Names (v : Value) : Prop := ∃ s, v = .text s ∧ Accepted s

end Identifier

/-! ## Checks -/

namespace Outcome

variable {α β : Type} {P Q : Prop} {x : Outcome α}

/-- A computation has a result if something holds, and else ends with a fault of a value. -/
def AcceptsIff (P : Prop) (x : Outcome α) : Prop :=
  (P ∧ ∃ a, x = .ok a) ∨ (¬ P ∧ ∃ e, x = .error e ∧ e.toClass = .value)

theorem AcceptsIff.ok (h : P) (a : α) : AcceptsIff P (.ok a) := .inl ⟨h, a, rfl⟩

theorem AcceptsIff.error (h : ¬ P) {e : Fault} (he : e.toClass = .value) :
    AcceptsIff P (.error e : Outcome α) := .inr ⟨h, e, rfl, he⟩

theorem AcceptsIff.congr (hPQ : P ↔ Q) (h : AcceptsIff P x) : AcceptsIff Q x := by
  unfold AcceptsIff at h ⊢
  rwa [← hPQ]

theorem AcceptsIff.map (h : AcceptsIff P x) (f : α → β) : AcceptsIff P (f <$> x) := by
  rcases h with ⟨hP, a, rfl⟩ | ⟨hP, e, rfl, he⟩
  · exact .ok hP (f a)
  · exact .error hP he

theorem AcceptsIff.bind {f : α → Outcome β} (h : AcceptsIff P x)
    (hf : ∀ a, x = .ok a → AcceptsIff Q (f a)) : AcceptsIff (P ∧ Q) (x >>= f) := by
  rcases h with ⟨hP, a, rfl⟩ | ⟨hP, e, rfl, he⟩
  · exact (hf a rfl).congr (and_iff_right hP).symm
  · exact .error (fun h => hP h.1) he

theorem AcceptsIff.mapM {f : α → Outcome β} {P : α → Prop} {xs : List α}
    (h : ∀ a ∈ xs, AcceptsIff (P a) (f a)) : AcceptsIff (∀ a ∈ xs, P a) (xs.mapM f) := by
  induction xs with
  | nil => exact .ok (List.forall_mem_nil _) []
  | cons a xs ih =>
    have hrest := ih fun b hb => h b (List.mem_cons_of_mem _ hb)
    rw [List.mapM_cons]
    refine AcceptsIff.congr List.forall_mem_cons.symm ?_
    refine (h a List.mem_cons_self).bind fun b _ => ?_
    exact hrest.map (b :: ·)

theorem AcceptsIff.verdict (h : AcceptsIff P x) :
    ((∃ a, x = .ok a) ↔ P) ∧ (¬ P → ∃ e, x = .error e ∧ e.toClass = .value) := by
  rcases h with ⟨hP, a, rfl⟩ | ⟨hP, e, rfl, he⟩
  · exact ⟨iff_of_true ⟨a, rfl⟩ hP, fun h => absurd hP h⟩
  · exact ⟨iff_of_false nofun hP, fun _ => ⟨e, rfl, he⟩⟩

end Outcome

namespace Identifier

theorem check_accepts (role : Role) (v : Value) : AcceptsIff (Names v) (check role v) := by
  have haccepted {s : String} : check role v = .ok s ↔ v = .text s ∧ Accepted s :=
    check_eq_ok_iff.trans (and_congr_right fun _ => isIdentifier_iff)
  cases hv : check role v with
  | ok s => exact .ok ⟨s, haccepted.1 hv⟩ s
  | error e =>
    refine .error ?_ ?_
    · rintro ⟨s, hs⟩
      rw [haccepted.2 hs] at hv
      cases hv
    · unfold check at hv
      split at hv
      · split_ifs at hv
        cases hv
        rfl
      · cases hv
        rfl

theorem accepted_of_check {role : Role} {v : Value} {s : String} (h : check role v = .ok s) :
    Accepted s := isIdentifier_iff.1 (check_eq_ok_iff.1 h).2

end Identifier

open Identifier

/-! ## Joins -/

namespace RelationJoin

structure IsNamed (j : RelationJoin) : Prop where
  relation : Accepted j.relation
  foreignKey : Accepted j.foreignKey
  table : Accepted j.table
  relatedKey : Accepted j.relatedKey

def argument (args : List (String × Value)) (name : String) : Value :=
  (Entries.lookup? args name).getD (.text "id")

/-- Arguments that all have a place in a join, and fill those that need to be filled. -/
def IsComplete (args : List (String × Value)) : Prop :=
  (∀ a ∈ args, a.1 ∈ argumentNames) ∧ ∀ name ∈ requiredNames, ∃ a ∈ args, a.1 = name

theorem ofArguments_eq {args : List (String × Value)} (h : IsComplete args) :
    ofArguments args = (do
      let relation ← check .relation (argument args "relation")
      let foreignKey ← check .foreignKey (argument args "foreign_key")
      let table ← check .table (argument args "table")
      let relatedKey ← check .relatedKey (argument args "related_key")
      .ok { relation, foreignKey, table, relatedKey }) := by
  have hknown : args.find? (!argumentNames.contains ·.1) = none := by
    rw [List.find?_eq_none]
    intro a ha
    simpa using h.1 a ha
  have hfilled : (requiredNames.filter fun name => !args.any (·.1 == name)) = [] := by
    rw [List.filter_eq_nil_iff]
    intro name hname
    obtain ⟨a, ha, rfl⟩ := h.2 name hname
    simp only [Bool.not_eq_true, Bool.not_eq_false', List.any_eq_true, beq_iff_eq]
    exact ⟨a, ha, rfl⟩
  unfold ofArguments
  rw [hknown]
  dsimp only
  rw [hfilled]
  rfl

theorem ofArguments_accepts {args : List (String × Value)} (h : IsComplete args) :
    AcceptsIff (∀ name ∈ argumentNames, Names (argument args name)) (ofArguments args) := by
  rw [ofArguments_eq h]
  refine AcceptsIff.congr ?_ ((check_accepts _ _).bind fun relation _ =>
    (check_accepts _ _).bind fun foreignKey _ => (check_accepts _ _).bind fun table _ =>
      (check_accepts _ _).map fun relatedKey => RelationJoin.mk relation foreignKey table relatedKey)
  simp only [argumentNames, List.forall_mem_cons, List.not_mem_nil, false_implies, implies_true,
    and_true]

/-- A join is never made with other names, whether it is made for itself or for a policy. -/
theorem isNamed_of_accepted {args : List (String × Value)} {j : RelationJoin}
    (h : ofArguments args = .ok j) : j.IsNamed := by
  unfold ofArguments at h
  split at h
  · cases h
  · split at h
    · cases h
    · obtain ⟨relation, hrelation, h⟩ := bind_eq_ok_iff.1 h
      obtain ⟨foreignKey, hforeignKey, h⟩ := bind_eq_ok_iff.1 h
      obtain ⟨table, htable, h⟩ := bind_eq_ok_iff.1 h
      obtain ⟨relatedKey, hrelatedKey, h⟩ := bind_eq_ok_iff.1 h
      cases h
      exact ⟨accepted_of_check hrelation, accepted_of_check hforeignKey, accepted_of_check htable,
        accepted_of_check hrelatedKey⟩

end RelationJoin

/-! ## Policies -/

namespace Policy

structure IsNamed (p : Policy) : Prop where
  columns : ∀ name ∈ p.searchFields ++ p.numericFields ++ p.nullableColumns, Accepted name
  fields : ∀ e ∈ p.columnFields ++ p.sortableFields ++ p.filterableFields, Accepted e.2
  joins : ∀ e ∈ p.relationJoins, e.2.IsNamed
  aggregates : ∀ a ∈ p.aggregates, ∀ e ∈ a.2, Accepted e.1 ∧ (∀ column ∈ e.2, Accepted column) ∧
    (a.1 ≠ .count → e.2.isSome)

/-! ### What is stored -/

theorem accepted_of_columns {v : Value} {names : List String} (h : columns v = .ok names) :
    ∀ name ∈ names, Accepted name := by
  obtain ⟨items, -, hnames⟩ := bind_eq_ok_iff.1 h
  intro name hname
  obtain ⟨item, -, hitem⟩ := exists_of_mem_mapM hnames hname
  exact accepted_of_check hitem

theorem accepted_of_columnsByAlias {entries : List (String × Value)}
    {fields : List (String × String)} (h : columnsByAlias entries = .ok fields) :
    ∀ e ∈ fields, Accepted e.2 := by
  intro e he
  obtain ⟨entry, -, hentry⟩ := exists_of_mem_mapM h he
  obtain ⟨name, hname, rfl⟩ := map_eq_ok_iff.1 hentry
  exact accepted_of_check hname

theorem accepted_of_aggregateEntry {kind : AggregateKind} {v : Value} {e : AggregateEntry}
    (h : aggregateEntry kind v = .ok e) :
    Accepted e.1 ∧ (∀ column ∈ e.2, Accepted column) ∧ (kind ≠ .count → e.2.isSome) := by
  obtain ⟨⟨first, second⟩, -, h⟩ := bind_eq_ok_iff.1 h
  obtain ⟨relation, hrelation, h⟩ := bind_eq_ok_iff.1 h
  have hname := accepted_of_check hrelation
  split at h
  · split_ifs at h with hcount
    cases h
    exact ⟨hname, nofun, fun hother => absurd hcount hother⟩
  · obtain ⟨column, hcolumn, h⟩ := bind_eq_ok_iff.1 h
    cases h
    exact ⟨hname, by simpa using accepted_of_check hcolumn, fun _ => rfl⟩

theorem accepted_of_aggregatesOf {entries : List (Value × Value)}
    {aggregates : List (AggregateKind × List AggregateEntry)}
    (h : aggregatesOf entries = .ok aggregates) :
    ∀ a ∈ aggregates, ∀ e ∈ a.2, Accepted e.1 ∧ (∀ column ∈ e.2, Accepted column) ∧
      (a.1 ≠ .count → e.2.isSome) := by
  intro a ha e he
  obtain ⟨entry, -, hentry⟩ := exists_of_mem_mapM h ha
  obtain ⟨kind, -, hentry⟩ := bind_eq_ok_iff.1 hentry
  obtain ⟨items, -, hentry⟩ := bind_eq_ok_iff.1 hentry
  obtain ⟨stored, hstored, hentry⟩ := bind_eq_ok_iff.1 hentry
  cases hentry
  obtain ⟨item, -, hitem⟩ := exists_of_mem_mapM hstored he
  exact accepted_of_aggregateEntry hitem

theorem ofArguments_eq {args : Arguments} (h : args.others = []) : ofArguments args = (do
    let searchFields ← columns args.searchFields
    let numericFields ← columns args.numericFields
    let nullableColumns ← columns args.nullableColumns
    let columnFields ← columnsByAlias (Entries.ofList args.columnFields)
    let sortableFields ← columnsByAlias (Entries.ofList args.sortableFields)
    let filterableFields ← columnsByAlias (Entries.ofList args.filterableFields)
    let relationJoins ← (Entries.ofList args.relationJoins).mapM fun e =>
      (e.1, ·) <$> RelationJoin.ofArguments e.2
    let aggregates ← aggregatesOf (Entries.ofList args.aggregates)
    .ok { searchFields, numericFields, nullableColumns, columnFields, sortableFields,
          filterableFields, relationJoins, aggregates }) := by
  unfold ofArguments
  rw [h]

theorem others_of_accepted {args : Arguments} {p : Policy} (h : ofArguments args = .ok p) :
    args.others = [] := by
  unfold ofArguments at h
  cases hothers : args.others with
  | nil => rfl
  | cons name others =>
    rw [hothers] at h
    cases h

theorem isNamed_of_accepted {args : Arguments} {p : Policy} (h : ofArguments args = .ok p) :
    p.IsNamed := by
  rw [ofArguments_eq (others_of_accepted h)] at h
  obtain ⟨searchFields, hsearch, h⟩ := bind_eq_ok_iff.1 h
  obtain ⟨numericFields, hnumeric, h⟩ := bind_eq_ok_iff.1 h
  obtain ⟨nullableColumns, hnullable, h⟩ := bind_eq_ok_iff.1 h
  obtain ⟨columnFields, hcolumn, h⟩ := bind_eq_ok_iff.1 h
  obtain ⟨sortableFields, hsortable, h⟩ := bind_eq_ok_iff.1 h
  obtain ⟨filterableFields, hfilterable, h⟩ := bind_eq_ok_iff.1 h
  obtain ⟨relationJoins, hjoins, h⟩ := bind_eq_ok_iff.1 h
  obtain ⟨aggregates, haggregates, h⟩ := bind_eq_ok_iff.1 h
  cases h
  refine ⟨?_, ?_, ?_, accepted_of_aggregatesOf haggregates⟩
  · simp only [List.forall_mem_append]
    exact ⟨⟨accepted_of_columns hsearch, accepted_of_columns hnumeric⟩,
      accepted_of_columns hnullable⟩
  · simp only [List.forall_mem_append]
    exact ⟨⟨accepted_of_columnsByAlias hcolumn, accepted_of_columnsByAlias hsortable⟩,
      accepted_of_columnsByAlias hfilterable⟩
  · intro e he
    obtain ⟨entry, -, hentry⟩ := exists_of_mem_mapM hjoins he
    obtain ⟨j, hj, rfl⟩ := map_eq_ok_iff.1 hentry
    exact RelationJoin.isNamed_of_accepted hj

/-! ### What is refused -/

def HasItems (v : Value) : Prop := ∃ items, itemsOf v = .ok items

def ItemsName (v : Value) : Prop := ∀ items, itemsOf v = .ok items → ∀ item ∈ items, Names item

def EntryNames (kind : AggregateKind) (v : Value) : Prop :=
  ∃ relation column, splitEntry v = .ok (relation, column) ∧ Names relation ∧
    (column = .null ∧ kind = .count ∨ Names column)

def AggregateNames (kind entries : Value) : Prop :=
  ∃ k, AggregateKind.ofValue kind = .ok k ∧
    ∀ items, itemsOf entries = .ok items → ∀ item ∈ items, EntryNames k item

namespace Arguments

/-- Arguments of the right shape, whatever texts they hold: collections where collections stand, and
joins with their arguments by name. -/
structure IsShaped (args : Arguments) : Prop where
  searchFields : HasItems args.searchFields
  numericFields : HasItems args.numericFields
  nullableColumns : HasItems args.nullableColumns
  relationJoins : ∀ e ∈ args.relationJoins, RelationJoin.IsComplete e.2
  aggregates : ∀ e ∈ args.aggregates, ∃ items, itemsOf e.2 = .ok items ∧ ∀ v ∈ items, HasItems v
  others : args.others = []

/-- Arguments that hold accepted names, and the columns that aggregates need. Of equal aliases and
of equal kinds the last one counts. -/
structure AreNamed (args : Arguments) : Prop where
  searchFields : ItemsName args.searchFields
  numericFields : ItemsName args.numericFields
  nullableColumns : ItemsName args.nullableColumns
  columnFields : ∀ e ∈ Entries.ofList args.columnFields, Names e.2
  sortableFields : ∀ e ∈ Entries.ofList args.sortableFields, Names e.2
  filterableFields : ∀ e ∈ Entries.ofList args.filterableFields, Names e.2
  relationJoins : ∀ e ∈ Entries.ofList args.relationJoins,
    ∀ name ∈ RelationJoin.argumentNames, Names (RelationJoin.argument e.2 name)
  aggregates : ∀ e ∈ Entries.ofList args.aggregates, AggregateNames e.1 e.2

end Arguments

theorem columns_accepts {v : Value} (h : HasItems v) : AcceptsIff (ItemsName v) (columns v) := by
  obtain ⟨items, hitems⟩ := h
  have hall : ItemsName v ↔ ∀ item ∈ items, Names item := by
    unfold ItemsName
    rw [hitems]
    simp only [Except.ok.injEq, forall_eq']
  unfold columns
  rw [hitems]
  exact (AcceptsIff.mapM fun item _ => check_accepts .column item).congr hall.symm

theorem columnsByAlias_accepts (entries : List (String × Value)) :
    AcceptsIff (∀ e ∈ entries, Names e.2) (columnsByAlias entries) :=
  AcceptsIff.mapM fun e _ => (check_accepts .column e.2).map _

theorem aggregateEntry_accepts (kind : AggregateKind) {v : Value} (h : HasItems v) :
    AcceptsIff (EntryNames kind v) (aggregateEntry kind v) := by
  have hsplit : (∃ parts, splitEntry v = .ok parts) ∨
      ∃ e, splitEntry v = .error e ∧ e.toClass = .value := by
    obtain ⟨items, hitems⟩ := h
    unfold splitEntry
    split
    · exact .inl ⟨_, rfl⟩
    · rw [hitems]
      dsimp only [bind, Except.bind]
      split
      · exact .inl ⟨_, rfl⟩
      · split_ifs
        · exact .inr ⟨_, rfl, rfl⟩
        · exact .inr ⟨_, rfl, rfl⟩
  unfold aggregateEntry EntryNames
  rcases hsplit with ⟨⟨relation, column⟩, hparts⟩ | ⟨e, he, hvalue⟩
  · rw [hparts, ok_bind]
    have hnamed : (Names relation ∧ (column = .null ∧ kind = .count ∨ Names column)) ↔
        ∃ relation' column', (Except.ok (relation, column) : Outcome _) = .ok (relation', column') ∧
          Names relation' ∧ (column' = .null ∧ kind = .count ∨ Names column') := by
      simp only [Except.ok.injEq, Prod.mk.injEq, and_assoc, exists_and_left, exists_eq_left']
    refine AcceptsIff.congr hnamed ((check_accepts _ _).bind fun name _ => ?_)
    split
    · split_ifs with hcount
      · exact .ok (.inl ⟨rfl, hcount⟩) _
      · refine .error ?_ rfl
        rintro (⟨-, hkind⟩ | ⟨s, hs, -⟩)
        · exact hcount hkind
        · cases hs
    · rename_i hnull
      refine AcceptsIff.congr ?_ ((check_accepts .column column).map _)
      constructor
      · exact .inr
      · exact fun h => h.resolve_left fun h => hnull h.1
  · rw [he]
    refine .error ?_ hvalue
    rintro ⟨relation, column, hparts, -⟩
    cases hparts

theorem ofValue_accepts (v : Value) :
    AcceptsIff (∃ k, AggregateKind.ofValue v = .ok k) (AggregateKind.ofValue v) := by
  cases hv : AggregateKind.ofValue v with
  | ok k => exact .ok ⟨k, rfl⟩ k
  | error e =>
    refine .error nofun ?_
    unfold AggregateKind.ofValue at hv
    split at hv
    · cases hword : AggregateKind.ofWord? _ with
      | none =>
        rw [hword] at hv
        cases hv
        rfl
      | some k =>
        rw [hword] at hv
        cases hv
    · cases hv
      rfl

theorem mem_foldl {α β : Type} {f : List β → α → List β} {R : α → β → Prop}
    (hf : ∀ acc a, ∀ b ∈ f acc a, b ∈ acc ∨ R a b) {xs : List α} {acc : List β} {b : β}
    (h : b ∈ xs.foldl f acc) : b ∈ acc ∨ ∃ a ∈ xs, R a b := by
  induction xs generalizing acc with
  | nil => exact .inl h
  | cons a xs ih =>
    rcases ih h with h | ⟨a', ha', hb⟩
    · exact (hf acc a b h).imp id fun hb => ⟨a, List.mem_cons_self, hb⟩
    · exact .inr ⟨a', List.mem_cons_of_mem _ ha', hb⟩

theorem exists_of_mem_ofList {κ α : Type} [BEq κ] {entries : List (κ × α)} {e : κ × α}
    (h : e ∈ Entries.ofList entries) : ∃ given ∈ entries, e.2 = given.2 := by
  refine (mem_foldl (R := fun given e => e.2 = given.2) (fun acc given e he => ?_) h).resolve_left
    nofun
  exact (Entries.mem_insert he).imp id And.left

theorem aggregatesOf_accepts {entries : List (Value × Value)}
    (h : ∀ e ∈ entries, ∃ items, itemsOf e.2 = .ok items ∧ ∀ v ∈ items, HasItems v) :
    AcceptsIff (∀ e ∈ entries, AggregateNames e.1 e.2) (aggregatesOf entries) := by
  refine AcceptsIff.mapM fun e he => ?_
  obtain ⟨items, hitems, hshaped⟩ := h e he
  have hentries (k : AggregateKind) : AcceptsIff (∀ item ∈ items, EntryNames k item)
      (items.mapM (aggregateEntry k)) :=
    AcceptsIff.mapM fun item hitem => aggregateEntry_accepts k (hshaped item hitem)
  cases hkind : AggregateKind.ofValue e.1 with
  | error fault =>
    have hvalue := (ofValue_accepts e.1).resolve_left (by simp [hkind])
    obtain ⟨-, fault', hfault, hclass⟩ := hvalue
    rw [hkind] at hfault
    cases hfault
    refine .error ?_ hclass
    rintro ⟨k, hk, -⟩
    rw [hkind] at hk
    cases hk
  | ok k =>
    have hnamed : (∀ item ∈ items, EntryNames k item) ↔ AggregateNames e.1 e.2 := by
      unfold AggregateNames
      rw [hkind, hitems]
      simp only [Except.ok.injEq, exists_eq_left', forall_eq']
    rw [ok_bind, hitems, ok_bind]
    exact ((hentries k).map (k, ·)).congr hnamed

/-- Arguments of the right shape are accepted if they hold accepted names. -/
theorem ofArguments_accepts {args : Arguments} (h : args.IsShaped) :
    AcceptsIff args.AreNamed (ofArguments args) := by
  have hjoins : AcceptsIff (∀ e ∈ Entries.ofList args.relationJoins,
      ∀ name ∈ RelationJoin.argumentNames, Names (RelationJoin.argument e.2 name))
      ((Entries.ofList args.relationJoins).mapM fun e =>
        (e.1, ·) <$> RelationJoin.ofArguments e.2) := by
    refine AcceptsIff.mapM fun e he => ?_
    obtain ⟨given, hgiven, hvalue⟩ := exists_of_mem_ofList he
    exact (RelationJoin.ofArguments_accepts (hvalue ▸ h.relationJoins given hgiven)).map _
  have haggregates : AcceptsIff (∀ e ∈ Entries.ofList args.aggregates, AggregateNames e.1 e.2)
      (aggregatesOf (Entries.ofList args.aggregates)) := by
    refine aggregatesOf_accepts fun e he => ?_
    obtain ⟨given, hgiven, hvalue⟩ := exists_of_mem_ofList he
    exact hvalue ▸ h.aggregates given hgiven
  rw [ofArguments_eq h.others]
  refine AcceptsIff.congr ?_ ((columns_accepts h.searchFields).bind fun _ _ =>
    (columns_accepts h.numericFields).bind fun _ _ =>
    (columns_accepts h.nullableColumns).bind fun _ _ =>
    (columnsByAlias_accepts (Entries.ofList args.columnFields)).bind fun _ _ =>
    (columnsByAlias_accepts (Entries.ofList args.sortableFields)).bind fun _ _ =>
    (columnsByAlias_accepts (Entries.ofList args.filterableFields)).bind fun _ _ =>
    hjoins.bind fun _ _ => haggregates.map _)
  constructor
  · rintro ⟨h₁, h₂, h₃, h₄, h₅, h₆, h₇, h₈⟩
    exact ⟨h₁, h₂, h₃, h₄, h₅, h₆, h₇, h₈⟩
  · rintro ⟨h₁, h₂, h₃, h₄, h₅, h₆, h₇, h₈⟩
    exact ⟨h₁, h₂, h₃, h₄, h₅, h₆, h₇, h₈⟩

/-- An accepted policy holds accepted names only, and so does a join that is made for itself. Of the
arguments that have the right shape exactly those are accepted that hold accepted names, with a
column for each aggregate but a count; the others end with a fault of a value. -/
theorem accepted_policies_named (args : Arguments) (fields : List (String × Value)) :
    (∀ p, ofArguments args = .ok p → p.IsNamed) ∧
    (∀ j, RelationJoin.ofArguments fields = .ok j → j.IsNamed) ∧
    (args.IsShaped →
      ((∃ p, ofArguments args = .ok p) ↔ args.AreNamed) ∧
      (¬ args.AreNamed → ∃ e, ofArguments args = .error e ∧ e.toClass = .value)) ∧
    (RelationJoin.IsComplete fields →
      ((∃ j, RelationJoin.ofArguments fields = .ok j) ↔
        ∀ name ∈ RelationJoin.argumentNames, Names (RelationJoin.argument fields name)) ∧
      ((¬ ∀ name ∈ RelationJoin.argumentNames, Names (RelationJoin.argument fields name)) →
        ∃ e, RelationJoin.ofArguments fields = .error e ∧ e.toClass = .value)) :=
  ⟨fun _ h => isNamed_of_accepted h, fun _ h => RelationJoin.isNamed_of_accepted h,
    fun h => (ofArguments_accepts h).verdict, fun h => (RelationJoin.ofArguments_accepts h).verdict⟩

def brokenLine : Arguments where
  searchFields := .list [.text "teams.name\n"]
  aggregates := [(.text "count", .list [.text "ratings"])]

def sumOfNothing : Arguments where
  aggregates := [(.text "sum", .list [.text "ratings"])]

theorem isShaped_ratings (names : List String) (kind : String) : Arguments.IsShaped
    { searchFields := .list (names.map .text)
      aggregates := [(.text kind, .list [.text "ratings"])] } where
  searchFields := ⟨_, rfl⟩
  numericFields := ⟨_, rfl⟩
  nullableColumns := ⟨_, rfl⟩
  relationJoins := List.forall_mem_nil _
  aggregates := List.forall_mem_singleton.2 ⟨_, rfl, List.forall_mem_singleton.2 ⟨_, rfl⟩⟩
  others := rfl

theorem brokenLine_isShaped : brokenLine.IsShaped := isShaped_ratings ["teams.name\n"] "count"

theorem sumOfNothing_isShaped : sumOfNothing.IsShaped := isShaped_ratings [] "sum"

/-- A line break after a name is stored with it, although the grammar has none. A sum without a
column is refused. -/
theorem accepted_policies_named_line :
    (brokenLine.IsShaped ∧ ∃ p, ofArguments brokenLine = .ok p ∧ p.IsNamed ∧
      "teams.name\n" ∈ p.searchFields ∧ ¬ Name "teams.name\n".toList) ∧
    sumOfNothing.IsShaped ∧
      ∃ e, ofArguments sumOfNothing = .error e ∧ e.toClass = .value := by
  obtain ⟨hstored, -⟩ := accepted_policies_named brokenLine []
  obtain ⟨-, -, hgiven, -⟩ := accepted_policies_named sumOfNothing []
  obtain ⟨haccepted, hrefused⟩ := hgiven sumOfNothing_isShaped
  have hbroken : ofArguments brokenLine = .ok
      { searchFields := ["teams.name\n"], aggregates := [(.count, [("ratings", none)])] } := rfl
  have hunnamed : ¬ sumOfNothing.AreNamed := by
    intro hnamed
    obtain ⟨p, hp⟩ := haccepted.2 hnamed
    cases hp
  refine ⟨⟨brokenLine_isShaped, _, hbroken, hstored _ hbroken, List.mem_singleton_self _, ?_⟩,
    sumOfNothing_isShaped, hrefused hunnamed⟩
  intro hname
  exact hname.not_mem_break (by decide)

end Policy
end Listing
