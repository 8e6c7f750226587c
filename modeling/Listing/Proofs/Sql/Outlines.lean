import Listing.Proofs.Outcomes
import Listing.Sql.Statement

set_option autoImplicit false

namespace Listing.Sql

open Outcome

def Written.outline (w : Written) : String × List String := (w.sql, w.params.map (·.1))

namespace Piece

def blank : Piece → Piece
  | text s => text s
  | bind name suffix _ => bind name suffix .null
  | items name _ => items name []
  | label name => label name
  | reserved name => reserved name

section Outlines

variable (d : Dialect) (names : Naming) (ps : List Piece)

theorem outline_text (s : String) : (writeFrom d names (text s :: ps)).outline =
    let o := (writeFrom d names ps).outline
    (s ++ o.1, o.2) := rfl

theorem outline_bind (name suffix : String) (v : Value) :
    (writeFrom d names (bind name suffix v :: ps)).outline =
      let n := escaped (names.bound d name).1
      let o := (writeFrom d (names.bound d name).2 ps).outline
      (placeholder d n ++ suffix ++ o.1, n :: o.2) := rfl

theorem outline_items (name : String) (vs : List Value) :
    (writeFrom d names (items name vs :: ps)).outline =
      let n := escaped (names.bound d name).1
      let o := (writeFrom d (names.bound d name).2 ps).outline
      ("(__[POSTCOMPILE_" ++ n ++ "])" ++ o.1, n :: o.2) := rfl

theorem outline_label (name : String) : (writeFrom d names (label name :: ps)).outline =
    let o := (writeFrom d (names.label name) ps).outline
    (names.tally.numbered name ++ o.1, o.2) := rfl

theorem outline_reserved (name : String) : (writeFrom d names (reserved name :: ps)).outline =
    (writeFrom d (names.label name) ps).outline := rfl

end Outlines

/-- Names are given by the pieces alone, so an outline is not told by values. -/
theorem writeFrom_blank (d : Dialect) (names : Naming) (ps : List Piece) :
    (writeFrom d names (ps.map blank)).outline = (writeFrom d names ps).outline := by
  induction ps generalizing names with
  | nil => rfl
  | cons p ps ih =>
    rw [List.map_cons]
    cases p with
    | text s => rw [blank, outline_text, outline_text, ih]
    | bind name suffix v => rw [blank, outline_bind, outline_bind, ih]
    | items name vs => rw [blank, outline_items, outline_items, ih]
    | label name => rw [blank, outline_label, outline_label, ih]
    | reserved name => rw [blank, outline_reserved, outline_reserved, ih]

theorem write_outline {ps qs : List Piece} (h : ps.map blank = qs.map blank) (d : Dialect) :
    (write d ps).outline = (write d qs).outline := by
  unfold write
  rw [← writeFrom_blank, h, writeFrom_blank]

theorem map_blank_joined (separator : String) (rows : List (List Piece)) :
    (joined separator rows).map blank = joined separator (rows.map (·.map blank)) := by
  induction rows with
  | nil => rfl
  | cons ps rest ih =>
    cases rest with
    | nil => rfl
    | cons qs rest =>
      have hjoined : joined separator (ps :: qs :: rest) =
          ps ++ text separator :: joined separator (qs :: rest) := rfl
      rw [hjoined, List.map_append, List.map_cons, ih]
      rfl

theorem joined_blank (separator : String) {rows rows' : List (List Piece)}
    (h : rows.map (·.map blank) = rows'.map (·.map blank)) :
    (joined separator rows).map blank = (joined separator rows').map blank := by
  rw [map_blank_joined, h, map_blank_joined]

end Piece

open Piece

namespace Condition

/-- Values bound to a column under conversions that agree. -/
def BoundAlike (t : ColumnType) (v w : Value) : Prop := ∀ d, suffix d t v = suffix d t w

theorem boundAlike_text (t : ColumnType) (a b : String) : BoundAlike t (.text a) (.text b) := by
  intro d
  cases t <;> rfl

theorem boundAlike_list (t : ColumnType) (vs ws : List Value) :
    BoundAlike t (.list vs) (.list ws) := by
  intro d
  cases t <;> rfl

inductive SameForm : Condition → Condition → Prop where
  | refl (a : Condition) : SameForm a a
  | compare (op : Comparison) (c : Column) {v w : Value} (h : BoundAlike c.type v w) :
      SameForm (.compare op c v) (.compare op c w)
  | like (c : Column) (s t : String) : SameForm (.like c s) (.like c t)
  | contains (c : Column) (asText : Bool) (s t : String) :
      SameForm (.contains c asText s) (.contains c asText t)
  | within (c : Column) (vs ws : List Value) : SameForm (.within c vs) (.within c ws)

theorem SameForm.column_eq {a b : Condition} (h : SameForm a b) : a.column = b.column := by
  cases h <;> rfl

theorem bound_blank {c : Column} {v w : Value} (h : BoundAlike c.type v w) (d : Dialect) :
    (bound d c v).blank = (bound d c w).blank := by
  unfold bound blank
  rw [h d]

theorem anyCase_blank (d : Dialect) (subject : String) {p p' : Piece} (h : p.blank = p'.blank) :
    (anyCase d subject p).map blank = (anyCase d subject p').map blank := by
  cases d <;> simp only [anyCase, List.map_cons, List.map_nil, h]

theorem SameForm.pieces {a b : Condition} (h : SameForm a b) (d : Dialect) :
    AgreeOn (List.map blank) (a.pieces d) (b.pieces d) := by
  cases h with
  | refl => exact AgreeOn.refl _
  | compare op c h =>
    refine AgreeOn.after (c.render d) fun subject => AgreeOn.ok ?_
    simp only [List.map_cons, bound_blank h d]
  | like c s t =>
    refine AgreeOn.after (c.render d) fun subject => AgreeOn.ok ?_
    simp only [List.map_cons, bound_blank (boundAlike_text c.type s t) d]
  | contains c asText s t =>
    refine AgreeOn.after (c.render d) fun subject => AgreeOn.ok ?_
    cases asText with
    | false => exact anyCase_blank d subject (bound_blank (boundAlike_text c.type _ _) d)
    | true => exact anyCase_blank d _ rfl
  | within c vs ws => exact AgreeOn.after (c.render d) fun subject => AgreeOn.ok rfl

end Condition

namespace Statement

open List (Forall₂)

abbrev SameGroups : List (List Condition) → List (List Condition) → Prop :=
  Forall₂ (Forall₂ Condition.SameForm)

/-- Statements that differ in the bound values of their conditions only. -/
def SameForm (s t : Statement) : Prop :=
  ∃ groups, SameGroups s.groups groups ∧ t = { s with groups }

theorem isEmpty_eq {α : Type} {R : α → α → Prop} {xs ys : List α} (h : Forall₂ R xs ys) :
    xs.isEmpty = ys.isEmpty := by
  cases h <;> rfl

theorem groupPieces_blank {xs ys : List Condition} (h : Forall₂ Condition.SameForm xs ys)
    (d : Dialect) (alone : Bool) :
    AgreeOn (List.map blank) (groupPieces d alone xs) (groupPieces d alone ys) := by
  refine AgreeOn.bind (AgreeOn.mapM h fun a b hab => hab.pieces d) fun ps qs hps => AgreeOn.ok ?_
  have hjoined := joined_blank " OR " hps
  rw [h.length_eq, isEmpty_eq h]
  split_ifs
  · rfl
  · exact hjoined
  · rfl
  · simp only [List.map_append, List.map_cons, hjoined]

variable {s : Statement} {groups : List (List Condition)}

theorem wherePieces_blank (h : SameGroups s.groups groups) (d : Dialect) :
    AgreeOn (List.map blank) (s.wherePieces d) (wherePieces d { s with groups }) := by
  unfold wherePieces
  dsimp only
  rw [isEmpty_eq h, h.length_eq]
  split_ifs
  · exact AgreeOn.refl _
  · refine AgreeOn.bind (AgreeOn.mapM h fun xs ys hxs => groupPieces_blank hxs d _)
      fun ps qs hps => AgreeOn.ok ?_
    rw [List.map_cons, List.map_cons, joined_blank " AND " hps]

theorem extraTables_eq (h : SameGroups s.groups groups) :
    s.extraTables = extraTables { s with groups } := by
  have hcolumns : s.groups.flatten.map Condition.column = groups.flatten.map Condition.column := by
    rw [← List.forall₂_eq_eq_eq]
    exact List.rel_map (fun _ _ hab => Condition.SameForm.column_eq hab) (List.rel_flatten h)
  have hnamed := congrArg (List.filterMap Column.table?) hcolumns
  rw [List.filterMap_map, List.filterMap_map] at hnamed
  have htables : s.extraTables = (List.filter _
      (s.groups.flatten.filterMap (Column.table? ∘ Condition.column))).eraseDups := rfl
  rw [htables, hnamed]
  rfl

theorem fromText_eq (h : SameGroups s.groups groups) (d : Dialect) :
    s.fromText d = fromText d { s with groups } := by
  unfold fromText
  rw [extraTables_eq h]
  rfl

theorem piecesWith_blank (h : SameGroups s.groups groups) (d : Dialect) (named : Bool)
    (more : List (List Piece)) : AgreeOn (List.map blank) (s.piecesWith d named more)
      (piecesWith d { s with groups } named more) := by
  refine AgreeOn.after (s.basePieces d named) fun columns => ?_
  refine AgreeOn.after (s.aggregates.mapM (aggregatePieces d s.base)) fun aggregates => ?_
  rw [← fromText_eq h d]
  refine AgreeOn.after (s.fromText d) fun source => ?_
  refine AgreeOn.bind (wherePieces_blank h d) fun ps qs hps => ?_
  refine AgreeOn.after (s.orderPieces d) fun orders => AgreeOn.ok ?_
  simp only [List.map_cons, List.map_append, hps]

theorem limitPieces_blank (d : Dialect) (limit offset limit' offset' : Int) :
    (limitPieces d limit offset).map blank = (limitPieces d limit' offset').map blank := by
  cases d <;> rfl

variable {t : Statement}

theorem SameForm.written (h : s.SameForm t) (d : Dialect) :
    AgreeOn Written.outline (s.written d) (t.written d) := by
  obtain ⟨groups, hgroups, rfl⟩ := h
  exact AgreeOn.bind (piecesWith_blank hgroups d false []) fun ps qs hps =>
    AgreeOn.ok (write_outline hps d)

theorem SameForm.countWritten (h : s.SameForm t) (d : Dialect) :
    AgreeOn Written.outline (s.countWritten d) (t.countWritten d) := by
  obtain ⟨groups, hgroups, rfl⟩ := h
  have hpieces := piecesWith_blank (s := { s with orders := [] }) hgroups d true []
  refine AgreeOn.bind hpieces fun ps qs hps => AgreeOn.ok (write_outline ?_ d)
  simp only [List.map_cons, List.map_append, hps]

theorem limited_outline (h : SameGroups s.groups groups) (d : Dialect) (more : List (List Piece))
    (limit offset limit' offset' : Int) : AgreeOn Written.outline
      (s.piecesWith d false more >>= fun ps =>
        .ok (Piece.write d (ps ++ limitPieces d limit offset)))
      (piecesWith d { s with groups } false more >>= fun ps =>
        .ok (Piece.write d (ps ++ limitPieces d limit' offset'))) := by
  refine AgreeOn.bind (piecesWith_blank h d false more) fun ps qs hps =>
    AgreeOn.ok (write_outline ?_ d)
  rw [List.map_append, List.map_append, hps, limitPieces_blank]

theorem SameForm.pageWritten (h : s.SameForm t) (d : Dialect) (limit offset limit' offset' : Int) :
    AgreeOn Written.outline (s.pageWritten d limit offset) (t.pageWritten d limit' offset') := by
  obtain ⟨groups, hgroups, rfl⟩ := h
  exact limited_outline hgroups d [] limit offset limit' offset'

theorem SameForm.windowWritten (h : s.SameForm t) (d : Dialect)
    (limit offset limit' offset' : Int) :
    AgreeOn Written.outline (s.windowWritten d limit offset)
      (t.windowWritten d limit' offset') := by
  obtain ⟨groups, hgroups, rfl⟩ := h
  exact limited_outline hgroups d _ limit offset limit' offset'

end Statement
end Listing.Sql
