import Listing.Proofs.Outcomes
import Listing.Sql.Statement

set_option autoImplicit false

/-!
# Parameters of statements

The values bound by a written statement are the operands of its conditions, in order, and then the
limits of the page. Nothing else of a statement is bound, in whatever way it is run.
-/

namespace Listing.Sql

open Outcome

namespace Piece

def value? : Piece → Option Value
  | bind _ _ v => some v
  | items _ vs => some (.list vs)
  | _ => none

def values (ps : List Piece) : List Value := ps.filterMap value?

theorem values_append (ps qs : List Piece) : values (ps ++ qs) = values ps ++ values qs :=
  List.filterMap_append

theorem values_cons_text (s : String) (ps : List Piece) : values (text s :: ps) = values ps := rfl

theorem writeFrom_params (d : Dialect) (names : Naming) (ps : List Piece) :
    (writeFrom d names ps).params.map (·.2) = values ps := by
  induction ps generalizing names with
  | nil => rfl
  | cons p ps ih =>
    cases p with
    | text s => exact ih names
    | bind name suffix v => exact congrArg (v :: ·) (ih _)
    | items name vs => exact congrArg (.list vs :: ·) (ih _)
    | label name => exact ih _
    | reserved name => exact ih _

theorem values_joined (separator : String) (rows : List (List Piece)) :
    values (joined separator rows) = rows.flatMap values := by
  induction rows with
  | nil => rfl
  | cons ps rest ih =>
    cases rest with
    | nil => exact (List.append_nil _).symm
    | cons qs rest =>
      have hjoined : joined separator (ps :: qs :: rest) =
          ps ++ text separator :: joined separator (qs :: rest) := rfl
      rw [hjoined, values_append, values_cons_text, ih]
      rfl

end Piece

open Piece

theorem flatMap_of_mapM {α β γ : Type} {f : α → Outcome β} {g : β → List γ} {h : α → List γ}
    {xs : List α} {ys : List β} (hys : xs.mapM f = .ok ys)
    (hone : ∀ x y, f x = .ok y → g y = h x) : ys.flatMap g = xs.flatMap h := by
  rw [List.flatMap_def, List.flatMap_def, map_of_mapM hys hone]

namespace Condition

def operands : Condition → List Value
  | compare _ _ v => [v]
  | null _ _ => []
  | flag _ _ _ => []
  | like _ pattern => [.text pattern]
  | contains _ _ pattern => [.text pattern]
  | within _ vs => [.list vs]

theorem values_anyCase (d : Dialect) (subject : String) (p : Piece) :
    values (anyCase d subject p) = values [p] := by
  cases d <;> cases p <;> rfl

theorem values_pieces {d : Dialect} {c : Condition} {ps : List Piece} (h : c.pieces d = .ok ps) :
    values ps = c.operands := by
  obtain ⟨subject, -, h⟩ := bind_eq_ok_iff.1 h
  cases c with
  | contains column asText pattern =>
    cases asText with
    | false =>
      cases h
      exact values_anyCase d subject _
    | true =>
      cases h
      exact values_anyCase d _ _
  | _ =>
    cases h
    rfl

end Condition

namespace Statement

def operands (s : Statement) : List Value := s.groups.flatMap (·.flatMap Condition.operands)

variable {d : Dialect} {s : Statement} {ps : List Piece}

theorem values_groupPieces {alone : Bool} {group : List Condition}
    (h : groupPieces d alone group = .ok ps) : values ps = group.flatMap Condition.operands := by
  obtain ⟨alternatives, halternatives, h⟩ := bind_eq_ok_iff.1 h
  have hvalues : values (if group.isEmpty then [.text "NULL"] else joined " OR " alternatives) =
      group.flatMap Condition.operands := by
    split_ifs with hempty
    · rw [List.isEmpty_iff.1 hempty]
      rfl
    · rw [values_joined]
      exact flatMap_of_mapM halternatives fun _ _ => Condition.values_pieces
  dsimp only at h
  generalize (if group.isEmpty then [.text "NULL"] else joined " OR " alternatives) = qs
    at h hvalues
  rw [← Except.ok.inj h, ← hvalues]
  split_ifs
  · rfl
  · rw [List.cons_append, values_cons_text, values_append]
    exact List.append_nil _

theorem values_wherePieces (h : s.wherePieces d = .ok ps) : values ps = s.operands := by
  unfold wherePieces at h
  unfold operands
  split_ifs at h with hempty
  · cases h
    rw [List.isEmpty_iff.1 hempty]
    rfl
  · obtain ⟨groups, hgroups, h⟩ := bind_eq_ok_iff.1 h
    cases h
    rw [values_cons_text, values_joined]
    exact flatMap_of_mapM hgroups fun _ _ => values_groupPieces

theorem values_orderPieces (h : s.orderPieces d = .ok ps) : values ps = [] := by
  unfold orderPieces at h
  split_ifs at h
  · cases h
    rfl
  · obtain ⟨orders, -, h⟩ := bind_eq_ok_iff.1 h
    cases h
    rfl

theorem values_basePieces {named : Bool} {columns : List (List Piece)}
    (h : s.basePieces d named = .ok columns) : columns.flatMap values = [] := by
  have hnone : columns.flatMap values = s.base.columns.flatMap fun _ => [] := by
    refine flatMap_of_mapM h fun c ps hps => ?_
    obtain ⟨column, -, hps⟩ := bind_eq_ok_iff.1 hps
    obtain ⟨name, -, hps⟩ := bind_eq_ok_iff.1 hps
    cases hps
    rfl
  rw [hnone, List.flatMap_eq_nil_iff]
  exact fun _ _ => rfl

theorem values_aggregatePieces {aggregates : List (List Piece)}
    (h : s.aggregates.mapM (aggregatePieces d s.base) = .ok aggregates) :
    aggregates.flatMap values = [] := by
  have hnone : aggregates.flatMap values = s.aggregates.flatMap fun _ => [] := by
    refine flatMap_of_mapM h fun a ps hps => ?_
    obtain ⟨call, -, hps⟩ := bind_eq_ok_iff.1 hps
    obtain ⟨target, -, hps⟩ := bind_eq_ok_iff.1 hps
    obtain ⟨matching, -, hps⟩ := bind_eq_ok_iff.1 hps
    obtain ⟨label, -, hps⟩ := bind_eq_ok_iff.1 hps
    cases hps
    rfl
  rw [hnone, List.flatMap_eq_nil_iff]
  exact fun _ _ => rfl

/-- Further columns apart, only conditions bind values. -/
theorem values_piecesWith {named : Bool} {more : List (List Piece)}
    (h : s.piecesWith d named more = .ok ps) : values ps = more.flatMap values ++ s.operands := by
  obtain ⟨columns, hcolumns, h⟩ := bind_eq_ok_iff.1 h
  obtain ⟨aggregates, haggregates, h⟩ := bind_eq_ok_iff.1 h
  obtain ⟨source, -, h⟩ := bind_eq_ok_iff.1 h
  obtain ⟨conditions, hconditions, h⟩ := bind_eq_ok_iff.1 h
  obtain ⟨orders, horders, h⟩ := bind_eq_ok_iff.1 h
  cases h
  rw [values_append, values_append, values_cons_text, values_cons_text, values_joined,
    values_wherePieces hconditions, values_orderPieces horders, List.append_nil,
    List.flatMap_append, List.flatMap_append, values_basePieces hcolumns,
    values_aggregatePieces haggregates]
  rfl

end Statement

/-- One run of a statement: its rows are counted, or a part of them is read, alone or with their
number. -/
inductive Run where
  | count
  | rows (limit offset : Int)
  | counted (limit offset : Int)
deriving DecidableEq, Repr

namespace Run

def limits : Run → List Int
  | count => []
  | rows limit offset => [limit, offset]
  | counted limit offset => [limit, offset]

def written (d : Dialect) (s : Statement) : Run → Outcome Written
  | count => s.countWritten d
  | rows limit offset => s.pageWritten d limit offset
  | counted limit offset => s.windowWritten d limit offset

variable {d : Dialect} {s : Statement} {w : Written}

theorem values_limitPieces (limit offset : Int) :
    values (Statement.limitPieces d limit offset) = [.int limit, .int offset] := by
  cases d <;> rfl

/-- A run binds the operands of the conditions and its limits. -/
theorem written_values {run : Run} (h : run.written d s = .ok w) :
    w.params.map (·.2) = s.operands ++ run.limits.map .int := by
  cases run with
  | count =>
    obtain ⟨ps, hps, h⟩ := bind_eq_ok_iff.1 h
    cases h
    have hvalues : values ps = s.operands := Statement.values_piecesWith hps
    rw [write, writeFrom_params, ← hvalues]
    exact values_append ps _
  | rows limit offset =>
    obtain ⟨ps, hps, h⟩ := bind_eq_ok_iff.1 h
    cases h
    rw [write, writeFrom_params, values_append, values_limitPieces,
      Statement.values_piecesWith hps]
    rfl
  | counted limit offset =>
    obtain ⟨ps, hps, h⟩ := bind_eq_ok_iff.1 h
    cases h
    rw [write, writeFrom_params, values_append, values_limitPieces,
      Statement.values_piecesWith hps]
    rfl

end Run

end Listing.Sql
