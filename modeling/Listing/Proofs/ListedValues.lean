import Listing.Proofs.AcceptedPolicies
import Listing.Proofs.BuiltConditions
import Listing.Proofs.Restrictions
import Listing.Proofs.SurroundedEntries

set_option autoImplicit false

namespace Listing

open Params

/-- The ways to list values for a field. -/
inductive Spelling where
  | plain
  | equal
  | within
  | joined

namespace Spelling

def key (field : String) : Spelling → String
  | plain => field
  | equal => field ++ "[eq]"
  | within => field ++ "[in]"
  | joined => field ++ "[in]"

def texts (vs : List String) : Spelling → List String
  | joined => [",".intercalate vs]
  | _ => vs

def fields (field : String) (vs : List String) (s : Spelling) : List (String × String) :=
  (s.texts vs).map (s.key field, ·)

def operator? : Spelling → Option FilterOperator
  | plain => none
  | equal => some .eq
  | within => some .within
  | joined => some .within

def value (vs : List String) : Spelling → Value
  | joined => .text (",".intercalate vs)
  | _ => .list (vs.map .text)

def filter (vs : List String) (s : Spelling) : Value :=
  match s.operator? with
  | none => s.value vs
  | some o => .map [(.text o.word, s.value vs)]

end Spelling

namespace ListRequest

variable {field : String}

/-- A field that parameters name by itself and with an operator. -/
structure IsField (field : String) : Prop where
  named : Names field
  unbracketed : '[' ∉ field.toList
  notReserved : field ∉ reservedKeys

theorem isField_of_name (h : Identifier.Name field.toList) (hreserved : field ∉ reservedKeys) :
    IsField field where
  named := by
    refine ⟨?_, h.not_mem_break⟩
    rintro rfl
    exact absurd (Identifier.isDotted_iff.2 h) (by decide)
  unbracketed :=
    h.not_mem (fun hmark => absurd (Identifier.isPart_iff.2 hmark) (by decide)) (by decide)
  notReserved := hreserved

theorem operatorKey?_of_unbracketed {key : String} (h : '[' ∉ key.toList) :
    operatorKey? key = none := by
  refine operatorKey?_eq_none_iff.2 ?_
  rintro field o ⟨-, rfl | rfl⟩ <;> exact h (by simp)

theorem operatorKey?_key (h : IsField field) (s : Spelling) :
    operatorKey? (s.key field) = s.operator?.map (field, ·) := by
  have hoperator {key : String} {o : FilterOperator} (hkey : key = field ++ "[" ++ o.word ++ "]") :
      operatorKey? key = some (field, o) :=
    operatorKey?_eq_some_iff.2 ⟨h.named, .inl hkey⟩
  cases s with
  | plain => exact operatorKey?_of_unbracketed h.unbracketed
  | equal => exact hoperator (by simp [Spelling.key, FilterOperator.word, String.append_assoc])
  | within => exact hoperator (by simp [Spelling.key, FilterOperator.word, String.append_assoc])
  | joined => exact hoperator (by simp [Spelling.key, FilterOperator.word, String.append_assoc])

theorem isFilterKey_bracketed (h : IsField field) (rest : List Char) (hrest : '[' ∉ rest)
    {key : String} (hkey : key.toList = field.toList ++ '[' :: rest) : isFilterKey key = true := by
  refine isFilterKey_iff.2 ⟨fun hreserved => ?_, ?_⟩
  · have hbracket : '[' ∈ key.toList := by
      rw [hkey]
      simp
    have hnone : ∀ key ∈ reservedKeys, '[' ∉ key.toList := by decide
    exact hnone key hreserved hbracket
  · rintro column ⟨-, hsearch⟩
    obtain ⟨tail, htail⟩ : ∃ tail, key.toList = "columnSearch".toList ++ '[' :: tail := by
      rcases hsearch with rfl | rfl
      · exact ⟨column.toList ++ "]".toList, by simp⟩
      · exact ⟨column.toList ++ "]\n".toList, by simp⟩
    -- Neither the field nor the rest has a bracket, so both keys are cut at the same one.
    obtain ⟨hfield, -, -⟩ :=
      (List.append_cons_inj_of_notMem h.unbracketed hrest).1 (hkey.symm.trans htail)
    have hsearched : field = "columnSearch" := String.toList_inj.1 hfield
    exact h.notReserved (hsearched ▸ by decide)

theorem isFilterKey_key (h : IsField field) (s : Spelling) : isFilterKey (s.key field) = true := by
  cases s with
  | plain =>
    refine isFilterKey_iff.2 ⟨h.notReserved, ?_⟩
    rintro column ⟨-, rfl | rfl⟩ <;> exact h.unbracketed (by simp)
  | equal => exact isFilterKey_bracketed h "eq]".toList (by decide) (by simp [Spelling.key])
  | _ => exact isFilterKey_bracketed h "in]".toList (by decide) (by simp [Spelling.key])

variable {vs : List String}

structure AreListed (vs : List String) : Prop where
  several : 2 ≤ vs.length
  notEmpty : ∀ v ∈ vs, v ≠ ""

theorem AreListed.ne_nil (h : AreListed vs) : vs ≠ [] := by
  rintro rfl
  exact absurd h.several (by decide)

theorem AreListed.exists_cons_cons (h : AreListed vs) : ∃ v w others, vs = v :: w :: others := by
  obtain ⟨v, rest, rfl⟩ := List.exists_cons_of_ne_nil h.ne_nil
  have hrest : rest ≠ [] := by
    rintro rfl
    exact absurd h.several (by simp)
  obtain ⟨w, others, rfl⟩ := List.exists_cons_of_ne_nil hrest
  exact ⟨v, w, others, rfl⟩

theorem AreListed.joined_ne (h : AreListed vs) : ",".intercalate vs ≠ "" := by
  obtain ⟨v, w, others, rfl⟩ := h.exists_cons_cons
  rw [String.intercalate_cons_cons]
  intro hempty
  exact h.notEmpty v List.mem_cons_self (by simpa using congrArg String.toList hempty)

theorem grouped_texts (h : AreListed vs) (s : Spelling) : grouped (s.texts vs) = s.value vs := by
  cases s with
  | joined => rfl
  | _ => exact grouped_of_several h.several

theorem texts_ne_nil (h : AreListed vs) (s : Spelling) : s.texts vs ≠ [] := by
  cases s with
  | joined => exact List.cons_ne_nil _ _
  | _ => exact h.ne_nil

theorem plainValue?_listed (h : AreListed vs) :
    plainValue? (.list (vs.map .text)) = some (.list (vs.map .text)) := by
  have hfull : (vs.map Value.text).filter (!·.isEmpty) = vs.map .text := by
    refine List.filter_eq_self.2 fun item hitem => ?_
    obtain ⟨v, hv, rfl⟩ := List.mem_map.1 hitem
    simpa [Value.isEmpty] using h.notEmpty v hv
  obtain ⟨v, w, others, rfl⟩ := h.exists_cons_cons
  unfold plainValue?
  dsimp only
  rw [hfull]
  rfl

theorem value_not_empty (h : AreListed vs) (s : Spelling) : (s.value vs).isEmpty = false := by
  cases s with
  | joined => simpa [Spelling.value, Value.isEmpty] using h.joined_ne
  | _ => simpa [Spelling.value, Value.isEmpty] using h.ne_nil

theorem contribution?_plain {key : String} {v : Value} (hkey : isFilterKey key = true)
    (hplain : operatorKey? key = none) (hv : v.isEmpty = false) :
    contribution? (key, v) = (plainValue? v).map (⟨key, none, ·⟩) := by
  unfold contribution?
  rw [hkey, hv, hplain]
  rfl

theorem contribution?_listed {key : String} (h : AreListed vs) (hkey : isFilterKey key = true)
    (hplain : operatorKey? key = none) :
    contribution? (key, .list (vs.map .text)) = some ⟨key, none, .list (vs.map .text)⟩ := by
  have hempty : (Value.list (vs.map .text)).isEmpty = false := value_not_empty h .plain
  rw [contribution?_plain hkey hplain hempty, plainValue?_listed h]
  rfl

theorem contribution?_spelled (h : AreListed vs) (hfield : IsField field) (s : Spelling) :
    contribution? (s.key field, s.value vs) = some ⟨field, s.operator?, s.value vs⟩ := by
  have hkey := isFilterKey_key hfield s
  have hoperator := operatorKey?_key hfield s
  cases s with
  | plain => exact contribution?_listed h hkey hoperator
  | _ =>
    unfold contribution?
    rw [hkey, value_not_empty h _, hoperator]
    rfl

theorem onto_filter (vs : List String) (s : Spelling) :
    Contribution.onto ⟨field, s.operator?, s.value vs⟩ none = s.filter vs := by
  cases s <;> rfl

/-- The request of a query is read alike, but for the filter of the values. -/
theorem ofParams_spelled (h : AreListed vs) (hfield : IsField field)
    {before after : List (String × String)} (hothers : ∀ e ∈ before ++ after, ¬ IsAbout e.1 field)
    (c : Config) : ∃ filters filters' : Params, ∀ s : Spelling,
      ofParams c (Params.ofFields (before ++ s.fields field vs ++ after)) =
        (fun r => { r with filters := filters ++ (field, s.filter vs) :: filters' }) <$>
          ofParams c (Params.ofFields (before ++ after)) := by
  obtain ⟨filters, filters', hread⟩ := ofParams_fields_around c hothers
  refine ⟨filters, filters', fun s => ?_⟩
  have hcontribution := contribution?_spelled h hfield s
  rw [← grouped_texts h s] at hcontribution
  have hspelled := hread (texts_ne_nil h s) hcontribution rfl
  rw [grouped_texts h s, onto_filter] at hspelled
  exact hspelled

end ListRequest
end Listing
