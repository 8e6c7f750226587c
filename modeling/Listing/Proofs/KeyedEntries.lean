import Mathlib.Data.List.Basic
import Mathlib.Data.List.Nodup
import Mathlib.Data.List.Perm.Basic
import Mathlib.Data.List.Induction
import Mathlib.Tactic.SplitIfs
import Listing.Params.Basic
import Listing.Proofs.FilterKeys

set_option autoImplicit false

namespace Listing

section Once

variable {α : Type} [DecidableEq α]

theorem eraseDups_concat (as : List α) (a : α) :
    (as ++ [a]).eraseDups = if a ∈ as then as.eraseDups else as.eraseDups ++ [a] := by
  rw [List.eraseDups_append]
  by_cases h : a ∈ as <;> simp [List.removeAll, h, List.eraseDups_cons]

theorem filter_eraseDups (p : α → Bool) (as : List α) :
    as.eraseDups.filter p = (as.filter p).eraseDups := by
  induction as using List.reverseRecOn with
  | nil => rfl
  | append_singleton as a ih =>
    rw [eraseDups_concat, List.filter_append]
    by_cases hp : p a = true
    · rw [List.filter_cons_of_pos hp, List.filter_nil, eraseDups_concat]
      by_cases h : a ∈ as <;> simp [h, hp, ih]
    · rw [List.filter_cons_of_neg hp, List.filter_nil, List.append_nil]
      by_cases h : a ∈ as <;> simp [h, hp, ih]

theorem nodup_eraseDups (as : List α) : as.eraseDups.Nodup := by
  induction as using List.reverseRecOn with
  | nil => exact List.nodup_nil
  | append_singleton as a ih =>
    rw [eraseDups_concat]
    split_ifs with h
    · exact ih
    · refine List.Nodup.append ih (List.nodup_singleton a) ?_
      simpa using h

end Once

namespace Entries

variable {κ α : Type} {es : Entries κ α} {key : κ} {value : α}

theorem find?_of_mem {p : κ → Bool} {e : κ × α} (hkeys : (es.map (·.1)).Nodup) (he : e ∈ es)
    (hp : ∀ k, p k = true ↔ k = e.1) : (es.find? fun e => p e.1) = some e := by
  induction es with
  | nil => cases he
  | cons e' es ih =>
    rw [List.map_cons, List.nodup_cons] at hkeys
    rw [List.find?_cons]
    rcases List.mem_cons.1 he with rfl | he
    · rw [(hp e.1).2 rfl]
    · have hother : p e'.1 = false := by
        rw [← Bool.not_eq_true, hp]
        intro hsame
        exact hkeys.1 (hsame ▸ List.mem_map_of_mem he)
      rw [hother]
      exact ih hkeys.2 he

theorem nodup_insert [BEq κ] (h : (es.map (·.1)).Nodup)
    (hkey : es.any (·.1 == key) = false → key ∉ es.map (·.1)) :
    ((insert es key value).map (·.1)).Nodup := by
  rw [keys_insert]
  split_ifs with hany
  · exact h
  · have hnew := hkey (Bool.eq_false_iff.2 hany)
    exact List.Nodup.append h (List.nodup_singleton key) (List.disjoint_singleton.2 hnew)

theorem lookup?_eq_some_iff [BEq κ] [LawfulBEq κ] (h : (es.map (·.1)).Nodup) :
    lookup? es key = some value ↔ (key, value) ∈ es := by
  constructor
  · intro hvalue
    obtain ⟨e, he, hkey, rfl⟩ := exists_mem_of_lookup? hvalue
    exact beq_iff_eq.1 hkey ▸ he
  · intro he
    unfold lookup?
    rw [find?_of_mem (p := (· == key)) h he fun k => beq_iff_eq]
    rfl

end Entries

namespace Value

variable {entries entries' : List (Value × Value)} {value : Value} {o o' : FilterOperator}

theorem sameKey_text_iff {v : Value} {s : String} : v.sameKey (.text s) = true ↔ v = .text s := by
  cases v <;> simp [sameKey, toRat?]

theorem beq_text_iff {v : Value} {s : String} : (v == .text s) = true ↔ v = .text s :=
  sameKey_text_iff

theorem beq_word_iff : (Value.text o.word == .text o'.word) = true ↔ o = o' := by
  rw [beq_text_iff, Value.text.injEq, FilterOperator.word_inj]

def operand? (entries : List (Value × Value)) (o : FilterOperator) : Option Value :=
  Entries.lookup? entries (.text o.word)

/-- A map whose keys are words of operators, each once. -/
structure IsOperatorMap (entries : List (Value × Value)) : Prop where
  words : ∀ e ∈ entries, ∃ o : FilterOperator, e.1 = .text o.word
  keys : (entries.map (·.1)).Nodup

theorem insert_only {v : Value} :
    Entries.insert [(Value.text o.word, v)] (Value.text o.word) value =
      [(Value.text o.word, value)] := by
  have hsame : (Value.text o.word == .text o.word) = true := beq_word_iff.2 rfl
  simp [Entries.insert, hsame]

theorem operand?_insert_self :
    operand? (Entries.insert entries (.text o.word) value) o = some value :=
  Entries.lookup?_insert_self (beq_word_iff.2 rfl) entries value

theorem operand?_insert_of_ne (h : o' ≠ o) :
    operand? (Entries.insert entries (.text o.word) value) o' = operand? entries o' := by
  refine Entries.lookup?_insert_other (fun k hk => ?_) ?_ entries value
  · rw [beq_text_iff.1 hk, ← Bool.not_eq_true, beq_word_iff]
    exact h
  · rw [← Bool.not_eq_true, beq_word_iff]
    exact Ne.symm h

theorem isOperatorMap_insert (h : IsOperatorMap entries) :
    IsOperatorMap (Entries.insert entries (.text o.word) value) := by
  refine ⟨fun e he => ?_, Entries.nodup_insert h.keys fun hnew hkey => ?_⟩
  · rcases Entries.mem_insert he with hold | ⟨-, hkey | ⟨old, hold, hkey⟩⟩
    · exact h.words e hold
    · exact ⟨o, hkey⟩
    · exact hkey ▸ h.words old hold
  · obtain ⟨e, he, hword⟩ := List.mem_map.1 hkey
    exact List.any_eq_false.1 hnew e he (beq_text_iff.2 hword)

theorem mem_operatorMap_iff (h : IsOperatorMap entries) {e : Value × Value} :
    e ∈ entries ↔ ∃ o : FilterOperator, e.1 = .text o.word ∧ operand? entries o = some e.2 := by
  constructor
  · intro he
    obtain ⟨o, ho⟩ := h.words e he
    refine ⟨o, ho, ?_⟩
    unfold operand? Entries.lookup?
    rw [Entries.find?_of_mem (p := (· == .text o.word)) h.keys he fun k => ?_]
    · rfl
    · rw [beq_text_iff, ho]
  · rintro ⟨o, ho, hoperand⟩
    obtain ⟨e', he', hkey, hvalue⟩ := Entries.exists_mem_of_lookup? hoperand
    have hsame : e' = e := Prod.ext ((beq_text_iff.1 hkey).trans ho.symm) hvalue
    exact hsame ▸ he'

/-- Operator maps with the same operands have the same entries, but for their order. -/
theorem perm_of_operands (h : IsOperatorMap entries) (h' : IsOperatorMap entries')
    (hsame : ∀ o, operand? entries o = operand? entries' o) : entries.Perm entries' := by
  rw [List.perm_ext_iff_of_nodup (List.Nodup.of_map _ h.keys) (List.Nodup.of_map _ h'.keys)]
  intro e
  rw [mem_operatorMap_iff h, mem_operatorMap_iff h']
  simp only [hsame]

def ofOperands (cs : List (FilterOperator × Value)) : List (Value × Value) :=
  Entries.ofList (cs.map fun c => (.text c.1.word, c.2))

theorem ofOperands_concat (cs : List (FilterOperator × Value)) (c : FilterOperator × Value) :
    ofOperands (cs ++ [c]) =
      Entries.insert (ofOperands cs) (.text c.1.word) c.2 := by
  simp [ofOperands, Entries.ofList]

/-- The last operand of an operator counts. -/
theorem operand?_ofOperands (cs : List (FilterOperator × Value)) (o : FilterOperator) :
    operand? (ofOperands cs) o = ((cs.filter (·.1 = o)).map (·.2)).getLast? := by
  induction cs using List.reverseRecOn with
  | nil => rfl
  | append_singleton cs c ih =>
    rw [ofOperands_concat, List.filter_append, List.map_append]
    by_cases ho : c.1 = o
    · subst ho
      rw [operand?_insert_self]
      simp
    · rw [operand?_insert_of_ne (Ne.symm ho), ih]
      simp [ho]

theorem isOperatorMap_ofOperands (cs : List (FilterOperator × Value)) :
    IsOperatorMap (ofOperands cs) := by
  induction cs using List.reverseRecOn with
  | nil => exact ⟨List.forall_mem_nil _, List.nodup_nil⟩
  | append_singleton cs c ih =>
    rw [ofOperands_concat]
    exact isOperatorMap_insert ih

end Value
end Listing
