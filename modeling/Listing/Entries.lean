set_option autoImplicit false

namespace Listing

abbrev Entries (κ α : Type) := List (κ × α)

namespace Entries

variable {κ α : Type} [BEq κ]

def lookup? (es : Entries κ α) (key : κ) : Option α := (es.find? (·.1 == key)).map (·.2)

/-- Set a key: in its place if it is there, else at the end. -/
def insert (es : Entries κ α) (key : κ) (value : α) : Entries κ α :=
  if es.any (·.1 == key) then es.map fun e => if e.1 == key then (e.1, value) else e
  else es ++ [(key, value)]

/-- Every key once: its first place, its last value. -/
def ofList (es : List (κ × α)) : Entries κ α := es.foldl (fun es e => insert es e.1 e.2) []

variable {es es' : Entries κ α} {key key' : κ} {value : α}

theorem lookup?_cons (e : κ × α) (es : Entries κ α) (key : κ) :
    lookup? (e :: es) key = if e.1 == key then some e.2 else lookup? es key := by
  unfold lookup?
  rw [List.find?_cons]
  cases e.1 == key <;> rfl

theorem lookup?_append (es es' : Entries κ α) (key : κ) :
    lookup? (es ++ es') key = (lookup? es key).or (lookup? es' key) := by
  unfold lookup?
  rw [List.find?_append, Option.map_or]

theorem lookup?_eq_none_iff : lookup? es key = none ↔ es.any (·.1 == key) = false := by
  simp [lookup?]

theorem exists_mem_of_lookup? (h : lookup? es key = some value) :
    ∃ e ∈ es, (e.1 == key) = true ∧ e.2 = value := by
  obtain ⟨e, he, rfl⟩ := Option.map_eq_some_iff.1 h
  exact ⟨e, List.mem_of_find?_eq_some he, by simpa using List.find?_some he, rfl⟩

theorem insert_of_new (h : lookup? es key = none) (value : α) :
    insert es key value = es ++ [(key, value)] := by
  unfold insert
  rw [lookup?_eq_none_iff.1 h]
  rfl

theorem keys_insert (es : Entries κ α) (key : κ) (value : α) : (insert es key value).map (·.1) =
    if es.any (·.1 == key) then es.map (·.1) else es.map (·.1) ++ [key] := by
  unfold insert
  cases es.any (·.1 == key) with
  | true =>
    rw [if_pos rfl, if_pos rfl, List.map_map]
    refine List.map_congr_left fun e _ => ?_
    cases h : e.1 == key <;> simp [h]
  | false => simp

/-- An entry of what was set was there before, or it has the value that was set, under the key or
under one that stood for it. -/
theorem mem_insert {e : κ × α} (h : e ∈ insert es key value) :
    e ∈ es ∨ e.2 = value ∧ (e.1 = key ∨ ∃ old ∈ es, old.1 = e.1) := by
  unfold insert at h
  cases hany : es.any (·.1 == key) with
  | true =>
    rw [hany, if_pos rfl] at h
    obtain ⟨old, hold, rfl⟩ := List.mem_map.1 h
    cases hkey : old.1 == key with
    | true => exact .inr ⟨by simp, .inr ⟨old, hold, by simp⟩⟩
    | false => exact .inl (by simpa using hold)
  | false =>
    rw [hany, if_neg Bool.false_ne_true] at h
    rcases List.mem_append.1 h with h | h
    · exact .inl h
    · obtain rfl := List.mem_singleton.1 h
      exact .inr ⟨rfl, .inl rfl⟩

theorem forall_insert {P : α → Prop} (h : ∀ e ∈ es, P e.2) (hvalue : P value) :
    ∀ e ∈ insert es key value, P e.2 := by
  intro e he
  rcases mem_insert he with hold | ⟨rfl, -⟩
  · exact h e hold
  · exact hvalue

theorem lookup?_insert_self (hkey : (key == key) = true) (es : Entries κ α) (value : α) :
    lookup? (insert es key value) key = some value := by
  cases hany : es.any (·.1 == key) with
  | false =>
    have hnone := lookup?_eq_none_iff.2 hany
    rw [insert_of_new hnone, lookup?_append, hnone, lookup?_cons, if_pos hkey]
    rfl
  | true =>
    unfold insert
    rw [if_pos hany]
    induction es with
    | nil => cases hany
    | cons e es ih =>
      rw [List.map_cons, lookup?_cons]
      cases he : e.1 == key with
      | true => simp [he]
      | false =>
        rw [List.any_cons, he, Bool.false_or] at hany
        simpa [he] using ih hany

theorem lookup?_insert_other (h : ∀ k, (k == key') = true → (k == key) = false)
    (hkey : (key == key') = false) (es : Entries κ α) (value : α) :
    lookup? (insert es key value) key' = lookup? es key' := by
  cases hany : es.any (·.1 == key) with
  | false =>
    rw [insert_of_new (lookup?_eq_none_iff.2 hany), lookup?_append, lookup?_cons, hkey]
    exact Option.or_none
  | true =>
    unfold insert
    rw [if_pos hany]
    clear hany
    induction es with
    | nil => rfl
    | cons e es ih =>
      rw [List.map_cons, lookup?_cons, lookup?_cons, ih]
      cases he : e.1 == key' with
      | true => simp [h e.1 he, he]
      | false => cases hold : e.1 == key <;> simp [he]

section Lawful

variable [LawfulBEq κ]

theorem any_key_iff : es.any (·.1 == key) = true ↔ key ∈ es.map (·.1) := by
  simp [List.any_eq_true, List.mem_map]

theorem lookup?_insert [DecidableEq κ] (es : Entries κ α) (key key' : κ) (value : α) :
    lookup? (insert es key value) key' = if key' = key then some value else lookup? es key' := by
  split
  · rename_i hkey
    subst hkey
    exact lookup?_insert_self (beq_self_eq_true _) es value
  · rename_i hkey
    refine lookup?_insert_other (fun k hk => ?_) (beq_false_of_ne (Ne.symm hkey)) es value
    exact eq_of_beq hk ▸ beq_false_of_ne hkey

end Lawful

end Entries
end Listing
