import Listing.Proofs.Contributions

set_option autoImplicit false

namespace Listing

namespace Params

variable {ε : Type} {step : Params → ε → Params} {keyOf : ε → Option String}

/-- Steps lead from the entries around one to other entries around it, whatever it is, as long as
they are not about its key. -/
def Surrounds (step : Params → ε → Params) (keyOf : ε → Option String) : Prop :=
  ∀ before after e, ∃ before' after', step (before ++ after) e = before' ++ after' ∧
    ∀ x : String × Value, keyOf e ≠ some x.1 →
      step (before ++ x :: after) e = before' ++ x :: after'

theorem Surrounds.foldl (h : Surrounds step keyOf) (es : List ε) (before after : Params) :
    ∃ before' after', es.foldl step (before ++ after) = before' ++ after' ∧
      ∀ x : String × Value, (∀ e ∈ es, keyOf e ≠ some x.1) →
        es.foldl step (before ++ x :: after) = before' ++ x :: after' := by
  induction es generalizing before after with
  | nil => exact ⟨before, after, rfl, fun x _ => rfl⟩
  | cons e es ih =>
    obtain ⟨before₁, after₁, hfirst, haround⟩ := h before after e
    obtain ⟨before', after', hrest, haround'⟩ := ih before₁ after₁
    refine ⟨before', after', by rw [List.foldl_cons, hfirst, hrest], fun x hx => ?_⟩
    rw [List.foldl_cons, haround x (hx e List.mem_cons_self)]
    exact haround' x fun e' he' => hx e' (List.mem_cons_of_mem e he')

variable {key : String} {x : String × Value}

theorem find?_around {α : Type} {p : α → Bool} {x : α} (h : p x = false) (before after : List α) :
    (before ++ x :: after).find? p = (before ++ after).find? p := by
  rw [List.find?_append, List.find?_append, List.find?_cons_of_neg (Bool.eq_false_iff.1 h)]

theorem lookup?_around (h : x.1 ≠ key) (before after : Params) :
    Entries.lookup? (before ++ x :: after) key = Entries.lookup? (before ++ after) key := by
  have hx : (x.1 == key) = false := beq_eq_false_iff_ne.2 h
  unfold Entries.lookup?
  rw [find?_around (p := fun e : String × Value => e.1 == key) hx]

theorem get_around (h : x.1 ≠ key) (before after : Params) :
    get (before ++ x :: after) key = get (before ++ after) key := by
  unfold get
  rw [lookup?_around h]

theorem insert_around (key : String) (value : Value) (before after : Params) :
    ∃ before' after', Entries.insert (before ++ after) key value = before' ++ after' ∧
      ∀ x : String × Value, x.1 ≠ key →
        Entries.insert (before ++ x :: after) key value = before' ++ x :: after' := by
  have hany {x : String × Value} (hx : x.1 ≠ key) :
      (before ++ x :: after).any (·.1 == key) = (before ++ after).any (·.1 == key) := by
    rw [List.any_append, List.any_append, List.any_cons, beq_eq_false_iff_ne.2 hx, Bool.false_or]
  unfold Entries.insert
  by_cases hset : (before ++ after).any (·.1 == key) = true
  · refine ⟨_, _, by rw [if_pos hset, List.map_append], fun x hx => ?_⟩
    rw [if_pos ((hany hx).trans hset), List.map_append, List.map_cons,
      if_neg (Bool.eq_false_iff.1 (beq_eq_false_iff_ne.2 hx))]
  · refine ⟨before, after ++ [(key, value)], by rw [if_neg hset, List.append_assoc],
      fun x hx => ?_⟩
    rw [if_neg (by rw [hany hx]; exact hset), List.append_assoc, List.cons_append]

/-- Steps that set the key they are about, to a value that depends on the one it has. -/
theorem surrounds_of_insert (value : ε → Option Value → Value)
    (h : ∀ params e, step params e = (keyOf e).elim params fun key =>
      params.insert key (value e (params.lookup? key))) : Surrounds step keyOf := by
  intro before after e
  cases hkey : keyOf e with
  | none => exact ⟨before, after, by rw [h, hkey]; rfl, fun x _ => by rw [h, hkey]; rfl⟩
  | some key =>
    obtain ⟨before', after', hset, haround⟩ :=
      insert_around key (value e ((before ++ after).lookup? key)) before after
    refine ⟨before', after', by rw [h, hkey, ← hset]; rfl, fun x hx => ?_⟩
    have hother : x.1 ≠ key := fun hsame => hx (congrArg some hsame.symm)
    rw [h, hkey, ← haround x hother, ← lookup?_around hother]
    rfl

theorem add_eq (params : Params) (f : String × String) : params.add f =
    params.insert f.1 ((params.lookup? f.1).elim (.text f.2) (repeated · (.text f.2))) := by
  unfold add
  cases hvalue : params.lookup? f.1 with
  | some v => rfl
  | none => exact (Entries.insert_of_new hvalue _).symm

theorem surrounds_add : Surrounds add fun f => some f.1 :=
  surrounds_of_insert (fun f v => v.elim (.text f.2) (repeated · (.text f.2))) add_eq

variable {params : Params} {value : Value}

theorem insert_last (h : params.lookup? key = none) (value value' : Value) :
    Entries.insert (params ++ [(key, value)]) key value' = params ++ [(key, value')] := by
  have hkept : params.map (fun e => if e.1 == key then (e.1, value') else e) = params := by
    refine (List.map_congr_left fun e he => if_neg ?_).trans (List.map_id params)
    exact List.any_eq_false.1 (Entries.lookup?_eq_none_iff.1 h) e he
  unfold Entries.insert
  rw [if_pos (by simp), List.map_append, hkept]
  simp

theorem add_last (h : params.lookup? key = none) (value : Value) (u : String) :
    add (params ++ [(key, value)]) (key, u) = params ++ [(key, repeated value (.text u))] := by
  have hvalue : Entries.lookup? (params ++ [(key, value)]) key = some value := by
    rw [Entries.lookup?_append, h, Entries.lookup?_cons, if_pos (beq_self_eq_true key)]
    rfl
  rw [add_eq, hvalue]
  exact insert_last h value _

def grouped : List String → Value
  | [u] => .text u
  | us => .list (us.map .text)

theorem grouped_of_several {us : List String} (h : 2 ≤ us.length) :
    grouped us = .list (us.map .text) := by
  match us, h with
  | _ :: _ :: _, _ => rfl

theorem repeated_grouped {us : List String} (hne : us ≠ []) (u : String) :
    repeated (grouped us) (.text u) = grouped (us ++ [u]) := by
  match us, hne with
  | [_], _ => rfl
  | v :: w :: us, _ =>
    have hmore : 2 ≤ (v :: w :: us ++ [u]).length := by simp
    rw [grouped_of_several hmore, List.map_append]
    rfl

theorem foldl_add_same (h : params.lookup? key = none) {us : List String} (hne : us ≠ []) :
    (us.map (key, ·)).foldl add params = params ++ [(key, grouped us)] := by
  -- From the back: each further field changes the value that those before it have left.
  induction us using List.reverseRecOn with
  | nil => exact absurd rfl hne
  | append_singleton us u ih =>
    rw [List.map_append, List.foldl_append]
    by_cases hnil : us = []
    · subst hnil
      change params.add (key, u) = _
      rw [add_eq, h]
      exact Entries.insert_of_new h _
    · rw [ih hnil, ← repeated_grouped hnil]
      exact add_last h (grouped us) u

theorem key_of_mem_ofFields {fs : List (String × String)} {e : String × Value}
    (h : e ∈ ofFields fs) : ∃ f ∈ fs, f.1 = e.1 := by
  induction fs using List.reverseRecOn generalizing e with
  | nil => cases h
  | append_singleton fs f ih =>
    have hlast : ofFields (fs ++ [f]) = (ofFields fs).add f := by simp [ofFields]
    rw [hlast, add_eq] at h
    have hold {e' : String × Value} (he' : e' ∈ ofFields fs) :
        ∃ g ∈ fs ++ [f], g.1 = e'.1 := by
      obtain ⟨g, hg, hkey⟩ := ih he'
      exact ⟨g, List.mem_append_left _ hg, hkey⟩
    rcases Entries.mem_insert h with he | ⟨-, hkey | ⟨e', he', hkey⟩⟩
    · exact hold he
    · exact ⟨f, by simp, hkey.symm⟩
    · exact hkey ▸ hold he'

theorem ofFields_around (before after : List (String × String)) : ∃ before' after',
    ofFields (before ++ after) = before' ++ after' ∧
      ∀ {key : String} {us : List String}, (∀ f ∈ before ++ after, f.1 ≠ key) → us ≠ [] →
        ofFields (before ++ us.map (key, ·) ++ after) = before' ++ (key, grouped us) :: after' := by
  -- Only the fields after those with the key meet its entry.
  obtain ⟨before', after', hrest, haround⟩ := surrounds_add.foldl after (ofFields before) []
  refine ⟨before', after', ?_, fun {key us} hother hne => ?_⟩
  · rw [ofFields, List.foldl_append, ← hrest, List.append_nil]
    rfl
  · have hnew : (ofFields before).lookup? key = none := by
      refine Option.map_eq_none_iff.2 (List.find?_eq_none.2 fun e he hkey => ?_)
      obtain ⟨f, hf, hsame⟩ := key_of_mem_ofFields he
      exact hother f (List.mem_append_left _ hf) (hsame.trans (beq_iff_eq.1 hkey))
    have hmiddle : (us.map (key, ·)).foldl add (ofFields before) =
        ofFields before ++ [(key, grouped us)] := foldl_add_same hnew hne
    rw [← haround (key, grouped us) fun f hf hsame =>
      hother f (List.mem_append_right _ hf) (Option.some.inj hsame), ← hmiddle, ofFields,
      List.foldl_append, List.foldl_append]
    rfl

end Params

namespace ListRequest

open Params

theorem surrounds_addFilter : Surrounds addFilter fun e => (contribution? e).map (·.field) := by
  refine surrounds_of_insert (fun e filter => (contribution? e).elim .null (·.onto filter))
    fun filters e => ?_
  rw [addFilter_eq]
  cases contribution? e <;> rfl

variable {field : String}

def IsAbout (key field : String) : Prop := key = field ∨ ∃ o, IsOperatorKey key field o

theorem not_isAbout {key : String} (hkey : key ≠ field)
    (hoperator : (operatorKey? key).map (·.1) ≠ some field) : ¬ IsAbout key field := by
  rintro (hsame | ⟨o, ho⟩)
  · exact hkey hsame
  · rw [operatorKey?_eq_some_iff.2 ho] at hoperator
    exact hoperator rfl

theorem isAbout_of_contribution? {e : String × Value} {c : Contribution}
    (h : contribution? e = some c) : IsAbout e.1 c.field := by
  unfold contribution? at h
  split_ifs at h
  split at h
  · rename_i field o hkey
    cases h
    exact .inr ⟨o, operatorKey?_eq_some_iff.1 hkey⟩
  · obtain ⟨w, -, rfl⟩ := Option.map_eq_some_iff.1 h
    exact .inl rfl

theorem isFilterKey_of_contribution? {e : String × Value} {c : Contribution}
    (h : contribution? e = some c) : isFilterKey e.1 = true := by
  unfold contribution? at h
  split_ifs at h with hskipped
  rw [Bool.or_eq_true, not_or, Bool.not_eq_true, Bool.not_eq_false'] at hskipped
  exact hskipped.1

theorem lookup?_filtersOf_none {params : Params} (h : ∀ e ∈ params, ¬ IsAbout e.1 field) :
    (filtersOf params).lookup? field = none := by
  have hnone : contributionsTo params field = [] := by
    refine List.filter_eq_nil_iff.2 fun c hc hsame => ?_
    obtain ⟨e, he, hcontribution⟩ := List.mem_filterMap.1 hc
    exact h e he (of_decide_eq_true hsame ▸ isAbout_of_contribution? hcontribution)
  rw [lookup?_filtersOf, hnone]
  rfl

/-- Filters are made around the one of a field that only one parameter is about. -/
theorem filtersOf_around {before after : Params}
    (hothers : ∀ e ∈ before ++ after, ¬ IsAbout e.1 field) : ∃ before' after',
      filtersOf (before ++ after) = before' ++ after' ∧
        ∀ {e : String × Value} {c : Contribution}, contribution? e = some c → c.field = field →
          filtersOf (before ++ e :: after) = before' ++ (field, c.onto none) :: after' := by
  obtain ⟨before', after', hrest, haround⟩ := surrounds_addFilter.foldl after (filtersOf before) []
  refine ⟨before', after', ?_, fun {e c} hc hfield => ?_⟩
  · rw [filtersOf, List.foldl_append, ← hrest, List.append_nil]
    rfl
  · have hnew := lookup?_filtersOf_none fun e he => hothers e (List.mem_append_left after he)
    have hmiddle : addFilter (filtersOf before) e = filtersOf before ++ [(field, c.onto none)] := by
      rw [addFilter_eq, hc]
      dsimp only
      rw [hfield, hnew, Entries.insert_of_new hnew]
    rw [← haround (field, c.onto none) fun e he hsame => ?_, ← hmiddle, filtersOf,
      List.foldl_append]
    · rfl
    · obtain ⟨c, hc, hof⟩ := Option.map_eq_some_iff.1 hsame
      have habout : IsAbout e.1 c.field := isAbout_of_contribution? hc
      rw [hof] at habout
      exact hothers e (List.mem_append_right _ he) habout

variable {x : String × Value}

theorem columnSearchOf_around (hx : isFilterKey x.1 = true) (before after : Params) :
    columnSearchOf (before ++ x :: after) = columnSearchOf (before ++ after) := by
  obtain ⟨hreserved, hsearch⟩ := isFilterKey_iff.1 hx
  have hnone : columnSearchAlias? x.1 = none := by
    rw [Option.eq_none_iff_forall_ne_some]
    exact fun field hfield => hsearch field (columnSearchAlias?_eq_some_iff.1 hfield)
  have hkey : x.1 ≠ "columnSearch" := by
    intro hkey
    exact hreserved (hkey ▸ by decide)
  unfold columnSearchOf
  rw [get_around hkey]
  split
  · rfl
  · rw [List.foldl_append, List.foldl_append, List.foldl_cons, hnone]

theorem ofParams_around (c : Config) (hx : isFilterKey x.1 = true) (before after : Params) :
    ofParams c (before ++ x :: after) =
      (fun r => { r with filters := filtersOf (before ++ x :: after) }) <$>
        ofParams c (before ++ after) := by
  have hother {key : String} (hkey : key ∈ reservedKeys) : x.1 ≠ key := by
    rintro rfl
    exact (isFilterKey_iff.1 hx).1 hkey
  have hget {key : String} (hkey : key ∈ reservedKeys) :
      (before ++ x :: after).get key = (before ++ after).get key := get_around (hother hkey) ..
  have hfirst {key other : String} (hkey : key ∈ reservedKeys) (hkey' : other ∈ reservedKeys) :
      firstOf (before ++ x :: after) key other = firstOf (before ++ after) key other := by
    unfold firstOf
    rw [lookup?_around (hother hkey), hget hkey']
  unfold ofParams
  rw [hget (by decide), hget (by decide), hget (by decide), hget (by decide),
    hfirst (by decide) (by decide), hfirst (by decide) (by decide), columnSearchOf_around hx]
  dsimp only
  split
  · rfl
  · rfl

/-- A request is read around the filter of a field that only the fields with one key are about. -/
theorem ofParams_fields_around (c : Config) {before after : List (String × String)}
    (hothers : ∀ e ∈ before ++ after, ¬ IsAbout e.1 field) : ∃ filters filters' : Params,
      ∀ {key : String} {us : List String} {contribution : Contribution}, us ≠ [] →
        contribution? (key, grouped us) = some contribution → contribution.field = field →
          ofParams c (Params.ofFields (before ++ us.map (key, ·) ++ after)) =
            (fun r => { r with
              filters := filters ++ (field, contribution.onto none) :: filters' }) <$>
                ofParams c (Params.ofFields (before ++ after)) := by
  obtain ⟨params, params', hrest, haround⟩ := Params.ofFields_around before after
  have hothers' : ∀ e ∈ params ++ params', ¬ IsAbout e.1 field := by
    intro e he
    obtain ⟨f, hf, hsame⟩ := key_of_mem_ofFields (hrest ▸ he)
    exact hsame ▸ hothers f hf
  obtain ⟨filters, filters', -, hfilters⟩ := filtersOf_around hothers'
  refine ⟨filters, filters', fun {key us contribution} hne hc hfield => ?_⟩
  have habout : IsAbout key field := hfield ▸ isAbout_of_contribution? hc
  have hother : ∀ f ∈ before ++ after, f.1 ≠ key := by
    rintro f hf rfl
    exact hothers f hf habout
  rw [haround hother hne, hrest, ofParams_around c (isFilterKey_of_contribution? hc),
    hfilters hc hfield]

end ListRequest
end Listing
