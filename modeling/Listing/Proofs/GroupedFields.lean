import Listing.Proofs.CollectedFilters
import Listing.Proofs.SurroundedEntries

set_option autoImplicit false

namespace Listing

namespace Params

variable {fs fs' : List (String × String)} {key : String}

def firstKeys (fs : List (String × String)) : List String := (fs.map (·.1)).eraseDups

def textsOf (fs : List (String × String)) (key : String) : List String :=
  (fs.filter (·.1 = key)).map (·.2)

theorem firstKeys_concat (fs : List (String × String)) (f : String × String) :
    firstKeys (fs ++ [f]) =
      if f.1 ∈ firstKeys fs then firstKeys fs else firstKeys fs ++ [f.1] := by
  unfold firstKeys
  rw [List.map_append, List.map_singleton, eraseDups_concat]
  simp only [List.mem_eraseDups]

theorem textsOf_append (fs fs' : List (String × String)) (key : String) :
    textsOf (fs ++ fs') key = textsOf fs key ++ textsOf fs' key := by
  unfold textsOf
  rw [List.filter_append, List.map_append]

theorem textsOf_singleton (f : String × String) (key : String) :
    textsOf [f] key = if f.1 = key then [f.2] else [] := by
  unfold textsOf
  by_cases h : f.1 = key <;> simp [h]

theorem mem_firstKeys : key ∈ firstKeys fs ↔ textsOf fs key ≠ [] := by
  simp [firstKeys, textsOf]

theorem lookup?_keyed (keys : List String) (value : String → Value) (key : String) :
    Entries.lookup? (keys.map fun k => (k, value k)) key =
      if key ∈ keys then some (value key) else none := by
  induction keys with
  | nil => rfl
  | cons k keys ih =>
    rw [List.map_cons, Entries.lookup?_cons, ih]
    by_cases hk : k = key
    · simp [hk]
    · simp [hk, Ne.symm hk]

theorem insert_keyed {keys : List String} (h : key ∈ keys) (value : String → Value) (v : Value) :
    Entries.insert (keys.map fun k => (k, value k)) key v =
      keys.map fun k => (k, if k = key then v else value k) := by
  unfold Entries.insert
  rw [if_pos (by simpa using h), List.map_map]
  refine List.map_congr_left fun k _ => ?_
  by_cases hk : k = key <;> simp [hk]

theorem ofFields_concat (fs : List (String × String)) (f : String × String) :
    ofFields (fs ++ [f]) = (ofFields fs).add f := by
  simp [ofFields]

/-- Grouping keeps every key with all of its texts. -/
theorem ofFields_grouped (fs : List (String × String)) :
    ofFields fs = (firstKeys fs).map fun key => (key, grouped (textsOf fs key)) := by
  -- Fields are taken up from the left, so the induction takes the last field off.
  induction fs using List.reverseRecOn with
  | nil => rfl
  | append_singleton fs f ih =>
    rw [ofFields_concat, add_eq, ih, lookup?_keyed, firstKeys_concat]
    by_cases hkey : f.1 ∈ firstKeys fs
    · rw [if_pos hkey, if_pos hkey, Option.elim_some, repeated_grouped (mem_firstKeys.1 hkey),
        insert_keyed hkey]
      refine List.map_congr_left fun key _ => ?_
      rw [textsOf_append, textsOf_singleton]
      by_cases hsame : key = f.1
      · rw [if_pos hsame, if_pos hsame.symm, hsame]
      · rw [if_neg hsame, if_neg (Ne.symm hsame), List.append_nil]
    · have hnew : textsOf fs f.1 = [] := by
        rw [mem_firstKeys, not_not] at hkey
        exact hkey
      rw [if_neg hkey, if_neg hkey, Option.elim_none, List.map_append, List.map_singleton,
        textsOf_append, textsOf_singleton, hnew, if_pos rfl, List.nil_append,
        Entries.insert_of_new ((lookup?_keyed _ _ _).trans (if_neg hkey))]
      refine congrArg (· ++ _) (List.map_congr_left fun key hold => ?_)
      rw [textsOf_append, textsOf_singleton, if_neg (ne_of_mem_of_not_mem hold hkey).symm,
        List.append_nil]

/-- The same fields, but for the order between occurrences of different keys; the keys first occur
in the same order. -/
structure IsInterleaving (fs fs' : List (String × String)) : Prop where
  order : firstKeys fs = firstKeys fs'
  texts : ∀ key, textsOf fs key = textsOf fs' key

theorem grouped_inj {us us' : List String} (hne : us ≠ []) (hne' : us' ≠ [])
    (h : grouped us = grouped us') : us = us' := by
  match us, us', hne, hne' with
  | [u], [u'], _, _ => rw [Value.text.inj h]
  | [_], _ :: _ :: _, _, _ => cases h
  | _ :: _ :: _, [_], _, _ => cases h
  | _ :: _ :: _, _ :: _ :: _, _, _ =>
    exact List.map_injective_iff.2 (fun _ _ => Value.text.inj) (Value.list.inj h)

theorem lookup?_ofFields (fs : List (String × String)) (key : String) :
    (ofFields fs).lookup? key =
      if textsOf fs key = [] then none else some (grouped (textsOf fs key)) := by
  rw [ofFields_grouped, lookup?_keyed]
  simp only [mem_firstKeys, ite_not]

theorem ofFields_eq_iff : ofFields fs = ofFields fs' ↔ IsInterleaving fs fs' := by
  constructor
  · intro h
    refine ⟨?_, fun key => ?_⟩
    · have hkeys := congrArg (List.map (·.1)) h
      rw [ofFields_grouped, ofFields_grouped, List.map_map, List.map_map] at hkeys
      simpa [Function.comp_def] using hkeys
    · have hvalue := congrArg (Entries.lookup? · key) h
      simp only [lookup?_ofFields] at hvalue
      split_ifs at hvalue with hnone hnone' hnone'
      · rw [hnone, hnone']
      · exact grouped_inj hnone hnone' (Option.some.inj hvalue)
  · intro h
    rw [ofFields_grouped, ofFields_grouped, h.order]
    simp only [h.texts]

end Params

namespace ListRequest

open Params

variable {fs fs' : List (String × String)} {key : String}

/-- A key of which the last text counts: a reserved one, or that of a column search. -/
def IsSingle (key : String) : Prop := key ∈ reservedKeys ∨ ∃ field, IsSearchKey key field

theorem last_grouped {us : List String} (hne : us ≠ []) :
    (grouped us).last = us.getLast?.elim .null .text := by
  match us, hne with
  | [_], _ => rfl
  | u :: u' :: us, _ =>
    have hmore : 2 ≤ (u :: u' :: us).length := by simp
    rw [grouped_of_several hmore, Value.last, List.getLast?_map]
    cases (u :: u' :: us).getLast? <;> rfl

theorem last_get (fs : List (String × String)) (key : String) :
    ((Params.ofFields fs).get key).last = (textsOf fs key).getLast?.elim .null .text := by
  unfold Params.get
  rw [lookup?_ofFields]
  split_ifs with hnone
  · rw [hnone]
    rfl
  · exact last_grouped hnone

theorem firstOf_ofFields (fs : List (String × String)) (key other : String) :
    firstOf (Params.ofFields fs) key other =
      ((textsOf fs key).getLast?.or (textsOf fs other).getLast?).elim .null .text := by
  unfold firstOf
  rw [lookup?_ofFields]
  split_ifs with hnone
  · rw [hnone, Option.getD_none, last_get]
    rfl
  · obtain ⟨u, hu⟩ := Option.ne_none_iff_exists'.1 (mt List.getLast?_eq_none_iff.1 hnone)
    rw [Option.getD_some, last_grouped hnone, hu]
    rfl

def isSearchKey (key : String) : Bool := (columnSearchAlias? key).isSome

/-- Fields of which the same is read: the last text of every single key, all texts of the others.
Keys of filters stand in the same order, and so do keys of column searches. -/
structure ReadsAlike (fs fs' : List (String × String)) : Prop where
  searches : (firstKeys fs).filter isSearchKey = (firstKeys fs').filter isSearchKey
  filters : (firstKeys fs).filter isFilterKey = (firstKeys fs').filter isFilterKey
  last : ∀ key, IsSingle key → (textsOf fs key).getLast? = (textsOf fs' key).getLast?
  all : ∀ key, isFilterKey key = true → textsOf fs key = textsOf fs' key

theorem isRaw_ofFields (fs : List (String × String)) : ∀ e ∈ Params.ofFields fs, e.2.IsRaw := by
  intro e he
  rw [ofFields_grouped] at he
  obtain ⟨key, -, rfl⟩ := List.mem_map.1 he
  unfold grouped
  split
  · trivial
  · intro v hv
    obtain ⟨u, -, rfl⟩ := List.mem_map.1 hv
    exact ⟨u, rfl⟩

theorem foldl_ofFields {β : Type} {f : β → String × Value → β} {p : String → Bool}
    (h : ∀ b e, p e.1 = false → f b e = b) (fs : List (String × String)) (b : β) :
    (Params.ofFields fs).foldl f b =
      ((firstKeys fs).filter p).foldl (fun b key => f b (key, grouped (textsOf fs key))) b := by
  rw [ofFields_grouped, List.foldl_map, List.foldl_filter]
  refine List.foldl_ext _ _ _ fun b key _ => ?_
  split_ifs with hkey
  · rfl
  · exact h b _ (Bool.eq_false_iff.2 hkey)

theorem filtersOf_congr (h : ReadsAlike fs fs') :
    filtersOf (Params.ofFields fs) = filtersOf (Params.ofFields fs') := by
  have hskip (filters : Params) (e : String × Value) (he : isFilterKey e.1 = false) :
      addFilter filters e = filters := by
    unfold addFilter
    rw [he]
    rfl
  unfold filtersOf
  rw [foldl_ofFields hskip, foldl_ofFields hskip, ← h.filters]
  refine List.foldl_ext _ _ _ fun filters key hkey => ?_
  rw [h.all key (List.mem_filter.1 hkey).2]

def addTerm (terms : List (String × String)) (e : String × Value) : List (String × String) :=
  match columnSearchAlias? e.1 with
  | some field => Entries.insert terms field e.2.last.term
  | none => terms

theorem columnSearchOf_ofFields (fs : List (String × String)) :
    columnSearchOf (Params.ofFields fs) = (Params.ofFields fs).foldl addTerm [] :=
  columnSearchOf_flat (isRaw_ofFields fs)

theorem columnSearchOf_congr (h : ReadsAlike fs fs') :
    columnSearchOf (Params.ofFields fs) = columnSearchOf (Params.ofFields fs') := by
  have hskip (terms : List (String × String)) (e : String × Value) (he : isSearchKey e.1 = false) :
      addTerm terms e = terms := by
    unfold addTerm
    rw [Option.not_isSome_iff_eq_none.1 (Bool.eq_false_iff.1 he)]
  rw [columnSearchOf_ofFields, columnSearchOf_ofFields, foldl_ofFields hskip,
    foldl_ofFields hskip, ← h.searches]
  refine List.foldl_ext _ _ _ fun terms key hkey => ?_
  obtain ⟨hmem, hsearch⟩ := List.mem_filter.1 hkey
  obtain ⟨field, hfield⟩ := Option.isSome_iff_exists.1 hsearch
  have hmem' : key ∈ firstKeys fs' := (List.mem_filter.1 (h.searches ▸ hkey)).1
  unfold addTerm
  dsimp only
  rw [last_grouped (mem_firstKeys.1 hmem), last_grouped (mem_firstKeys.1 hmem'),
    h.last key (.inr ⟨field, columnSearchAlias?_eq_some_iff.1 hfield⟩)]

theorem ofParams_congr (h : ReadsAlike fs fs') (c : Config) :
    ofParams c (Params.ofFields fs) = ofParams c (Params.ofFields fs') := by
  have hlast {key : String} (hkey : key ∈ reservedKeys) :
      ((Params.ofFields fs).get key).last = ((Params.ofFields fs').get key).last := by
    rw [last_get, last_get, h.last key (.inl hkey)]
  have hfirst {key other : String} (hkey : key ∈ reservedKeys) (hother : other ∈ reservedKeys) :
      firstOf (Params.ofFields fs) key other = firstOf (Params.ofFields fs') key other := by
    rw [firstOf_ofFields, firstOf_ofFields, h.last key (.inl hkey), h.last other (.inl hother)]
  unfold ofParams
  rw [hlast (by decide), hlast (by decide), hlast (by decide), hlast (by decide),
    hfirst (by decide) (by decide), hfirst (by decide) (by decide), filtersOf_congr h,
    columnSearchOf_congr h]

section Earlier

variable {before after : List (String × String)}

theorem textsOf_around (key u other : String) :
    textsOf (before ++ (key, u) :: after) other =
      textsOf before other ++ (if key = other then [u] else []) ++ textsOf after other := by
  rw [textsOf_append, ← List.singleton_append, textsOf_append, textsOf_singleton,
    List.append_assoc]

theorem textsOf_other {other : String} (h : key ≠ other) (u : String) :
    textsOf (before ++ (key, u) :: after) other = textsOf (before ++ after) other := by
  rw [textsOf_around, if_neg h, List.append_nil, textsOf_append]

theorem getLast?_textsOf (hlater : key ∈ after.map (·.1)) (u other : String) :
    (textsOf (before ++ (key, u) :: after) other).getLast? =
      (textsOf (before ++ after) other).getLast? := by
  by_cases hsame : key = other
  · subst hsame
    have hne : textsOf after key ≠ [] := mem_firstKeys.1 (List.mem_eraseDups.2 hlater)
    have hlast (us : List String) :
        (us ++ textsOf after key).getLast? = (textsOf after key).getLast? := by
      rw [List.getLast?_append, Option.or_of_isSome (List.getLast?_isSome.2 hne)]
    rw [textsOf_around, hlast, textsOf_append, hlast]
  · rw [textsOf_other hsame]

theorem filter_firstKeys {p : String → Bool} (hp : p key = false) (u : String) :
    (firstKeys (before ++ (key, u) :: after)).filter p =
      (firstKeys (before ++ after)).filter p := by
  unfold firstKeys
  rw [filter_eraseDups, filter_eraseDups, List.map_append, List.map_append, List.map_cons,
    List.filter_append, List.filter_append, List.filter_cons_of_neg (Bool.eq_false_iff.1 hp)]

theorem readsAlike_reserved (hkey : key ∈ reservedKeys) (hlater : key ∈ after.map (·.1))
    (u : String) : ReadsAlike (before ++ (key, u) :: after) (before ++ after) := by
  have hapart : ∀ key ∈ reservedKeys, isSearchKey key = false ∧ isFilterKey key = false := by
    decide
  obtain ⟨hsearch, hfilter⟩ := hapart key hkey
  refine ⟨filter_firstKeys hsearch u, filter_firstKeys hfilter u,
    fun other _ => getLast?_textsOf hlater u other, fun other hother => textsOf_other ?_ u⟩
  rintro rfl
  rw [hfilter] at hother
  cases hother

/-- An earlier occurrence of a column search gives its key a place; its text is not read. -/
theorem readsAlike_search {field : String} (hkey : IsSearchKey key field)
    (hlater : key ∈ after.map (·.1)) (u u' : String) :
    ReadsAlike (before ++ (key, u) :: after) (before ++ (key, u') :: after) := by
  have hfilter : isFilterKey key = false := by
    rw [← Bool.not_eq_true, isFilterKey_iff]
    exact fun h => h.2 field hkey
  have hkeys :
      firstKeys (before ++ (key, u) :: after) = firstKeys (before ++ (key, u') :: after) := by
    simp [firstKeys]
  refine ⟨by rw [hkeys], by rw [hkeys], fun other _ => ?_, fun other hother => ?_⟩
  · rw [getLast?_textsOf hlater, getLast?_textsOf hlater]
  · have hne : key ≠ other := by
      rintro rfl
      rw [hfilter] at hother
      cases hother
    rw [textsOf_other hne, textsOf_other hne]

end Earlier

/-- Grouping the fields of a query keeps every key where it first occurs, with all of its texts in
order, and loses nothing but the order between occurrences of different keys: fields that differ in
this order alone make the same request. Before the last occurrence of a key with one value, a
reserved one may be left out and that of a column search may have any text. -/
theorem fields_grouped (c : Config) (fs : List (String × String)) :
    Params.ofFields fs = (firstKeys fs).map (fun key => (key, grouped (textsOf fs key))) ∧
    (∀ fs', Params.ofFields fs = Params.ofFields fs' ↔ IsInterleaving fs fs') ∧
    (∀ fs', IsInterleaving fs fs' →
      ofParams c (Params.ofFields fs) = ofParams c (Params.ofFields fs')) ∧
    ∀ before key u after, fs = before ++ (key, u) :: after → key ∈ after.map (·.1) →
      (key ∈ reservedKeys →
        ofParams c (Params.ofFields fs) = ofParams c (Params.ofFields (before ++ after))) ∧
      ∀ field, IsSearchKey key field → ∀ u', ofParams c (Params.ofFields fs) =
        ofParams c (Params.ofFields (before ++ (key, u') :: after)) := by
  refine ⟨ofFields_grouped fs, fun fs' => ofFields_eq_iff, fun fs' h => ?_,
    fun before key u after hfs hlater => ⟨fun hkey => ?_, fun field hkey u' => ?_⟩⟩
  · rw [ofFields_eq_iff.2 h]
  · rw [hfs]
    exact ofParams_congr (readsAlike_reserved hkey hlater u) c
  · rw [hfs]
    exact ofParams_congr (readsAlike_search hkey hlater u u') c

def turnedFields : List (String × String) :=
  [("page", "1"), ("name", "a"), ("columnSearch[age]", "1"), ("page", "2"), ("name", "b"),
    ("columnSearch[age]", "2")]

def sortedFields : List (String × String) :=
  [("page", "1"), ("page", "2"), ("name", "a"), ("name", "b"), ("columnSearch[age]", "1"),
    ("columnSearch[age]", "2")]

theorem fields_grouped_turns :
    Params.ofFields turnedFields = [("page", .list [.text "1", .text "2"]),
      ("name", .list [.text "a", .text "b"]),
      ("columnSearch[age]", .list [.text "1", .text "2"])] ∧
    IsInterleaving turnedFields sortedFields ∧
    ofParams {} (Params.ofFields turnedFields) = ofParams {} (Params.ofFields sortedFields) ∧
    ofParams {} (Params.ofFields turnedFields) =
      ofParams {} (Params.ofFields (turnedFields.drop 1)) := by
  obtain ⟨-, hlossless, hsame, hearlier⟩ := fields_grouped {} turnedFields
  have hmoved : IsInterleaving turnedFields sortedFields := (hlossless sortedFields).1 rfl
  have hlater : "page" ∈ (turnedFields.drop 1).map (·.1) := by decide
  have hpage := (hearlier [] "page" "1" (turnedFields.drop 1) rfl hlater).1 (by decide)
  exact ⟨rfl, hmoved, hsame sortedFields hmoved, hpage⟩

end ListRequest
end Listing
