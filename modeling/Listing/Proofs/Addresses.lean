import Listing.Proofs.Hosts
import Listing.Url

set_option autoImplicit false

namespace Listing.Url

open Text

namespace Address

variable {scheme body query : List Char} {c : Char}

/-! ## Parts of a text -/

def IsScheme (cs : List Char) : Prop :=
  cs = [] ∨ (cs.head?.any Char.isAlpha = true ∧ ∀ c ∈ cs, isSchemeChar c = true)

def schemePart (scheme : List Char) : List Char := if scheme.isEmpty then [] else scheme ++ [':']

def IsRooted (cs : List Char) : Prop := cs = [] ∨ cs.head? = some '/'

def parts (cs : List Char) : Except Defect Address :=
  let (scheme, rest) := takeScheme cs
  let (authority, rest) := takeAuthority rest
  let (rest, fragment) := cut '#' rest
  let (path, query) := cut '?' rest
  match defect? authority with
  | some d => .error d
  | none => .ok { scheme, authority, path, query, fragment }

theorem ofText_eq (cs : List Char) :
    ofText cs = parts ((cs.dropWhile isLeading).filter (!isDropped ·)) := rfl

theorem all_ne (h : c ∉ body) : ∀ d ∈ body, (d != c) = true := by
  intro d hd
  rw [bne_iff_ne]
  rintro rfl
  exact h hd

theorem takeWhile_ne (h : c ∉ body) (rest : List Char) :
    (body ++ rest).takeWhile (· != c) = body ++ rest.takeWhile (· != c) :=
  List.takeWhile_append_of_pos (all_ne h)

theorem dropWhile_ne (h : c ∉ body) (rest : List Char) :
    (body ++ rest).dropWhile (· != c) = rest.dropWhile (· != c) :=
  List.dropWhile_append_of_pos (all_ne h)

theorem cut_marked (h : c ∉ body) (query : List Char) :
    cut c (body ++ marked c query) = (body, query) := by
  unfold cut
  rw [takeWhile_ne h, dropWhile_ne h]
  by_cases hquery : query = []
  · simp [marked, hquery]
  · simp [marked, hquery]

theorem cut_none (h : c ∉ body) : cut c body = (body, []) := by
  have hcut := cut_marked h []
  simpa [marked] using hcut

theorem takeScheme_part (hscheme : IsScheme scheme) (hscheme' : scheme ≠ []) (rest : List Char) :
    takeScheme (schemePart scheme ++ rest) = (lowerAscii scheme, rest) := by
  obtain ⟨halpha, hchars⟩ := hscheme.resolve_left hscheme'
  have hcolon : ':' ∉ scheme := by
    intro hmem
    exact absurd (hchars _ hmem) (by decide)
  have hpart : schemePart scheme ++ rest = scheme ++ ':' :: rest := by
    simp [schemePart, hscheme']
  unfold takeScheme
  rw [hpart, takeWhile_ne hcolon, dropWhile_ne hcolon]
  simp only [List.takeWhile_cons, bne_self_eq_false, Bool.false_eq_true, if_false, List.append_nil]
  rw [if_pos]
  · simp
  · simp [halpha]
    exact hchars

theorem takeScheme_none {rest : List Char}
    (h : rest = [] ∨ rest.head? = some '/' ∨ rest.head? = some '?') :
    takeScheme rest = ([], rest) := by
  unfold takeScheme
  cases rest with
  | nil => rfl
  | cons d rest =>
    have hd : d = '/' ∨ d = '?' := by simpa using h
    rcases hd with rfl | rfl
    · simp
    · simp

theorem takeWhile_marked {p : Char → Bool} (hp : p '?' = false) (cs query : List Char) :
    (cs ++ marked '?' query).takeWhile p = cs.takeWhile p := by
  induction cs with
  | nil =>
    unfold marked
    split_ifs
    · rfl
    · simp [hp]
  | cons c cs ih =>
    rw [List.cons_append, List.takeWhile_cons, List.takeWhile_cons, ih]

theorem dropWhile_marked {p : Char → Bool} (hp : p '?' = false) (cs query : List Char) :
    (cs ++ marked '?' query).dropWhile p = cs.dropWhile p ++ marked '?' query := by
  induction cs with
  | nil =>
    unfold marked
    split_ifs
    · rfl
    · simp [hp]
  | cons c cs ih =>
    rw [List.cons_append, List.dropWhile_cons, List.dropWhile_cons, ih]
    split_ifs <;> simp

theorem takeAuthority_none {cs : List Char} (h : ∀ rest, cs ≠ '/' :: '/' :: rest) :
    takeAuthority cs = ([], cs) := by
  unfold takeAuthority
  split
  · exact absurd rfl (h _)
  · rfl

theorem takeAuthority_pair {authority path : List Char}
    (hauthority : ∀ c ∈ authority, endsAuthority c = false) (hpath : IsRooted path) :
    takeAuthority ('/' :: '/' :: (authority ++ path)) = (authority, path) := by
  have hends : ∀ c ∈ authority, (!endsAuthority c) = true := by
    intro c hc
    rw [hauthority c hc]
    rfl
  change ((authority ++ path).takeWhile (!endsAuthority ·),
    (authority ++ path).dropWhile (!endsAuthority ·)) = _
  rw [List.takeWhile_append_of_pos hends, List.dropWhile_append_of_pos hends]
  rcases hpath with rfl | hpath
  · simp
  · obtain ⟨cs, rfl⟩ := List.head?_eq_some_iff.1 hpath
    simp [endsAuthority]

theorem marked_head (mark : Char) (query : List Char) :
    ∀ c ∈ (marked mark query).head?, c = mark := by
  intro c hc
  unfold marked at hc
  split_ifs at hc
  · simp at hc
  · simpa [eq_comm] using hc

theorem takeAuthority_marked (body query : List Char) :
    takeAuthority (body ++ marked '?' query) =
      ((takeAuthority body).1, (takeAuthority body).2 ++ marked '?' query) := by
  by_cases hslashes : ∃ rest, body = '/' :: '/' :: rest
  · obtain ⟨rest, rfl⟩ := hslashes
    change ((rest ++ marked '?' query).takeWhile (!endsAuthority ·),
      (rest ++ marked '?' query).dropWhile (!endsAuthority ·)) = _
    rw [takeWhile_marked (by decide), dropWhile_marked (by decide)]
    rfl
  · have hnone : ∀ rest, body ≠ '/' :: '/' :: rest := fun rest h => hslashes ⟨rest, h⟩
    rw [takeAuthority_none hnone, takeAuthority_none]
    intro rest h
    -- the two slashes would have to reach into the mark of the query
    have hquery := marked_head '?' query '/'
    match body, h with
    | [], h => simp_all
    | [_], h => simp_all
    | a :: b :: cs, h =>
      simp only [List.cons_append, List.cons.injEq] at h
      exact hnone cs (by rw [h.1, h.2.1])

theorem takeAuthority_subset {rest : List Char} :
    (takeAuthority rest).1 ⊆ rest ∧ (takeAuthority rest).2 ⊆ rest := by
  unfold takeAuthority
  split
  · rename_i cs
    refine ⟨fun c hc => ?_, fun c hc => ?_⟩
    · have hmem := (List.takeWhile_sublist _).subset hc
      simp [hmem]
    · have hmem := (List.dropWhile_sublist _).subset hc
      simp [hmem]
  · simp

theorem parts_spelled (hscheme : IsScheme scheme) (hrooted : IsRooted body)
    (hbody : ∀ c ∈ body, c ≠ '?' ∧ c ≠ '#') (hquery : '#' ∉ query) :
    parts (schemePart scheme ++ (body ++ marked '?' query)) =
      match defect? (takeAuthority body).1 with
      | some d => .error d
      | none => .ok {
          scheme := lowerAscii scheme, authority := (takeAuthority body).1
          path := (takeAuthority body).2, query, fragment := [] } := by
  have htaken : takeScheme (schemePart scheme ++ (body ++ marked '?' query)) =
      (lowerAscii scheme, body ++ marked '?' query) := by
    by_cases hnone : scheme = []
    · subst hnone
      apply takeScheme_none
      rcases hrooted with rfl | hslash
      · by_cases hq : query = []
        · simp [schemePart, marked, hq]
        · simp [schemePart, marked, hq]
      · simp [schemePart, hslash]
    · exact takeScheme_part hscheme hnone _
  have hpath : ∀ c ∈ (takeAuthority body).2, c ≠ '?' ∧ c ≠ '#' :=
    fun c hc => hbody c (takeAuthority_subset.2 hc)
  have hnumber : '#' ∉ (takeAuthority body).2 ++ marked '?' query := by
    intro hmem
    rcases List.mem_append.1 hmem with hmem | hmem
    · exact (hpath _ hmem).2 rfl
    · unfold marked at hmem
      split_ifs at hmem
      · simp at hmem
      · simp [hquery] at hmem
  have hmark : '?' ∉ (takeAuthority body).2 := fun hmem => (hpath _ hmem).1 rfl
  unfold parts
  rw [htaken]
  simp only [takeAuthority_marked, cut_none hnumber, cut_marked hmark]

/-! ## Written addresses -/

/-- An address whose parts hold no mark of a later part. -/
structure IsWritable (a : Address) : Prop where
  scheme : IsScheme a.scheme
  lower : lowerAscii a.scheme = a.scheme
  authority : ∀ c ∈ a.authority, endsAuthority c = false
  sound : defect? a.authority = none
  rooted : IsRooted a.path
  path : ∀ c ∈ a.path, c ≠ '?' ∧ c ≠ '#'
  query : '#' ∉ a.query
  fragment : a.fragment = []
  kept : ∀ c ∈ a.authority ++ a.path ++ a.query, isDropped c = false

def middle (a : Address) : List Char :=
  if a.hasAuthority then '/' :: '/' :: (a.authority ++ a.path) else a.path

theorem rooted_eq {path : List Char} (h : IsRooted path) : rooted path = path := by
  unfold rooted
  rcases h with rfl | h
  · rfl
  · simp [h]

theorem isDropped_of_holds {q : Char → Bool} {c : Char} (h : q c = true) (htab : q '\t' = false)
    (hline : q '\n' = false) (hreturn : q '\r' = false) : isDropped c = false := by
  rw [Bool.eq_false_iff]
  intro hdropped
  simp only [isDropped, Bool.or_eq_true, beq_iff_eq] at hdropped
  rcases hdropped with (rfl | rfl) | rfl <;> simp_all

theorem isDropped_isSchemeChar {c : Char} (h : isSchemeChar c = true) : isDropped c = false :=
  isDropped_of_holds h rfl rfl rfl

namespace IsWritable

variable {a : Address}

theorem written_eq (h : a.IsWritable) :
    a.written = schemePart a.scheme ++ (a.middle ++ marked '?' a.query) := by
  unfold written middle
  rw [rooted_eq h.rooted, h.fragment]
  simp [schemePart, marked]

theorem takeAuthority_middle (h : a.IsWritable) :
    takeAuthority a.middle = (a.authority, a.path) := by
  unfold middle
  split_ifs with hauthority
  · exact takeAuthority_pair h.authority h.rooted
  · simp only [hasAuthority, Bool.or_eq_true, not_or] at hauthority
    obtain ⟨⟨hnone, -⟩, hslashes⟩ := hauthority
    have hempty : a.authority = [] := by simpa using hnone
    rw [takeAuthority_none, hempty]
    intro rest hrest
    simp [hrest] at hslashes

theorem middle_rooted (h : a.IsWritable) : IsRooted a.middle := by
  unfold middle
  split_ifs
  · exact .inr rfl
  · exact h.rooted

theorem middle_chars (h : a.IsWritable) :
    ∀ c ∈ a.middle, (c ≠ '?' ∧ c ≠ '#') ∧ isDropped c = false := by
  have hslash : (('/' : Char) ≠ '?' ∧ ('/' : Char) ≠ '#') ∧ isDropped '/' = false := by decide
  intro c hc
  unfold middle at hc
  split_ifs at hc
  · simp only [List.mem_cons, List.mem_append] at hc
    rcases hc with rfl | rfl | hc | hc
    · exact hslash
    · exact hslash
    · refine ⟨⟨?_, ?_⟩, h.kept c (by simp [hc])⟩
      · rintro rfl
        exact absurd (h.authority _ hc) (by decide)
      · rintro rfl
        exact absurd (h.authority _ hc) (by decide)
    · exact ⟨h.path c hc, h.kept c (by simp [hc])⟩
  · exact ⟨h.path c hc, h.kept c (by simp [hc])⟩

end IsWritable

theorem isLeading_isAlpha {c : Char} (h : c.isAlpha = true) : isLeading c = false := by
  have hletter : 65 ≤ c.toNat := by
    simp only [Char.isAlpha, Char.isUpper, Char.isLower, Bool.or_eq_true, Bool.and_eq_true,
      decide_eq_true_eq, UInt32.le_iff_toNat_le, ge_iff_le] at h
    change 65 ≤ c.val.toNat
    rcases h with ⟨h, -⟩ | ⟨h, -⟩
    · exact h
    · exact le_trans (by decide) h
  simp only [isLeading, decide_eq_false_iff_not]
  omega

theorem head_spelled (hscheme : IsScheme scheme) (hrooted : IsRooted body) :
    ∀ c ∈ (schemePart scheme ++ (body ++ marked '?' query)).head?, isLeading c = false := by
  intro c hc
  cases scheme with
  | nil =>
    cases body with
    | nil =>
      rw [marked_head '?' query c hc]
      decide
    | cons d cs =>
      have hd : d = '/' := by simpa [IsRooted] using hrooted
      have hcd : d = c := by simpa [schemePart] using hc
      rw [← hcd, hd]
      decide
  | cons d cs =>
    have halpha : d.isAlpha = true := by simpa using (hscheme.resolve_left (by simp)).1
    have hcd : d = c := by simpa [schemePart] using hc
    exact isLeading_isAlpha (hcd ▸ halpha)

theorem dropWhile_head {p : Char → Bool} {cs : List Char} (h : ∀ c ∈ cs.head?, p c = false) :
    cs.dropWhile p = cs := by
  cases cs with
  | nil => rfl
  | cons c cs => simp [h c rfl]

theorem ofText_spelled (hscheme : IsScheme scheme) (hrooted : IsRooted body)
    (hkept : ∀ c ∈ query, isDropped c = false) :
    ofText (schemePart scheme ++ (body ++ marked '?' query)) =
      parts (schemePart scheme ++ (body.filter (!isDropped ·) ++ marked '?' query)) := by
  have hpart : (schemePart scheme).filter (!isDropped ·) = schemePart scheme := by
    rw [List.filter_eq_self]
    intro c hc
    unfold schemePart at hc
    split_ifs at hc with hnone
    · simp at hc
    · rcases List.mem_append.1 hc with hc | hc
      · have hchars := (hscheme.resolve_left (by simpa using hnone)).2
        simp [isDropped_isSchemeChar (hchars c hc)]
      · rw [List.mem_singleton.1 hc]
        decide
  have hquery : (marked '?' query).filter (!isDropped ·) = marked '?' query := by
    rw [List.filter_eq_self]
    intro c hc
    unfold marked at hc
    split_ifs at hc
    · simp at hc
    · rcases List.mem_cons.1 hc with rfl | hc
      · decide
      · simp [hkept c hc]
  rw [ofText_eq, dropWhile_head (head_spelled hscheme hrooted), List.filter_append,
    List.filter_append, hpart, hquery]

theorem ofText_written {a : Address} (h : a.IsWritable) : ofText a.written = .ok a := by
  have hmiddle : a.middle.filter (!isDropped ·) = a.middle := by
    rw [List.filter_eq_self]
    intro c hc
    rw [(h.middle_chars c hc).2]
    rfl
  rw [h.written_eq, ofText_spelled h.scheme h.middle_rooted fun c hc => h.kept c (by simp [hc]),
    hmiddle, parts_spelled h.scheme h.middle_rooted (fun c hc => (h.middle_chars c hc).1) h.query,
    h.takeAuthority_middle, h.lower]
  dsimp only
  rw [h.sound]
  have hfragment := h.fragment
  cases a
  simp_all

theorem render_kept {fs : List (String × String)} :
    ∀ c ∈ UrlEncoded.render fs, c ≠ '#' ∧ isDropped c = false := by
  intro c hc
  have hrendered : (UrlEncoded.isEscaped c || c == '=' || c == '&') = true := by
    simpa [or_assoc] using UrlEncoded.render_chars c hc
  constructor
  · rintro rfl
    exact absurd hrendered (by decide)
  · exact isDropped_of_holds (q := fun c => UrlEncoded.isEscaped c || c == '=' || c == '&') hrendered
      (by decide) (by decide) (by decide)

/-- The address of another page is read as the same address but for its query. -/
theorem ofText_withPage {a : Address} (h : a.IsWritable) (page limit : String) :
    ofText (a.withPage page limit).toList =
      .ok { a with query := UrlEncoded.render (a.fieldsFor page limit) } := by
  have hquery : ∀ c ∈ UrlEncoded.render (a.fieldsFor page limit), c ≠ '#' ∧ isDropped c = false :=
    render_kept
  have hwritable : IsWritable { a with query := UrlEncoded.render (a.fieldsFor page limit) } := {
    h with
    query := fun hmem => (hquery _ hmem).1 rfl
    kept := by
      intro c hc
      rcases List.mem_append.1 hc with hc | hc
      · exact h.kept c (List.mem_append_left _ hc)
      · exact (hquery c hc).2 }
  unfold withPage
  rw [String.toList_ofList, ofText_written hwritable]

end Address

/-! ## Addresses of requests -/

open Address

structure IsSound (u : Url) : Prop where
  scheme : IsScheme u.scheme.toList
  path : IsRooted u.path.toList

def IsQuery (cs : List Char) : Prop := ∀ c ∈ cs, 0x21 ≤ c.toNat ∧ c.toNat ≤ 0x7E ∧ c ≠ '#'

variable {u : Url}

theorem isDropped_of_visible {c : Char} (h : 0x21 ≤ c.toNat) : isDropped c = false :=
  isDropped_of_holds (q := fun c => 0x21 ≤ c.toNat) (decide_eq_true h) rfl rfl rfl

def writtenScheme (u : Url) : List Char :=
  if Host.isHost u.host.toList then u.scheme.toList else []

def writtenMiddle (u : Url) : List Char :=
  if Host.isHost u.host.toList then '/' :: '/' :: (u.host.toList ++ u.escapedPath)
  else withoutHost u.escapedPath

theorem escapePathChar_chars (c : Char) : ∀ d ∈ escapePathChar c, d ≠ '?' ∧ d ≠ '#' := by
  unfold escapePathChar
  split_ifs with hmark hnumber hback
  · simp
  · simp
  · simp
  · simpa using ⟨hmark, hnumber⟩

theorem escapedPath_chars : ∀ c ∈ u.escapedPath, c ≠ '?' ∧ c ≠ '#' := by
  intro c hc
  obtain ⟨d, -, hc⟩ := List.mem_flatMap.1 hc
  exact escapePathChar_chars d c hc

theorem escapedPath_rooted (h : IsRooted u.path.toList) : IsRooted u.escapedPath := by
  unfold escapedPath
  rcases h with h | h
  · exact .inl (by rw [h]; rfl)
  · obtain ⟨cs, hcs⟩ := List.head?_eq_some_iff.1 h
    exact .inr (by rw [hcs]; rfl)

theorem withoutHost_chars {cs : List Char} (h : ∀ c ∈ cs, c ≠ '?' ∧ c ≠ '#') :
    ∀ c ∈ withoutHost cs, c ≠ '?' ∧ c ≠ '#' := by
  unfold withoutHost
  split
  · rename_i cs
    intro c hc
    simp only [List.cons_append, List.mem_cons, List.mem_append] at hc
    rcases hc with rfl | hc | hc
    · decide
    · have hescape : c = '%' ∨ c = '2' ∨ c = 'F' := by simpa using hc
      rcases hescape with rfl | rfl | rfl <;> decide
    · exact h c (by simp [hc])
  · exact h

theorem withoutHost_rooted {cs : List Char} (h : IsRooted cs) : IsRooted (withoutHost cs) := by
  unfold withoutHost
  split
  · exact .inr rfl
  · exact h

theorem isHostChar_apart {c : Char} (h : Host.isHostChar c = true) :
    (c ≠ '?' ∧ c ≠ '#') ∧ endsAuthority c = false ∧ isDropped c = false := by
  have hne (d : Char) (hd : Host.isHostChar d = false) : c ≠ d := by
    rintro rfl
    rw [h] at hd
    cases hd
  refine ⟨⟨hne '?' (by decide), hne '#' (by decide)⟩, ?_, ?_⟩
  · simp [endsAuthority, hne '/' (by decide), hne '?' (by decide), hne '#' (by decide)]
  · simp [isDropped, hne '\t' (by decide), hne '\n' (by decide), hne '\r' (by decide)]

theorem writtenMiddle_chars : ∀ c ∈ u.writtenMiddle, c ≠ '?' ∧ c ≠ '#' := by
  unfold writtenMiddle
  split_ifs with hhost
  · intro c hc
    simp only [List.mem_cons, List.mem_append] at hc
    rcases hc with rfl | rfl | hc | hc
    · decide
    · decide
    · exact (isHostChar_apart (Host.isHost_chars hhost c hc)).1
    · exact escapedPath_chars c hc
  · exact withoutHost_chars escapedPath_chars

theorem writtenMiddle_rooted (hu : u.IsSound) : IsRooted u.writtenMiddle := by
  unfold writtenMiddle
  split_ifs
  · exact .inr rfl
  · exact withoutHost_rooted (escapedPath_rooted hu.path)

theorem writtenScheme_isScheme (hu : u.IsSound) : IsScheme u.writtenScheme := by
  unfold writtenScheme
  split_ifs
  · exact hu.scheme
  · exact .inl rfl

theorem text_eq (hu : u.IsSound) (hq : IsQuery u.query.toList) : u.text =
    schemePart u.writtenScheme ++ (u.writtenMiddle ++ marked '?' u.query.toList) := by
  have hquery : Utf8.decode u.queryBytes = u.query.toList :=
    Utf8.decode_ascii fun c hc => by
      obtain ⟨-, hascii, -⟩ := hq c hc
      omega
  unfold text base writtenScheme writtenMiddle
  rw [hquery]
  by_cases hhost : Host.isHost u.host.toList = true
  · rw [if_pos hhost, if_pos hhost, if_pos hhost, rooted_eq (escapedPath_rooted hu.path)]
    by_cases hscheme : u.scheme = ""
    · simp [schemePart, hscheme]
    · simp [schemePart, hscheme]
  · rw [if_neg hhost, if_neg hhost, if_neg hhost]
    rfl

/-- The middle of the address as it is read: some characters of the path are no part of it. -/
def readMiddle (u : Url) : List Char := u.writtenMiddle.filter (!isDropped ·)

theorem filter_rooted {cs : List Char} (h : IsRooted cs) : IsRooted (cs.filter (!isDropped ·)) := by
  rcases h with rfl | h
  · exact .inl rfl
  · obtain ⟨rest, rfl⟩ := List.head?_eq_some_iff.1 h
    exact .inr rfl

theorem address_eq (hu : u.IsSound) (hq : IsQuery u.query.toList) {a : Address}
    (h : u.address = .ok a) : defect? a.authority = none ∧ a = {
      scheme := lowerAscii u.writtenScheme, authority := (takeAuthority u.readMiddle).1
      path := (takeAuthority u.readMiddle).2, query := u.query.toList, fragment := [] } := by
  have hkept : ∀ c ∈ u.query.toList, isDropped c = false :=
    fun c hc => isDropped_of_visible (hq c hc).1
  have hnumber : '#' ∉ u.query.toList := fun hmem => (hq _ hmem).2.2 rfl
  have hchars : ∀ c ∈ u.readMiddle, c ≠ '?' ∧ c ≠ '#' :=
    fun c hc => writtenMiddle_chars c (List.mem_filter.1 hc).1
  have hread := parts_spelled (writtenScheme_isScheme hu)
    (filter_rooted (writtenMiddle_rooted hu)) hchars hnumber
  rw [← ofText_spelled (writtenScheme_isScheme hu) (writtenMiddle_rooted hu) hkept,
    ← text_eq hu hq] at hread
  unfold address at h
  rw [hread] at h
  split at h
  · cases h
  · split at h
    · rename_i a' hparts
      cases h
      split at hparts
      · cases hparts
      · rename_i hsound
        cases hparts
        exact ⟨hsound, rfl⟩
    · cases h

theorem takeAuthority_ends (cs : List Char) :
    ∀ c ∈ (takeAuthority cs).1, endsAuthority c = false := by
  unfold takeAuthority
  split
  · intro c hc
    have hkept := List.mem_takeWhile_imp (p := (!endsAuthority ·)) hc
    simpa using hkept
  · simp

theorem takeAuthority_rooted {cs : List Char} (h : IsRooted cs)
    (hcs : ∀ c ∈ cs, c ≠ '?' ∧ c ≠ '#') :
    IsRooted (takeAuthority cs).2 := by
  unfold takeAuthority
  split
  · rename_i rest
    dsimp only
    cases hdrop : rest.dropWhile (!endsAuthority ·) with
    | nil => exact .inl rfl
    | cons c path =>
      have hmem : c ∈ rest.dropWhile (!endsAuthority ·) := by rw [hdrop]; exact List.mem_cons_self
      have hc := hcs c (by simp [(List.dropWhile_sublist _).subset hmem])
      have hends := List.head?_dropWhile_not (!endsAuthority ·) rest
      rw [hdrop] at hends
      have hslash : c = '/' := by simpa [endsAuthority, hc] using hends
      exact .inr (by rw [hslash]; rfl)
  · exact h

theorem toLower_scheme : ∀ n < 128, isSchemeChar (Char.ofNat n) = true →
    isSchemeChar (Char.ofNat n).toLower = true ∧
      (Char.ofNat n).toLower.toLower = (Char.ofNat n).toLower ∧
      ((Char.ofNat n).isAlpha = true → (Char.ofNat n).toLower.isAlpha = true) := by
  decide +kernel

theorem isSchemeChar_lt {c : Char} (h : isSchemeChar c = true) : c.toNat < 128 := by
  simp only [isSchemeChar, Char.isAlphanum, Char.isAlpha, Char.isUpper, Char.isLower, Char.isDigit,
    Bool.or_eq_true, Bool.and_eq_true, decide_eq_true_eq, beq_iff_eq, UInt32.le_iff_toNat_le,
    ge_iff_le] at h
  rcases h with ((h | rfl) | rfl) | rfl
  · have hc : c.toNat = c.val.toNat := rfl
    have hZ : 'Z'.val.toNat = 90 := rfl
    have hz : 'z'.val.toNat = 122 := rfl
    have h9 : '9'.val.toNat = 57 := rfl
    omega
  · decide
  · decide
  · decide

theorem toLower_isSchemeChar {c : Char} (h : isSchemeChar c = true) :
    isSchemeChar c.toLower = true ∧ c.toLower.toLower = c.toLower ∧
      (c.isAlpha = true → c.toLower.isAlpha = true) := by
  have hlower := toLower_scheme c.toNat (isSchemeChar_lt h)
  rw [Char.ofNat_toNat] at hlower
  exact hlower h

theorem lowerAscii_isScheme {cs : List Char} (h : IsScheme cs) :
    IsScheme (lowerAscii cs) ∧ lowerAscii (lowerAscii cs) = lowerAscii cs := by
  unfold lowerAscii
  rcases h with rfl | ⟨halpha, hchars⟩
  · exact ⟨.inl rfl, rfl⟩
  · refine ⟨.inr ⟨?_, ?_⟩, ?_⟩
    · cases cs with
      | nil => simp at halpha
      | cons c cs =>
        have hc := toLower_isSchemeChar (hchars c List.mem_cons_self)
        simpa using hc.2.2 (by simpa using halpha)
    · intro d hd
      obtain ⟨c, hc, rfl⟩ := List.mem_map.1 hd
      exact (toLower_isSchemeChar (hchars c hc)).1
    · rw [List.map_map]
      apply List.map_congr_left
      intro c hc
      exact (toLower_isSchemeChar (hchars c hc)).2.1

/-- With whatever query it is written, the address of a request is read as itself. -/
theorem isWritable (hu : u.IsSound) (hq : IsQuery u.query.toList) {a : Address}
    (h : u.address = .ok a) : a.IsWritable := by
  obtain ⟨hsound, rfl⟩ := address_eq hu hq h
  have hchars : ∀ c ∈ u.readMiddle, (c ≠ '?' ∧ c ≠ '#') ∧ isDropped c = false := by
    intro c hc
    obtain ⟨hmem, hkept⟩ := List.mem_filter.1 hc
    exact ⟨writtenMiddle_chars c hmem, by simpa using hkept⟩
  have hrooted : IsRooted u.readMiddle := filter_rooted (writtenMiddle_rooted hu)
  obtain ⟨hscheme, hlower⟩ := lowerAscii_isScheme (writtenScheme_isScheme hu)
  exact {
    scheme := hscheme
    lower := hlower
    authority := takeAuthority_ends _
    sound := hsound
    rooted := takeAuthority_rooted hrooted fun c hc => (hchars c hc).1
    path := fun c hc => (hchars c (takeAuthority_subset.2 hc)).1
    query := fun hmem => (hq _ hmem).2.2 rfl
    fragment := rfl
    kept := by
      intro c hc
      simp only [List.mem_append] at hc
      rcases hc with (hc | hc) | hc
      · exact (hchars c (takeAuthority_subset.1 hc)).2
      · exact (hchars c (takeAuthority_subset.2 hc)).2
      · exact isDropped_of_visible (hq c hc).1 }

/-- Where the host is one, the address has its scheme, itself and its path. -/
theorem address_of_host (hu : u.IsSound) (hq : IsQuery u.query.toList)
    (hhost : Host.isHost u.host.toList = true) {a : Address} (h : u.address = .ok a) :
    a.scheme = lowerAscii u.scheme.toList ∧ a.authority = u.host.toList ∧
      a.path = u.escapedPath.filter (!isDropped ·) := by
  have hchars := fun c hc => isHostChar_apart (Host.isHost_chars hhost c hc)
  have hkept : u.host.toList.filter (!isDropped ·) = u.host.toList := by
    rw [List.filter_eq_self]
    intro c hc
    simp [(hchars c hc).2.2]
  have hmiddle : u.readMiddle =
      '/' :: '/' :: (u.host.toList ++ u.escapedPath.filter (!isDropped ·)) := by
    unfold readMiddle writtenMiddle
    rw [if_pos hhost, List.filter_cons_of_pos (by decide), List.filter_cons_of_pos (by decide),
      List.filter_append, hkept]
  have hpair : takeAuthority u.readMiddle =
      (u.host.toList, u.escapedPath.filter (!isDropped ·)) := by
    rw [hmiddle]
    exact takeAuthority_pair (fun c hc => (hchars c hc).2.1)
      (filter_rooted (escapedPath_rooted hu.path))
  obtain ⟨-, rfl⟩ := address_eq hu hq h
  refine ⟨?_, congrArg (·.1) hpair, congrArg (·.2) hpair⟩
  unfold writtenScheme
  rw [if_pos hhost]

end Listing.Url
