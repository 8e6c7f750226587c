import Listing.Envelope
import Listing.Proofs.Addresses
import Listing.Proofs.Number.Decimals
import Listing.Proofs.RequestReading

set_option autoImplicit false

namespace Listing

/-! ## Parameters without page and page size -/

namespace Params

variable {params : Params} {key : String} {value : Value}

def isOther (key : String) : Bool := key != "page" && key != "limit"

def others (params : Params) : Params := params.filter fun e => isOther e.1

theorem lookup?_others (h : isOther key = true) :
    params.others.lookup? key = params.lookup? key := by
  unfold Entries.lookup? others
  rw [List.find?_filter]
  congr 2
  funext e
  by_cases he : e.1 = key
  · simp [he, h]
  · simp [he]

theorem get_others (h : isOther key = true) : params.others.get key = params.get key := by
  unfold get
  rw [lookup?_others h]

theorem lookup?_others_none (h : isOther key = false) : params.others.lookup? key = none := by
  unfold Entries.lookup? others
  rw [List.find?_filter, Option.map_eq_none_iff, List.find?_eq_none]
  intro e he
  by_cases hkey : e.1 = key
  · simp [hkey, h]
  · simp [hkey]

theorem any_others (h : isOther key = true) :
    params.others.any (·.1 == key) = params.any (·.1 == key) := by
  unfold others
  rw [List.any_filter]
  congr 1
  funext e
  by_cases he : e.1 = key
  · simp [he, h]
  · simp [he]

theorem others_append (params params' : Params) :
    (params ++ params').others = params.others ++ params'.others := List.filter_append ..

theorem others_others (params : Params) : params.others.others = params.others := by
  simp [others]

theorem others_set (key : String) (value : Value) (params : Params) :
    Params.others (params.map fun e => if e.1 == key then (e.1, value) else e) =
      params.others.map fun e => if e.1 == key then (e.1, value) else e := by
  unfold others
  rw [List.filter_map]
  congr 2
  funext e
  by_cases he : e.1 = key <;> simp [he]

theorem others_insert (h : isOther key = true) :
    others (params.insert key value) = params.others.insert key value := by
  unfold Entries.insert
  rw [any_others h]
  split_ifs
  · exact others_set key value params
  · rw [others_append]
    simp [others, h]

theorem others_insert_page (h : isOther key = false) :
    others (params.insert key value) = params.others := by
  have hne : ∀ e ∈ params.others, (e.1 == key) = false := by
    intro e he
    have hother := (List.mem_filter.1 he).2
    rw [beq_eq_false_iff_ne]
    rintro rfl
    rw [h] at hother
    cases hother
  unfold Entries.insert
  split_ifs
  · rw [others_set]
    exact (List.map_congr_left fun e he => by simp [hne e he]).trans (List.map_id _)
  · rw [others_append]
    simp [others, h]

theorem others_add {f : String × String} (h : isOther f.1 = true) :
    (params.add f).others = params.others.add f := by
  unfold add
  rw [lookup?_others h]
  split
  · exact others_insert h
  · rw [others_append]
    simp [others, h]

theorem others_add_page {f : String × String} (h : isOther f.1 = false) :
    (params.add f).others = params.others := by
  unfold add
  split
  · exact others_insert_page h
  · rw [others_append]
    simp [others, h]

theorem others_ofFields (fs : List (String × String)) :
    (ofFields fs).others = ofFields (fs.filter fun f => isOther f.1) := by
  have hfold : ∀ params : Params, (fs.foldl add params).others =
      (fs.filter fun f => isOther f.1).foldl add params.others := by
    induction fs with
    | nil => exact fun params => rfl
    | cons f fs ih =>
      intro params
      rw [List.foldl_cons, ih, List.filter_cons]
      cases hother : isOther f.1 with
      | true => rw [others_add hother, if_pos rfl, List.foldl_cons]
      | false => rw [others_add_page hother, if_neg (by decide)]
  exact hfold []

theorem ofFields_page (fs : List (String × String)) (page limit : String) :
    Params.ofFields ((fs.filter fun f => isOther f.1) ++ [("page", page), ("limit", limit)]) =
      (ofFields fs).others ++ [("page", Value.text page), ("limit", Value.text limit)] := by
  have hpage : (ofFields fs).others.lookup? "page" = none := lookup?_others_none (by decide)
  have hlimit : (ofFields fs).others.lookup? "limit" = none := lookup?_others_none (by decide)
  have hadd {params : Params} {key text : String} (h : params.lookup? key = none) :
      params.add (key, text) = params ++ [(key, .text text)] := by
    unfold add
    rw [h]
  have hlast : ((ofFields fs).others ++ [("page", Value.text page)]).lookup? "limit" = none := by
    rw [Entries.lookup?_append, hlimit]
    rfl
  have hsplit : ofFields ((fs.filter fun f => isOther f.1) ++ [("page", page), ("limit", limit)]) =
      ((ofFields (fs.filter fun f => isOther f.1)).add ("page", page)).add ("limit", limit) :=
    List.foldl_append
  rw [hsplit, ← others_ofFields, hadd hpage, hadd hlast, List.append_assoc]
  rfl

end Params

/-! ## Reading without page and page size -/

namespace ListRequest

open Params

variable {params : Params}

theorem foldl_others {β : Type} {f : β → String × Value → β}
    (h : ∀ b e, isOther e.1 = false → f b e = b) (params : Params) (b : β) :
    params.others.foldl f b = params.foldl f b := by
  induction params generalizing b with
  | nil => rfl
  | cons e params ih =>
    cases hother : isOther e.1 with
    | true =>
      have hcons : others (e :: params) = e :: others params := by simp [others, hother]
      rw [hcons, List.foldl_cons, List.foldl_cons, ih]
    | false =>
      have hcons : others (e :: params) = others params := by simp [others, hother]
      rw [hcons, List.foldl_cons, h b e hother, ih]

theorem page_or_limit {key : String} (h : isOther key = false) : key = "page" ∨ key = "limit" := by
  simp only [isOther, Bool.and_eq_false_iff, bne_eq_false_iff_eq] at h
  exact h

theorem columnSearchOf_others : columnSearchOf params.others = columnSearchOf params := by
  unfold columnSearchOf
  rw [get_others (by decide)]
  split
  · rfl
  · apply foldl_others
    intro terms e he
    rcases page_or_limit he with hkey | hkey <;> rw [hkey] <;> rfl

theorem filtersOf_others : filtersOf params.others = filtersOf params := by
  unfold filtersOf
  apply foldl_others
  intro filters e he
  unfold addFilter
  rcases page_or_limit he with hkey | hkey
  · rw [hkey]
    rfl
  · rw [hkey]
    rfl

theorem firstOf_others {key other : String} (hkey : isOther key = true)
    (hother : isOther other = true) :
    firstOf params.others key other = firstOf params key other := by
  unfold firstOf
  rw [lookup?_others hkey, get_others hother]

/-- Apart from page and page size a request depends on the other parameters only. -/
theorem readAs_others (c : Config) (params : Params) (page limit : Int) :
    readAs c params.others page limit = readAs c params page limit := by
  unfold readAs
  rw [get_others (by decide), get_others (by decide), columnSearchOf_others, filtersOf_others,
    firstOf_others (by decide) (by decide), firstOf_others (by decide) (by decide)]

end ListRequest

/-! ## Written integers -/

namespace Numeral

open Text

theorem digitValue?_isDigit {c : Char} (h : c.isDigit = true) :
    digitValue? c = some (c.toNat - 0x30) := by
  have hascii : c.toNat < 0x80 := by
    simp only [Char.isDigit, Bool.and_eq_true, decide_eq_true_eq] at h
    have hnine : c.toNat ≤ 57 := h.2
    omega
  unfold digitValue?
  rw [if_pos hascii, if_pos h]

theorem run_digits {cs : List Char} (hne : cs ≠ []) (h : ∀ c ∈ cs, c.isDigit = true) :
    Run digitValue? cs (cs.map fun c => c.toNat - 0x30) := by
  induction cs with
  | nil => exact absurd rfl hne
  | cons c cs ih =>
    have hc := digitValue?_isDigit (h c List.mem_cons_self)
    cases cs with
    | nil => exact .last hc
    | cons d cs => exact .digit hc (ih (by simp) fun e he => h e (List.mem_cons_of_mem c he))

theorem readInteger?_run {cs : List Char} {ds : List Nat} (h : Run digitValue? cs ds)
    (hlength : ds.length ≤ maxIntegerDigits) : readInteger? cs = some (valueOfDigits ds : Int) := by
  have hne : cs ≠ [] := by
    obtain ⟨c, d, cs, ds, rfl, -, -⟩ := h.head
    simp
  have htrim : trimBy isNumeralBlank cs = cs := by
    simpa using trimBy_around (List.forall_mem_nil _) (List.forall_mem_nil _) hne
      (h.not_blank digit_not_blank)
  have hsign : takeSign cs = (false, cs) := takeSign_sign .none h.begins
  have htake : takeDigits cs = (ds, []) := by
    simpa using takeDigits_run h stops_nil
  obtain ⟨-, d, -, ds, -, rfl, -⟩ := h.head
  unfold readInteger?
  rw [htrim, hsign]
  simp only [htake, if_pos hlength]
  rfl

theorem readInteger?_digits {n : Nat} (h : n < 10 ^ maxIntegerDigits) :
    readInteger? (digits n) = some (n : Int) := by
  have hdigits : ∀ c ∈ digits n, c.isDigit = true :=
    fun c hc => Nat.isDigit_of_mem_toDigits (by decide) (by decide) hc
  have hvalue : valueOfDigits ((digits n).map fun c => c.toNat - 0x30) = n := by
    unfold valueOfDigits
    rw [List.foldl_map]
    exact Nat.ofDigitChars_toDigits (by decide) (by decide)
  have hlength : (digits n).length ≤ maxIntegerDigits :=
    (Nat.length_toDigits_le_iff (by decide) (by decide)).2 h
  have hne : digits n ≠ [] := Nat.toDigits_ne_nil
  have hrun := run_digits hne hdigits
  rw [readInteger?_run hrun (by simpa using hlength), hvalue]

end Numeral

namespace ListRequest

open Params Text

theorem isBlank_isDigit {c : Char} (h : c.isDigit = true) : isBlank c = false := by
  simp only [Char.isDigit, Bool.and_eq_true, decide_eq_true_eq] at h
  have hzero : 48 ≤ c.toNat := h.1
  have hnine : c.toNat ≤ 57 := h.2
  rw [← Bool.not_eq_true]
  simp only [isBlank, Bool.and_eq_true, Bool.or_eq_true, decide_eq_true_eq, beq_iff_eq]
  omega

theorem integerOf?_toString {n : Int} (hn : 0 ≤ n) (h : n < 10 ^ Numeral.maxIntegerDigits) :
    integerOf? (.text (toString n)) = some n := by
  obtain ⟨m, rfl⟩ := Int.eq_ofNat_of_zero_le hn
  have hm : m < 10 ^ Numeral.maxIntegerDigits := by exact_mod_cast h
  have htext : (toString (m : Int)).toList = digits m := by
    change (toString m).toList = _
    rw [Nat.toString_eq_ofList_toDigits, String.toList_ofList]
    rfl
  have htrim : trim (digits m) = digits m := by
    have hblank : ∀ c ∈ digits m, isBlank c = false :=
      fun c hc => isBlank_isDigit (Nat.isDigit_of_mem_toDigits (by decide) (by decide) hc)
    have hne : digits m ≠ [] := Nat.toDigits_ne_nil
    unfold trim
    simpa using Numeral.trimBy_around (List.forall_mem_nil _) (List.forall_mem_nil _) hne hblank
  change integerOfText? (trim (toString (m : Int)).toList) = _
  rw [htext, htrim, integerOfText?, Numeral.readInteger?_digits hm]

theorem quantityOr_text {default : Quantity} {s : String} {n : Int}
    (h : integerOf? (.text s) = some n) : quantityOr default (Value.last (.text s)) = .whole n := by
  change (integerOf? (.text s)).elim default .whole = _
  rw [h]
  rfl

/-- With another page and page size behind them, parameters are read as the same request for that
page. -/
theorem ofParams_page {c : Config} {least most first page limit : Int}
    (hl : c.HasLimits least most first) (params : Params) (hpage : 1 ≤ page)
    (hpage' : page < 10 ^ Numeral.maxIntegerDigits) (hleast : least ≤ limit) (hmost : limit ≤ most)
    (hlimit : limit < 10 ^ Numeral.maxIntegerDigits) :
    ofParams c (params.others ++
      [("page", .text (toString page)), ("limit", .text (toString limit))]) =
        .ok (readAs c params page limit) := by
  have hone := hl.one_le
  generalize hparams : params.others ++ [("page", Value.text (toString page)),
    ("limit", Value.text (toString limit))] = linked
  have hothers : linked.others = params.others := by
    rw [← hparams, others_append, others_others]
    simp [others, isOther]
  have hpageText : linked.get "page" = .text (toString page) := by
    rw [← hparams, Params.get, Entries.lookup?_append, lookup?_others_none (by decide)]
    rfl
  have hlimitText : linked.get "limit" = .text (toString limit) := by
    rw [← hparams, Params.get, Entries.lookup?_append, lookup?_others_none (by decide)]
    rfl
  have hpageRead : quantityOr c.defaultPage (linked.get "page").last = .whole page := by
    rw [hpageText]
    exact quantityOr_text (integerOf?_toString (by omega) hpage')
  have hlimitRead : quantityOr c.defaultPerPage (linked.get "limit").last = .whole limit := by
    rw [hlimitText]
    exact quantityOr_text (integerOf?_toString (by omega) hlimit)
  have hread : ofParams c linked = .ok (readAs c linked page limit) := by
    apply ofParams_eq
    · rw [hpageRead, Config.boundPage_whole hpage]
      rfl
    · rw [hlimitRead, hl.boundPerPage_whole hleast hmost]
      rfl
    · exact hpage
    · omega
  rw [hread, ← readAs_others, hothers, readAs_others]

end ListRequest

/-! ## Links -/

open Outcome

namespace PageFacts

variable {α : Type} {p : Page α} {address : Option Url.Address}

theorem wordOf_int_iff {n : Int} {word : String} : wordOf (.int n) = .ok word ↔
    n.natAbs < 10 ^ Numeral.maxIntegerDigits ∧ word = toString n := by
  unfold wordOf
  dsimp only
  rw [Nat.pow_eq]
  split_ifs with hn
  · simp [hn, eq_comm]
  · simp [hn]

theorem link_address_iff {a : Url.Address} {perPage page : Int} {l : PageLink} :
    link (some a) (.int perPage) (.int page) = .ok l ↔
      page.natAbs < 10 ^ Numeral.maxIntegerDigits ∧
        perPage.natAbs < 10 ^ Numeral.maxIntegerDigits ∧
        l = .address (a.withPage (toString page) (toString perPage)) := by
  constructor
  · intro h
    obtain ⟨number, hnumber, h⟩ := bind_eq_ok_iff.1 h
    obtain ⟨size, hsize, h⟩ := bind_eq_ok_iff.1 h
    cases h
    obtain ⟨hpage, rfl⟩ := wordOf_int_iff.1 hnumber
    obtain ⟨hperPage, rfl⟩ := wordOf_int_iff.1 hsize
    exact ⟨hpage, hperPage, rfl⟩
  · rintro ⟨hpage, hperPage, rfl⟩
    exact bind_eq_ok_iff.2 ⟨_, wordOf_int_iff.2 ⟨hpage, rfl⟩,
      bind_eq_ok_iff.2 ⟨_, wordOf_int_iff.2 ⟨hperPage, rfl⟩, rfl⟩⟩

theorem linkBy_ok {pages : Int} {b : Bool} {l : Option PageLink}
    (h : linkBy address (.ofPage p) pages b = .ok l) : l.isSome = b ∧ ∀ link, l = some link →
      PageFacts.link address (.int p.perPage) (.int (p.currentPage + pages)) = .ok link := by
  cases b with
  | false =>
    cases h
    exact ⟨rfl, nofun⟩
  | true =>
    obtain ⟨link, hlink, rfl⟩ := map_eq_ok_iff.1 h
    refine ⟨rfl, fun link' hlink' => ?_⟩
    cases hlink'
    exact hlink

theorem exists_linkBy {pages : Int} {l : PageLink} (h : PageFacts.link address (.int p.perPage)
    (.int (p.currentPage + pages)) = .ok l) (b : Bool) :
    ∃ l, linkBy address (.ofPage p) pages b = .ok l := by
  cases b with
  | false => exact ⟨_, rfl⟩
  | true => exact ⟨_, map_eq_ok_iff.2 ⟨l, h, rfl⟩⟩

end PageFacts

inductive LeadsTo {α : Type} (p : Page α) (links : Links) : PageLink → Int → Prop
  | first : LeadsTo p links links.first 1
  | last : LeadsTo p links links.last p.lastPage
  | prev {link : PageLink} : links.prev = some link → LeadsTo p links link (p.currentPage - 1)
  | next {link : PageLink} : links.next = some link → LeadsTo p links link (p.currentPage + 1)

theorem ofPage_ok {α : Type} {url : Option Url} {p : Page α} {e : RichEnvelope α}
    (h : RichEnvelope.ofPage url p = .ok e) : ∃ address, PageFacts.address url = .ok address ∧
      (e.links.prev.isSome ↔ 1 < p.currentPage) ∧
      (e.links.next.isSome ↔ p.currentPage < p.lastPage) ∧
      ∀ link n, LeadsTo p e.links link n →
        PageFacts.link address (.int p.perPage) (.int n) = .ok link := by
  rw [RichEnvelope.ofPage_eq] at h
  obtain ⟨links, hlinks, rfl⟩ := map_eq_ok_iff.1 h
  rw [PageFacts.links_ofPage] at hlinks
  obtain ⟨address, haddress, hlinks⟩ := bind_eq_ok_iff.1 hlinks
  obtain ⟨first, hfirst, hlinks⟩ := bind_eq_ok_iff.1 hlinks
  obtain ⟨last, hlast, hlinks⟩ := bind_eq_ok_iff.1 hlinks
  obtain ⟨prev, hprev, hlinks⟩ := bind_eq_ok_iff.1 hlinks
  obtain ⟨next, hnext, hlinks⟩ := bind_eq_ok_iff.1 hlinks
  cases hlinks
  obtain ⟨hprevious, hprev⟩ := PageFacts.linkBy_ok hprev
  obtain ⟨hfollowing, hnext⟩ := PageFacts.linkBy_ok hnext
  refine ⟨address, haddress, ?_, ?_, fun link n hlink => ?_⟩
  · rw [hprevious, decide_eq_true_eq]
  · rw [hfollowing, decide_eq_true_eq]
  · cases hlink with
    | first => exact hfirst
    | last => exact hlast
    | prev hlink => exact hprev link hlink
    | next hlink => exact hnext link hlink

theorem ofPage_address {α : Type} {u : Url} {p : Page α} {e : RichEnvelope α} {link : PageLink}
    {n : Int} (h : RichEnvelope.ofPage (some u) p = .ok e) (hlink : LeadsTo p e.links link n) :
    ∃ a, u.address = .ok a ∧ n.natAbs < 10 ^ Numeral.maxIntegerDigits ∧
      p.perPage.natAbs < 10 ^ Numeral.maxIntegerDigits ∧
      link = .address (a.withPage (toString n) (toString p.perPage)) := by
  obtain ⟨address, haddress, -, -, hlinks⟩ := ofPage_ok h
  obtain ⟨a, ha, rfl⟩ := map_eq_ok_iff.1 haddress
  exact ⟨a, ha, PageFacts.link_address_iff.1 (hlinks link n hlink)⟩

theorem exists_ofPage {α : Type} {u : Url} {a : Url.Address} (ha : u.address = .ok a) {p : Page α}
    (hnumbers : ∀ n ∈ [1, p.lastPage, p.currentPage + -1, p.currentPage + 1, p.perPage],
      n.natAbs < 10 ^ Numeral.maxIntegerDigits) :
    ∃ e, RichEnvelope.ofPage (some u) p = .ok e := by
  have haddress : PageFacts.address (some u) = .ok (some a) := map_eq_ok_iff.2 ⟨a, ha, rfl⟩
  simp only [List.forall_mem_cons] at hnumbers
  obtain ⟨hone, hlast, hprev, hnext, hsize, -⟩ := hnumbers
  have hlink {n : Int} (hn : n.natAbs < 10 ^ Numeral.maxIntegerDigits) :=
    PageFacts.link_address_iff (a := a).2 ⟨hn, hsize, rfl⟩
  obtain ⟨prev, hprev⟩ := PageFacts.exists_linkBy (hlink hprev) (decide (1 < p.currentPage))
  obtain ⟨next, hnext⟩ := PageFacts.exists_linkBy (hlink hnext)
    (decide (p.currentPage < p.lastPage))
  obtain ⟨links, hlinks⟩ : ∃ links, PageFacts.links (some u) (.ofPage p) = .ok links := by
    rw [PageFacts.links_ofPage, haddress, ok_bind, hlink hone, ok_bind, hlink hlast, ok_bind,
      hprev, ok_bind, hnext, ok_bind]
    exact ⟨_, rfl⟩
  exact ⟨_, (RichEnvelope.ofPage_eq _ _).trans (map_eq_ok_iff.2 ⟨_, hlinks, rfl⟩)⟩

/-- Every link to a page keeps scheme, host and path of the address of the request, and its
parameters are read as the same request for that page. -/
theorem links_keep_request {c : Config} (hwhole : c.IsWhole) {u : Url} (hu : u.IsSound)
    (hq : Url.IsQuery u.query.toList) {α : Type} {p : Page α} {e : RichEnvelope α}
    (he : RichEnvelope.ofPage (some u) p = .ok e) {link : PageLink} {n : Int}
    (hlink : LeadsTo p e.links link n) (hn : 1 ≤ n)
    (hmin : (Quantity.whole p.perPage).less c.minPerPage = false)
    (hmax : c.maxPerPage.less (.whole p.perPage) = false) :
    ∃ text a b r, link = .address text ∧ u.address = .ok a ∧
      Url.Address.ofText text.toList = .ok b ∧
      b.scheme = a.scheme ∧ b.authority = a.authority ∧ b.path = a.path ∧
      (Url.Host.isHost u.host.toList = true → a.scheme = Text.lowerAscii u.scheme.toList ∧
        a.authority = u.host.toList ∧
        a.path = u.escapedPath.filter (!Url.Address.isDropped ·)) ∧
      ListRequest.ofParams c (Params.ofQuery u.query) = .ok r ∧
      ListRequest.ofParams c (Params.ofQuery (String.ofList b.query)) =
        .ok { r with page := n, limit := p.perPage } := by
  obtain ⟨least, most, first, hl⟩ := hwhole.hasLimits
  rw [Quantity.less_of_int? rfl hl.minPerPage, decide_eq_false_iff_not] at hmin
  rw [Quantity.less_of_int? hl.maxPerPage rfl, decide_eq_false_iff_not] at hmax
  obtain ⟨a, ha, hn', hlimit, hwritten⟩ := ofPage_address he hlink
  obtain ⟨page, limit, hread, -⟩ :=
    ListRequest.ofParams_within hl hwhole (Params.ofQuery u.query)
  have hwritable := Url.isWritable hu hq ha
  have hquery : a.query = u.query.toList := by
    obtain ⟨-, rfl⟩ := Url.address_eq hu hq ha
    rfl
  have hfields : UrlEncoded.fields a.query = UrlEncoded.fields u.query.toList := by rw [hquery]
  have hparams : Params.ofQuery (String.ofList
      (UrlEncoded.render (a.fieldsFor (toString n) (toString p.perPage)))) =
        (Params.ofQuery u.query).others ++
          [("page", .text (toString n)), ("limit", .text (toString p.perPage))] := by
    rw [Params.ofQuery, String.toList_ofList, UrlEncoded.fields_render]
    unfold Url.Address.fieldsFor Url.Address.fields
    rw [hfields]
    exact Params.ofFields_page _ _ _
  refine ⟨_, a, _, _, hwritten, ha, Url.Address.ofText_withPage hwritable _ _, rfl, rfl,
    rfl, fun hhost => Url.address_of_host hu hq hhost ha, hread, ?_⟩
  have hbound {k : Int} (hk : k.natAbs < 10 ^ Numeral.maxIntegerDigits) :
      k < 10 ^ Numeral.maxIntegerDigits := Int.le_natAbs.trans_lt (by exact_mod_cast hk)
  rw [hparams, ListRequest.ofParams_page hl _ hn (hbound hn') (by omega) (by omega)
    (hbound hlimit)]
  rfl

def heroesUrl : Url where
  scheme := "http"
  host := "example.com:8000"
  path := "/heroes"
  query := "name=a%20b&page=2&name=c+d&age[gte]=%zz&with=team,"

def secondOfFour : Page Nat where
  data := [1, 2]
  currentPage := 2
  perPage := 2
  total := 7
  lastPage := 4

/-- The link to the next page of a request. -/
theorem links_keep_request_heroes : ∃ e link, ((Config.ofArguments .config [] = .ok {} ∧
      Config.IsWhole {} ∧ heroesUrl.IsSound ∧ Url.IsQuery heroesUrl.query.toList) ∧
      RichEnvelope.ofPage (some heroesUrl) secondOfFour = .ok e ∧
      LeadsTo secondOfFour e.links link 3) ∧
    ∃ text a b r, link = .address text ∧ heroesUrl.address = .ok a ∧
      Url.Address.ofText text.toList = .ok b ∧
      b.scheme = a.scheme ∧ b.authority = a.authority ∧ b.path = a.path ∧
      (Url.Host.isHost heroesUrl.host.toList = true →
        a.scheme = Text.lowerAscii heroesUrl.scheme.toList ∧
        a.authority = heroesUrl.host.toList ∧
        a.path = heroesUrl.escapedPath.filter (!Url.Address.isDropped ·)) ∧
      ListRequest.ofParams {} (Params.ofQuery heroesUrl.query) = .ok r ∧
      ListRequest.ofParams {} (Params.ofQuery (String.ofList b.query)) =
        .ok { r with page := 3, limit := 2 } := by
  have hc : Config.ofArguments .config [] = .ok {} := by rfl
  have hwhole : Config.IsWhole {} := ⟨rfl, rfl, rfl, rfl⟩
  have hu : heroesUrl.IsSound :=
    ⟨.inr ⟨by decide, List.all_eq_true.1 (by decide)⟩, .inr rfl⟩
  have hvisible : heroesUrl.query.toList.all
      (fun c => 0x21 ≤ c.toNat && c.toNat ≤ 0x7E && c != '#') = true := by decide
  have hq : Url.IsQuery heroesUrl.query.toList := by
    intro c hc
    simpa [and_assoc] using List.all_eq_true.1 hvisible c hc
  obtain ⟨a, ha⟩ : ∃ a, heroesUrl.address = .ok a := ⟨_, rfl⟩
  have hsmall {n : Nat} (h : n < 10) : n < 10 ^ Numeral.maxIntegerDigits :=
    h.trans_le (le_self_pow₀ (by decide) (by decide))
  obtain ⟨e, he⟩ := exists_ofPage ha (p := secondOfFour) (by
    intro n hn
    have hall : ∀ n ∈ [1, 4, (2 : Int) + -1, 2 + 1, 2], n.natAbs < 10 := by decide
    exact hsmall (hall n hn))
  obtain ⟨_, -, -, hnext, -⟩ := ofPage_ok he
  obtain ⟨link, hlink⟩ := Option.isSome_iff_exists.1 (hnext.2 (by decide))
  have hthird : LeadsTo secondOfFour e.links link 3 := .next hlink
  exact ⟨e, link, ⟨⟨hc, hwhole, hu, hq⟩, he, hthird⟩, links_keep_request hwhole hu hq he hthird
    (by decide) (by decide) (by decide)⟩

end Listing
