import Listing.Quantity
import Listing.Words
set_option autoImplicit false

namespace Listing

/-- Settings whose limits fit together. -/
structure Config where
  maxPerPage : Quantity := .whole 100
  defaultPerPage : Quantity := .whole 10
  defaultPage : Quantity := .whole 1
  minPerPage : Quantity := .whole 1
  defaultSortOrder : SortOrder := .desc
  envelope : EnvelopeShape := .simple
  useWindowFunction : Value := .null
  maxPerPage_pos : maxPerPage.less (.whole 1) = false := by decide
  defaultPerPage_pos : defaultPerPage.less (.whole 1) = false := by decide
  defaultPerPage_le : maxPerPage.less defaultPerPage = false := by decide
  minPerPage_pos : minPerPage.less (.whole 1) = false := by decide
  minPerPage_le : maxPerPage.less minPerPage = false := by decide
  defaultPage_pos : defaultPage.less (.whole 1) = false := by decide

namespace Config

def default : Config := {}

def settingNames : List String :=
  ["max_per_page", "default_per_page", "default_page", "min_per_page", "default_sort_order",
    "envelope", "use_window_function"]

def atLeastOne (setting : String) (v : Value) :
    Outcome { q : Quantity // q.less (.whole 1) = false } :=
  match Quantity.ofValue? v with
  | none => .error (.incomparable v.kind .int)
  | some q => if h : q.less (.whole 1) then .error (.belowOne setting)
      else .ok ⟨q, Bool.eq_false_iff.2 h⟩

def atMost (setting limit : String) (q max : Quantity) : Outcome (PLift (max.less q = false)) :=
  if h : max.less q then .error (.exceeds setting limit) else .ok ⟨Bool.eq_false_iff.2 h⟩

/-- Accept settings given by name; the others have their defaults. The first rule that is broken
is reported. -/
def ofArguments (callable : Callable) (args : List (String × Value)) : Outcome Config :=
  match args.find? (!settingNames.contains ·.1) with
  | some (name, _) => .error (.unexpectedArgument callable name)
  | none => do
    let arg (name : String) (default : Value) : Value :=
      (Entries.lookup? args name).getD default
    let ⟨max, max_pos⟩ ← atLeastOne "max_per_page" (arg "max_per_page" (.int 100))
    let ⟨perPage, perPage_pos⟩ ← atLeastOne "default_per_page" (arg "default_per_page" (.int 10))
    let ⟨perPage_le⟩ ← atMost "default_per_page" "max_per_page" perPage max
    let ⟨min, min_pos⟩ ← atLeastOne "min_per_page" (arg "min_per_page" (.int 1))
    let ⟨min_le⟩ ← atMost "min_per_page" "max_per_page" min max
    let ⟨page, page_pos⟩ ← atLeastOne "default_page" (arg "default_page" (.int 1))
    let order ← SortOrder.ofValue (arg "default_sort_order" (.text "desc"))
    let shape ← EnvelopeShape.ofValue (arg "envelope" (.text "pagination"))
    .ok { maxPerPage := max, defaultPerPage := perPage, defaultPage := page, minPerPage := min,
          defaultSortOrder := order, envelope := shape,
          useWindowFunction := arg "use_window_function" .null,
          maxPerPage_pos := max_pos, defaultPerPage_pos := perPage_pos,
          defaultPerPage_le := perPage_le, minPerPage_pos := min_pos,
          minPerPage_le := min_le, defaultPage_pos := page_pos }

def boundPage (c : Config) (page : Quantity) : Quantity :=
  if page.less (.whole 1) then c.defaultPage else page

def boundPerPage (c : Config) (perPage : Quantity) : Quantity :=
  if perPage.less c.minPerPage then c.minPerPage
  else if c.maxPerPage.less perPage then c.maxPerPage
  else perPage

def boundPageValue (c : Config) (v : Value) : Outcome Value :=
  match Quantity.ofValue? v with
  | some q => .ok (c.boundPage q).toValue
  | none => .error (.incomparable v.kind .int)

def boundPerPageValue (c : Config) (v : Value) : Outcome Value :=
  match Quantity.ofValue? v with
  | some q => .ok (c.boundPerPage q).toValue
  | none => .error (.incomparable v.kind c.minPerPage.kind)

inductive Preset where
  | default
  | metaEnvelope
  | highVolume
deriving DecidableEq, Repr

namespace Preset

def callable : Preset → Callable
  | default => .presetDefault
  | metaEnvelope => .presetMeta
  | highVolume => .presetHighVolume

/-- The settings a preset lets its caller change, with the preset's own values. -/
def settings : Preset → List (String × Value)
  | default => []
  | metaEnvelope => [("default_per_page", .int 15)]
  | highVolume => [("max_per_page", .int 500), ("default_per_page", .int 100)]

def fixed : Preset → List (String × Value)
  | metaEnvelope => [("envelope", .text EnvelopeShape.rich.word)]
  | _ => []

def ofName? (name : String) : Option Preset :=
  match name with
  | "default" => some default
  | "meta_envelope" => some metaEnvelope
  | "high_volume" => some highVolume
  | _ => none

end Preset

def ofPreset (p : Preset) (args : List (String × Value)) : Outcome Config :=
  match args.find? fun a => !(p.settings.any (·.1 == a.1)) with
  | some (name, _) => .error (.unexpectedArgument p.callable name)
  | none =>
    ofArguments .config (p.fixed ++ p.settings.map fun s =>
      (s.1, (Entries.lookup? args s.1).getD s.2))

def toArguments (c : Config) : List (String × Value) :=
  [("max_per_page", c.maxPerPage.toValue), ("default_per_page", c.defaultPerPage.toValue),
    ("default_page", c.defaultPage.toValue), ("min_per_page", c.minPerPage.toValue),
    ("default_sort_order", .text c.defaultSortOrder.word),
    ("envelope", .text c.envelope.word), ("use_window_function", c.useWindowFunction)]

end Config
end Listing
