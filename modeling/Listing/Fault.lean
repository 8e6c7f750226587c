import Listing.Text.Utf8
import Listing.Url.Address
import Listing.Value.Text
set_option autoImplicit false

/-!
# Faults

Everything that can go wrong, by cause. Each fault belongs to one class and has one message;
faults of a database and of record validation have a class, or details, and no message.
-/

namespace Listing

inductive Step where
  | field (name : String)
  | item (index : Int)
deriving DecidableEq, Repr

inductive Flaw where
  | intType
  | intParsing
  | intParsingSize
  | intFromFloat
  | notFinite
  | tooSmall
  | textType
  | mapType
  | listType
  | notAMember
  | frozen
deriving DecidableEq, Repr

def Flaw.name : Flaw → String
  | intType => "int_type"
  | intParsing => "int_parsing"
  | intParsingSize => "int_parsing_size"
  | intFromFloat => "int_from_float"
  | notFinite => "finite_number"
  | tooSmall => "greater_than_equal"
  | textType => "string_type"
  | mapType => "dict_type"
  | listType => "list_type"
  | notAMember => "enum"
  | frozen => "frozen_instance"

structure Detail where
  place : List Step
  flaw : Flaw
deriving DecidableEq, Repr

inductive Callable where
  | config
  | policy
  | join
  | presetDefault
  | presetMeta
  | presetHighVolume
deriving DecidableEq, Repr

def Callable.name : Callable → String
  | config => "ListQueryConfig.__init__"
  | policy => "FieldPolicy.__init__"
  | join => "RelationJoin.__init__"
  | presetDefault => "ListQueryPresets.default"
  | presetMeta => "ListQueryPresets.meta_envelope"
  | presetHighVolume => "ListQueryPresets.high_volume"

inductive Vocabulary where
  | sortingOrder
  | envelopeShape
  | aggregateKind
  | filterOperator
deriving DecidableEq, Repr

def Vocabulary.name : Vocabulary → String
  | sortingOrder => "SortingOrder"
  | envelopeShape => "EnvelopeShape"
  | aggregateKind => "AggregateKind"
  | filterOperator => "FilterOperator"

inductive Role where
  | column
  | relation
  | foreignKey
  | table
  | relatedKey
deriving DecidableEq, Repr

def Role.name : Role → String
  | column => "column"
  | relation => "relation"
  | foreignKey => "foreign key"
  | table => "table"
  | relatedKey => "related key"

inductive SqlError where
  | argument
  | operational
  | programming
  | statement
  | integrity
deriving DecidableEq, Repr

inductive Fault where
  | unexpectedArgument (callable : Callable) (name : String)
  | missingArguments (callable : Callable) (first : String) (more : List String)
  | incomparable (left right : Kind)
  | badOperands (operator : String) (left right : Kind)
  | joinedWith (left right : Kind)
  | repeatedBy (kind : Kind)
  | notAWord (vocabulary : Vocabulary) (value : Value)
  | belowOne (setting : String)
  | exceeds (setting limit : String)
  | invalidIdentifier (role : Role) (value : Value)
  | aggregateWithoutColumn (kind relation : String)
  | tooFewItems (count : Nat)
  | tooManyItems
  | notIterable (kind : Kind)
  | notAPair (position : Nat)
  | wrongPairSize (position size : Nat)
  | unhashable (kind : Kind)
  | notSubscriptable (kind : Kind)
  | sliceAsKey
  | missingKey (key : Value)
  | aggregateOverMany (relation : String)
  | emptyName
  | momentNotText
  | malformedDecimal
  | decimalOutOfRange
  | decimalIndivisible
  | offsetTooLarge
  | infiniteToInteger
  | nanToInteger
  | divisionByZero
  | realDivisionByZero
  | quotientTooLarge
  | integerTooLargeForReal
  | integerTooLarge
  | integerTextTooLong
  | countTooLarge
  | repeatedTextTooLong
  | outOfMemory
  | undecodable (bytes : Utf8.Malformed)
  | malformedAddress (defect : Url.Defect)
  | invalid (details : List Detail)
  | sql (error : SqlError)
deriving Repr

namespace Fault

inductive Class where
  | type
  | value
  | decoding
  | key
  | index
  | overflow
  | memory
  | zeroDivision
  | invalidOperation
  | validation
  | sql (error : SqlError)
deriving DecidableEq, Repr

def toClass : Fault → Class
  | unexpectedArgument .. => .type
  | missingArguments .. => .type
  | incomparable .. => .type
  | badOperands .. => .type
  | joinedWith .. => .type
  | repeatedBy _ => .type
  | notAWord .. => .value
  | belowOne _ => .value
  | exceeds .. => .value
  | invalidIdentifier .. => .value
  | aggregateWithoutColumn .. => .value
  | tooFewItems _ => .value
  | tooManyItems => .value
  | notIterable _ => .type
  | notAPair _ => .type
  | wrongPairSize .. => .value
  | unhashable _ => .type
  | notSubscriptable _ => .type
  | sliceAsKey => .type
  | missingKey _ => .key
  | aggregateOverMany _ => .value
  | emptyName => .index
  | momentNotText => .type
  | malformedDecimal => .invalidOperation
  | decimalOutOfRange => .invalidOperation
  | decimalIndivisible => .invalidOperation
  | offsetTooLarge => .value
  | infiniteToInteger => .overflow
  | nanToInteger => .value
  | divisionByZero => .zeroDivision
  | realDivisionByZero => .zeroDivision
  | quotientTooLarge => .overflow
  | integerTooLargeForReal => .overflow
  | integerTooLarge => .overflow
  | integerTextTooLong => .value
  | countTooLarge => .overflow
  | repeatedTextTooLong => .overflow
  | outOfMemory => .memory
  | undecodable _ => .decoding
  | malformedAddress _ => .value
  | invalid _ => .validation
  | sql e => .sql e

/-- Names in a row: `'a'`, `'a' and 'b'`, `'a', 'b', and 'c'`. -/
def enumerated (names : List String) : String :=
  match names.map Text.quoted with
  | [] => ""
  | [a] => a
  | [a, b] => a ++ " and " ++ b
  | many => String.intercalate ", " many.dropLast ++ ", and " ++ many.getLast?.getD ""

def quotedKind (k : Kind) : String := "'" ++ k.name ++ "'"

def malformedText (m : Utf8.Malformed) : String :=
  let place :=
    if m.size = 1 then
      "byte 0x" ++ String.ofList (Text.paddedHex 2 m.first) ++ s!" in position {m.position}"
    else s!"bytes in position {m.position}-{m.position + m.size - 1}"
  let reason := match m.defect with
    | .start => "invalid start byte"
    | .continuation => "invalid continuation byte"
    | .ended => "unexpected end of data"
  "'utf-8' codec can't decode " ++ place ++ ": " ++ reason

def message? : Fault → Option String
  | unexpectedArgument f name =>
    some (f.name ++ "() got an unexpected keyword argument '" ++ name ++ "'")
  | missingArguments f first more =>
    some (f.name ++ s!"() missing {more.length + 1} required positional argument" ++
      (if more.isEmpty then "" else "s") ++ ": " ++ enumerated (first :: more))
  | incomparable l r =>
    some ("'<' not supported between instances of " ++ quotedKind l ++ " and " ++ quotedKind r)
  | badOperands op l r =>
    some ("unsupported operand type(s) for " ++ op ++ ": " ++ quotedKind l ++ " and " ++
      quotedKind r)
  | joinedWith l r =>
    some ("can only concatenate " ++ l.name ++ " (not \"" ++ r.name ++ "\") to " ++ l.name)
  | repeatedBy k => some ("can't multiply sequence by non-int of type " ++ quotedKind k)
  | notAWord vocabulary v => some (v.written ++ " is not a valid " ++ vocabulary.name)
  | belowOne setting => some (setting ++ " must be >= 1")
  | exceeds setting limit => some (setting ++ " cannot exceed " ++ limit)
  | invalidIdentifier role v => some ("Invalid " ++ role.name ++ " identifier: " ++ v.written)
  | aggregateWithoutColumn kind relation =>
    some ("Aggregate '" ++ kind ++ "' on '" ++ relation ++ "' needs a column")
  | tooFewItems n => some s!"not enough values to unpack (expected 2, got {n})"
  | tooManyItems => some "too many values to unpack (expected 2)"
  | notIterable k => some (quotedKind k ++ " object is not iterable")
  | notAPair i => some s!"cannot convert dictionary update sequence element #{i} to a sequence"
  | wrongPairSize i n =>
    some s!"dictionary update sequence element #{i} has length {n}; 2 is required"
  | unhashable k => some ("unhashable type: " ++ quotedKind k)
  | notSubscriptable k => some (quotedKind k ++ " object is not subscriptable")
  | sliceAsKey => some "unhashable type: 'slice'"
  | missingKey v => some v.written
  | aggregateOverMany relation =>
    some ("Aggregates over many-to-many relation '" ++ relation ++ "' are not supported")
  | emptyName => some "string index out of range"
  | momentNotText => some "fromisoformat: argument must be str"
  | malformedDecimal => some "[<class 'decimal.ConversionSyntax'>]"
  | decimalOutOfRange => some "[<class 'decimal.InvalidOperation'>]"
  | decimalIndivisible => some "[<class 'decimal.DivisionImpossible'>]"
  | offsetTooLarge =>
    some ("offset must be a timedelta strictly between -timedelta(hours=24) and " ++
      "timedelta(hours=24).")
  | infiniteToInteger => some "cannot convert float infinity to integer"
  | nanToInteger => some "cannot convert float NaN to integer"
  | divisionByZero => some "division by zero"
  | realDivisionByZero => some "float division by zero"
  | quotientTooLarge => some "integer division result too large for a float"
  | integerTooLargeForReal => some "int too large to convert to float"
  | integerTooLarge => some "Python int too large to convert to SQLite INTEGER"
  | integerTextTooLong =>
    some ("Exceeds the limit (4300 digits) for integer string conversion; " ++
      "use sys.set_int_max_str_digits() to increase the limit")
  | countTooLarge => some "cannot fit 'int' into an index-sized integer"
  | repeatedTextTooLong => some "repeated string is too long"
  | outOfMemory => some ""
  | undecodable m => some (malformedText m)
  | malformedAddress d => some d.message
  | invalid _ => none
  | sql _ => none

end Fault

abbrev Outcome (α : Type) := Except Fault α

def Value.shown (v : Value) : Outcome Value :=
  if v.hasText then .ok v else .error .offsetTooLarge

end Listing
