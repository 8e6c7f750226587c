import Listing.Fault
import Listing.Text.Case
set_option autoImplicit false

/-!
# Names in statements

A name is written as it is when it is a plain word in lower case that the dialect does not
reserve, and between double quotes otherwise. Where placeholders begin with a percent sign, every
percent sign of a name is doubled.
-/

namespace Listing.Sql

/-- Flavours of the language: a neutral one for single expressions, and those of two databases. -/
inductive Dialect where
  | standard
  | postgresql
  | sqlite
deriving DecidableEq, Repr

namespace Dialect

def commonWords : List String := [
  "all", "analyse", "analyze", "and", "any", "array", "as", "asc", "asymmetric", "authorization",
  "between", "binary", "both", "case", "cast", "check", "collate", "column", "constraint",
  "create", "cross", "current_date", "current_role", "current_time", "current_timestamp",
  "current_user", "default", "deferrable", "desc", "distinct", "do", "else", "end", "except",
  "false", "for", "foreign", "freeze", "from", "full", "grant", "group", "having", "ilike", "in",
  "initially", "inner", "intersect", "into", "is", "isnull", "join", "leading", "left", "like",
  "limit", "localtime", "localtimestamp", "natural", "new", "not", "notnull", "null", "off",
  "offset", "old", "on", "only", "or", "order", "outer", "overlaps", "placing", "primary",
  "references", "right", "select", "session_user", "similar", "some", "symmetric", "table",
  "then", "to", "trailing", "true", "union", "unique", "user", "using", "verbose", "when",
  "where"]

def standardWords : List String := ["set"]

def postgresqlWords : List String :=
  ["current_catalog", "current_schema", "fetch", "of", "over", "returning", "variadic", "window",
    "with"]

def sqliteWords : List String := [
  "add", "after", "all", "alter", "analyze", "and", "as", "asc", "attach", "autoincrement",
  "before", "begin", "between", "by", "cascade", "case", "cast", "check", "collate", "column",
  "commit", "conflict", "constraint", "create", "cross", "current_date", "current_time",
  "current_timestamp", "database", "default", "deferrable", "deferred", "delete", "desc",
  "detach", "distinct", "drop", "each", "else", "end", "escape", "except", "exclusive", "exists",
  "explain", "fail", "false", "for", "foreign", "from", "full", "glob", "group", "having", "if",
  "ignore", "immediate", "in", "index", "indexed", "initially", "inner", "insert", "instead",
  "intersect", "into", "is", "isnull", "join", "key", "left", "like", "limit", "match",
  "natural", "not", "notnull", "null", "of", "offset", "on", "or", "order", "outer", "plan",
  "pragma", "primary", "query", "raise", "references", "reindex", "rename", "replace",
  "restrict", "right", "rollback", "row", "select", "set", "table", "temp", "temporary", "then",
  "to", "transaction", "trigger", "true", "union", "unique", "update", "using", "vacuum",
  "values", "view", "virtual", "when", "where"]

def reserves (d : Dialect) (word : String) : Bool :=
  match d with
  | standard => commonWords.contains word || standardWords.contains word
  | postgresql => commonWords.contains word || postgresqlWords.contains word
  | sqlite => sqliteWords.contains word

def verbatim (d : Dialect) (s : String) : String :=
  match d with
  | postgresql => String.ofList (s.toList.flatMap fun c => if c = '%' then ['%', '%'] else [c])
  | _ => s

end Dialect

namespace Name

/-- Characters of plain words. Two letters outside ASCII have a capital within it and count as
letters. -/
def isPlain (c : Char) : Bool := c.isAlphanum || c == '_' || c == '$' || c == 'ı' || c == 'ſ'

/-- Whether a name is a plain word; a line break may follow it. -/
def isPlainWord (cs : List Char) : Bool :=
  let word := if cs.getLast? = some '\n' then cs.dropLast else cs
  !word.isEmpty && word.all isPlain

def needsQuotes (d : Dialect) (name : String) : Bool :=
  let cs := name.toList
  d.reserves name || !isPlainWord cs || cs.any Char.isUpper ||
    cs.head?.any fun c => c.isDigit || c == '$'

def quoted (name : String) : String :=
  "\"" ++ String.ofList (name.toList.flatMap fun c => if c = '"' then ['"', '"'] else [c]) ++ "\""

/-- A name as it stands in a statement. The empty name cannot be written. -/
def render (d : Dialect) (name : String) : Outcome String :=
  if name.isEmpty then .error .emptyName
  else if needsQuotes d name then .ok (d.verbatim (quoted name))
  else .ok name

end Name
end Listing.Sql
