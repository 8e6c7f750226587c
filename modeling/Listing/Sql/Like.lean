import Listing.Text.Case
set_option autoImplicit false

/-!
# Patterns

In a pattern a percent sign stands for any text and an underscore for any one character. Letters
of ASCII match in either case. A text ends at its first null character.
-/

namespace Listing.Sql.Like

def beforeNull (cs : List Char) : List Char := cs.takeWhile (· != '\x00')

/-- Whether a text matches a pattern, both in small letters. -/
def matchesFrom : List Char → List Char → Bool
  | [], cs => cs.isEmpty
  | '%' :: ps, cs =>
    matchesFrom ps cs ||
      match cs with
      | [] => false
      | _ :: rest => matchesFrom ('%' :: ps) rest
  | p :: ps, cs =>
    match cs with
    | [] => false
    | c :: rest => (p == '_' || p == c) && matchesFrom ps rest
termination_by ps cs => ps.length + cs.length

def isMatch (pattern text : String) : Bool :=
  matchesFrom (Text.lowerAscii (beforeNull pattern.toList))
    (Text.lowerAscii (beforeNull text.toList))

end Listing.Sql.Like
