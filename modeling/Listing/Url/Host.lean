import Listing.Text.Digit
set_option autoImplicit false

/-!
# Hosts

A host is a registered name, or in brackets an address of version six or of a later version. A
port may follow after a colon. Percent signs are ordinary characters of a name.
-/

namespace Listing.Url.Host
open Listing.Text

def isUnreserved (c : Char) : Bool := c.isAlphanum || "-._~".toList.contains c

def isSubDelimiter (c : Char) : Bool := "!$&'()*+,;=".toList.contains c

def isNameChar (c : Char) : Bool := isUnreserved c || isSubDelimiter c || c == '%'

def splitAtPair (c : Char) : List Char → Option (List Char × List Char)
  | a :: b :: cs =>
    if a = c ∧ b = c then some ([], cs)
    else (splitAtPair c (b :: cs)).map fun (before, after) => (a :: before, after)
  | _ => none

def isOctet (cs : List Char) : Bool :=
  cs.all Char.isDigit && (cs.length == 1 || cs.length == 2 || cs.length == 3) &&
    (cs.length == 1 || cs.head? != some '0') &&
    valueOfDigits (cs.map fun c => c.toNat - 0x30) ≤ 255

def isVersion4 (cs : List Char) : Bool :=
  (cs.splitOn '.').length == 4 && (cs.splitOn '.').all isOctet

def isGroup (cs : List Char) : Bool :=
  !cs.isEmpty && cs.length ≤ 4 && cs.all fun c => (hexValue? c).isSome

/-- How many groups of 16 bits stand between colons; four numbers between points make two. -/
def groups? (dotted : Bool) : List (List Char) → Option Nat
  | [] => some 0
  | [cs] => if isGroup cs then some 1 else if dotted && isVersion4 cs then some 2 else none
  | cs :: rest => if isGroup cs then (groups? dotted rest).map (1 + ·) else none

/-- The groups of a side of an address; no text has none. -/
def sideGroups? (dotted : Bool) (cs : List Char) : Option Nat :=
  if cs.isEmpty then some 0 else groups? dotted (cs.splitOn ':')

/-- Eight groups, of which two colons in a row may stand for one or more. -/
def isVersion6 (cs : List Char) : Bool :=
  match splitAtPair ':' cs with
  | none => sideGroups? true cs == some 8
  | some (before, after) =>
    match sideGroups? false before, sideGroups? true after with
    | some m, some n => m + n ≤ 7
    | _, _ => false

def isLaterVersion : List Char → Bool
  | 'v' :: cs =>
    let isVersionDigit (c : Char) : Bool := (hexValue? c).isSome
    cs.head?.any isVersionDigit &&
      match cs.dropWhile isVersionDigit with
      | '.' :: rest =>
        !rest.isEmpty && rest.all fun c => isUnreserved c || isSubDelimiter c || c == ':'
      | _ => false
  | _ => false

def isPort : List Char → Bool
  | [] => true
  | ':' :: cs =>
    !cs.isEmpty && cs.all Char.isDigit &&
      valueOfDigits (cs.map fun c => c.toNat - 0x30) ≤ 65535
  | _ => false

def isHost : List Char → Bool
  | '[' :: cs =>
    let inner := cs.takeWhile (· != ']')
    (isVersion6 inner || isLaterVersion inner) &&
      match cs.dropWhile (· != ']') with
      | _ :: port => isPort port
      | [] => false
  | cs => cs.head?.any isNameChar && isPort (cs.dropWhile isNameChar)

end Listing.Url.Host
