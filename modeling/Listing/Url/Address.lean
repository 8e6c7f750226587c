import Listing.Params.UrlEncoded
import Listing.Text.Case
import Listing.Text.Quoted
import Listing.Url.Host
set_option autoImplicit false

/-!
# Addresses and their parts

An address falls into a scheme before the first colon, an authority after two slashes, a path, a
query after a question mark and a fragment after a number sign. Writing the parts puts the marks
back where there is something behind them. The address of another page has the same parts but for
two fields of its query, which come last.
-/

namespace Listing.Url
open Listing.Text

inductive Defect where
  | brackets
  | notAnAddress (host : String)
  | version4
  | laterVersion
  | compatibleDelimiter (authority : String)
deriving DecidableEq, Repr

def Defect.message : Defect → String
  | brackets => "Invalid IPv6 URL"
  | notAnAddress host => quoted host ++ " does not appear to be an IPv4 or IPv6 address"
  | version4 => "An IPv4 address cannot be in brackets"
  | laterVersion => "IPvFuture address is invalid"
  | compatibleDelimiter authority =>
    "netloc '" ++ authority ++ "' contains invalid characters under NFKC normalization"

structure Address where
  scheme : List Char
  authority : List Char
  path : List Char
  query : List Char
  fragment : List Char
deriving DecidableEq, Repr

namespace Address

/-- The text before the first `c` and the text after it, which is empty if there is no `c`. -/
def cut (c : Char) (cs : List Char) : List Char × List Char :=
  (cs.takeWhile (· != c), (cs.dropWhile (· != c)).drop 1)

def isLeading (c : Char) : Bool := c.toNat ≤ 0x20

def isDropped (c : Char) : Bool := c == '\t' || c == '\n' || c == '\r'

def isSchemeChar (c : Char) : Bool := c.isAlphanum || c == '+' || c == '-' || c == '.'

def takeScheme (cs : List Char) : List Char × List Char :=
  let word := cs.takeWhile (· != ':')
  if cs.contains ':' && word.head?.any Char.isAlpha && word.all isSchemeChar then
    (lowerAscii word, (cs.dropWhile (· != ':')).drop 1)
  else ([], cs)

def endsAuthority (c : Char) : Bool := c == '/' || c == '?' || c == '#'

def takeAuthority : List Char → List Char × List Char
  | '/' :: '/' :: cs =>
    (cs.takeWhile (!endsAuthority ·), cs.dropWhile (!endsAuthority ·))
  | cs => ([], cs)

/-- Characters outside ASCII that are compatible with a delimiter or a text that has one. -/
def compatibleDelimiters : List Nat :=
  [0x2047, 0x2048, 0x2049, 0x2100, 0x2101, 0x2105, 0x2106, 0x2A74, 0xFE13, 0xFE16, 0xFE55, 0xFE56,
    0xFE5F, 0xFE6B, 0xFF03, 0xFF0F, 0xFF1A, 0xFF1F, 0xFF20]

/-- Whether a zone may follow an address of version six: none, or one after a percent sign. -/
def isZoned (cs : List Char) : Bool :=
  let zone := cs.dropWhile (· != '%')
  Host.isVersion6 (cs.takeWhile (· != '%')) &&
    (zone.isEmpty || (!(zone.drop 1).isEmpty && !(zone.drop 1).contains '%'))

def bracketedDefect? (host : List Char) : Option Defect :=
  match host with
  | 'v' :: cs =>
    let isVersionDigit (c : Char) : Bool := (hexValue? c).isSome
    if cs.head?.any isVersionDigit && (cs.dropWhile isVersionDigit).head? == some '.' &&
        1 < (cs.dropWhile isVersionDigit).length then none
    else some .laterVersion
  | cs =>
    if Host.isVersion4 cs then some .version4
    else if isZoned cs then none
    else some (.notAnAddress (String.ofList cs))

def afterUser (cs : List Char) : List Char := (cs.reverse.takeWhile (· != '@')).reverse

/-- What is wrong with the brackets of an authority. They belong around the whole host. -/
def bracketDefect? (authority : List Char) : Option Defect :=
  if authority.contains '[' != authority.contains ']' then some .brackets
  else if authority.contains '[' then
    let place := afterUser authority
    if place.contains '[' then
      let (host, port) := cut ']' (cut '[' place).2
      if place.head? != some '[' || !(port.isEmpty || port.head? == some ':') then some .brackets
      else bracketedDefect? host
    else bracketedDefect? (cut ':' place).1
  else none

def defect? (authority : List Char) : Option Defect :=
  (bracketDefect? authority).or
    (if authority.any fun c => compatibleDelimiters.contains c.toNat then
      some (.compatibleDelimiter (String.ofList authority))
    else none)

def ofText (cs : List Char) : Except Defect Address :=
  let (scheme, rest) := takeScheme ((cs.dropWhile isLeading).filter (!isDropped ·))
  let (authority, rest) := takeAuthority rest
  let (rest, fragment) := cut '#' rest
  let (path, query) := cut '?' rest
  match defect? authority with
  | some d => .error d
  | none => .ok { scheme, authority, path, query, fragment }

def schemesWithAuthority : List String :=
  ["ftp", "http", "gopher", "nntp", "telnet", "imap", "wais", "file", "mms", "https", "shttp",
    "snews", "prospero", "rtsp", "rtsps", "rtspu", "rsync", "svn", "svn+ssh", "sftp", "nfs", "git",
    "git+ssh", "ws", "wss"]

def hasAuthority (a : Address) : Bool :=
  !a.authority.isEmpty || schemesWithAuthority.contains (String.ofList a.scheme) ||
    ['/', '/'].isPrefixOf a.path

def rooted (path : List Char) : List Char :=
  if path.isEmpty || path.head? == some '/' then path else '/' :: path

def marked (mark : Char) (cs : List Char) : List Char := if cs.isEmpty then [] else mark :: cs

def written (a : Address) : List Char :=
  (if a.scheme.isEmpty then [] else a.scheme ++ [':']) ++
    (if a.hasAuthority then '/' :: '/' :: a.authority ++ rooted a.path else a.path) ++
    marked '?' a.query ++ marked '#' a.fragment

def fields (a : Address) : List (String × String) := UrlEncoded.fields a.query

def fieldsFor (a : Address) (page limit : String) : List (String × String) :=
  (a.fields.filter fun f => f.1 != "page" && f.1 != "limit") ++ [("page", page), ("limit", limit)]

def withPage (a : Address) (page limit : String) : String :=
  String.ofList { a with query := UrlEncoded.render (a.fieldsFor page limit) }.written

end Address
end Listing.Url
