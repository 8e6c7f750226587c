import Listing.Fault
import Listing.Url.Address
set_option autoImplicit false

namespace Listing

/-- The parts of the address of a request. The query is given byte by byte. -/
structure Url where
  scheme : String
  host : String
  path : String
  query : String
deriving DecidableEq, Repr

namespace Url
open Listing.Text

def escapePathChar (c : Char) : List Char :=
  if c = '?' then "%3F".toList else if c = '#' then "%23".toList
  else if c = '\\' then "%5C".toList else [c]

def escapedPath (u : Url) : List Char := u.path.toList.flatMap escapePathChar

/-- A path that begins with two slashes keeps the second one as an escape, so that no host is read
into it. -/
def withoutHost : List Char → List Char
  | '/' :: '/' :: cs => '/' :: "%2F".toList ++ cs
  | cs => cs

def base (u : Url) : List Char :=
  if Host.isHost u.host.toList then
    (if u.scheme.isEmpty then [] else u.scheme.toList ++ [':']) ++
      '/' :: '/' :: u.host.toList ++ Address.rooted u.escapedPath
  else withoutHost u.escapedPath

def queryBytes (u : Url) : List Nat := u.query.toList.map Char.toNat

def malformed? (u : Url) : Option Utf8.Malformed := Utf8.malformed? u.queryBytes

def text (u : Url) : List Char := u.base ++ Address.marked '?' (Utf8.decode u.queryBytes)

def address (u : Url) : Outcome Address :=
  match u.malformed? with
  | some m => .error (.undecodable m)
  | none =>
    match Address.ofText u.text with
    | .ok a => .ok a
    | .error d => .error (.malformedAddress d)

end Url
end Listing
