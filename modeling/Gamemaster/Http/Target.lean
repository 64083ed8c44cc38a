import Gamemaster.Http.Authority
import Gamemaster.Text.Hex

namespace Gamemaster.Http

/-- A target taken apart and still encoded. The path is empty if there is nothing but an
authority. -/
structure Target where
  path : String
  query : Option String
  deriving DecidableEq, Repr

def isPathChar (c : Char) : Bool :=
  c.toNat > 0x20 && c.toNat ≠ 0x7F && !(['<', '>', '`', '#', '?'].contains c)

def isQueryChar (c : Char) : Bool :=
  c.toNat > 0x20 && c.toNat ≠ 0x7F && !(['"', '<', '>', '#'].contains c)

def isSchemeChar (c : Char) : Bool := c.isAlphanum || ['+', '-', '.', '~'].contains c

def maxScheme : Nat := 64

def maxTarget : Nat := 65534

namespace Target

/-- Takes a path and a query apart. What follows a `#` is left out, and no path at all is the
root. -/
def ofPath? (cs : List Char) : Option Target :=
  let cs := cs.takeWhile (· ≠ '#')
  let path := cs.takeWhile (· ≠ '?')
  let query := match cs.dropWhile (· ≠ '?') with
    | [] => none
    | _ :: query => some query
  if path.all isPathChar ∧ (query.getD []).all isQueryChar then
    some ⟨if path = [] then "/" else String.ofList path, query.map String.ofList⟩
  else none

def endsAuthority (c : Char) : Bool := c = '/' || c = '?' || c = '#'

def parse? (s : String) : Option Target :=
  let cs := s.toList
  if maxTarget < s.utf8ByteSize then none
  else if cs.head? = some '/' then ofPath? cs
  else
    match cs.dropWhile isSchemeChar with
    | ':' :: '/' :: '/' :: rest =>
      if (cs.takeWhile isSchemeChar).length ≤ maxScheme ∧
          isAuthority (rest.takeWhile fun c => !endsAuthority c) then
        ofPath? (rest.dropWhile fun c => !endsAuthority c)
      else none
    | _ => if isAuthority cs then some ⟨"", none⟩ else none

end Target

/-- The bytes of a text in which `%` and two hexadecimal digits stand for a byte. -/
def percentBytes : List Char → List UInt8
  | '%' :: a :: b :: cs =>
    match Text.hexNumber? [a, b] with
    | some n => UInt8.ofNat n :: percentBytes cs
    | none => '%'.toUInt8 :: percentBytes (a :: b :: cs)
  | c :: cs => (String.singleton c).toUTF8.toList ++ percentBytes cs
  | [] => []

/-- The text of percent-encoded characters, if its bytes are UTF-8. -/
def percentDecode? (cs : List Char) : Option String :=
  String.fromUTF8? ⟨(percentBytes cs).toArray⟩

def formDecode? (cs : List Char) : Option String :=
  percentDecode? (cs.map fun c => if c = '+' then ' ' else c)

/-- The values given to a key in a query, in order; `none` for one that is no text. -/
def queryValues (key query : String) : List (Option String) :=
  let pairs := ((query.toList.splitOn '&').map String.ofList).filter (· ≠ "")
  let named := pairs.filter fun pair => formDecode? (pair.toList.takeWhile (· ≠ '=')) = some key
  named.map fun pair => formDecode? ((pair.toList.dropWhile (· ≠ '=')).drop 1)

end Gamemaster.Http
