namespace Gamemaster.Http

def isTokenChar (c : Char) : Bool :=
  c.isAlphanum ||
    ['!', '#', '$', '%', '&', '\'', '*', '+', '-', '.', '^', '_', '`', '|', '~'].contains c

inductive ParameterPlace where
  | start
  | name
  | valueStart
  | value
  | quotedStart
  | quoted
  | quotedEnd
  deriving DecidableEq, Repr

namespace ParameterPlace

def isQuotable (c : Char) : Bool := 31 < c.toNat && c.toNat < 127

def step? : ParameterPlace → Char → Option ParameterPlace
  | start, c => if c = ' ' then some start else if isTokenChar c then some name else none
  | name, c => if c = '=' then some valueStart else if isTokenChar c then some name else none
  | valueStart, c =>
    if c = '"' then some quotedStart else if isTokenChar c then some value else none
  | value, c => if c = ';' then some start else if isTokenChar c then some value else none
  | quotedStart, c => if isQuotable c then some quoted else none
  | quoted, c => if c = '"' then some quotedEnd else if isQuotable c then some quoted else none
  | quotedEnd, c => if c = ';' then some start else if c = ' ' then some quotedEnd else none

def isEnd : ParameterPlace → Bool
  | start => true
  | valueStart => true
  | value => true
  | quotedEnd => true
  | _ => false

end ParameterPlace

/-- Whether the text after the first semicolon of a media type is well formed. -/
def parametersFit (cs : List Char) : Bool :=
  (cs.foldlM ParameterPlace.step? .start).any ParameterPlace.isEnd

structure MediaType where
  type : String
  /-- What is before the last plus sign. -/
  subtype : String
  /-- What is after the last plus sign. -/
  suffix : Option String
  deriving DecidableEq, Repr

namespace MediaType

private def lower (cs : List Char) : String := String.ofList (cs.map Char.toLower)

/-- Cuts a subtype at its last plus sign; one at the front cuts nothing. -/
private def cutSuffix (cs : List Char) : List Char × Option (List Char) :=
  match cs.reverse.dropWhile (· ≠ '+') with
  | _ :: before@(_ :: _) => (before.reverse, some (cs.reverse.takeWhile (· ≠ '+')).reverse)
  | _ => (cs, none)

def parse? (s : String) : Option MediaType :=
  let cs := s.toList
  let type := cs.takeWhile (· ≠ '/')
  match cs.dropWhile (· ≠ '/') with
  | [] => none
  | _ :: rest =>
    let name := rest.takeWhile (· ≠ ';')
    let parameters := (rest.dropWhile (· ≠ ';')).drop 1
    if type ≠ [] ∧ type.all isTokenChar ∧ name ≠ [] ∧ name.all isTokenChar ∧
        parametersFit parameters then
      let (subtype, suffix) := cutSuffix name
      some ⟨lower type, lower subtype, suffix.map lower⟩
    else none

def isJson (m : MediaType) : Bool :=
  m.type = "application" && (m.subtype = "json" || m.suffix = some "json")

end MediaType

end Gamemaster.Http
