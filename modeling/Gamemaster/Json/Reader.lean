import Gamemaster.Json.Numeral
import Gamemaster.Json.Quoted
import Gamemaster.Json.Written
/-!
Reading JSON texts. Values may be nested 127 deep; what is nested deeper is only looked through
for its form.
-/
namespace Gamemaster.Json

private def isSpace (c : Char) : Bool :=
  c = ' ' || c = '\n' || c = '\r' || c = '\t'

private def skipSpace (cs : List Char) : List Char := cs.dropWhile isSpace

private def word (text : String) (value : Written) (cs : List Char) :
    Option (Written × List Char) :=
  let expected := text.toList
  if cs.take expected.length = expected then some (value, cs.drop expected.length) else none

private def scalar? : List Char → Option (Written × List Char)
  | '"' :: rest => (marks? [] rest).map fun (marks, rest) =>
    ((textOf? marks).elim .void .text, rest)
  | 't' :: rest => word "true" (.bool true) ('t' :: rest)
  | 'f' :: rest => word "false" (.bool false) ('f' :: rest)
  | 'n' :: rest => word "null" .null ('n' :: rest)
  | cs => (Numeral.read? cs).map fun (n, rest) =>
    (n.value?.elim .void (Sum.elim .int .real), rest)

/-- Reads a key and its colon. The key is `none` if it has no characters to stand for. -/
private def key? (cs : List Char) : Option (Option String × List Char) :=
  match skipSpace cs with
  | '"' :: rest =>
    match marks? [] rest with
    | none => none
    | some (marks, rest) =>
      match skipSpace rest with
      | ':' :: rest => some (textOf? marks, rest)
      | _ => none
  | _ => none

inductive Bracket where
  | square
  | curly
  deriving DecidableEq, Repr

def Bracket.closing : Bracket → Char
  | square => ']'
  | curly => '\x7d'

/-- Where a look through brackets stands. -/
private inductive Place where
  | opened
  | next
  | after
  deriving DecidableEq

/-- Looks through a well-formed item or member of the innermost bracket. -/
private def look? (around : List Bracket) (cs : List Char) :
    Option (Place × List Bracket × List Char) := do
  let cs ← if around.head? = some .curly then (key? cs).map (·.2) else some cs
  match skipSpace cs with
  | '[' :: rest => some (.opened, .square :: around, rest)
  | '\x7b' :: rest => some (.opened, .curly :: around, rest)
  | cs => (scalar? cs).map fun (_, rest) => (.after, around, rest)

/-- What follows the outermost of the brackets around. Each step uses up a character. -/
private def afterBrackets? (fuel : Nat) (place : Place) (around : List Bracket) (cs : List Char) :
    Option (List Char) :=
  match fuel, around with
  | _, [] => some cs
  | 0, _ => none
  | fuel + 1, bracket :: outer =>
    match skipSpace cs with
    | [] => none
    | c :: rest =>
      if c = bracket.closing ∧ place ≠ .next then afterBrackets? fuel .after outer rest
      else if place = .after then
        if c = ',' then afterBrackets? fuel .next around rest else none
      else
        match look? around (c :: rest) with
        | some (place, around, rest) => afterBrackets? fuel place around rest
        | none => none

mutual

/-- Reads one value and returns what follows it. Each step uses up a character, so fuel above the
length of the text never runs out. -/
private def value (fuel depth : Nat) (cs : List Char) : Option (Written × List Char) :=
  match fuel with
  | 0 => none
  | fuel + 1 =>
    match skipSpace cs with
    | '[' :: rest =>
      if depth = 0 then
        (afterBrackets? (rest.length + 1) .opened [.square] rest).map (Written.void, ·)
      else match skipSpace rest with
        | ']' :: rest => some (.list [], rest)
        | rest => items fuel (depth - 1) [] rest
    | '\x7b' :: rest =>
      if depth = 0 then
        (afterBrackets? (rest.length + 1) .opened [.curly] rest).map (Written.void, ·)
      else match skipSpace rest with
        | '\x7d' :: rest => some (.object [], rest)
        | rest => members fuel (depth - 1) true [] rest
    | cs => scalar? cs

private def items (fuel depth : Nat) (read : List Written) (cs : List Char) :
    Option (Written × List Char) :=
  match fuel with
  | 0 => none
  | fuel + 1 =>
    match value fuel depth cs with
    | none => none
    | some (w, rest) =>
      match skipSpace rest with
      | ',' :: rest => items fuel depth (w :: read) rest
      | ']' :: rest => some (.list (w :: read).reverse, rest)
      | _ => none

/-- The members of an object from the next one on, with `read` read so far, last first. It has no
value unless all its keys so far are `sound`. -/
private def members (fuel depth : Nat) (sound : Bool) (read : List (String × Written))
    (cs : List Char) : Option (Written × List Char) :=
  match fuel with
  | 0 => none
  | fuel + 1 =>
    match key? cs with
    | none => none
    | some (key, rest) =>
      match value fuel depth rest with
      | none => none
      | some (w, rest) =>
        let sound := sound && key.isSome
        let read := (key.getD "", w) :: read
        match skipSpace rest with
        | ',' :: rest => members fuel depth sound read rest
        | '\x7d' :: rest => some (if sound then .object read.reverse else .void, rest)
        | _ => none

end

def maxDepth : Nat := 127

def Written.read? (text : String) : Option Written :=
  let cs := text.toList
  match value (2 * cs.length + 2) maxDepth cs with
  | some (w, rest) => if (skipSpace rest).isEmpty then some w else none
  | none => none

/-- The value of a text with at most `levels` of texts inside it. -/
private def readWithin? (levels : Nat) (text : String) : Option Json :=
  match levels with
  | 0 => none
  | levels + 1 => (Written.read? text).bind (Written.valueWith? (readWithin? levels))

/-- The value of a text. A text inside it is shorter, so there are never more levels than
characters. -/
def read? (text : String) : Option Json := readWithin? (text.length + 1) text

def Written.value? (w : Written) : Option Json := w.valueWith? Json.read?

/-- The members of an object by key, whatever the first key is. -/
def Written.block? : Written → Option (List (String × Json))
  | .object members => membersWith? Json.read? [] members
  | _ => none

end Gamemaster.Json
