import Gamemaster.Number.Double.Decimal
import Gamemaster.Number.Literal
import Gamemaster.Text.Blank
import Gamemaster.Toml.Document
import Gamemaster.Toml.Quoted

namespace Gamemaster.Variable

open Toml (Value)

private def isGap (c : Char) : Bool := c = ' ' || c = '\t' || c = '\n' || c = '\x0c' || c = '\r'

private def skipGap (cs : List Char) : List Char := cs.dropWhile isGap

private def isPlain (c : Char) : Bool := !([',', '\x7b', '\x7d', '[', ']'].contains c)

private def isNameChar (c : Char) : Bool := c.isAlphanum || c = '_' || c = '-'

/-- Whether a text is a number: one with a point, or an integer of 64 bits, signed or not. -/
private def isNumber (cs : List Char) : Bool :=
  (cs.contains '.' && (Double.literal? cs).isSome) ||
    (Literal.bounded? (2 ^ 64 - 1) cs).isSome || (Literal.word? cs).isSome

private def plain (cs : List Char) : Value × List Char :=
  let text := Text.trimChars (cs.takeWhile isPlain)
  (if isNumber text then .other else .text (String.ofList text), cs.dropWhile isPlain)

private def afterWord? (word : String) (cs : List Char) : Option (List Char) :=
  if word.toList.isPrefixOf cs then some (cs.drop word.length) else none

/-- The characters in the first `n` bytes; `none` if a character is cut apart. -/
private def firstBytes? (n : Nat) : List Char → Option (List Char)
  | [] => some []
  | c :: cs =>
    if n = 0 then some []
    else if c.utf8Size ≤ n then (firstBytes? (n - c.utf8Size) cs).map (c :: ·)
    else none

/-- A text in double quotes, after the first of them. The stretch before the first escape is cut
to as many bytes as it has characters. -/
private def quoted? (cs : List Char) : Option (String × List Char) := do
  let (text, rest) ← Toml.basic? cs
  let stretch := cs.takeWhile fun c => c ≠ '"' && c ≠ '\\'
  if cs[stretch.length]? = some '\\' then
    let kept ← firstBytes? stretch.length stretch
    some (String.ofList (kept ++ text.toList.drop stretch.length), rest)
  else some (text, rest)

private def afterKey? (cs : List Char) : Option (List Char) :=
  let after? : Option (List Char) :=
    match skipGap cs with
    | '"' :: rest => (quoted? rest).map (·.2)
    | cs => if cs.head?.any isNameChar then some (cs.dropWhile isNameChar) else none
  match after?.map skipGap with
  | some ('=' :: rest) => some rest
  | _ => none

mutual

/-- Reads a value and the gaps around it. Each step but the one into a value uses up a
character. -/
private def value? (fuel : Nat) (cs : List Char) : Option (Value × List Char) :=
  match fuel with
  | 0 => none
  | fuel + 1 =>
    let cs := skipGap cs
    let read? : Option (Value × List Char) :=
      match (afterWord? "true" cs).or (afterWord? "false" cs) with
      | some rest => some (.other, rest)
      | none =>
        match cs with
        | '\x7b' :: rest => (afterMembers? fuel rest).map (.other, ·)
        | '[' :: rest => (afterItems? fuel rest).map (.other, ·)
        | '"' :: rest => (quoted? rest).map fun (s, rest) => (.text s, rest)
        | '\'' :: c :: '\'' :: rest => some (.text (String.singleton c), rest)
        | '\'' :: _ => none
        | cs => some (plain cs)
    read?.map fun (v, rest) => (v, skipGap rest)

/-- What follows a list, from the next item or the closing bracket on. -/
private def afterItems? (fuel : Nat) (cs : List Char) : Option (List Char) :=
  match fuel, cs with
  | 0, _ => none
  | _, ']' :: rest => some rest
  | fuel + 1, cs =>
    match value? fuel cs with
    | some (_, ']' :: rest) => some rest
    | some (_, ',' :: rest) => afterItems? fuel rest
    | _ => none

/-- What follows a table, from the next member or the closing brace on. -/
private def afterMembers? (fuel : Nat) (cs : List Char) : Option (List Char) :=
  match fuel, cs with
  | 0, _ => none
  | _, '\x7d' :: rest => some rest
  | fuel + 1, cs =>
    match (afterKey? cs).bind (value? fuel) with
    | some (_, '\x7d' :: rest) => some rest
    | some (_, ',' :: rest) => afterMembers? fuel rest
    | _ => none

end

def read (text : String) : Value :=
  match value? (2 * text.length + 2) text.toList with
  | some (v, []) => v
  | _ => .text text

/-- What the names of the variables begin with, in either case. -/
def namespaceMark : String := "tabletop_"

/-- The key that a variable's name stands for, in lower case. -/
def key? (name : String) : Option (List Char) :=
  let cs := (Text.trimChars name.toList).map Char.toLower
  let mark := namespaceMark.toList
  if mark.isPrefixOf cs then some (Text.trimChars (cs.drop mark.length)) else none

/-- The setting of a variable. A dotted name belongs to a table under its first part; a name with
an empty part belongs to none. -/
def setting? (name text : String) : Option (String × Value) := do
  match (String.ofList (← key? name)).splitOn "." with
  | [key] => if key = "" then none else some (key, read text)
  | key :: parts => if key = "" ∨ parts.contains "" then none else some (key, .other)
  | [] => none

end Gamemaster.Variable
