import Gamemaster.Json.Basic
import Gamemaster.Number.Double.Shortest

namespace Gamemaster.Json

private def hexDigits (n : Nat) : List Char :=
  let digits := Nat.toDigits 16 n
  List.replicate (4 - digits.length) '0' ++ digits

private def escaped (c : Char) : List Char :=
  if c = '"' then ['\\', '"']
  else if c = '\\' then ['\\', '\\']
  else if c = '\x08' then ['\\', 'b']
  else if c = '\t' then ['\\', 't']
  else if c = '\n' then ['\\', 'n']
  else if c = '\x0c' then ['\\', 'f']
  else if c = '\r' then ['\\', 'r']
  else if c.toNat < 0x20 then ['\\', 'u'] ++ hexDigits c.toNat
  else [c]

def quoted (s : String) : String :=
  "\"" ++ String.ofList (s.toList.flatMap escaped) ++ "\""

mutual

def render : Json → String
  | .null => "null"
  | .bool b => if b then "true" else "false"
  | .int n => toString n
  | .real x => x.render
  | .text s => quoted s
  | .list [] => "[]"
  | .list (j :: js) => "[" ++ render j ++ renderItems js ++ "]"
  | .object [] => "\x7b\x7d"
  | .object ((k, v) :: rest) =>
    "\x7b" ++ quoted k ++ ":" ++ render v ++ renderMembers rest ++ "\x7d"

def renderItems : List Json → String
  | [] => ""
  | j :: js => "," ++ render j ++ renderItems js

def renderMembers : List (String × Json) → String
  | [] => ""
  | (k, v) :: rest => "," ++ quoted k ++ ":" ++ render v ++ renderMembers rest

end

private def newline (indent : Nat) : String :=
  "\n" ++ String.ofList (List.replicate (2 * indent) ' ')

mutual

def pretty (indent : Nat) : Json → String
  | .list (j :: js) =>
    "[" ++ newline (indent + 1) ++ pretty (indent + 1) j ++ prettyItems (indent + 1) js ++
      newline indent ++ "]"
  | .object ((k, v) :: rest) =>
    "\x7b" ++ newline (indent + 1) ++ quoted k ++ ": " ++ pretty (indent + 1) v ++
      prettyMembers (indent + 1) rest ++ newline indent ++ "\x7d"
  | j => render j

def prettyItems (indent : Nat) : List Json → String
  | [] => ""
  | j :: js => "," ++ newline indent ++ pretty indent j ++ prettyItems indent js

def prettyMembers (indent : Nat) : List (String × Json) → String
  | [] => ""
  | (k, v) :: rest =>
    "," ++ newline indent ++ quoted k ++ ": " ++ pretty indent v ++ prettyMembers indent rest

end

end Gamemaster.Json
