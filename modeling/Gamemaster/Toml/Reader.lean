import Gamemaster.Toml.Document
import Gamemaster.Toml.Quoted
import Gamemaster.Toml.Scalar

namespace Gamemaster.Toml

def maxDepth : Nat := 79

private def skipComment : List Char → List Char
  | '#' :: rest => rest.dropWhile isLineChar
  | cs => cs

/-- What follows a line of which nothing but a comment is left. -/
private def afterLine? (cs : List Char) : Option (List Char) :=
  match skipComment (skipSpace cs) with
  | [] => some []
  | rest => newline? rest

private def skipLines : Nat → List Char → List Char
  | 0, cs => cs
  | fuel + 1, cs =>
    let rest := skipComment (skipSpace cs)
    match newline? rest with
    | some rest => skipLines fuel rest
    | none => rest

private def isBareChar (c : Char) : Bool := c.isAlphanum || c = '_' || c = '-'

private def simpleKey? : List Char → Option (String × List Char)
  | '"' :: rest => basic? rest
  | '\'' :: rest => literal? rest
  | cs =>
    let key := cs.takeWhile isBareChar
    if key = [] then none else some (String.ofList key, cs.dropWhile isBareChar)

/-- Reads a dotted key of at most `depth` parts, and the spaces around it. -/
private def keyPath? : Nat → List Char → Option (List String × List Char)
  | 0, _ => none
  | depth + 1, cs => do
    let (key, rest) ← simpleKey? (skipSpace cs)
    match skipSpace rest with
    | '.' :: rest =>
      let (path, rest) ← keyPath? depth rest
      some (key :: path, rest)
    | rest => some ([key], rest)

mutual

/-- Reads a value. Each step uses up a character, so fuel above twice the length of the text never
runs out. -/
private def value? (fuel depth : Nat) (cs : List Char) : Option (Value × List Char) :=
  match fuel with
  | 0 => none
  | fuel + 1 =>
    match cs with
    | '"' :: '"' :: '"' :: rest => (multiline? '"' rest).map fun (s, rest) => (.text s, rest)
    | '\'' :: '\'' :: '\'' :: rest => (multiline? '\'' rest).map fun (s, rest) => (.text s, rest)
    | '"' :: rest => (basic? rest).map fun (s, rest) => (.text s, rest)
    | '\'' :: rest => (literal? rest).map fun (s, rest) => (.text s, rest)
    | '[' :: rest =>
        if depth = 0 then none else (afterItems? fuel (depth - 1) rest).map (.other, ·)
    | '\x7b' :: rest =>
      if depth = 0 then none
      else match skipSpace rest with
        | '\x7d' :: rest => some (.other, rest)
        | rest => (afterMembers? fuel (depth - 1) [] rest).map (.other, ·)
    | cs => (afterScalar? cs).map (.other, ·)

/-- What follows a list, from the next item or the closing bracket on. -/
private def afterItems? (fuel depth : Nat) (cs : List Char) : Option (List Char) :=
  match fuel with
  | 0 => none
  | fuel + 1 =>
    match skipLines cs.length cs with
    | ']' :: rest => some rest
    | cs =>
      match value? fuel depth cs with
      | none => none
      | some (_, rest) =>
        match skipLines rest.length rest with
        | ']' :: rest => some rest
        | ',' :: rest => afterItems? fuel depth rest
        | _ => none

/-- What follows a table on one line, from the next member on. -/
private def afterMembers? (fuel depth : Nat) (members : Members) (cs : List Char) :
    Option (List Char) :=
  match fuel with
  | 0 => none
  | fuel + 1 =>
    match keyPath? maxDepth cs with
    | some (path, '=' :: rest) =>
      match value? fuel depth (skipSpace rest) with
      | none => none
      | some (v, rest) =>
        match members.add v path, skipSpace rest with
        | some _, '\x7d' :: rest => some rest
        | some members, ',' :: rest => afterMembers? fuel depth members rest
        | _, _ => none
    | _ => none

end

/-- Reads the header of a table or of a list of tables, after its first bracket. -/
private def header? (root : Members) (cs : List Char) :
    Option (Members × List String × List Char) := do
  let (isList, cs) := match cs with
    | '[' :: rest => (true, rest)
    | cs => (false, cs)
  let (path, rest) ← keyPath? maxDepth cs
  let key ← path.getLast?
  let start := if isList then Members.pushTable key else Members.openTable key
  let root ← root.along start path.dropLast
  match isList, rest with
  | true, ']' :: ']' :: rest => some (root, path, rest)
  | false, ']' :: rest => some (root, path, rest)
  | _, _ => none

private def assignment? (header : List String) (root : Members) (cs : List Char) :
    Option (Members × List Char) := do
  let (path, rest) ← keyPath? maxDepth cs
  match rest with
  | '=' :: rest =>
    let (v, rest) ← value? (2 * rest.length + 2) maxDepth (skipSpace rest)
    let root ← root.along (fun members => members.add v path) header
    some (root, rest)
  | _ => none

/-- Reads lines into the table of the header. There are no more lines than characters. -/
private def lines? (fuel : Nat) (header : List String) (root : Members) (cs : List Char) :
    Option Members :=
  match fuel with
  | 0 => some root
  | fuel + 1 =>
    match skipSpace cs with
    | [] => some root
    | '[' :: rest => do
      let (root, header, rest) ← header? root rest
      lines? fuel header root (← afterLine? rest)
    | cs =>
      match afterLine? cs with
      | some rest => lines? fuel header root rest
      | none => do
        let (root, rest) ← assignment? header root cs
        lines? fuel header root (← afterLine? rest)

def read? (text : String) : Option (List (String × Value)) :=
  let cs := match text.toList with
    | '\ufeff' :: cs => cs
    | cs => cs
  (lines? (cs.length + 1) [] [] cs).map fun members => members.map fun m => (m.1, m.2.toValue)

end Gamemaster.Toml
