/-!
TOML documents: trees of tables, and how keys and headers make them grow. A key is given once, and
a table is opened by one header.
-/
namespace Gamemaster.Toml

inductive Value where
  | text (s : String)
  | other
  deriving DecidableEq, Repr

/-- What brought a table into being. -/
inductive Origin where
  | passage
  | dotted
  | header
  deriving DecidableEq, Repr

inductive Node where
  | value (v : Value)
  | table (origin : Origin) (members : List (String × Node))
  /-- The last table of a list; the ones before it do not change any more. -/
  | tables (last : List (String × Node))

abbrev Members := List (String × Node)

namespace Members

def node? (key : String) (members : Members) : Option Node :=
  (members.find? fun m => m.1 = key).map (·.2)

def set (key : String) (node : Node) (members : Members) : Members :=
  if members.any fun m => m.1 = key then
    members.map fun m => if m.1 = key then (key, node) else m
  else members ++ [(key, node)]

/-- Edits the members at the end of a path of headers. -/
def along (edit : Members → Option Members) : List String → Members → Option Members
  | [], members => edit members
  | key :: path, members =>
    match members.node? key with
    | none => (along edit path []).map fun inner => members.set key (.table .passage inner)
    | some (.table origin inner) =>
      (along edit path inner).map fun inner => members.set key (.table origin inner)
    | some (.tables last) => (along edit path last).map fun last => members.set key (.tables last)
    | some (.value _) => none

/-- Adds a value under a dotted key. It adds nothing to a table with a header, and its last part
goes only into a table that dotted keys made. -/
def add (v : Value) : List String → Members → Option Members
  | [], _ => none
  | [key], members =>
    if (members.node? key).isSome then none else some (members.set key (.value v))
  | key :: path, members =>
    match members.node? key with
    | none => (add v path []).map fun inner => members.set key (.table .dotted inner)
    | some (.table origin inner) =>
      if origin = .header ∨ (origin = .passage ∧ path.length = 1) then none
      else (add v path inner).map fun inner => members.set key (.table origin inner)
    | some (.tables last) =>
      if path.length = 1 then none
      else (add v path last).map fun last => members.set key (.tables last)
    | some (.value _) => none

def openTable (key : String) (members : Members) : Option Members :=
  match members.node? key with
  | none => some (members.set key (.table .header []))
  | some (.table .passage inner) => some (members.set key (.table .header inner))
  | _ => none

def pushTable (key : String) (members : Members) : Option Members :=
  match members.node? key with
  | none => some (members.set key (.tables []))
  | some (.tables _) => some (members.set key (.tables []))
  | _ => none

end Members

def Node.toValue : Node → Value
  | value v => v
  | _ => .other

end Gamemaster.Toml
