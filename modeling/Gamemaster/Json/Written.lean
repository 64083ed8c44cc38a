import Gamemaster.Json.Basic
/-!
JSON texts taken apart. A text may be well formed and still have parts that stand for no value;
such a part does no harm where nothing looks at it.
-/
namespace Gamemaster.Json

/-- A well-formed text. Members are as written, repeated keys included. -/
inductive Written where
  | null
  | bool (value : Bool)
  | int (value : Int)
  | real (value : Double)
  | text (value : String)
  | list (items : List Written)
  | object (members : List (String × Written))
  /-- A part without a value: a number out of range, a text or a key with half a character, or
  brackets nested too deep. -/
  | void
  deriving Inhabited

namespace Written

mutual

def isWhole : Written → Bool
  | .list items => itemsAreWhole items
  | .object members => membersAreWhole members
  | .void => false
  | _ => true

def itemsAreWhole : List Written → Bool
  | [] => true
  | w :: ws => isWhole w && itemsAreWhole ws

def membersAreWhole : List (String × Written) → Bool
  | [] => true
  | (_, w) :: rest => isWhole w && membersAreWhole rest

end

end Written

mutual

def written : Json → Written
  | .null => .null
  | .bool b => .bool b
  | .int n => .int n
  | .real x => .real x
  | .text s => .text s
  | .list items => .list (writtenItems items)
  | .object members => .object (writtenMembers members)

def writtenItems : List Json → List Written
  | [] => []
  | j :: js => written j :: writtenItems js

def writtenMembers : List (String × Json) → List (String × Written)
  | [] => []
  | (k, v) :: rest => (k, written v) :: writtenMembers rest

end

/-- The key of a text inside a text: an object that begins with it has no other member, and stands
for the value of the text in that member. -/
def embeddedKey : String := "$serde_json::private::RawValue"

private def soleText? : List (String × Written) → Option String
  | [(_, .text s)] => some s
  | _ => none

mutual

/-- The value of what is written, if all of it has one. Of equal keys the last one counts. -/
def Written.valueWith? (embedded? : String → Option Json) : Written → Option Json
  | .null => some .null
  | .bool b => some (.bool b)
  | .int n => some (.int n)
  | .real x => some (.real x)
  | .text s => some (.text s)
  | .list items => (itemsWith? embedded? items).map .list
  | .object members =>
    if members.head?.map (·.1) = some embeddedKey then (soleText? members).bind embedded?
    else (membersWith? embedded? [] members).map .object
  | .void => none

def Written.itemsWith? (embedded? : String → Option Json) : List Written → Option (List Json)
  | [] => some []
  | w :: ws =>
    match w.valueWith? embedded?, itemsWith? embedded? ws with
    | some j, some js => some (j :: js)
    | _, _ => none

/-- The values of members, put to those in `done` in the order of their keys. -/
def Written.membersWith? (embedded? : String → Option Json) (done : List (String × Json)) :
    List (String × Written) → Option (List (String × Json))
  | [] => some done
  | (k, w) :: rest =>
    match w.valueWith? embedded? with
    | some j => membersWith? embedded? (insertMember k j done) rest
    | none => none

end

end Gamemaster.Json
