import Gamemaster.Json.Printer
import Gamemaster.Task

namespace Gamemaster

def Refusal.Kind.status : Refusal.Kind → Nat
  | notFound => 404
  | versionConflict => 409
  | storage => 500
  | malformedFormula => 400
  | invalidModifier => 400
  | invalidAction => 400
  | emptyRoster => 400
  | wrongCombat => 400
  | invalidInput => 400

namespace Http

structure Response where
  status : Nat
  /-- A JSON text, or empty. -/
  body : String
  deriving DecidableEq, Repr

namespace Response

def ok : Nat := 200

def created : Nat := 201

def bare (status : Nat) : Response := ⟨status, ""⟩

def ofJson (status : Nat) (j : Json) : Response := ⟨status, j.render⟩

/-- The body tells the kind of a refusal, and its cause unless the store is at fault. -/
def refused (r : Refusal) : Response :=
  let kind := ("kind", .text r.kind.text)
  let cause := ("error", .text r.message)
  ofJson r.kind.status (.object (if r.kind = .storage then [kind] else [kind, cause]))

def unreadable : Response :=
  let kind : Refusal.Kind := .invalidInput
  ofJson kind.status (.object [("kind", .text kind.text)])

end Response

def respond (status : Nat) (encode : α → Json) (service : Service α) : Task Response := do
  match ← service.run with
  | .ok answer => return .ofJson status (encode answer)
  | .error r => return .refused r

end Http

end Gamemaster
