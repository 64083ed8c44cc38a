import Gamemaster.Http.MediaType
import Gamemaster.Http.Route

namespace Gamemaster.Http

structure Request where
  method : String
  target : Target
  contentType : Option String
  body : String
  deriving DecidableEq, Repr

def isHeaderChar (c : Char) : Bool := c = '\t' || (0x20 ≤ c.toNat && c.toNat ≠ 0x7F)

def maxBody : Nat := 2 * 1024 * 1024

namespace Request

def of? (method target : String) (contentType : Option String) (body : String) : Option Request :=
  do
  let target ← Target.parse? target
  if method ≠ "" ∧ method.toList.all isTokenChar ∧
      (contentType.getD "").toList.all isHeaderChar then
    some ⟨method, target, contentType, body⟩
  else none

def json? (r : Request) : Option Json.Written := do
  let mediaType ← r.contentType.bind MediaType.parse?
  if mediaType.isJson ∧ r.body.utf8ByteSize ≤ maxBody then Json.Written.read? r.body else none

end Request

/-- Answers a request. Any path may be asked for its options, and the head of a page is the page
without its body. -/
def serve (r : Request) : Task Response :=
  if r.method = "OPTIONS" then return .bare Response.ok
  else
    match Route.ofPath? r.target.path with
    | none => return .bare 404
    | some (.page page) =>
      match r.method with
      | "GET" => page.read r.target.query
      | "HEAD" => do return .bare (← page.read r.target.query).status
      | _ => return .bare 405
    | some (.command command) =>
      match r.method with
      | "POST" =>
        match r.json?.bind fun body => command.obey? body with
        | some task => task
        | none => return .unreadable
      | _ => return .bare 405

end Gamemaster.Http
