import Gamemaster.Http.Response
import Gamemaster.Http.Target
import Gamemaster.Number.Literal
import Gamemaster.Release
import Gamemaster.Wire.Answer
import Gamemaster.Wire.Request

namespace Gamemaster.Http

/-- What can be read. Ids are as they stand in the path, still encoded. -/
inductive Page where
  | root
  | health
  | combat (id : String)
  | events (campaignId : String)
  deriving DecidableEq, Repr

inductive Command where
  | rollDice
  | startCombat
  | applyAction
  | nextTurn
  | buildEncounter
  | createTable
  | rollTable
  deriving DecidableEq, Repr

inductive Route where
  | page (page : Page)
  | command (command : Command)
  deriving DecidableEq, Repr

/-- The route of a path. The names of commands are no ids of combats. -/
def Route.ofPath? (path : String) : Option Route :=
  match (path.toList.splitOn '/').map String.ofList with
  | ["", ""] => some (.page .root)
  | ["", "health"] => some (.page .health)
  | ["", "dice", "roll"] => some (.command .rollDice)
  | ["", "combat", "start"] => some (.command .startCombat)
  | ["", "combat", "apply"] => some (.command .applyAction)
  | ["", "combat", "next_turn"] => some (.command .nextTurn)
  | ["", "combat", id] => if id = "" then none else some (.page (.combat id))
  | ["", "encounter", "build"] => some (.command .buildEncounter)
  | ["", "table", "create"] => some (.command .createTable)
  | ["", "table", "roll"] => some (.command .rollTable)
  | ["", "events", id] => if id = "" then none else some (.page (.events id))
  | _ => none

def defaultLimit : Nat := 50

/-- The limit of a page of events. It may be named once. -/
def limitOf? (query : Option String) : Option Nat :=
  match queryValues "limit" (query.getD "") with
  | [] => some defaultLimit
  | [some value] => Literal.bounded? (2 ^ 32 - 1) value.toList
  | _ => none

private def texts (status : Nat) (members : List (String × String)) : Response :=
  .ofJson status (.object (members.map fun m => (m.1, .text m.2)))

namespace Page

def read (query : Option String) : Page → Task Response
  | root => return texts Response.ok [("name", serverName), ("version", version)]
  | health => do
    match ← Service.health.run with
    | .ok () => return texts Response.ok [("status", "healthy"), ("database", "ok")]
    | .error _ => return texts 503 [("status", "unhealthy"), ("database", "error")]
  | combat id =>
    match percentDecode? id.toList with
    | none => return .bare 400
    | some id => respond Response.ok CombatView.toJson (Service.view id)
  | events campaignId =>
    match percentDecode? campaignId.toList, limitOf? query with
    | some campaignId, some limit =>
      respond Response.ok (fun events => .list (events.map Event.toJson))
        (Service.recentEvents campaignId limit)
    | _, _ => return .bare 400

end Page

namespace Command

/-- Rolls with a fresh seed at hand. Its name is taken if an answer tells it: if the caller gave
no seed, and the roll succeeds. -/
def seeding (given : Option String) (roll : String → Service α) : Service α :=
  ExceptT.mk <| .step id fun s =>
    (roll s.nextSeed).run.bind fun
      | .ok rolled =>
        if given.isNone then
          .step Store.takeSeed fun _ => .done (.ok rolled)
        else .done (.ok rolled)
      | .error e => .done (.error e)

/-- Obeys a command, unless its body is not the command's request. -/
def obey? (body : Json.Written) : Command → Option (Task Response)
  | rollDice => (RollRequest.ofWritten? body).map fun r =>
    respond Response.ok Dice.Roll.toJson (seeding r.seed (Service.rollDice r))
  | startCombat => (StartRequest.ofWritten? body).map fun r =>
    respond Response.created StartAnswer.toJson (Service.start r)
  | applyAction => (ActionRequest.ofWritten? body).map fun r =>
    respond Response.ok ActionAnswer.toJson (Service.applyAction r)
  | nextTurn => (TurnRequest.ofWritten? body).map fun r =>
    respond Response.ok TurnAnswer.toJson (Service.nextTurn r)
  | buildEncounter => (EncounterRequest.ofWritten? body).map fun r =>
    respond Response.created EncounterAnswer.toJson (Service.buildEncounter r)
  | createTable => (TableRequest.ofWritten? body).map fun r =>
    respond Response.created TableAnswer.toJson (Service.createTable r)
  | rollTable => (TableRollRequest.ofWritten? body).map fun r =>
    respond Response.ok TableRollAnswer.toJson (seeding r.seed (Service.rollTable r))

end Command

end Gamemaster.Http
