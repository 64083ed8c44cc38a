import Gamemaster.Play.Campaign
import Gamemaster.Play.Combat
/-!
Many calls over one store. Calls come in at any time, and the steps of the calls in progress
follow one another in any order.
-/
namespace Gamemaster

namespace Task

def effect : Task α → Store → Store
  | step effect _, s => effect s
  | _, s => s

/-- What is left of a task after its next step. -/
def rest : Task α → Store → Task α
  | done a, _ => done a
  | step _ next, s => next s
  | publish _ next, _ => next

def event? : Task α → Option Event
  | publish e _ => some e
  | _ => none

end Task

inductive Request where
  | start (r : StartRequest)
  | act (r : ActionRequest)
  | nextTurn (r : TurnRequest)
  | view (combatId : String)
  | buildEncounter (r : EncounterRequest)
  | readEncounter (id : String)
  | createTable (r : TableRequest)
  | readTable (id : String)
  /-- A request to roll comes with the fresh seed that is drawn for it. -/
  | rollTable (r : TableRollRequest) (fresh : String)
  | rollDice (r : RollRequest) (fresh : String)
  | recentEvents (campaignId : String) (limit : Nat)
  | health

inductive Answer where
  | started (a : StartAnswer)
  | acted (a : ActionAnswer)
  | turned (a : TurnAnswer)
  | combat (v : CombatView)
  | built (a : EncounterAnswer)
  | encounter (e : Option Encounter)
  | created (a : TableAnswer)
  | table (t : Option RandomTable)
  | tableRolled (a : TableRollAnswer)
  | diceRolled (a : Dice.Roll)
  | events (es : List Event)
  | healthy

namespace Request

def serve : Request → Service Answer
  | start r => do return .started (← Service.start r)
  | act r => do return .acted (← Service.applyAction r)
  | nextTurn r => do return .turned (← Service.nextTurn r)
  | view combatId => do return .combat (← Service.view combatId)
  | buildEncounter r => do return .built (← Service.buildEncounter r)
  | readEncounter id => do return .encounter (← Service.query (Store.encounter? id))
  | createTable r => do return .created (← Service.createTable r)
  | readTable id => do return .table (← Service.query (Store.table? id))
  | rollTable r fresh => do return .tableRolled (← Service.rollTable r fresh)
  | rollDice r fresh => do return .diceRolled (← Service.rollDice r fresh)
  | recentEvents campaignId limit => do return .events (← Service.recentEvents campaignId limit)
  | health => do
    Service.health
    return .healthy

/-- The requests that change the rows of the store and are logged. -/
def writes : Request → Bool
  | start _ | act _ | nextTurn _ | buildEncounter _ | createTable _ => true
  | _ => false

end Request

structure Call where
  request : Request
  task : Task (Except Refusal Answer)

namespace Call

def of (r : Request) : Call := ⟨r, r.serve.run⟩

def answer? (c : Call) : Option (Except Refusal Answer) :=
  match c.task with
  | .done a => some a
  | _ => none

end Call

structure World where
  store : Store
  /-- In the order in which they came in. -/
  calls : List Call
  /-- The places of the calls that have committed a transaction, in the order of the commits. -/
  commits : List Nat
  published : List Event

inductive Move where
  | call (r : Request)
  /-- The call at a place takes its next step. -/
  | step (i : Nat)

namespace World

def opened (onFile : Bool) : World := ⟨.empty onFile, [], [], []⟩

/-- The call at a place takes its next step, if it has one. The step commits a transaction if the
log is longer after it. -/
def step (i : Nat) (w : World) : World :=
  match w.calls[i]? with
  | none => w
  | some c =>
    let store := c.task.effect w.store
    { store
      calls := w.calls.set i ⟨c.request, c.task.rest w.store⟩
      commits := if store.log = w.store.log then w.commits else w.commits ++ [i]
      published := w.published ++ c.task.event?.toList }

def make (w : World) : Move → World
  | .call r => { w with calls := w.calls ++ [.of r] }
  | .step i => w.step i

def after (w : World) (moves : List Move) : World := moves.foldl make w

def answer? (w : World) (i : Nat) : Option (Except Refusal Answer) :=
  w.calls[i]?.bind Call.answer?

def request? (w : World) (i : Nat) : Option Request := w.calls[i]?.map Call.request

end World

end Gamemaster
