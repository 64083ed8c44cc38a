import Gamemaster.Store.Commit
/-!
Requests in progress. A task is a sequence of steps, each of which reads or changes the store at
once; between two steps other tasks may take theirs. Once a change is made, its event is
published.
-/
namespace Gamemaster

inductive Task (α : Type) where
  | done (answer : α)
  /-- Changes the store, and goes on by what the store was before. -/
  | step (effect : Store → Store) (next : Store → Task α)
  | publish (event : Event) (next : Task α)

namespace Task

def bind : Task α → (α → Task β) → Task β
  | done a, f => f a
  | step effect next, f => step effect fun s => (next s).bind f
  | publish e next, f => publish e (next.bind f)

instance : Monad Task where
  pure := done
  bind := bind

structure Outcome (α : Type) where
  answer : α
  store : Store
  published : List Event

def run : Task α → Store → Outcome α
  | done a, s => ⟨a, s, []⟩
  | step effect next, s => (next s).run (effect s)
  | publish e next, s =>
    let rest := next.run s
    { rest with published := e :: rest.published }

end Task

abbrev Service (α : Type) := ExceptT Refusal Task α

namespace Service

def query (question : Store → Except Refusal α) : Service α :=
  ExceptT.mk (.step id fun s => .done (s.ask question))

/-- Changes the store, or leaves it as it is if the change is refused. -/
def transact (change : Store → Except Refusal (α × Store)) : Service α :=
  ExceptT.mk <|
    .step
      (fun s => match s.ask change with
        | .ok (_, s') => s'
        | .error _ => s)
      fun s => .done ((s.ask change).map (·.1))

def publish (e : Event) : Service Unit :=
  ExceptT.mk (.publish e (.done (.ok ())))

end Service

end Gamemaster
