import Gamemaster.Proofs.Play.Campaign
import Gamemaster.Proofs.Play.Combat

namespace Gamemaster.Request

/-- What may be answered to a request that had no effect. One that writes is refused. -/
def Idle (r : Request) (a : Except Refusal Answer) (_ : Store) : Prop :=
  r.writes = true → ∃ e, a = .error e

def TakesEffect (r : Request) (a : Except Refusal Answer) (s s' : Store) : Prop :=
  ∃ b, a = .ok b ∧ Effect r b s s'

theorem atomic_of_refused {r : Request} {wrap : α → Answer} {x : Service α} {s : Store}
    (h : Service.Atomic Service.Refused (fun a => Effect r (wrap a)) x s) :
    Service.Atomic r.Idle (Effect r) (do return wrap (← x)) s := by
  refine h.map (fun a s ha _ => ?_) (fun e s _ _ => ⟨e, rfl⟩) fun _ _ _ ha => ha
  obtain ⟨e, he⟩ := ha
  simp at he

theorem atomic_of_reads {r : Request} {wrap : α → Answer} {x : Service α} {s : Store}
    (hr : r.writes = false)
    (h : Service.Atomic (fun _ _ => True) (fun a => Effect r (wrap a)) x s) :
    Service.Atomic r.Idle (Effect r) (do return wrap (← x)) s := by
  refine h.map (fun a s _ hwrites => ?_) (fun e s _ hwrites => ?_) fun _ _ _ ha => ha
  · simp [hr] at hwrites
  · simp [hr] at hwrites

theorem atomic_query {r : Request} {wrap : α → Answer} {question : Store → Except Refusal α}
    {s : Store} (hr : r.writes = false) :
    Service.Atomic r.Idle (Effect r) (do return wrap (← Service.query question)) s :=
  atomic_of_reads hr
    ((Service.Reads.query question s).imp (fun _ _ _ => trivial) fun _ _ _ h => h.elim)

theorem serve_atomic (r : Request) {s : Store} (hs : s.Sound) :
    Service.Atomic r.Idle (Effect r) r.serve s := by
  cases r with
  | start r => exact atomic_of_refused (Service.start_atomic r s)
  | act r => exact atomic_of_refused (Service.applyAction_atomic r s)
  | nextTurn r =>
      refine atomic_of_refused
        ((Service.nextTurn_atomic r hs).imp (fun a s' h => ?_) fun _ _ _ h => h)
      obtain ⟨e, rfl, -⟩ := h
      exact ⟨e, rfl⟩
  | view combatId => exact atomic_of_reads rfl (Service.view_reads combatId s).atomic
  | buildEncounter r => exact atomic_of_refused (Service.buildEncounter_atomic r s)
  | readEncounter id => exact atomic_query rfl
  | createTable r => exact atomic_of_refused (Service.createTable_atomic r s)
  | readTable id => exact atomic_query rfl
  | rollTable r fresh => exact atomic_of_reads rfl (Service.rollTable_reads r fresh s).atomic
  | rollDice r fresh => exact atomic_of_reads rfl (Service.Reads.ofExcept trivial).atomic
  | recentEvents campaignId limit => exact atomic_query rfl
  | health => exact @atomic_query _ _ (fun _ => .healthy) _ _ rfl

theorem not_settled {r : Request} (hwrites : r.writes = true) {t : Task (Except Refusal Answer)}
    {s : Store} {a : Answer} (hatomic : t.Atomic r.Idle r.TakesEffect s) :
    ¬t.Settled (.ok a) := by
  intro hsettled
  cases hsettled with
  | done =>
      obtain ⟨e, he⟩ := hatomic hwrites
      simp at he
  | publish _ => exact hatomic.elim

end Gamemaster.Request
