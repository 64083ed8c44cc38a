import Gamemaster.Proofs.Play.Combat
import Gamemaster.Proofs.Task.Run

namespace Gamemaster

namespace Service

theorem rosterOf_tallies (r : StartRequest) : Tallies (rosterOf r) := by
  unfold rosterOf
  split
  · exact .pure _
  · split
    · exact .pure _
    · refine .bind (.query _) fun found => ?_
      split
      · exact .throw _
      · exact .pure _

theorem start_tallies (r : StartRequest) : Tallies (start r) := by
  unfold start
  refine .ite (.throw _) (.bind (rosterOf_tallies r) fun roster => .ite (.throw _) ?_)
  cases Roster.fault? roster with
  | some fault => exact .throw _
  | none =>
      refine .transact fun s a s' hchange => ?_
      rcases hinserted : s.insertCombat r.campaignId r.encounterId roster with
        ⟨⟨combat, combatants⟩, s₁⟩
      rw [hinserted] at hchange
      obtain ⟨rfl, hlogged⟩ := logged_eq_ok hchange
      obtain ⟨-, -, rfl⟩ := Store.eq_of_insertCombat hinserted
      exact tallies_publish _ hlogged rfl

theorem buildEncounter_tallies (r : EncounterRequest) : Tallies (buildEncounter r) := by
  unfold buildEncounter
  refine .ite (.throw _) (.ite (.throw _) (.ite (.throw _) ?_))
  cases Roster.fault? r.roster with
  | some fault => exact .throw _
  | none =>
      refine .transact fun s a s' hchange => ?_
      obtain ⟨rfl, hlogged⟩ := logged_eq_ok hchange
      exact tallies_publish _ hlogged rfl

theorem createTable_tallies (r : TableRequest) : Tallies (createTable r) := by
  unfold createTable
  refine .ite (.throw _) ?_
  cases Dice.Formula.parse r.dice with
  | error fault => exact .throw _
  | ok formula =>
      refine .ite (.throw _) ?_
      cases RandomTable.descending? r.entries with
      | some e => exact .throw _
      | none =>
          refine .transact fun s a s' hchange => ?_
          obtain ⟨rfl, hlogged⟩ := logged_eq_ok hchange
          exact tallies_publish _ hlogged rfl

theorem locate_tallies (combatId combatantId : String) :
    Tallies (locate combatId combatantId) := by
  refine .bind (.query _) fun found => ?_
  split
  · exact .throw _
  · split
    · exact .pure _
    · exact .throw _

theorem attempt_tallies (r : ActionRequest) (action : Action) (campaignId : Option String)
    (attempts : Nat) (c : Combatant) : Tallies (attempt r action campaignId attempts c) := by
  induction attempts generalizing c with
  | zero => exact .throw _
  | succ attempts ih =>
      rw [attempt_succ]
      refine .transact fun s committed s' hchange => ?_
      rcases write_eq_ok hchange with ⟨rfl, -, rfl⟩ | ⟨rfl, s₁, hwritten, hlogged⟩
      · rw [if_neg Bool.false_ne_true]
        split
        · exact Tallies.throw _ s'
        · exact Tallies.bind (locate_tallies _ _) ih s'
      · obtain ⟨-, rfl⟩ := Store.eq_of_commitCombatant? hwritten
        exact tallies_publish _ hlogged rfl

theorem applyAction_tallies (r : ActionRequest) : Tallies (applyAction r) := by
  refine .bind (locate_tallies _ _) fun c => ?_
  split
  · exact .throw _
  · exact .bind (.query _) fun combat => attempt_tallies r _ _ _ c

theorem findCombat_tallies (id : String) : Tallies (findCombat id) := by
  refine .bind (.query _) fun found => ?_
  split
  · exact .throw _
  · exact .pure _

theorem ofTurn_tallies (turn : Except TurnFault α) : Tallies (ofTurn turn) := by
  unfold ofTurn
  split
  · exact .pure _
  · exact .throw _

theorem turnFrom_tallies (r : TurnRequest) (combat : Combat) : Tallies (turnFrom r combat) := by
  refine .bind (.query _) fun order => .bind (ofTurn_tallies _) fun turn => ?_
  refine .transact fun s committed s' hchange => ?_
  rcases write_eq_ok hchange with ⟨rfl, -, rfl⟩ | ⟨rfl, s₁, hwritten, hlogged⟩
  · exact Tallies.bind (.query _) (fun actual => .throw _) s'
  · obtain ⟨-, rfl⟩ := Store.eq_of_commitTurn? hwritten
    exact tallies_publish _ hlogged rfl

theorem nextTurn_tallies (r : TurnRequest) : Tallies (nextTurn r) := by
  rw [nextTurn_eq]
  exact .bind (findCombat_tallies _) fun combat => .bind (ofTurn_tallies _) fun _ =>
    turnFrom_tallies r combat

theorem view_tallies (combatId : String) : Tallies (view combatId) :=
  .bind (findCombat_tallies _) fun _ => .bind (.query _) fun _ => .pure _

theorem rollTable_tallies (r : TableRollRequest) (fresh : String) :
    Tallies (rollTable r fresh) := by
  refine .bind (.query _) fun found => ?_
  split
  · exact .throw _
  · split
    · exact .throw _
    · exact .ofExcept _

end Service

theorem Request.serve_tallies (r : Request) : Service.Tallies r.serve := by
  cases r with
  | start r => exact .bind (Service.start_tallies r) fun _ => .pure _
  | act r => exact .bind (Service.applyAction_tallies r) fun _ => .pure _
  | nextTurn r => exact .bind (Service.nextTurn_tallies r) fun _ => .pure _
  | view combatId => exact .bind (Service.view_tallies combatId) fun _ => .pure _
  | buildEncounter r => exact .bind (Service.buildEncounter_tallies r) fun _ => .pure _
  | readEncounter id => exact .bind (.query _) fun _ => .pure _
  | createTable r => exact .bind (Service.createTable_tallies r) fun _ => .pure _
  | readTable id => exact .bind (.query _) fun _ => .pure _
  | rollTable r fresh => exact .bind (Service.rollTable_tallies r fresh) fun _ => .pure _
  | rollDice r fresh => exact .bind (.ofExcept _) fun _ => .pure _
  | recentEvents campaignId limit => exact .bind (.query _) fun _ => .pure _
  | health => exact .bind (.query _) fun _ => .pure _

end Gamemaster
