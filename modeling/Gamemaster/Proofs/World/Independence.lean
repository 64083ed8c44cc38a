import Gamemaster.Proofs.Play.Uninterrupted
import Gamemaster.Proofs.Serial
import Gamemaster.Proofs.World.Audit

namespace Gamemaster

theorem find?_map_of_key {α : Type} (key : α → String) (f : α → α) (hf : ∀ x, key (f x) = key x)
    (rows : List α) (id : String) :
    ((rows.map f).find? fun x => key x = id) = (rows.find? fun x => key x = id).map f := by
  rw [List.find?_map]
  congr 2
  funext x
  simp [hf]

theorem CombatRow.read_turn (row : CombatRow) (id : String) (t : Turn) :
    CombatRow.read
        (if row.combat.id = id then { row with combat := row.combat.take t } else row) =
      row.read.map fun c => if c.id = id then c.take t else c := by
  by_cases hactive : row.status = activeStatus <;> by_cases hid : row.combat.id = id <;>
    simp [CombatRow.read, hactive, hid, Except.map]

namespace Store

variable {s : Store}

theorem combatant?_act {c : Combatant} {id : String} (action : Action) (hid : c.id ≠ id) :
    (s.act c action).combatant? id = s.combatant? id := by
  have hfind := find?_map_of_key (fun k : Kept Combatant => k.record.id)
    (fun row => if row.record.id = c.id then (Kept.intact c).acted action else row)
    (fun row => by
      split
      · rename_i h
        rw [h]
        exact Combatant.id_apply action c
      · rfl) s.combatants id
  unfold combatant?
  rw [show (s.act c action).combatants = s.combatants.map _ from rfl, hfind]
  cases hrow : s.combatants.find? fun k => k.record.id = id with
  | none => rfl
  | some row =>
      have hrowId : row.record.id = id := by simpa using List.find?_some hrow
      rw [Option.map_some, if_neg fun h => hid (h.symm.trans hrowId)]

theorem combat?_turn (id id' : String) (t : Turn) (s : Store) :
    (s.turn id t).combat? id' =
      (s.combat? id').map (Option.map fun c => if c.id = id then c.take t else c) := by
  have hfind := find?_map_of_key (fun row : CombatRow => row.combat.id)
    (fun row => if row.combat.id = id then { row with combat := row.combat.take t } else row)
    (fun row => by split <;> rfl) s.combats id'
  unfold combat?
  rw [show (s.turn id t).combats = s.combats.map _ from rfl, hfind]
  cases s.combats.find? fun row => row.combat.id = id' with
  | none => rfl
  | some row =>
      rw [Option.map_some]
      dsimp only
      rw [CombatRow.read_turn]
      cases row.read <;> rfl

theorem actionOf_act {c : Combatant} {r : ActionRequest} (action : Action)
    (hid : c.id ≠ r.targetId) :
    (s.act c action).actionOf r = s.actionOf r := by
  unfold actionOf locate
  rw [combatant?_act action hid]
  rfl

theorem actionOf_turn (r : ActionRequest) (id : String) (t : Turn) (s : Store) :
    (s.turn id t).actionOf r = s.actionOf r := by
  unfold actionOf
  rw [combat?_turn]
  change (s.locate _ _ >>= _) = _
  cases s.locate r.combatId r.targetId with
  | error e => rfl
  | ok c =>
      rw [ok_bind, ok_bind]
      cases Action.ofRequest r.tag r.value r.condition with
      | error fault => rfl
      | ok action =>
          dsimp only
          rcases s.combat? r.combatId with e | _ | combat
          · rfl
          · rfl
          · change Except.ok (c, action, some (ite _ _ _ : Combat).campaignId) = _
            split <;> rfl

theorem findCombat_turn {id id' : String} (t : Turn) (hid : id ≠ id') :
    (s.turn id t).findCombat id' = s.findCombat id' := by
  unfold findCombat
  rw [combat?_turn]
  cases hfound : s.combat? id' with
  | error e => rfl
  | ok found =>
      cases found with
      | none => rfl
      | some combat =>
          obtain ⟨-, -, -, hcombat⟩ := mem_of_combat? hfound
          simp only [Except.map, Option.map_some]
          rw [if_neg fun h => hid (h.symm.trans hcombat)]

theorem turnOf_turn {r : TurnRequest} {id : String} (t : Turn) (hid : id ≠ r.combatId) :
    (s.turn id t).turnOf r = s.turnOf r := by
  unfold turnOf
  rw [findCombat_turn t hid]
  rfl

section Act

variable {k : Kept Combatant}

theorem readable_act (hs : s.Sound) (hk : k ∈ s.combatants) (hread : k.damaged = false)
    (hfits : Word.Fits (k.record.revision + 1)) (action : Action) (id : String) :
    (s.act k.record action).Readable id ↔ s.Readable id := by
  rw [act_eq hread]
  refine List.forall_mem_map.trans (forall₂_congr fun row hrow => ?_)
  have hcombat : (if row.record.id = k.record.id then k.acted action
      else row).record.combatId = row.record.combatId :=
    Combatant.combatId_of_identity (identity_row_acted hs hk hrow)
  rw [hcombat]
  split
  · rename_i hid
    rw [hs.eq_of_combatantId hrow hk hid]
    simp [Kept.acted, hread, hfits]
  · rfl

theorem combatantsOf_act (hs : s.Sound) (hk : k ∈ s.combatants) (hread : k.damaged = false)
    (hfits : Word.Fits (k.record.revision + 1)) (action : Action) (id : String) :
    ((s.act k.record action).combatantsOf id).map (List.map Combatant.identity) =
      (s.combatantsOf id).map (List.map Combatant.identity) := by
  have hroster : ((s.act k.record action).roster id).map Combatant.identity =
      (s.roster id).map Combatant.identity := by
    rw [act_eq hread]
    exact roster_map (fun row hrow => identity_row_acted hs hk hrow) rfl id
  have hreadable := readable_act hs hk hread hfits action id
  rw [combatantsOf_eq, combatantsOf_eq]
  by_cases hall : s.Readable id
  · rw [if_pos hall, if_pos (hreadable.mpr hall)]
    exact congrArg Except.ok hroster
  · rw [if_neg hall, if_neg (hreadable.not.mpr hall)]

theorem turnOf_act (hs : s.Sound) (hk : k ∈ s.combatants) (hread : k.damaged = false)
    (hfits : Word.Fits (k.record.revision + 1)) (action : Action) (r : TurnRequest) :
    ((s.act k.record action).turnOf r).map (fun (combat, order, t) =>
        (combat, order.map Combatant.identity, t)) =
      (s.turnOf r).map fun (combat, order, t) => (combat, order.map Combatant.identity, t) := by
  unfold turnOf
  change Except.map _ (s.findCombat r.combatId >>= _) = _
  cases s.findCombat r.combatId with
  | error e => rfl
  | ok combat =>
      rw [ok_bind, ok_bind]
      cases (combat.checkVersion r.version).mapError Refusal.ofTurnFault with
      | error e => rfl
      | ok _ =>
          rw [ok_bind, ok_bind]
          -- A turn needs no more of the order than its length.
          have hrest : ∀ found : Except Refusal (List Combatant),
              (do
                let order ← found
                let t ← (combat.advance r.version order.length).mapError Refusal.ofTurnFault
                return (combat, order, t) : Except Refusal _).map (fun (combat, order, t) =>
                  (combat, order.map Combatant.identity, t)) =
                (do
                  let order ← found.map (List.map Combatant.identity)
                  let t ← (combat.advance r.version order.length).mapError Refusal.ofTurnFault
                  return (combat, order, t)) := by
            rintro (e | order)
            · rfl
            · change Except.map _ (Except.mapError _ _ >>= _) = (Except.mapError _ _ >>= _)
              rw [List.length_map]
              cases combat.advance r.version order.length <;> rfl
          refine (hrest _).trans (Eq.trans ?_ (hrest _).symm)
          rw [combatantsOf_act hs hk hread hfits]

end Act

theorem act_comm {c c' : Combatant} (action action' : Action) (hid : c.id ≠ c'.id) (s : Store) :
    (s.act c action).act c' action' = (s.act c' action').act c action := by
  unfold act
  simp only [List.map_map]
  congr 1
  refine List.map_congr_left fun row _ => ?_
  have hkept : ∀ (c : Combatant) (action : Action),
      ((Kept.intact c).acted action).record.id = c.id := fun c action =>
      Combatant.id_apply action c
  by_cases h : row.record.id = c.id
  · have h' : row.record.id ≠ c'.id := fun h' => hid (h.symm.trans h')
    simp [h, hkept, hid]
  · by_cases h' : row.record.id = c'.id
    · simp [h', hkept, Ne.symm hid]
    · simp [h, h']

theorem turn_comm {id id' : String} (t t' : Turn) (hid : id ≠ id') (s : Store) :
    (s.turn id t).turn id' t' = (s.turn id' t').turn id t := by
  unfold turn
  simp only [List.map_map]
  congr 1
  refine List.map_congr_left fun row _ => ?_
  have htake : ∀ t : Turn, (row.combat.take t).id = row.combat.id := fun _ => rfl
  by_cases h : row.combat.id = id
  · simp [h, htake, hid]
  · by_cases h' : row.combat.id = id'
    · simp [h', htake, Ne.symm hid]
    · simp [h, h']

/-- A store without its log. -/
def rows (s : Store) : Store := { s with log := none }

end Store

/-- An answer without the hit points that a turn shows. -/
def Answer.withoutHp : Answer → Answer
  | .turned a =>
    .turned { a with active := a.active.map fun c => { c with currentHp := 0, tempHp := 0 } }
  | a => a

/-- What a request does that has read the store: its answer, its event, and what it writes. -/
structure Plan where
  answer : Answer
  event : Event
  write : Store → Store
  write_note : ∀ e s, write (s.note e) = (write s).note e

namespace Plan

def run : Except Refusal Plan → Store → Task.Outcome (Except Refusal Answer)
  | .error e, s => ⟨.error e, s, []⟩
  | .ok p, s => ⟨.ok p.answer, (p.write s).note p.event, [p.event]⟩

/-- What is written if the plan is not refused. -/
def writes : Except Refusal Plan → Store → Store
  | .error _, s => s
  | .ok p, s => p.write s

/-- Plans that do the same, and answer the same in a view. -/
structure Alike (view : Answer → Answer) (x y : Except Refusal Plan) : Prop where
  answer : x.map (fun p => view p.answer) = y.map fun p => view p.answer
  event : x.map Plan.event = y.map Plan.event
  writes : writes x = writes y

variable {view : Answer → Answer} {x y : Except Refusal Plan} {s s' : Store}

theorem Alike.refl (view : Answer → Answer) (x : Except Refusal Plan) : Alike view x x :=
  ⟨rfl, rfl, rfl⟩

theorem writes_comm
    (h : ∀ p q, x = .ok p → y = .ok q → p.write (q.write s) = q.write (p.write s)) :
    writes x (writes y s) = writes y (writes x s) := by
  cases x with
  | error e => rfl
  | ok p =>
      cases y with
      | error e => rfl
      | ok q => exact h p q rfl rfl

theorem answer_run (x : Except Refusal Plan) (s : Store) :
    (run x s).answer = x.map Plan.answer := by
  cases x <;> rfl

theorem published_run (x : Except Refusal Plan) (s : Store) :
    (run x s).published = (x.map Plan.event).toOption.toList := by
  cases x <;> rfl

theorem rows_run (x : Except Refusal Plan) (s : Store) :
    (run x s).store.rows = (writes x s).rows := by
  cases x <;> rfl

theorem rows_writes_run (x y : Except Refusal Plan) (s : Store) :
    (writes x (run y s).store).rows = (writes x (writes y s)).rows := by
  cases x with
  | error e => exact rows_run y s
  | ok p =>
      cases y with
      | error e => rfl
      | ok q =>
          change (p.write ((q.write s).note q.event)).rows = (p.write (q.write s)).rows
          rw [p.write_note]
          rfl

end Plan

def ActionRequest.plan (r : ActionRequest) (s : Store) : Except Refusal Plan :=
  (s.actionOf r).map fun (c, action, campaignId) =>
    let (answer, event) := Service.actionReport campaignId action (action.apply c)
    ⟨.acted answer, event, Store.act c action, fun _ _ => rfl⟩

def TurnRequest.plan (r : TurnRequest) (s : Store) : Except Refusal Plan :=
  (s.turnOf r).map fun (combat, order, t) =>
    let (answer, event) := Service.turnReport (combat.take t) order
    ⟨.turned answer, event, Store.turn combat.id t, fun _ _ => rfl⟩

theorem Service.turnReport_of_identity (combat : Combat) {order order' : List Combatant}
    (h : order'.map Combatant.identity = order.map Combatant.identity) :
    Answer.withoutHp (.turned (turnReport combat order').1) =
        Answer.withoutHp (.turned (turnReport combat order).1) ∧
      (turnReport combat order').2 = (turnReport combat order).2 := by
  have hactive : (itemAt? order' combat.turnIndex).map Combatant.identity =
      (itemAt? order combat.turnIndex).map Combatant.identity := by
    rw [← itemAt?_map, h, itemAt?_map]
  unfold turnReport Answer.withoutHp
  cases hnew : itemAt? order' combat.turnIndex with
  | none =>
      cases hold : itemAt? order combat.turnIndex with
      | none => exact ⟨rfl, rfl⟩
      | some c => simp [hnew, hold] at hactive
  | some c' =>
      cases hold : itemAt? order combat.turnIndex with
      | none => simp [hnew, hold] at hactive
      | some c =>
          rw [hnew, hold] at hactive
          have hidentity : c'.identity = c.identity := Option.some.inj hactive
          have hid : c'.id = c.id := Combatant.id_of_identity hidentity
          have hname : c'.identity.name = c.identity.name := congrArg Combatant.name hidentity
          have hside : c'.identity.side = c.identity.side := congrArg Combatant.side hidentity
          change c'.name = c.name at hname
          change c'.side = c.side at hside
          simp [ActiveCombatant.of, hid, hname, hside]

section Plans

variable {s : Store}

theorem ActionRequest.write_of_plan {r : ActionRequest} {p : Plan} (h : r.plan s = .ok p) :
    ∃ k ∈ s.combatants, k.damaged = false ∧ k.record.id = r.targetId ∧
      ∃ action, p.write = Store.act k.record action := by
  unfold plan at h
  cases hread : s.actionOf r with
  | error e =>
      rw [hread] at h
      exact nomatch h
  | ok found =>
      obtain ⟨c, action, campaignId⟩ := found
      rw [hread] at h
      obtain rfl := Except.ok.inj h
      obtain ⟨hid, k, hk, hundamaged, rfl⟩ := Store.mem_of_actionOf hread
      exact ⟨k, hk, hundamaged, hid, action, rfl⟩

theorem TurnRequest.write_of_plan {r : TurnRequest} {p : Plan} (h : r.plan s = .ok p) :
    ∃ t, p.write = Store.turn r.combatId t := by
  unfold plan at h
  cases hread : s.turnOf r with
  | error e =>
      rw [hread] at h
      exact nomatch h
  | ok found =>
      obtain ⟨combat, order, t⟩ := found
      rw [hread] at h
      obtain rfl := Except.ok.inj h
      obtain ⟨-, -, -, hid⟩ := Store.mem_of_turnOf hread
      exact ⟨t, by rw [← hid]⟩

theorem ActionRequest.plan_act {r r' : ActionRequest} (hid : r'.targetId ≠ r.targetId)
    (s : Store) :
    r.plan (Plan.run (r'.plan s) s).store = r.plan s := by
  cases hplan : r'.plan s with
  | error e => rfl
  | ok p =>
      obtain ⟨k, -, -, hk, action, hwrite⟩ := write_of_plan hplan
      change r.plan ((p.write s).note p.event) = _
      rw [hwrite, plan, plan]
      exact congrArg (Except.map _) (Store.actionOf_act action (hk ▸ hid))

theorem ActionRequest.plan_turn (r : ActionRequest) (r' : TurnRequest) (s : Store) :
    r.plan (Plan.run (r'.plan s) s).store = r.plan s := by
  cases hplan : r'.plan s with
  | error e => rfl
  | ok p =>
      obtain ⟨t, hwrite⟩ := TurnRequest.write_of_plan hplan
      change r.plan ((p.write s).note p.event) = _
      rw [hwrite, plan, plan]
      exact congrArg (Except.map _) (Store.actionOf_turn r r'.combatId t s)

theorem TurnRequest.plan_turn {r r' : TurnRequest} (hid : r'.combatId ≠ r.combatId) (s : Store) :
    r.plan (Plan.run (r'.plan s) s).store = r.plan s := by
  cases hplan : r'.plan s with
  | error e => rfl
  | ok p =>
      obtain ⟨t, hwrite⟩ := write_of_plan hplan
      change r.plan ((p.write s).note p.event) = _
      rw [hwrite, plan, plan]
      exact congrArg (Except.map _) (Store.turnOf_turn t hid)

/-- After an action a turn does the same, and answers the same but for the hit points that it
shows. -/
theorem TurnRequest.plan_act (hs : s.Sound)
    (hroom : ∀ k ∈ s.combatants, Word.Fits (k.record.revision + 1)) (r : TurnRequest)
    (r' : ActionRequest) :
    Plan.Alike Answer.withoutHp (r.plan (Plan.run (r'.plan s) s).store) (r.plan s) := by
  cases hplan : r'.plan s with
  | error e => exact .refl _ _
  | ok p =>
      obtain ⟨k, hk, hread, -, action, hwrite⟩ := ActionRequest.write_of_plan hplan
      change Plan.Alike _ (r.plan ((p.write s).note p.event)) _
      have hturn := Store.turnOf_act hs hk hread (hroom k hk) action r
      change (((s.act k.record action).note p.event).turnOf r).map _ = _ at hturn
      rw [hwrite, plan, plan]
      generalize ((s.act k.record action).note p.event).turnOf r = x at hturn
      generalize s.turnOf r = y at hturn
      rcases x with e' | ⟨combat', order', t'⟩ <;> rcases y with e | ⟨combat, order, t⟩
      · obtain rfl := Except.error.inj hturn
        exact .refl _ _
      · exact nomatch hturn
      · exact nomatch hturn
      · obtain ⟨rfl, hrest⟩ := Prod.mk.inj (Except.ok.inj hturn)
        obtain ⟨horder, rfl⟩ := Prod.mk.inj hrest
        obtain ⟨hanswer, hevent⟩ := Service.turnReport_of_identity (combat'.take t') horder
        exact ⟨congrArg Except.ok hanswer, congrArg Except.ok hevent, rfl⟩

end Plans

namespace Request

variable {s : Store}

theorem outcome_act (hs : s.Sound) (r : ActionRequest) :
    (act r).outcome s = Plan.run (r.plan s) s := by
  change (do return Answer.acted (← Service.applyAction r) : Service Answer).run.run s = _
  rw [Service.run_map_answer, Service.run_applyAction r hs, ActionRequest.plan]
  cases s.actionOf r <;> rfl

theorem outcome_nextTurn (hs : s.Sound) (r : TurnRequest) :
    (nextTurn r).outcome s = Plan.run (r.plan s) s := by
  change (do return Answer.turned (← Service.nextTurn r) : Service Answer).run.run s = _
  rw [Service.run_map_answer, Service.run_nextTurn r hs.toTidy, TurnRequest.plan]
  cases s.turnOf r <;> rfl

/-- Two requests that may be served in either order from a store: each is answered the same in a
view, the same events are published, and the same rows are left. -/
structure Commute (view : Answer → Answer) (r r' : Request) (s : Store) : Prop where
  answer : (r.outcome (r'.outcome s).store).answer.map view = (r.outcome s).answer.map view
  answer' : (r'.outcome (r.outcome s).store).answer.map view = (r'.outcome s).answer.map view
  published : (r.outcome (r'.outcome s).store).published = (r.outcome s).published
  published' : (r'.outcome (r.outcome s).store).published = (r'.outcome s).published
  rows : (r.outcome (r'.outcome s).store).store.rows = (r'.outcome (r.outcome s).store).store.rows

/-- Requests commute if neither changes what the other plans, and if what they write does not
overlap. -/
theorem commute_of_alike {view : Answer → Answer} {r r' : Request}
    {plan plan' : Store → Except Refusal Plan} (hs : s.Sound)
    (hr : ∀ {s : Store}, s.Sound → r.outcome s = Plan.run (plan s) s)
    (hr' : ∀ {s : Store}, s.Sound → r'.outcome s = Plan.run (plan' s) s)
    (hlate : Plan.Alike view (plan (Plan.run (plan' s) s).store) (plan s))
    (hlate' : Plan.Alike view (plan' (Plan.run (plan s) s).store) (plan' s))
    (hwrites : ∀ p q, plan s = .ok p → plan' s = .ok q →
      p.write (q.write s) = q.write (p.write s)) :
    Commute view r r' s := by
  have hmap : ∀ x : Except Refusal Plan,
      (x.map Plan.answer).map view = x.map fun p => view p.answer := by
    intro x
    cases x <;> rfl
  have hafter := hr (r'.sound_outcome hs)
  have hafter' := hr' (r.sound_outcome hs)
  rw [hr' hs] at hafter
  rw [hr hs] at hafter'
  constructor
  · rw [hr' hs, hafter, hr hs, Plan.answer_run, Plan.answer_run, hmap, hmap, hlate.answer]
  · rw [hr hs, hafter', hr' hs, Plan.answer_run, Plan.answer_run, hmap, hmap, hlate'.answer]
  · rw [hr' hs, hafter, hr hs, Plan.published_run, Plan.published_run, hlate.event]
  · rw [hr hs, hafter', hr' hs, Plan.published_run, Plan.published_run, hlate'.event]
  · rw [hr' hs, hafter, hr hs, hafter', Plan.rows_run, Plan.rows_run, hlate.writes, hlate'.writes,
      Plan.rows_writes_run, Plan.rows_writes_run, Plan.writes_comm hwrites]

theorem commute_acts (hs : s.Sound) {r r' : ActionRequest} (hid : r.targetId ≠ r'.targetId) :
    Commute id (act r) (act r') s := by
  refine commute_of_alike hs (fun hs => outcome_act hs r) (fun hs => outcome_act hs r') ?_ ?_
    fun p q hp hq => ?_
  · rw [ActionRequest.plan_act hid.symm]
    exact .refl id _
  · rw [ActionRequest.plan_act hid]
    exact .refl id _
  · obtain ⟨k, -, -, hk, action, hwrite⟩ := ActionRequest.write_of_plan hp
    obtain ⟨k', -, -, hk', action', hwrite'⟩ := ActionRequest.write_of_plan hq
    rw [hwrite, hwrite']
    exact Store.act_comm action' action (by rwa [hk, hk', ne_comm]) s

theorem commute_turns (hs : s.Sound) {r r' : TurnRequest} (hid : r.combatId ≠ r'.combatId) :
    Commute id (nextTurn r) (nextTurn r') s := by
  refine commute_of_alike hs (fun hs => outcome_nextTurn hs r)
    (fun hs => outcome_nextTurn hs r') ?_ ?_ fun p q hp hq => ?_
  · rw [TurnRequest.plan_turn hid.symm]
    exact .refl id _
  · rw [TurnRequest.plan_turn hid]
    exact .refl id _
  · obtain ⟨t, hwrite⟩ := TurnRequest.write_of_plan hp
    obtain ⟨t', hwrite'⟩ := TurnRequest.write_of_plan hq
    rw [hwrite, hwrite']
    exact Store.turn_comm t' t hid.symm s

theorem commute_act_turn (hs : s.Sound)
    (hroom : ∀ k ∈ s.combatants, Word.Fits (k.record.revision + 1)) (r : ActionRequest)
    (r' : TurnRequest) : Commute Answer.withoutHp (act r) (nextTurn r') s := by
  refine commute_of_alike hs (fun hs => outcome_act hs r) (fun hs => outcome_nextTurn hs r') ?_
    (TurnRequest.plan_act hs hroom r' r) fun p q hp hq => ?_
  · rw [ActionRequest.plan_turn]
    exact .refl _ _
  · obtain ⟨k, -, -, -, action, hwrite⟩ := ActionRequest.write_of_plan hp
    obtain ⟨t, hwrite'⟩ := TurnRequest.write_of_plan hq
    rw [hwrite, hwrite']
    rfl

end Request

namespace Store

/-- Whether nothing but the log has changed, and of the row of one combatant what actions
change. -/
structure OnlyActedOn (id : String) (s s' : Store) : Prop where
  rest : s' = { s with combatants := s'.combatants, log := s'.log }
  rows : List.Forall₂ (fun k k' => k'.record.identity = k.record.identity ∧
    (k.record.id ≠ id → k' = k)) s.combatants s'.combatants

/-- Whether nothing but the log has changed, and of the row of one combat what turns change. -/
structure OnlyTurned (id : String) (s s' : Store) : Prop where
  rest : s' = { s with combats := s'.combats, log := s'.log }
  rows : List.Forall₂ (fun row row' => row'.status = row.status ∧
    row'.combat.identity = row.combat.identity ∧
    (row.combat.id ≠ id → row' = row)) s.combats s'.combats

theorem OnlyActedOn.refl (id : String) (s : Store) : s.OnlyActedOn id s :=
  ⟨rfl, List.forall₂_same.mpr fun _ _ => ⟨rfl, fun _ => rfl⟩⟩

theorem OnlyTurned.refl (id : String) (s : Store) : s.OnlyTurned id s :=
  ⟨rfl, List.forall₂_same.mpr fun _ _ => ⟨rfl, rfl, fun _ => rfl⟩⟩

end Store

namespace Effect

variable {a : Answer} {s s' : Store}

theorem onlyActedOn {r : ActionRequest} (h : Effect (.act r) a s s') (hs : s.Sound) :
    s.OnlyActedOn r.targetId s' := by
  cases h with
  | act found _ target _ _ _ _ written logged =>
      obtain rfl := Store.eq_of_act hs found written
      obtain ⟨events, -, rfl⟩ := Store.eq_of_append logged
      refine ⟨rfl, List.forall₂_map_right_iff.mpr (List.forall₂_same.mpr fun row hrow => ?_)⟩
      exact ⟨Store.identity_row_acted hs found hrow, fun hne => if_neg (target ▸ hne)⟩

theorem onlyTurned {r : TurnRequest} (h : Effect (.nextTurn r) a s s') :
    s.OnlyTurned r.combatId s' := by
  cases h with
  | turn _ _ _ _ _ _ _ written logged =>
      obtain ⟨-, rfl⟩ := Store.eq_of_commitTurn? written
      obtain ⟨events, -, rfl⟩ := Store.eq_of_append logged
      refine ⟨rfl, List.forall₂_map_right_iff.mpr (List.forall₂_same.mpr fun row hrow => ?_)⟩
      refine ⟨?_, ?_, fun hne => if_neg fun h => hne h.1⟩
      · split <;> rfl
      · split <;> rfl

end Effect

/-- A row is written anew only with an event, so its revision fits a word as long as the log has
room. -/
theorem Store.ActionsLogged.fits {s : Store} (h : s.ActionsLogged)
    (hroom : (s.log.getD []).length < 2 ^ 63 - 1) {k : Kept Combatant} (hk : k ∈ s.combatants) :
    Word.Fits (k.record.revision + 1) := by
  have hcount := (h.recorded k hk).count
  have hfewer : (s.events (Event.isActionOn k.record.id)).length ≤ (s.log.getD []).length :=
    List.length_filter_le _ _
  rw [← hcount]
  simp only [Word.Fits, Word.low, Word.high]
  omega

namespace World

/-- How actions and turns keep out of each other's way in a world. -/
structure KeepsApart (w : World) : Prop where
  /-- A step of an action changes its target alone, and leaves it its identity. -/
  actStep : ∀ i r, w.request? i = some (.act r) → w.store.OnlyActedOn r.targetId (w.step i).store
  /-- A step of a turn changes its combat alone, and leaves it its identity. -/
  turnStep : ∀ i r, w.request? i = some (.nextTurn r) →
    w.store.OnlyTurned r.combatId (w.step i).store
  act : ∀ r, w.store.OnlyActedOn r.targetId ((Request.act r).outcome w.store).store
  turn : ∀ r, w.store.OnlyTurned r.combatId ((Request.nextTurn r).outcome w.store).store
  acts : ∀ r r' : ActionRequest, r.targetId ≠ r'.targetId →
    Request.Commute id (.act r) (.act r') w.store
  turns : ∀ r r' : TurnRequest, r.combatId ≠ r'.combatId →
    Request.Commute id (.nextTurn r) (.nextTurn r') w.store
  /-- The rows of the log are numbered by words, and the action takes one of them. -/
  actTurn : (w.store.log.getD []).length < 2 ^ 63 - 1 → ∀ r r',
    Request.Commute Answer.withoutHp (.act r) (.nextTurn r') w.store

theorem Sound.effect_of_step {w : World} (h : w.Sound) {i : Nat} {r : Request}
    (hrequest : w.request? i = some r) :
    (w.step i).store = w.store ∨ ∃ a, Effect r a w.store (w.step i).store := by
  rcases h.make_cases (.step i) with ⟨hsame, -⟩ | ⟨j, r', a, hj, hrequest', -, heffect, -⟩
  · exact .inl hsame
  · obtain rfl := Move.step.inj hj
    obtain rfl := Option.some.inj (hrequest.symm.trans hrequest')
    exact .inr ⟨a, heffect⟩

theorem keepsApart_after (onFile : Bool) (moves : List Move) :
    ((opened onFile).after moves).KeepsApart := by
  have hw := (sound_opened onFile).after moves
  have haudited := audited_after onFile moves
  generalize (opened onFile).after moves = w at hw haudited
  refine ⟨fun i r hrequest => ?_, fun i r hrequest => ?_, fun r => ?_, fun r => ?_,
    fun r r' => Request.commute_acts hw.store, fun r r' => Request.commute_turns hw.store,
    fun hroom => Request.commute_act_turn hw.store fun k hk => haudited.actions.fits hroom hk⟩
  · rcases hw.effect_of_step hrequest with hsame | ⟨a, heffect⟩
    · exact hsame ▸ .refl _ _
    · exact heffect.onlyActedOn hw.store
  · rcases hw.effect_of_step hrequest with hsame | ⟨a, heffect⟩
    · exact hsame ▸ .refl _ _
    · exact heffect.onlyTurned
  · rcases (Request.act r).outcome_cases hw.store with ⟨hsame, -⟩ | ⟨a, -, heffect⟩
    · exact hsame ▸ .refl _ _
    · exact heffect.onlyActedOn hw.store
  · rcases (Request.nextTurn r).outcome_cases hw.store with ⟨hsame, -⟩ | ⟨a, -, heffect⟩
    · exact hsame ▸ .refl _ _
    · exact heffect.onlyTurned

/-- The hit points of the active combatant that a turn shows are those of the moment. -/
example :
    let act : Request := .act ⟨"combat-1", "combatant-1", "damage", some (.number 3), none⟩
    let shown (s : Store) : Option (Option Int) :=
      match ((Request.nextTurn ⟨"combat-1", 1⟩).outcome s).answer with
      | .ok (.turned a) => some (a.active.map ActiveCombatant.currentHp)
      | _ => none
    (shown soloWorld.store, shown (act.outcome soloWorld.store).store) =
      (some (some 10), some (some 7)) := by
  cbv

end World

end Gamemaster
