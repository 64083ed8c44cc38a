import Gamemaster.Proofs.World.Run

namespace Gamemaster

def Request.actsOn (id : String) : Request → Bool
  | act r => r.targetId = id
  | _ => false

def Request.action? : Request → Option Action
  | act r => (Action.ofRequest r.tag r.value r.condition).toOption
  | _ => none

theorem Request.writes_of_actsOn {r : Request} {id : String} (h : r.actsOn id = true) :
    r.writes = true := by
  cases r <;> first | rfl | exact absurd h Bool.false_ne_true

/-- A combatant after a row of actions, each of which was written. -/
def Combatant.afterAll (c : Combatant) (actions : List Action) : Combatant :=
  { actions.foldl Action.apply c with revision := c.revision + actions.length }

def Action.answer (a : Action) (c : Combatant) : ActionAnswer :=
  ⟨c.id, c.currentHp, c.tempHp, c.conditions, c.notes, a.summary c⟩

theorem Action.apply_revision (a : Action) (c : Combatant) (n : Int) :
    a.apply { c with revision := n } = { a.apply c with revision := n } := by
  cases a with
  | addCondition name =>
      simp only [apply]
      split <;> rfl
  | _ => rfl

namespace Combatant

@[simp] theorem afterAll_nil (c : Combatant) : c.afterAll [] = c := by
  simp [afterAll]

theorem afterAll_concat (c : Combatant) (actions : List Action) (a : Action) :
    c.afterAll (actions ++ [a]) =
      { a.apply (c.afterAll actions) with revision := (c.afterAll actions).revision + 1 } := by
  simp only [afterAll, List.foldl_append, List.foldl_cons, List.foldl_nil, List.length_append,
    List.length_singleton, Action.apply_revision, Int.natCast_add, Int.natCast_one, Int.add_assoc]

theorem identity_afterAll (c : Combatant) (actions : List Action) :
    (c.afterAll actions).identity = c.identity := by
  change (actions.foldl Action.apply c).identity = c.identity
  induction actions generalizing c with
  | nil => rfl
  | cons a actions ih => rw [List.foldl_cons, ih, identity_apply]

end Combatant

/-- What the effect of a request makes of a combatant's row: an action on the combatant is applied
to the row, which can be read, and answered so. Nothing else touches the row. -/
theorem Effect.row_cases {r : Request} {a : Answer} {s s' : Store} (h : Effect r a s s')
    (hs : s.Sound) {k : Kept Combatant} (hk : k ∈ s.combatants) :
    (∃ action, r.actsOn k.record.id = true ∧ r.action? = some action ∧ k.damaged = false ∧
        k.acted action ∈ s'.combatants ∧ a = .acted (action.answer (k.acted action).record)) ∨
      (r.actsOn k.record.id = false ∧ k ∈ s'.combatants) := by
  cases h with
  | start _ _ _ _ inserted logged =>
      obtain ⟨-, -, rfl⟩ := Store.eq_of_insertCombat inserted
      obtain ⟨events, -, rfl⟩ := Store.eq_of_append logged
      exact .inr ⟨rfl, List.mem_append_left _ hk⟩
  | @act r action row k' s s₁ s' found readable target combat rowFound rowId asked
      written logged =>
      obtain rfl := Store.eq_of_act hs found written
      obtain ⟨events, -, rfl⟩ := Store.eq_of_append logged
      by_cases hid : k.record.id = k'.record.id
      · obtain rfl := hs.eq_of_combatantId hk found hid
        refine .inl ⟨action, ?_, ?_, readable, ?_, rfl⟩
        · simp [Request.actsOn, target]
        · simp [Request.action?, asked, Except.toOption]
        · exact List.mem_map.mpr ⟨k, hk, if_pos rfl⟩
      · refine .inr ⟨?_, List.mem_map.mpr ⟨k, hk, if_neg hid⟩⟩
        simp [Request.actsOn, ← target, Ne.symm hid]
  | turn _ _ _ _ _ _ _ written logged =>
      obtain ⟨-, rfl⟩ := Store.eq_of_commitTurn? written
      obtain ⟨events, -, rfl⟩ := Store.eq_of_append logged
      exact .inr ⟨rfl, hk⟩
  | build _ _ _ _ inserted logged =>
      obtain ⟨-, rfl⟩ := Prod.mk.inj inserted
      obtain ⟨events, -, rfl⟩ := Store.eq_of_append logged
      exact .inr ⟨rfl, hk⟩
  | create _ _ _ _ inserted logged =>
      obtain ⟨-, rfl⟩ := Prod.mk.inj inserted
      obtain ⟨events, -, rfl⟩ := Store.eq_of_append logged
      exact .inr ⟨rfl, hk⟩

/-- The actions on a combatant that calls have committed since its row was `k` in the world `w₀`:
in the order of the commits, each with the place of its call. -/
structure Updates (w₀ : World) (k : Kept Combatant) (w : World) (own : List (Nat × Action)) :
    Prop where
  commits : w.committed (Request.actsOn k.record.id) =
    w₀.committed (Request.actsOn k.record.id) ++ own.map Prod.fst
  asked : ∀ p ∈ own, ∃ r, w.request? p.1 = some r ∧ r.action? = some p.2
  row : ∃ k' ∈ w.store.combatants, k'.record = k.record.afterAll (own.map Prod.snd)
  /-- Each call is answered with the combatant right after its own action. -/
  answers : ∀ earlier p later, own = earlier ++ p :: later → w.Promises p.1
    (.ok (.acted (p.2.answer (k.record.afterAll ((earlier ++ [p]).map Prod.snd)))))

namespace Updates

variable {w₀ w : World} {k : Kept Combatant} {own : List (Nat × Action)}

theorem nil (hk : k ∈ w.store.combatants) : Updates w k w [] where
  commits := by simp
  asked := by simp
  row := ⟨k, hk, by simp⟩
  answers := by simp

theorem asked_make (h : Updates w₀ k w own) (m : Move) :
    ∀ p ∈ own, ∃ r, (w.make m).request? p.1 = some r ∧ r.action? = some p.2 := by
  intro p hp
  obtain ⟨r, hr, haction⟩ := h.asked p hp
  exact ⟨r, World.request?_make hr m, haction⟩

theorem effect {i : Nat} {r : Request} {a : Answer} {m : Move} (h : Updates w₀ k w own)
    (hw : w.Sound) (hrequest : w.request? i = some r)
    (heffect : Effect r a w.store (w.make m).store) (hpromise : (w.make m).Promises i (.ok a))
    (hcommits : (w.make m).commits = w.commits ++ [i]) :
    ∃ own', Updates w₀ k (w.make m) own' := by
  have hgrown : (w.make m).committed (Request.actsOn k.record.id) = _ :=
    hw.committed_concat hrequest hcommits
  have hanswers := fun earlier p later heq => (h.answers earlier p later heq).make m
  obtain ⟨k', hk', hrecord⟩ := h.row
  have hid : k'.record.id = k.record.id := by
    rw [hrecord]
    exact Combatant.id_of_identity (Combatant.identity_afterAll _ _)
  rcases heffect.row_cases hw.store hk' with
    ⟨action, hacts, haction, -, hmem, rfl⟩ | ⟨hacts, hmem⟩
  · rw [hid] at hacts
    refine ⟨own ++ [(i, action)], ?_, fun p hp => ?_, ⟨_, hmem, ?_⟩,
      fun earlier p later heq => ?_⟩
    · rw [hgrown, if_pos hacts, h.commits, List.map_append, List.append_assoc]
      rfl
    · rcases List.mem_append.mp hp with hp | hp
      · exact h.asked_make m p hp
      · rw [List.mem_singleton.mp hp]
        exact ⟨r, World.request?_make hrequest m, haction⟩
    · rw [List.map_append, List.map_singleton, Combatant.afterAll_concat, ← hrecord]
      rfl
    · rcases List.eq_nil_or_concat later with rfl | ⟨later, last, rfl⟩
      · obtain ⟨rfl, hp⟩ := List.append_inj' heq rfl
        obtain rfl := List.singleton_inj.mp hp
        rw [List.map_append, List.map_singleton, Combatant.afterAll_concat, ← hrecord]
        exact hpromise
      · refine hanswers earlier p later ?_
        rw [List.concat_eq_append, ← List.cons_append, ← List.append_assoc] at heq
        exact (List.append_inj' heq rfl).1
  · rw [hid] at hacts
    refine ⟨own, ?_, h.asked_make m, ⟨k', hmem, hrecord⟩, hanswers⟩
    rw [hgrown, hacts, if_neg Bool.false_ne_true, List.append_nil, h.commits]

theorem make (h : Updates w₀ k w own) (hw : w.Sound) (m : Move) :
    ∃ own', Updates w₀ k (w.make m) own' := by
  rcases hw.make_cases m with
    ⟨hstore, hsame⟩ | ⟨i, r, a, -, hrequest, -, heffect, hpromise, hcommits⟩
  · refine ⟨own, ?_, h.asked_make m, hstore ▸ h.row, ?_⟩
    · rw [hw.committed_same hsame, h.commits]
    · exact fun earlier p later heq => (h.answers earlier p later heq).make m
  · exact h.effect hw hrequest heffect hpromise hcommits

theorem after (hw : w.Sound) (hk : k ∈ w.store.combatants) (ms : List Move) :
    ∃ own, Updates w k (w.after ms) own :=
  (hw.after_induction (P := fun w' => ∃ own, Updates w k w' own) ⟨[], .nil hk⟩
    (fun _ m hsound h => h.elim fun _ h => h.make hsound m) ms).2

theorem mem_of_ok (h : Updates w₀ k w own) (hw : w.Sound) {i : Nat} (hi : i ∉ w₀.commits)
    {r : Request} (hrequest : w.request? i = some r) (hacts : r.actsOn k.record.id = true)
    {b : Answer} (hanswer : w.answer? i = some (.ok b)) : i ∈ own.map Prod.fst := by
  have hmem := hw.mem_commits hrequest (Request.writes_of_actsOn hacts)
    (World.promises_of_answer hanswer)
  have hcommitted := (World.mem_committed hrequest).mpr ⟨hmem, hacts⟩
  rw [h.commits] at hcommitted
  refine (List.mem_append.mp hcommitted).resolve_left fun hbefore => hi ?_
  exact (List.mem_filter.mp hbefore).1

theorem ok_of_mem (h : Updates w₀ k w own) {i : Nat} (hi : i ∈ own.map Prod.fst)
    {a : Except Refusal Answer} (hanswer : w.answer? i = some a) : ∃ b, a = .ok b := by
  obtain ⟨p, hp, rfl⟩ := List.mem_map.mp hi
  obtain ⟨earlier, later, heq⟩ := List.append_of_mem hp
  exact ⟨_, (h.answers earlier p later heq).answer_eq hanswer⟩

end Updates

/-- Whatever calls race, no action on a combatant is lost. From any moment on, the row of the
combatant is what the actions of the calls that succeed make of it in the order of their commits,
its revision grows by one with each, and each call is answered with the combatant right after its
own action. A call that is refused changes nothing by any of its steps. -/
theorem Combatant.updates_serialized (onFile : Bool) (before during : List Move)
    {k : Kept Combatant} (hk : k ∈ ((World.opened onFile).after before).store.combatants) :
    let w₀ := (World.opened onFile).after before
    let w := w₀.after during
    ∃ own, Updates w₀ k w own ∧
      (∀ i r a, i ∉ w₀.commits → w.request? i = some r → r.actsOn k.record.id = true →
        w.answer? i = some a → ((∃ b, a = .ok b) ↔ i ∈ own.map Prod.fst)) ∧
      (∀ i e ms ms', during = ms ++ .step i :: ms' → w.answer? i = some (.error e) →
        ((w₀.after ms).step i).store = (w₀.after ms).store) := by
  intro w₀ w
  have hw₀ : w₀.Sound := (World.sound_opened onFile).after before
  have hw : w.Sound := hw₀.after during
  obtain ⟨own, h⟩ := Updates.after hw₀ hk during
  refine ⟨own, h, ?_, ?_⟩
  · intro i r a hi hrequest hacts hanswer
    constructor
    · rintro ⟨b, rfl⟩
      exact h.mem_of_ok hw hi hrequest hacts hanswer
    · exact fun hmem => h.ok_of_mem hmem hanswer
  · intro i e ms ms' hduring hanswer
    have hlate : (w₀.after (ms ++ .step i :: ms')).answer? i = some (.error e) := by
      rw [← hduring]
      exact hanswer
    exact hw₀.unchanged_of_refused hlate

/-- Two calls that both read a row before either of them writes it. -/
def World.actionRace : List Move :=
  [.call (.act ⟨"combat-1", "combatant-1", "damage", some (.number 3), none⟩),
    .call (.act ⟨"combat-1", "combatant-1", "damage", some (.number 4), none⟩),
    .step 1, .step 2, .step 1, .step 2, .step 1, .step 2, .step 2, .step 2, .step 1, .step 2]

example : (World.soloWorld.after World.actionRace).store.combatants.map
    (fun k => (k.record.currentHp, k.record.revision)) = [(3, 2)] := by cbv

theorem Combatant.updates_serialized_actionRace :
    let k := Kept.intact World.soloCombatant
    let w₀ := (World.opened false).after World.soloStart
    let w := w₀.after World.actionRace
    k ∈ w₀.store.combatants ∧ ∃ own, Updates w₀ k w own ∧
      (∀ i r a, i ∉ w₀.commits → w.request? i = some r → r.actsOn k.record.id = true →
        w.answer? i = some a → ((∃ b, a = .ok b) ↔ i ∈ own.map Prod.fst)) ∧
      (∀ i e ms ms', World.actionRace = ms ++ .step i :: ms' → w.answer? i = some (.error e) →
        ((w₀.after ms).step i).store = (w₀.after ms).store) := by
  intro k w₀ w
  have hk : k ∈ w₀.store.combatants := by
    rw [show w₀ = World.soloWorld from World.after_soloStart]
    exact List.mem_singleton_self k
  exact ⟨hk, Combatant.updates_serialized false World.soloStart World.actionRace hk⟩

end Gamemaster
