import Gamemaster.Proofs.Combatant.Updates
import Gamemaster.Proofs.World.Progress
import Gamemaster.Proofs.World.Saved
/-!
Races for one combatant. An action is given up only if as many writes of others as it has attempts
came in between, so a race of no more calls than that is lost by none of them.
-/
namespace Gamemaster

namespace Service

theorem locate_within (combatId combatantId : String) :
    Within 1 (locate combatId combatantId) := by
  rw [locate_eq_query]
  exact .query _

/-- Each attempt is a write, and either a read for the next one or else the event. -/
theorem attempt_within (r : ActionRequest) (action : Action) (campaignId : Option String)
    (attempts : Nat) (c : Combatant) :
    Within (2 * attempts) (attempt r action campaignId attempts c) := by
  induction attempts generalizing c with
  | zero => exact .throw _ _
  | succ attempts ih =>
      rw [attempt_succ, show 2 * (attempts + 1) = 1 + (1 + 2 * attempts) by omega]
      refine Within.bind (.transact _) fun committed => ?_
      cases committed with
      | true =>
          rw [if_pos rfl]
          exact Within.bind (.publish _) fun _ => Task.Within.done
      | false =>
          rw [if_neg Bool.false_ne_true]
          split
          · exact .throw _ _
          · exact (locate_within _ _).bind ih

theorem applyAction_within (r : ActionRequest) :
    Within (2 * writeAttempts + 2) (applyAction r) := by
  rw [applyAction_eq, show 2 * writeAttempts + 2 = 1 + (1 + 2 * writeAttempts) by omega]
  refine Within.bind (.query _) fun c => ?_
  unfold actOn
  split
  · exact .throw _ _
  · exact Within.bind (.query _) fun combat => attempt_within _ _ _ _ _

end Service

theorem Request.act_rest (r : ActionRequest) {s : Store} (hs : s.Sound) :
    (∃ e, e.isContention = false ∧ s.Lacks r.combatId r.targetId ∧
        (act r).serve.run.rest s = .done (.error e)) ∨
      ∃ k ∈ s.combatants, k.record.id = r.targetId ∧ ((act r).serve.run.rest s).Atomic
        (Service.ActionRefused r (k.record.revision + writeAttempts)) (act r).TakesEffect s := by
  have hrest : (act r).serve.run.rest s =
      ((Service.applyAction r).run.rest s).bind fun a => .done (a.map .acted) := by
    rw [serve, Service.run_map]
    rfl
  rw [hrest, Service.applyAction_rest r hs]
  cases hfound : s.locate r.combatId r.targetId with
  | error e =>
      exact .inl ⟨e, Store.isContention_of_locate hfound, Store.lacks_of_locate hs hfound, rfl⟩
  | ok c =>
      obtain ⟨hid, hcombat, k, hk, hread, rfl⟩ := Store.mem_of_locate hfound
      refine .inr ⟨k, hk, hid, ?_⟩
      rw [← Service.run_map]
      refine (Service.actOn_atomic r hs hk hread hid hcombat).map (fun a s h => ?_)
        (fun e s h => ?_) fun _ _ _ h => h
      · obtain ⟨e, he, -⟩ := h
        cases he
      · obtain ⟨e', he, h⟩ := h
        exact ⟨e', congrArg Except.error (Except.error.inj he), h⟩

namespace World

variable {w : World} {i : Nat} {r : ActionRequest} {ms : List Move}

/-- A call of an action that is refused after its first step was refused by this step, or it found
its combatant then and was refused by a later step. -/
theorem Sound.act_refused_from (h : w.Sound) (hcall : w.calls[i]? = some (.of (.act r)))
    {e : Refusal} (hanswer : ((w.make (.step i)).after ms).answer? i = some (.error e)) :
    (e.isContention = false ∧
        ∀ n, Service.ActionRefused r n (.error e : Except Refusal Answer) w.store) ∨
      ∃ mid back : List Move, ms = mid ++ .step i :: back ∧
        ((w.make (.step i)).after mid).answer? i = none ∧
        (((w.make (.step i)).after mid).step i).answer? i = some (.error e) ∧
        ∃ k ∈ w.store.combatants, k.record.id = r.targetId ∧
          Service.ActionRefused r (k.record.revision + writeAttempts)
            (.error e : Except Refusal Answer) ((w.make (.step i)).after mid).store := by
  have hmade :
      (w.make (.step i)).calls[i]? = some ⟨.act r, (Request.act r).serve.run.rest w.store⟩ :=
    ((World.calls_make hcall (.step i)).resolve_right fun hne => hne.1 rfl).2
  have hstore : (w.make (.step i)).store = w.store := store_step hcall
  rcases Request.act_rest r h.store with ⟨e', he', hlacks, hdone⟩ | ⟨k, hk, hid, hatomic⟩
  · have hnow : (w.make (.step i)).Promises i (.error e') := ⟨_, _, hmade, hdone ▸ .done⟩
    obtain rfl : e = e' := Except.error.inj ((hnow.after ms).answer_eq hanswer)
    exact .inl ⟨he', Service.actionRefused_of_other he' (.inr hlacks)⟩
  cases hnow : (w.make (.step i)).answer? i with
  | none =>
      rw [← hstore] at hatomic
      obtain ⟨mid, back, rfl, hopen, hanswered, hrefused⟩ :=
        (h.make (.step i)).exists_refusing_step (hstore ▸ hmade) hnow hatomic hanswer
      exact .inr ⟨mid, back, rfl, hopen, hanswered, k, hk, hid, hrefused⟩
  | some a =>
      -- Nobody has written the row since it was read, so it is not contention.
      obtain rfl : .error e = a := ((promises_of_answer hnow).after ms).answer_eq hanswer
      rw [task_eq hmade hnow] at hatomic
      have hother : e.isContention = false := by
        by_contra he
        have hle := hatomic.le_revision h.store (by simpa using he) hk hid
        simp only [writeAttempts] at hle
        omega
      exact .inl ⟨hother, hatomic.of_other hother⟩

theorem Sound.act_refused (h : w.Sound) (hcall : w.calls[i]? = some (.of (.act r))) {e : Refusal}
    (hanswer : (w.after ms).answer? i = some (.error e)) :
    (∃ front back : List Move, ms = front ++ .step i :: back ∧ e.isContention = false ∧ ∀ n,
        Service.ActionRefused r n (.error e : Except Refusal Answer) (w.after front).store) ∨
      ∃ front mid back : List Move, ms = front ++ .step i :: (mid ++ .step i :: back) ∧
        (w.after front).calls[i]? = some (.of (.act r)) ∧
        (w.after (front ++ .step i :: mid)).answer? i = none ∧
        ((w.after (front ++ .step i :: mid)).step i).answer? i = some (.error e) ∧
        ∃ k ∈ (w.after front).store.combatants, k.record.id = r.targetId ∧
          Service.ActionRefused r (k.record.revision + writeAttempts)
            (.error e : Except Refusal Answer) (w.after (front ++ .step i :: mid)).store := by
  have hmoved : (w.after ms).calls[i]? ≠ some (.of (.act r)) := by
    intro hsame
    rw [answer?, hsame] at hanswer
    cases hanswer
  obtain ⟨front, back, rfl, hfront⟩ := exists_step hcall hmoved
  rw [after_append_cons] at hanswer
  rcases (h.after front).act_refused_from hfront hanswer with
    ⟨hother, hrefused⟩ | ⟨mid, back, rfl, hlater⟩
  · exact .inl ⟨front, back, rfl, hother, hrefused⟩
  · rw [← after_append_cons] at hlater
    exact .inr ⟨front, mid, back, rfl, hfront, hlater⟩

end World

def Request.canWrite (c : Combatant) : Request → Bool
  | act r => r.targetId = c.id ∧ r.combatId = c.combatId ∧
      (Action.ofRequest r.tag r.value r.condition).isOk
  | _ => false

theorem Request.eq_act_of_canWrite {c : Combatant} {r : Request} (h : r.canWrite c = true) :
    ∃ q, r = act q ∧ q.targetId = c.id ∧ q.combatId = c.combatId ∧
      ∃ action, Action.ofRequest q.tag q.value q.condition = .ok action := by
  cases r with
  | act q =>
      simp only [canWrite, Bool.decide_and, Bool.and_eq_true, decide_eq_true_eq] at h
      obtain ⟨htarget, hcombat, hvalid⟩ := h
      cases hasked : Action.ofRequest q.tag q.value q.condition with
      | ok action => exact ⟨q, rfl, htarget, hcombat, action, hasked⟩
      | error fault => simp [hasked, Except.isOk, Except.toBool] at hvalid
  | _ => exact absurd h Bool.false_ne_true

theorem Request.canWrite_of_identity {c d : Combatant} (h : c.identity = d.identity)
    (r : Request) :
    r.canWrite c = r.canWrite d := by
  cases r <;> simp [canWrite, Combatant.id_of_identity h, Combatant.combatId_of_identity h]

namespace World

/-- The places of the calls that could write the row of a combatant and had no answer yet in
`w₀`. -/
def racers (c : Combatant) (w₀ w : World) : List Nat :=
  (List.range w.calls.length).filter fun i =>
    (w.request? i).any (Request.canWrite c) && (w₀.answer? i).isNone

theorem mem_racers {c : Combatant} {w₀ w : World} {i : Nat} {r : Request}
    (hrequest : w.request? i = some r) (hwrite : r.canWrite c = true)
    (hopen : w₀.answer? i = none) :
    i ∈ w₀.racers c w := by
  have hi : i < w.calls.length := by
    by_contra hi
    simp [request?, List.getElem?_eq_none (Nat.not_lt.mp hi)] at hrequest
  simp [racers, hi, hrequest, hwrite, hopen]

theorem Grants.canWrite {w : World} (h : w.Grants) (hw : w.Sound) {k : Kept Combatant}
    (hk : k ∈ w.store.combatants) {i : Nat} {r : Request} {a : Answer}
    (hrequest : w.request? i = some r) (hacts : r.actsOn k.record.id = true)
    (hpromise : w.Promises i (.ok a)) :
    r.canWrite k.record = true := by
  obtain ⟨s, s', hs, heffect, hlater⟩ :=
    h i r a hrequest (Request.writes_of_actsOn hacts) hpromise
  have hgrown := (heffect.later hs).trans hlater
  cases r with
  | act r =>
      cases heffect with
      | act found _ target combat _ _ asked _ _ =>
          obtain ⟨k', hk', hidentity, -⟩ := hgrown.exists_combatant found
          have hid : k'.record.id = k.record.id := by
            rw [Combatant.id_of_identity hidentity, target]
            simpa [Request.actsOn] using hacts
          obtain rfl := hw.store.eq_of_combatantId hk' hk hid
          rw [Request.canWrite_of_identity hidentity]
          simp [Request.canWrite, target, combat, asked, Except.isOk, Except.toBool]
  | _ => exact absurd hacts Bool.false_ne_true

/-- A row that can be read can still be read later, unless its revision has become too great. -/
theorem Sound.readable_after {w : World} (h : w.Sound) {k : Kept Combatant}
    (hk : k ∈ w.store.combatants) (hread : k.damaged = false) (ms : List Move) :
    ∃ k' ∈ (w.after ms).store.combatants, k'.record.id = k.record.id ∧
      (Word.Fits k'.record.revision → k'.damaged = false) := by
  refine (h.after_induction
    (P := fun w' => ∃ k' ∈ w'.store.combatants, k'.record.id = k.record.id ∧
      (Word.Fits k'.record.revision → k'.damaged = false))
    ⟨k, hk, rfl, fun _ => hread⟩ (fun w' m hsound hw' => ?_) ms).2
  obtain ⟨k', hk', hid, hreadable⟩ := hw'
  rcases hsound.make_cases m with ⟨hstore, -⟩ | ⟨i, r, a, -, -, -, heffect, -, -⟩
  · exact ⟨k', hstore ▸ hk', hid, hreadable⟩
  · rcases heffect.row_cases hsound.store hk' with ⟨action, -, -, hread', hmem, -⟩ | ⟨-, hmem⟩
    · refine ⟨_, hmem, (Combatant.id_of_identity Store.identity_acted).trans hid, fun hfits => ?_⟩
      simpa [Kept.acted, hread'] using hfits
    · exact ⟨k', hmem, hid, hreadable⟩

end World

namespace Updates

variable {w₀ w : World} {k : Kept Combatant} {own : List (Nat × Action)} {ms : List Move}

theorem nodup (h : Updates w₀ k w own) (hw : w.Sound) :
    (own.map Prod.fst).Nodup ∧
      ∀ i ∈ own.map Prod.fst, i ∉ w₀.committed (Request.actsOn k.record.id) := by
  have hnodup : (w.committed (Request.actsOn k.record.id)).Nodup := hw.nodup.filter _
  rw [h.commits, List.nodup_append] at hnodup
  exact ⟨hnodup.2.1, fun i hi hbefore => hnodup.2.2 i hbefore i hi rfl⟩

theorem mem_committed (h : Updates w₀ k w own) {i : Nat} (hi : i ∈ own.map Prod.fst) :
    i ∈ w.committed (Request.actsOn k.record.id) :=
  h.commits ▸ List.mem_append_right _ hi

theorem exists_row (h : Updates w₀ k w own) :
    ∃ k' ∈ w.store.combatants, k'.record.identity = k.record.identity ∧
      k'.record.revision = k.record.revision + own.length := by
  obtain ⟨k', hk', hrecord⟩ := h.row
  refine ⟨k', hk', ?_, ?_⟩
  · rw [hrecord, Combatant.identity_afterAll]
  · simp [hrecord, Combatant.afterAll]

theorem mem_racers (h : Updates w₀ k (w₀.after ms) own) (hw₀ : w₀.Sound)
    (hgrants : (w₀.after ms).Grants) {i : Nat} (hi : i ∈ own.map Prod.fst) (ms' : List Move) :
    i ∈ w₀.racers k.record ((w₀.after ms).after ms') := by
  have hw := hw₀.after ms
  have hcommitted := h.mem_committed hi
  obtain ⟨p, hp, rfl⟩ := List.mem_map.mp hi
  obtain ⟨r, hrequest, -⟩ := h.asked p hp
  obtain ⟨hmem, hacts⟩ := (World.mem_committed hrequest).mp hcommitted
  obtain ⟨k', hk', hidentity, -⟩ := h.exists_row
  obtain ⟨earlier, later, heq⟩ := List.append_of_mem hp
  refine World.mem_racers (World.request?_after hrequest ms') ?_ ?_
  · rw [← Request.canWrite_of_identity hidentity]
    refine hgrants.canWrite hw hk' hrequest ?_ (h.answers earlier p later heq)
    rwa [Combatant.id_of_identity hidentity]
  · -- A call that had been answered by then would have committed before.
    cases hanswer : w₀.answer? p.1 with
    | none => rfl
    | some a =>
        have hbefore := World.promises_of_answer hanswer
        cases a with
        | error e => exact absurd hmem (hw.notMem_commits (hbefore.after ms))
        | ok b =>
            have ⟨r', t, hcall, _⟩ := hbefore
            have hrequest' : w₀.request? p.1 = some r' := by rw [World.request?, hcall]; rfl
            obtain rfl :=
              Option.some.inj (hrequest.symm.trans (World.request?_after hrequest' ms))
            have hcommits := hw₀.mem_commits hrequest' (Request.writes_of_actsOn hacts) hbefore
            exact absurd ((World.mem_committed hrequest').mpr ⟨hcommits, hacts⟩)
              ((h.nodup hw).2 p.1 hi)

theorem length_lt (h : Updates w₀ k (w₀.after ms) own) (hw₀ : w₀.Sound)
    (hgrants : (w₀.after ms).Grants) {i : Nat} {ms' : List Move}
    (hi : i ∈ w₀.racers k.record ((w₀.after ms).after ms')) (hopen : i ∉ (w₀.after ms).commits) :
    own.length < (w₀.racers k.record ((w₀.after ms).after ms')).length := by
  have hw := hw₀.after ms
  -- A racer that has not committed is one more than those that have.
  have hother : i ∉ own.map Prod.fst := fun hmem =>
    hopen (List.mem_filter.mp (h.mem_committed hmem)).1
  have hnodup : (i :: own.map Prod.fst).Nodup := List.nodup_cons.mpr ⟨hother, (h.nodup hw).1⟩
  have hsubset : i :: own.map Prod.fst ⊆ w₀.racers k.record ((w₀.after ms).after ms') :=
    List.cons_subset.mpr ⟨hi, fun j hj => h.mem_racers hw₀ hgrants hj ms'⟩
  have hle := (hnodup.subperm hsubset).length_le
  rwa [List.length_cons, List.length_map] at hle

end Updates

/-- How a call is outpaced, from the world in which it is about to read its combatant for the
first time to the one in which it is about to try for the last time to write it: meanwhile others
have written the row, no less often than the call has attempts. -/
structure Outpaced (i : Nat) (r : ActionRequest) (first last : World) (others : List Nat) :
    Prop where
  unread : first.calls[i]? = some (.of (.act r))
  unanswered : last.answer? i = none
  refused : ∃ id, (last.step i).answer? i = some (.error (.contention id))
  commits : last.committed (Request.actsOn r.targetId) =
    first.committed (Request.actsOn r.targetId) ++ others
  nodup : others.Nodup
  notMem : i ∉ others
  attempts : writeAttempts ≤ others.length

/-- A race of few calls for the row of a combatant. -/
structure SmallRace (w₀ w : World) (k : Kept Combatant) : Prop where
  few : (w₀.racers k.record w).length ≤ writeAttempts
  readable : k.damaged = false
  /-- No row that the racers might leave behind is past reading. -/
  room : ∀ n ≤ (w₀.racers k.record w).length, Word.Fits (k.record.revision + n)

namespace World

variable {w : World} {i : Nat} {r : ActionRequest} {ms ms' : List Move}

theorem Sound.outpaced (h : w.Sound) (hcall : w.calls[i]? = some (.of (.act r))) {id : String}
    (hanswer : (w.after ms).answer? i = some (.error (.contention id))) :
    ∃ (front mid back : List Move) (others : List Nat),
      ms = front ++ .step i :: (mid ++ .step i :: back) ∧
        Outpaced i r (w.after front) (w.after (front ++ .step i :: mid)) others := by
  rcases h.act_refused hcall hanswer with ⟨-, -, -, hother, -⟩ |
    ⟨front, mid, back, rfl, hunread, hopen, hrefused, k, hk, hid, hlost⟩
  · cases hother
  have hlast := h.after (front ++ .step i :: mid)
  obtain ⟨own, hown⟩ := Updates.after (h.after front) hk (.step i :: mid)
  rw [← after_append] at hown
  obtain ⟨k', hk', hidentity, hrevision⟩ := hown.exists_row
  have hle :=
    hlost.le_revision hlast.store rfl hk' ((Combatant.id_of_identity hidentity).trans hid)
  have hunwritten : i ∉ (w.after (front ++ .step i :: mid)).commits := fun hmem =>
    (hlast.make (.step i)).notMem_commits (promises_of_answer hrefused)
      (hlast.mem_commits_make _ hmem)
  refine ⟨front, mid, back, own.map Prod.fst, rfl, hunread, hopen, ⟨id, hrefused⟩, ?_, ?_, ?_, ?_⟩
  · rw [← hid]
    exact hown.commits
  · exact (hown.nodup hlast).1
  · exact fun hmem => hunwritten (List.mem_filter.mp (hown.mem_committed hmem)).1
  · rw [List.length_map]
    omega

/-- As long as one of the racers has not committed, the row can be read, and it has been written
less often than a call has attempts. -/
theorem Sound.racing_row {w₀ : World} (h₀ : w₀.Sound) {k : Kept Combatant}
    (hk : k ∈ w₀.store.combatants) (hsmall : SmallRace w₀ ((w₀.after ms).after ms') k)
    (hgrants : (w₀.after ms).Grants) (hi : i ∈ w₀.racers k.record ((w₀.after ms).after ms'))
    (hopen : i ∉ (w₀.after ms).commits) :
    ∃ k' ∈ (w₀.after ms).store.combatants, k'.record.identity = k.record.identity ∧
      k'.damaged = false ∧
      k'.record.revision < k.record.revision + writeAttempts := by
  obtain ⟨own, hown⟩ := Updates.after h₀ hk ms
  have hlt := hown.length_lt h₀ hgrants hi hopen
  obtain ⟨k', hk', hidentity, hrevision⟩ := hown.exists_row
  obtain ⟨k'', hk'', hid, hread⟩ := h₀.readable_after hk hsmall.readable ms
  obtain rfl := (h₀.after ms).store.eq_of_combatantId hk'' hk'
    (hid.trans (Combatant.id_of_identity hidentity).symm)
  have hfew := hsmall.few
  refine ⟨k'', hk'', hidentity, hread ?_, by omega⟩
  rw [hrevision]
  exact hsmall.room own.length (by omega)

theorem Sound.exists_refusing_store {k : Kept Combatant} (h : w.Sound)
    (hk : k ∈ w.store.combatants) (hid : k.record.id = r.targetId) (hi : w.calls.length ≤ i)
    (hrequest : (w.after ms).request? i = some (.act r)) {e : Refusal}
    (hanswer : (w.after ms).answer? i = some (.error e)) :
    ∃ front back : List Move, ms = front ++ back ∧
      Service.ActionRefused r (k.record.revision + writeAttempts)
        (.error e : Except Refusal Answer) (w.after front).store := by
  obtain ⟨start, ms', rfl, -, hcall⟩ := exists_call hi hrequest
  have hsound := (h.after start).make (.call (.act r))
  rw [after_append_cons] at hanswer
  rcases hsound.act_refused hcall hanswer with ⟨front, back, rfl, -, hrefused⟩ |
    ⟨front, mid, back, rfl, -, -, -, k₁, hk₁, hid₁, hrefused⟩
  · refine ⟨start ++ .call (.act r) :: front, .step i :: back, by simp, ?_⟩
    rw [after_append_cons]
    exact hrefused _
  · refine ⟨start ++ .call (.act r) :: (front ++ .step i :: mid), .step i :: back, by simp, ?_⟩
    rw [after_append_cons]
    refine hrefused.of_le ?_
    rw [← after_append_cons] at hk₁
    obtain ⟨k₂, hk₂, hidentity, hle⟩ := (h.later_after _).exists_combatant hk
    obtain rfl := (h.after _).store.eq_of_combatantId hk₂ hk₁
      ((Combatant.id_of_identity hidentity).trans (hid.trans hid₁.symm))
    omega

theorem Sound.racer_granted {w₀ : World} (h₀ : w₀.Sound) (hgrants : ∀ ms, (w₀.after ms).Grants)
    {k : Kept Combatant} (hk : k ∈ w₀.store.combatants) (hsmall : SmallRace w₀ (w₀.after ms) k)
    (hi : w₀.calls.length ≤ i) {r : Request} (hrequest : (w₀.after ms).request? i = some r)
    (hwrite : r.canWrite k.record = true) {a : Except Refusal Answer}
    (hanswer : (w₀.after ms).answer? i = some a) : ∃ b, a = .ok b := by
  cases a with
  | ok b => exact ⟨b, rfl⟩
  | error e =>
      exfalso
      have hracer : i ∈ w₀.racers k.record (w₀.after ms) :=
        mem_racers hrequest hwrite (by simp [answer?, List.getElem?_eq_none hi])
      have hopen := (h₀.after ms).notMem_commits (promises_of_answer hanswer)
      obtain ⟨r, rfl, htarget, hcombat, action, hasked⟩ := Request.eq_act_of_canWrite hwrite
      obtain ⟨front, back, rfl, hrefused⟩ :=
        h₀.exists_refusing_store hk htarget.symm hi hrequest hanswer
      rw [after_append] at hsmall hracer hopen
      obtain ⟨k', hk', hidentity, hread, hlt⟩ := h₀.racing_row hk hsmall (hgrants front) hracer
        fun hmem => hopen (((h₀.after front).commits_after back).subset hmem)
      have hid' := (Combatant.id_of_identity hidentity).trans htarget.symm
      have hcombat' := (Combatant.combatId_of_identity hidentity).trans hcombat.symm
      have hle := hrefused.le_revision (h₀.after front).store
        (hrefused.isContention hasked hk' hid' hcombat' hread) hk' hid'
      omega

end World

/-- However calls race, an action is given up only if others have written its combatant in the
meantime at least as often as it has attempts. So in a race of no more calls than that every call
is granted, in a bounded number of steps. -/
theorem Combatant.contention_bounded (onFile : Bool) (before during : List Move) :
    let w₀ := (World.opened onFile).after before
    let w := w₀.after during
    (∀ i r id, w.request? i = some (.act r) → w.answer? i = some (.error (.contention id)) →
      ∃ (front mid back : List Move) (others : List Nat),
        before ++ during = front ++ .step i :: (mid ++ .step i :: back) ∧
          Outpaced i r ((World.opened onFile).after front)
            ((World.opened onFile).after (front ++ .step i :: mid)) others) ∧
    ∀ k ∈ w₀.store.combatants, SmallRace w₀ w k → ∀ i r, w₀.calls.length ≤ i →
      w.request? i = some r → r.canWrite k.record = true →
        (∀ a, w.answer? i = some a → ∃ b, a = .ok b) ∧
        ∀ front back, during = front ++ .call r :: back → i = (w₀.after front).calls.length →
          2 * writeAttempts + 2 ≤ back.countP (Move.isStepAt (· == i)) →
            ∃ b, w.answer? i = some (.ok b) := by
  intro w₀ w
  have h₀ : w₀.Sound := (World.sound_opened onFile).after before
  have hgrants : ∀ ms, (w₀.after ms).Grants := by
    intro ms
    rw [← World.after_append]
    exact World.grants_after onFile (before ++ ms)
  refine ⟨fun i r id hrequest hanswer => ?_, fun k hk hsmall i r hi hrequest hwrite => ⟨?_, ?_⟩⟩
  · have hall : w = (World.opened onFile).after (before ++ during) :=
      (World.after_append _ _ _).symm
    rw [hall] at hrequest hanswer
    obtain ⟨start, rest, hmoves, -, hcall⟩ := World.exists_call (Nat.zero_le i) hrequest
    rw [hmoves, World.after_append_cons] at hanswer
    have hsound := ((World.sound_opened onFile).after start).make (.call (.act r))
    obtain ⟨front, mid, back, others, rfl, houtpaced⟩ := hsound.outpaced hcall hanswer
    refine ⟨start ++ .call (.act r) :: front, mid, back, others, by simp [hmoves], ?_⟩
    rw [List.append_assoc, List.cons_append, World.after_append_cons, World.after_append_cons]
    exact houtpaced
  · exact fun a => h₀.racer_granted hgrants hk hsmall hi hrequest hwrite
  · intro front back hduring hplace hsteps
    have hcall : ((w₀.after front).make (.call r)).calls[i]? = some (.of r) := by
      simp [World.make, hplace]
    have hwithin : r.serve.run.Within (2 * writeAttempts + 2) := by
      obtain ⟨r, rfl, -⟩ := Request.eq_act_of_canWrite hwrite
      exact (Service.applyAction_within r).map _
    obtain ⟨a, hanswer⟩ := World.exists_answer_of_within hcall hwithin hsteps
    rw [← World.after_append_cons, ← hduring] at hanswer
    obtain ⟨b, rfl⟩ := h₀.racer_granted hgrants hk hsmall hi hrequest hwrite hanswer
    exact ⟨b, hanswer⟩

def World.strike : ActionRequest := ⟨"combat-1", "combatant-1", "damage", some (.number 1), none⟩

/-- Another call reads and writes the row, then the first one fails to write it and reads it
again. -/
def World.overtake (i : Nat) : List Move := [.step i, .step i, .step i, .step 1, .step 1]

/-- The call that reads the row first is overtaken by so many others, one after the other. -/
def World.chase (others : Nat) : List Move :=
  List.replicate (others + 1) (Move.call (.act strike)) ++ Move.step 1 :: Move.step 1 ::
    ((List.range' 2 others).flatMap overtake ++ [Move.step 1, Move.step 1])

theorem Combatant.contention_bounded_chase :
    let w₀ := (World.opened false).after World.soloStart
    let k := Kept.intact World.soloCombatant
    ((w₀.after (World.chase 5)).request? 1 = some (.act World.strike) ∧
        (w₀.after (World.chase 5)).answer? 1 = some (.error (.contention "combatant-1")) ∧
        ∃ (front mid back : List Move) (others : List Nat),
          World.soloStart ++ World.chase 5 = front ++ .step 1 :: (mid ++ .step 1 :: back) ∧
            Outpaced 1 World.strike ((World.opened false).after front)
              ((World.opened false).after (front ++ .step 1 :: mid)) others) ∧
      k ∈ w₀.store.combatants ∧ SmallRace w₀ (w₀.after (World.chase 4)) k ∧ w₀.calls.length ≤ 1 ∧
        (w₀.after (World.chase 4)).request? 1 = some (.act World.strike) ∧
        (Request.act World.strike).canWrite k.record = true ∧
        2 * writeAttempts + 2 ≤ (World.chase 4).tail.countP (Move.isStepAt (· == 1)) ∧
        ∃ b, (w₀.after (World.chase 4)).answer? 1 = some (.ok b) := by
  intro w₀ k
  have hw₀ : w₀ = World.soloWorld := World.after_soloStart
  have hrequest : (w₀.after (World.chase 5)).request? 1 = some (.act World.strike) := by
    rw [hw₀]
    rfl
  have hanswer :
      (w₀.after (World.chase 5)).answer? 1 = some (.error (.contention "combatant-1")) := by
    rw [hw₀]
    rfl
  have hk : k ∈ w₀.store.combatants := by
    rw [hw₀]
    exact List.mem_singleton_self k
  have hracers : w₀.racers k.record (w₀.after (World.chase 4)) = [1, 2, 3, 4, 5] := by
    rw [hw₀]
    rfl
  have hsmall : SmallRace w₀ (w₀.after (World.chase 4)) k := by
    refine ⟨?_, rfl, ?_⟩
    · rw [hracers]
      decide
    · rw [hracers]
      decide
  have hcalls : w₀.calls.length = 1 := by
    rw [hw₀]
    rfl
  have hracing : (w₀.after (World.chase 4)).request? 1 = some (.act World.strike) := by
    rw [hw₀]
    rfl
  have hwrite : (Request.act World.strike).canWrite k.record = true := by decide
  have hsteps :
      2 * writeAttempts + 2 ≤ (World.chase 4).tail.countP (Move.isStepAt (· == 1)) := by decide
  refine ⟨⟨hrequest, hanswer, ?_⟩, hk, hsmall, hcalls.le, hracing, hwrite, hsteps, ?_⟩
  · exact (Combatant.contention_bounded false World.soloStart (World.chase 5)).1 1 _ _
      hrequest hanswer
  · exact ((Combatant.contention_bounded false World.soloStart (World.chase 4)).2 k hk hsmall
      1 _ hcalls.le hracing hwrite).2 [] _ rfl hcalls.symm hsteps

end Gamemaster
