import Gamemaster.Proofs.Effect
import Gamemaster.Proofs.Task.Run

namespace Gamemaster

theorem ok_bind {ε : Type} (a : α) (f : α → Except ε β) : (Except.ok a >>= f) = f a := rfl

theorem eq_ok_of_bind {ε : Type} {x : Except ε α} {f : α → Except ε β} {b : β}
    (h : (x >>= f) = .ok b) : ∃ a, x = .ok a ∧ f a = .ok b := by
  cases x with
  | error e => exact nomatch h
  | ok a => exact ⟨a, rfl, h⟩

namespace Store

def locate (combatId combatantId : String) (s : Store) : Except Refusal Combatant := do
  match ← s.combatant? combatantId with
  | none => throw (.notFound .combatant combatantId)
  | some c =>
      if c.combatId = combatId then return c else throw (.wrongCombat combatantId combatId)

theorem mem_of_locate {combatId combatantId : String} {c : Combatant} {s : Store}
    (h : s.locate combatId combatantId = .ok c) :
    c.id = combatantId ∧ c.combatId = combatId ∧
      ∃ k ∈ s.combatants, k.damaged = false ∧ k.record = c := by
  obtain ⟨found, hfound, h⟩ := eq_ok_of_bind h
  cases found with
  | none => exact nomatch h
  | some c' =>
      dsimp only at h
      split at h
      · rename_i hcombat
        obtain rfl := Except.ok.inj h
        obtain ⟨k, hk, hread, hrecord, hid⟩ := mem_of_combatant? hfound
        exact ⟨hid, hcombat, k, hk, hread, hrecord⟩
      · exact nomatch h

/-- Whether a combat has no row of a combatant that could be read. -/
def Lacks (combatId combatantId : String) (s : Store) : Prop :=
  ∀ k ∈ s.combatants, k.record.id = combatantId → k.record.combatId = combatId → k.damaged = true

theorem lacks_of_locate {combatId combatantId : String} {e : Refusal} {s : Store} (hs : s.Sound)
    (h : s.locate combatId combatantId = .error e) : s.Lacks combatId combatantId := by
  rintro k hk rfl rfl
  cases hread : k.damaged with
  | true => rfl
  | false =>
      simp only [locate, hs.combatant? hk, Kept.read, hread, Bool.false_eq_true, if_false,
        Except.map, ok_bind, if_true] at h
      cases h

end Store

/-- Whether a request is refused since its attempts were all lost. -/
def Refusal.isContention : Refusal → Bool
  | contention _ => true
  | _ => false

theorem Store.isContention_of_locate {combatId combatantId : String} {e : Refusal} {s : Store}
    (h : s.locate combatId combatantId = .error e) : e.isContention = false := by
  simp only [locate, combatant?, Kept.read] at h
  split at h
  · obtain rfl := Except.error.inj h
    rfl
  · split at h
    · obtain rfl := Except.error.inj h
      rfl
    · dsimp only [Except.map, ok_bind] at h
      split at h
      · cases h
      · obtain rfl := Except.error.inj h
        rfl

theorem Store.Later.encounter? {s s' : Store} (h : s.Later s') {id : String} {e : Encounter}
    (he : s.encounter? id = .ok (some e)) : s'.encounter? id = .ok (some e) := by
  obtain ⟨more, hmore⟩ := h.encounters
  unfold Store.encounter? at he ⊢
  rw [← hmore, List.find?_append]
  cases hfind : s.encounters.find? fun r => r.id = id with
  | none => simp [hfind] at he
  | some r => simpa [hfind] using he

theorem StartRequest.Plays.later {r : StartRequest} {s s' : Store} {roster : List Member}
    (h : r.Plays s roster) (hs : s.Later s') : r.Plays s' roster := by
  unfold Plays at h ⊢
  by_cases hroster : r.roster = []
  · rw [if_pos hroster] at h ⊢
    obtain ⟨id, e, hid, he, heroster⟩ := h
    exact ⟨id, e, hid, hs.encounter? he, heroster⟩
  · rw [if_neg hroster] at h ⊢
    exact h

namespace Service

theorem rosterOf_reads (r : StartRequest) (s : Store) :
    Reads (fun a s' => ∀ roster, a = .ok roster → roster ≠ [] → r.Plays s' roster)
      (rosterOf r) s := by
  unfold rosterOf
  by_cases hown : r.roster = []
  · rw [if_neg (by simp [hown])]
    cases hid : r.encounterId with
    | none =>
        refine Reads.pure fun roster h hne => ?_
        exact absurd (Except.ok.inj h).symm hne
    | some id =>
        refine Reads.bind (Reads.query _ s) (fun found s' hfound => ?_) fun e s' _ roster h => ?_
        · obtain ⟨-, -, hfound⟩ := hfound
          cases found with
          | none => exact Reads.throw fun roster h => by simp at h
          | some e =>
              refine Reads.pure fun roster h _ => ?_
              rw [StartRequest.Plays, if_pos hown]
              exact ⟨id, e, hid, hfound.symm, Except.ok.inj h⟩
        · simp at h
  · rw [if_pos (by simp [hown])]
    refine Reads.pure fun roster h _ => ?_
    rw [StartRequest.Plays, if_neg hown]
    exact (Except.ok.inj h).symm

theorem start_atomic (r : StartRequest) (s : Store) :
    Atomic Refused (fun a => Effect (.start r) (.started a)) (start r) s := by
  unfold start
  by_cases hcampaign : Text.isBlankText r.campaignId = true
  · rw [if_pos hcampaign]
    exact Atomic.throw (refused_error _ s)
  rw [if_neg hcampaign]
  refine Atomic.bind (rosterOf_reads r s) (fun roster s₁ hplays => ?_) fun e s₁ _ =>
    refused_error e s₁
  by_cases hnonempty : roster = []
  · rw [if_pos (by simp [hnonempty])]
    exact Atomic.throw (refused_error _ s₁)
  rw [if_neg (by simp [hnonempty])]
  cases hvalid : Roster.fault? roster with
  | some fault => exact Atomic.throw (refused_error _ s₁)
  | none =>
      refine Atomic.transact (fun s₂ b s' hlater hsound hchange => .inr ?_)
        fun s₂ e _ _ _ => refused_error e s₂
      rcases hinserted : s₂.insertCombat r.campaignId r.encounterId roster with
        ⟨⟨combat, combatants⟩, s₃⟩
      rw [hinserted] at hchange
      obtain ⟨rfl, hlogged⟩ := logged_eq_ok hchange
      refine ⟨_, ?_, settled_publish⟩
      exact .start (by simpa using hcampaign)
        ((hplays roster rfl hnonempty).later hlater) hnonempty hvalid hinserted hlogged

theorem locate_eq_query (combatId combatantId : String) :
    locate combatId combatantId = query (Store.locate combatId combatantId) := by
  refine congrArg (Task.step id) (funext fun s => ?_)
  change Task.bind (.done (s.ask (Store.combatant? combatantId))) _ = .done (s.ask _)
  unfold Store.ask Store.locate
  split
  · rcases s.combatant? combatantId with e | _ | c
    · rfl
    · rfl
    · change (ite _ _ _ : Service Combatant).run = .done (ite _ _ _)
      split <;> rfl
  · rfl

def Logs (combatId : String) (campaignId : Option String) (s : Store) : Prop :=
  ∃ row ∈ s.combats, row.combat.id = combatId ∧ campaignId = some row.combat.campaignId

theorem Logs.later {combatId : String} {campaignId : Option String} {s s' : Store}
    (h : Logs combatId campaignId s) (hs : s.Later s') : Logs combatId campaignId s' := by
  obtain ⟨row, hrow, hid, hcampaign⟩ := h
  obtain ⟨row', hrow', hidentity, -⟩ := hs.combats row hrow
  refine ⟨row', hrow', (Combat.id_of_identity hidentity).trans hid, ?_⟩
  rw [hcampaign, Combat.campaignId_of_identity hidentity]

/-- A guarded write either finds its row moved on, or goes through together with its event. -/
theorem write_eq_ok {written : Option Store} {e : Event} {s s' : Store} {committed : Bool}
    (h : (match written with
      | none => return (false, s)
      | some s₁ => return (true, ← s₁.append e) : Except Refusal (Bool × Store)) =
        .ok (committed, s')) :
    (committed = false ∧ written = none ∧ s' = s) ∨
      (committed = true ∧ ∃ s₁, written = some s₁ ∧ s₁.append e = .ok s') := by
  cases written with
  | none => simpa [pure, Except.pure, eq_comm] using h
  | some s₁ =>
      cases hlogged : s₁.append e with
      | error e => simp [hlogged, bind, Except.bind] at h
      | ok s₂ => simpa [hlogged, bind, Except.bind, pure, Except.pure, eq_comm] using h

theorem attempt_succ (r : ActionRequest) (action : Action) (campaignId : Option String)
    (attempts : Nat) (c : Combatant) :
    attempt r action campaignId (attempts + 1) c = (do
      let (answer, event) := actionReport campaignId action (action.apply c)
      if ← writeCombatant (action.apply c) event then
        publish event
        return answer
      else if attempts = 0 then
        throw (.contention r.targetId)
      else
        attempt r action campaignId attempts (← locate r.combatId r.targetId)) := rfl

/-- An action that is written was applied to the row as it is: a row at the revision that was read
has not been written since. -/
theorem effect_of_acted {r : ActionRequest} {action : Action} {campaignId : Option String}
    (hasked : Action.ofRequest r.tag r.value r.condition = .ok action) {k : Kept Combatant}
    {s s₁ s₂ s' : Store} (hk : k ∈ s.combatants) (hread : k.damaged = false)
    (hid : k.record.id = r.targetId) (hcombat : k.record.combatId = r.combatId)
    (hlogs : Logs r.combatId campaignId s) (hlater : s.Later s₁) (hsound : s₁.Sound)
    (hwritten : s₁.commitCombatant? (action.apply k.record) = some s₂)
    (hlogged : s₂.append (actionReport campaignId action (action.apply k.record)).2 = .ok s') :
    Effect (.act r)
      (.acted (actionReport campaignId action (action.apply k.record)).1) s₁ s' := by
  obtain ⟨k', hk', hidentity, hrevision⟩ := hlater.combatants k hk
  obtain ⟨⟨row, hrow, hrowId, hrowRevision⟩, -⟩ := Store.eq_of_commitCombatant? hwritten
  rw [Combatant.id_apply, ← Combatant.id_of_identity hidentity] at hrowId
  rw [Combatant.revision_apply] at hrowRevision
  obtain rfl := hsound.eq_of_combatantId hrow hk' hrowId
  obtain rfl : row = k := hrevision.resolve_right (by omega)
  obtain ⟨combat, hrowFound, hcombatId, rfl⟩ := hlogs.later hlater
  exact .act hk' hread hid hcombat hrowFound hcombatId hasked hwritten hlogged

/-- What a caller is told whose action is refused: it was lost to others whose writes took the row
to the revision `n`, or it is no action, or there was no row to act on. -/
def ActionRefused (r : ActionRequest) (n : Int) (a : Except Refusal α) (s : Store) : Prop :=
  ∃ e, a = .error e ∧
    if e.isContention then ∃ k ∈ s.combatants, k.record.id = r.targetId ∧ n ≤ k.record.revision
    else (∃ fault, Action.ofRequest r.tag r.value r.condition = .error fault) ∨
      s.Lacks r.combatId r.targetId

theorem ActionRefused.refused {r : ActionRequest} {n : Int} {a : Except Refusal α} {s : Store}
    (h : ActionRefused r n a s) : Refused a s :=
  h.imp fun _ h => h.1

theorem actionRefused_of_other {r : ActionRequest} {e : Refusal} {s : Store}
    (he : e.isContention = false)
    (h : (∃ fault, Action.ofRequest r.tag r.value r.condition = .error fault) ∨
      s.Lacks r.combatId r.targetId) (n : Int) :
    ActionRefused r n (.error e : Except Refusal α) s :=
  ⟨e, rfl, by rwa [he, if_neg Bool.false_ne_true]⟩

namespace ActionRefused

variable {r : ActionRequest} {e : Refusal} {k : Kept Combatant} {s : Store} {n : Int}

theorem of_le {m : Int} {a : Except Refusal α} (h : ActionRefused r n a s) (hmn : m ≤ n) :
    ActionRefused r m a s := by
  obtain ⟨e, rfl, h⟩ := h
  refine ⟨e, rfl, ?_⟩
  cases hcontention : e.isContention with
  | false => simpa [hcontention] using h
  | true =>
      rw [if_pos hcontention] at h
      obtain ⟨k, hk, hid, hle⟩ := h
      exact ⟨k, hk, hid, Int.le_trans hmn hle⟩

theorem le_revision (h : ActionRefused r n (.error e : Except Refusal α) s) (hs : s.Sound)
    (he : e.isContention = true) (hk : k ∈ s.combatants) (hid : k.record.id = r.targetId) :
    n ≤ k.record.revision := by
  obtain ⟨e', he', h⟩ := h
  obtain rfl := Except.error.inj he'
  rw [he, if_pos rfl] at h
  obtain ⟨k', hk', hid', hle⟩ := h
  obtain rfl := hs.eq_of_combatantId hk' hk (hid'.trans hid.symm)
  exact hle

theorem of_other (h : ActionRefused r n (.error e : Except Refusal α) s)
    (he : e.isContention = false) (m : Int) :
    ActionRefused r m (.error e : Except Refusal α) s := by
  obtain ⟨e', he', h⟩ := h
  obtain rfl := Except.error.inj he'
  rw [he, if_neg Bool.false_ne_true] at h
  exact actionRefused_of_other he h m

/-- A proper action on a combatant that can be read is refused only for contention. -/
theorem isContention {action : Action} (h : ActionRefused r n (.error e : Except Refusal α) s)
    (hasked : Action.ofRequest r.tag r.value r.condition = .ok action) (hk : k ∈ s.combatants)
    (hid : k.record.id = r.targetId) (hcombat : k.record.combatId = r.combatId)
    (hread : k.damaged = false) : e.isContention = true := by
  obtain ⟨e', he', h⟩ := h
  obtain rfl := Except.error.inj he'
  by_contra he
  rw [if_neg he] at h
  rcases h with ⟨fault, hfault⟩ | hlacks
  · exact nomatch hasked.symm.trans hfault
  · exact nomatch hread.symm.trans (hlacks k hk hid hcombat)

end ActionRefused

theorem actionRefused_of_locate {r : ActionRequest} {n : Int} {e : Refusal} {s : Store}
    (hs : s.Sound) (h : s.locate r.combatId r.targetId = .error e) :
    ActionRefused r n (.error e : Except Refusal α) s :=
  actionRefused_of_other (Store.isContention_of_locate h) (.inr (Store.lacks_of_locate hs h)) n

theorem revision_lt_of_unwritten {action : Action} {k : Kept Combatant} {s s' : Store}
    (hk : k ∈ s.combatants) (hlater : s.Later s')
    (hunwritten : s'.commitCombatant? (action.apply k.record) = none) :
    ∃ k' ∈ s'.combatants, k'.record.id = k.record.id ∧
      k.record.revision < k'.record.revision := by
  obtain ⟨k', hk', hidentity, hle⟩ := hlater.exists_combatant hk
  have hid := Combatant.id_of_identity hidentity
  have hne := Store.revision_ne_of_commitCombatant? hunwritten hk' (by rwa [Combatant.id_apply])
  rw [Combatant.revision_apply] at hne
  exact ⟨k', hk', hid, by omega⟩

/-- A write that leaves the log of a sound store alone is not stopped by it. -/
theorem write_ne_error {written : Option Store} {event : Event} {s : Store} {e : Refusal}
    (h : (match written with
      | none => return (false, s)
      | some s₁ => return (true, ← s₁.append event) : Except Refusal (Bool × Store)) = .error e)
    (hs : s.Sound) : ¬∀ s₁, written = some s₁ → s₁.log = s.log := by
  intro hlog
  obtain ⟨events, hevents⟩ := hs.log
  cases written with
  | none => cases h
  | some s₁ =>
      simp only [Store.append, hlog s₁ rfl, hevents] at h
      cases h

/-- An attempt is lost only to a write since the row was read, and each further attempt reads it
anew. -/
theorem attempt_atomic (r : ActionRequest) {action : Action} {campaignId : Option String}
    (hasked : Action.ofRequest r.tag r.value r.condition = .ok action) (attempts : Nat)
    {k : Kept Combatant} {s s' : Store} (hk : k ∈ s.combatants) (hread : k.damaged = false)
    (hid : k.record.id = r.targetId) (hcombat : k.record.combatId = r.combatId)
    (hlogs : Logs r.combatId campaignId s) (hs : s.Later s') :
    Atomic (ActionRefused r (k.record.revision + attempts)) (fun a => Effect (.act r) (.acted a))
      (attempt r action campaignId attempts k.record) s' := by
  induction attempts generalizing k s s' with
  | zero =>
      obtain ⟨k', hk', hidentity, hle⟩ := hs.exists_combatant hk
      have hid' := (Combatant.id_of_identity hidentity).trans hid
      exact Atomic.throw ⟨_, rfl, k', hk', hid', by omega⟩
  | succ attempts ih =>
      rw [attempt_succ]
      refine Atomic.transact (fun s₁ committed s'' hlater hsound hchange => ?_)
        fun s₁ e _ hsound hchange =>
          absurd (fun _ => Store.log_of_commitCombatant?) (write_ne_error hchange hsound)
      rcases write_eq_ok hchange with ⟨rfl, hunwritten, rfl⟩ | ⟨rfl, s₂, hwritten, hlogged⟩
      · refine .inl ⟨rfl, ?_⟩
        obtain ⟨k₁, hk₁, hid₁, hlt⟩ := revision_lt_of_unwritten hk (hs.trans hlater) hunwritten
        rw [if_neg Bool.false_ne_true]
        by_cases hlast : attempts = 0
        · rw [if_pos hlast]
          exact Atomic.throw ⟨_, rfl, k₁, hk₁, hid₁.trans hid, by omega⟩
        rw [if_neg hlast, locate_eq_query]
        refine Atomic.bind (Reads.query _ s'') (fun c s₂ hfound => ?_) fun e s₂ hfound =>
          actionRefused_of_locate hfound.2.1 hfound.2.2.symm
        obtain ⟨hlater', hsound', hfound⟩ := hfound
        obtain ⟨hid₂, hcombat₂, k₂, hk₂, hread₂, rfl⟩ := Store.mem_of_locate hfound.symm
        -- The row that is read anew is one write further, which pays for the lost attempt.
        have hmoved : k.record.revision + 1 ≤ k₂.record.revision := by
          obtain ⟨k₃, hk₃, hidentity₃, hle⟩ := hlater'.exists_combatant hk₁
          have hid₃ := (Combatant.id_of_identity hidentity₃).trans (hid₁.trans hid)
          obtain rfl := hsound'.eq_of_combatantId hk₃ hk₂ (hid₃.trans hid₂.symm)
          omega
        have hlogs' := ((hlogs.later hs).later hlater).later hlater'
        exact (ih hk₂ hread₂ hid₂ hcombat₂ hlogs' (.refl s₂)).imp
          (fun _ _ h => h.of_le (by omega)) fun _ _ _ h => h
      · have heffect := effect_of_acted hasked hk hread hid hcombat hlogs (hs.trans hlater) hsound
          hwritten hlogged
        exact .inr ⟨_, heffect, settled_publish⟩

/-- What is left of an action once the combatant was looked up. -/
def actOn (r : ActionRequest) (c : Combatant) : Service ActionAnswer := do
  match Action.ofRequest r.tag r.value r.condition with
  | .error fault => throw (.action fault)
  | .ok action =>
    let combat ← query (Store.combat? r.combatId)
    attempt r action (combat.map Combat.campaignId) writeAttempts c

theorem applyAction_eq (r : ActionRequest) :
    applyAction r = query (Store.locate r.combatId r.targetId) >>= actOn r := by
  rw [← locate_eq_query]
  rfl

theorem actOn_atomic (r : ActionRequest) {k : Kept Combatant} {s : Store} (hs : s.Sound)
    (hk : k ∈ s.combatants) (hread : k.damaged = false) (hid : k.record.id = r.targetId)
    (hcombat : k.record.combatId = r.combatId) :
    Atomic (ActionRefused r (k.record.revision + writeAttempts))
      (fun a => Effect (.act r) (.acted a)) (actOn r k.record) s := by
  unfold actOn
  cases hasked : Action.ofRequest r.tag r.value r.condition with
  | error fault => exact Atomic.throw ⟨_, rfl, .inl ⟨fault, hasked⟩⟩
  | ok action =>
      obtain ⟨row, hrow, howner⟩ := hs.owned k hk
      have hfound :
          ∀ s₁, s.Later s₁ → s₁.Sound → ∃ combat, s₁.combat? r.combatId = .ok (some combat) ∧
            combat.campaignId = row.combat.campaignId := by
        intro s₁ hlater hsound
        obtain ⟨row', hrow', hidentity, -⟩ := hlater.combats row hrow
        have hrowId : row'.combat.id = r.combatId :=
          (Combat.id_of_identity hidentity).trans (howner.trans hcombat)
        exact ⟨row'.combat, hrowId ▸ hsound.combat? hrow',
          Combat.campaignId_of_identity hidentity⟩
      refine Atomic.bind (Reads.query _ s) (fun combat s₁ hanswer => ?_) fun e s₁ hanswer => ?_
      · obtain ⟨hlater, hsound, hanswer⟩ := hanswer
        obtain ⟨combat', hcombat', hcampaign⟩ := hfound s₁ hlater hsound
        obtain rfl := Except.ok.inj (hanswer.trans hcombat')
        exact attempt_atomic r hasked writeAttempts hk hread hid hcombat
          ⟨row, hrow, howner.trans hcombat, congrArg some hcampaign⟩ hlater
      · obtain ⟨hlater, hsound, hanswer⟩ := hanswer
        obtain ⟨combat', hcombat', -⟩ := hfound s₁ hlater hsound
        exact nomatch hanswer.trans hcombat'

theorem applyAction_atomic (r : ActionRequest) (s : Store) :
    Atomic Refused (fun a => Effect (.act r) (.acted a)) (applyAction r) s := by
  rw [applyAction_eq]
  refine Atomic.bind (Reads.query _ s) (fun c s₁ hfound => ?_) fun e s₁ _ => refused_error e s₁
  obtain ⟨-, hsound, hfound⟩ := hfound
  obtain ⟨hid, hcombat, k, hk, hread, rfl⟩ := Store.mem_of_locate hfound.symm
  exact (actOn_atomic r hsound hk hread hid hcombat).imp (fun _ _ h => h.refused) fun _ _ _ h => h

/-- The first step of an action looks the combatant up. Either the action is refused at once, or
it is applied to what was read. -/
theorem applyAction_rest (r : ActionRequest) {s : Store} (hs : s.Sound) :
    (applyAction r).run.rest s =
      match s.locate r.combatId r.targetId with
      | .ok c => (actOn r c).run
      | .error e => .done (.error e) := by
  rw [applyAction_eq]
  change ExceptT.bindCont (actOn r) (s.ask (Store.locate r.combatId r.targetId)) = _
  rw [hs.ask]
  cases s.locate r.combatId r.targetId <;> rfl

theorem findCombat_reads (id : String) (s : Store) :
    Reads (fun a s' => s.Later s' ∧ s'.Sound ∧ match a with
        | .ok combat => ∃ row ∈ s'.combats, row.combat = combat ∧ combat.id = id
        | .error _ => ∀ row ∈ s'.combats, row.combat.id ≠ id)
      (findCombat id) s := by
  refine Reads.bind (Reads.query _ s) (fun found s' hfound => ?_) fun e s' h => ?_
  · obtain ⟨hlater, hsound, hfound⟩ := hfound
    cases found with
    | none =>
        refine Reads.throw ⟨hlater, hsound, fun row hrow hid => ?_⟩
        rw [← hid, hsound.combat? hrow] at hfound
        simp at hfound
    | some combat => exact Reads.pure ⟨hlater, hsound, Store.mem_of_combat? hfound.symm⟩
  · obtain ⟨hlater, hsound, hanswer⟩ := h
    refine ⟨hlater, hsound, fun row hrow hid => ?_⟩
    rw [← hid, hsound.combat? hrow] at hanswer
    simp at hanswer

/-- What is left of a turn once the caller's version was compared with that of the combat. -/
def turnFrom (r : TurnRequest) (combat : Combat) : Service TurnAnswer := do
  let combatants ← query (Store.combatantsOf combat.id)
  let turn ← ofTurn (combat.advance r.version combatants.length)
  let (answer, event) := turnReport (combat.take turn) combatants
  let committed ← transact fun s =>
    match s.commitTurn? combat.id turn with
    | none => return (false, s)
    | some s => return (true, ← s.append event)
  if committed then
    publish event
    return answer
  else
    let actual ← query fun s => return s.version? combat.id
    throw (.versionConflict combat.id r.version (actual.getD turn.fromVersion))

theorem nextTurn_eq (r : TurnRequest) :
    nextTurn r = (do
      let combat ← findCombat r.combatId
      ofTurn (combat.checkVersion r.version)
      turnFrom r combat) := rfl

/-- What a turn is told that was taken from the current version and came too late, or whose combat
has a combatant that cannot be read. -/
def Overtaken (r : TurnRequest) (a : Except Refusal α) (s : Store) : Prop :=
  (a = .error .storage ∧ ¬s.Readable r.combatId) ∨
    ∃ actual, a = .error (.versionConflict r.combatId r.version actual) ∧
      (s.turns r.combatId < 2 ^ 63 - 1 →
        r.version < actual ∧ actual ≤ 1 + (s.turns r.combatId : Int))

theorem Overtaken.later {r : TurnRequest} {a : Except Refusal α} {s s' : Store}
    (h : Overtaken r a s) (hs : s.Later s') : Overtaken r a s' := by
  have hle := hs.turns_le r.combatId
  rcases h with ⟨ha, hunread⟩ | ⟨actual, ha, h⟩
  · exact .inl ⟨ha, fun hread => hunread (hs.readable hread)⟩
  · refine .inr ⟨actual, ha, fun hturns => ?_⟩
    obtain ⟨hlt, hactual⟩ := h (by omega)
    exact ⟨hlt, by omega⟩

section Turn

variable {r : TurnRequest} {seen : CombatRow} {turn : Turn} {s s₁ s₂ s₃ s' : Store}

theorem overtaken_of_unwritten (hs : s.Sound) (hseen : seen ∈ s.combats)
    (hid : seen.combat.id = r.combatId) (hversion : seen.combat.version = r.version)
    (hfrom : turn.fromVersion = seen.combat.version) (hlater : s.Later s₂)
    (hunwritten : s₂.commitTurn? seen.combat.id turn = none) (hlater₃ : s₂.Later s₃)
    (hsound₃ : s₃.Sound) {row : CombatRow} (hrow : row ∈ s₃.combats)
    (hrowId : row.combat.id = seen.combat.id) :
    Overtaken r (.error (.versionConflict r.combatId r.version row.combat.version) :
      Except Refusal TurnAnswer) s₃ := by
  refine .inr ⟨row.combat.version, rfl, fun hturns => ⟨?_, ?_⟩⟩
  · rw [← hversion]
    refine hlater.version_lt hlater₃ hs hsound₃ hseen (fun row' hrow' hrowId' => ?_) hrow hrowId
      (hid ▸ hturns)
    rw [← hfrom]
    exact Store.version_ne_of_commitTurn? hunwritten hrow' hrowId'
  · have hthird : row.combat.id = r.combatId := hrowId.trans hid
    have hactual := hsound₃.version_eq hrow (hthird ▸ hturns)
    rw [hthird] at hactual
    exact Int.le_of_eq hactual

theorem effect_of_written (hs : s.Sound) (hseen : seen ∈ s.combats)
    (hid : seen.combat.id = r.combatId) (hversion : seen.combat.version = r.version)
    (hlater₁ : s.Later s₁) (hlater₂ : s₁.Later s₂) (hsound₂ : s₂.Sound)
    (hturn : seen.combat.advance r.version (s₁.roster seen.combat.id).length = .ok turn)
    (hwritten : s₂.commitTurn? seen.combat.id turn = some s₃)
    (hlogged : s₃.append
      (turnReport (seen.combat.take turn) (s₁.roster seen.combat.id)).2 = .ok s') :
    Effect (.nextTurn r)
      (.turned (turnReport (seen.combat.take turn) (s₁.roster seen.combat.id)).1) s₂ s' := by
  have hlater := hlater₁.trans hlater₂
  obtain ⟨-, hfrom, -⟩ := Combat.version_advance hturn
  obtain ⟨⟨row, hrow, hrowId, hrowVersion⟩, -⟩ := Store.eq_of_commitTurn? hwritten
  obtain ⟨row', hrow', hidentity, -⟩ := hlater.combats seen hseen
  obtain rfl := hsound₂.eq_of_combatId hrow hrow'
    (hrowId.trans (Combat.id_of_identity hidentity).symm)
  refine .turn hrow (hrowId.trans hid) ?_ hidentity.symm ?_ ?_ hturn ?_ hlogged
  · rw [hrowVersion, hfrom, hversion]
  · intro hturns
    rw [hlater.combat_still hs hsound₂ hseen hrow hrowId (hrowVersion.trans hfrom) (hid ▸ hturns)]
  · obtain ⟨row₁, hrow₁, hid₁⟩ := hlater₁.mem_combat hseen
    rw [← hid, ← hid₁, hlater₂.rosters row₁ hrow₁]
  · rw [← hid]
    exact hwritten

theorem turnFrom_atomic (r : TurnRequest) (hs : s.Sound) (hseen : seen ∈ s.combats)
    (hid : seen.combat.id = r.combatId) (hversion : seen.combat.version = r.version) :
    Atomic (Overtaken r) (fun a => Effect (.nextTurn r) (.turned a))
      (turnFrom r seen.combat) s := by
  refine Atomic.bind (Reads.query _ s) (fun order s₁ hread => ?_) fun e s₁ hread => ?_
  · obtain ⟨hlater₁, hsound₁, hread⟩ := hread
    rw [Store.combatantsOf_eq] at hread
    split at hread
    swap
    · simp at hread
    obtain rfl := Except.ok.inj hread
    have hmanned : (s₁.roster seen.combat.id).length ≠ 0 := by
      obtain ⟨row₁, hrow₁, hid₁⟩ := hlater₁.mem_combat hseen
      rw [← hid₁]
      exact List.length_eq_zero_iff.not.mpr (hsound₁.roster_ne_nil hrow₁)
    obtain ⟨turn, hturn⟩ := seen.combat.exists_advance hmanned
    rw [hversion] at hturn
    rw [hturn]
    refine Atomic.transact (fun s₂ committed s' hlater₂ hsound₂ hchange => ?_)
      fun s₂ e _ hsound₂ hchange =>
        absurd (fun _ => Store.log_of_commitTurn?) (write_ne_error hchange hsound₂)
    rcases write_eq_ok hchange with ⟨rfl, hunwritten, rfl⟩ | ⟨rfl, s₃, hwritten, hlogged⟩
    · refine .inl ⟨rfl, ?_⟩
      refine Atomic.bind (Reads.query _ s') (fun actual s₃ hread => ?_) fun e s₃ hread => ?_
      · obtain ⟨hlater₃, hsound₃, hread⟩ := hread
        -- Nothing was written, so the version that is read next is no longer the call's.
        have hlater := hlater₁.trans hlater₂
        obtain ⟨row, hrow, hrowId⟩ := (hlater.trans hlater₃).mem_combat hseen
        rw [← hrowId, hsound₃.version? hrow] at hread
        obtain rfl := Except.ok.inj hread
        obtain ⟨-, hfrom, -⟩ := Combat.version_advance hturn
        have hovertaken := overtaken_of_unwritten hs hseen hid hversion hfrom hlater hunwritten
          hlater₃ hsound₃ hrow hrowId
        rw [← hid] at hovertaken
        exact Atomic.throw hovertaken
      · simp [pure, Except.pure] at hread
    · have heffect := effect_of_written hs hseen hid hversion hlater₁ hlater₂ hsound₂ hturn
        hwritten hlogged
      exact .inr ⟨_, heffect, settled_publish⟩
  · obtain ⟨-, -, hread⟩ := hread
    rw [Store.combatantsOf_eq] at hread
    split at hread
    · simp at hread
    · rename_i hunread
      exact .inl ⟨by rw [Except.error.inj hread], hid ▸ hunread⟩

end Turn

/-- What a caller is told whose turn is refused, the combat having been in the store `s`
before. -/
def TurnRefused (r : TurnRequest) (s : Store) (a : Except Refusal α) (s' : Store) : Prop :=
  ∃ e, a = .error e ∧ ∀ row ∈ s.combats, row.combat.id = r.combatId →
    (e = .storage ∧ ¬s'.Readable r.combatId) ∨
      ∃ actual, e = .versionConflict r.combatId r.version actual ∧
        (s'.turns r.combatId < 2 ^ 63 - 1 →
          actual ≠ r.version ∧ actual ≤ 1 + (s'.turns r.combatId : Int) ∧
            (row.combat.version = r.version → r.version < actual))

theorem TurnRefused.later {r : TurnRequest} {a : Except Refusal α} {s s' s'' : Store}
    (h : TurnRefused r s a s') (hs : s'.Later s'') : TurnRefused r s a s'' := by
  have hle := hs.turns_le r.combatId
  obtain ⟨e, ha, h⟩ := h
  refine ⟨e, ha, fun row hrow hid => ?_⟩
  rcases h row hrow hid with ⟨he, hunread⟩ | ⟨actual, he, h⟩
  · exact .inl ⟨he, fun hread => hunread (hs.readable hread)⟩
  · refine .inr ⟨actual, he, fun hturns => ?_⟩
    obtain ⟨hne, hactual, hlt⟩ := h (by omega)
    exact ⟨hne, by omega, hlt⟩

theorem TurnRefused.overtaken {r : TurnRequest} {a : Except Refusal α} {s s' : Store}
    (h : TurnRefused r s a s') {row : CombatRow} (hrow : row ∈ s.combats)
    (hid : row.combat.id = r.combatId) (hcurrent : row.combat.version = r.version) :
    Overtaken r a s' := by
  obtain ⟨e, rfl, h⟩ := h
  rcases h row hrow hid with ⟨rfl, hunread⟩ | ⟨actual, rfl, hbounded⟩
  · exact .inl ⟨rfl, hunread⟩
  · refine .inr ⟨actual, rfl, fun hturns => ?_⟩
    obtain ⟨-, hactual, hlt⟩ := hbounded hturns
    exact ⟨hlt hcurrent, hactual⟩

theorem nextTurn_atomic (r : TurnRequest) {s : Store} (hs : s.Sound) :
    Atomic (TurnRefused r s) (fun a => Effect (.nextTurn r) (.turned a)) (nextTurn r) s := by
  rw [nextTurn_eq]
  refine Atomic.bind (findCombat_reads r.combatId s) (fun combat s₁ hfound => ?_)
    fun e s₁ hfound => ?_
  · obtain ⟨hlater, hsound, row, hrow, rfl, hid⟩ := hfound
    by_cases hversion : r.version = row.combat.version
    · rw [Combat.checkVersion, if_pos hversion]
      refine (turnFrom_atomic r hsound hrow hid hversion.symm).imp (fun a s₂ hlost => ?_)
        fun _ _ _ h => h
      rcases hlost with ⟨rfl, hunread⟩ | ⟨actual, rfl, hlt⟩
      · exact ⟨_, rfl, fun _ _ _ => .inl ⟨rfl, hunread⟩⟩
      · refine ⟨_, rfl, fun _ _ _ => .inr ⟨actual, rfl, fun hturns => ?_⟩⟩
        obtain ⟨hlt, hactual⟩ := hlt hturns
        exact ⟨Int.ne_of_gt hlt, hactual, fun _ => hlt⟩
    · rw [Combat.checkVersion, if_neg hversion]
      refine Atomic.throw ⟨_, rfl, fun row' hrow' hid' => ?_⟩
      refine .inr ⟨row.combat.version, by rw [← hid]; rfl, fun hturns => ?_⟩
      refine ⟨Ne.symm hversion, ?_, fun hcurrent => ?_⟩
      · have hactual := hsound.version_eq hrow (hid ▸ hturns)
        rw [hid] at hactual
        exact Int.le_of_eq hactual
      have hsame : row.combat.id = row'.combat.id := hid.trans hid'.symm
      rw [← hcurrent]
      refine hlater.version_lt (.refl s₁) hs hsound hrow' (fun row₂ hrow₂ hid₂ => ?_) hrow hsame
        (hid' ▸ hturns)
      rw [hsound.eq_of_combatId hrow₂ hrow (hid₂.trans hsame.symm), hcurrent]
      exact Ne.symm hversion
  · obtain ⟨hlater, -, habsent⟩ := hfound
    refine ⟨e, rfl, fun row hrow hid => ?_⟩
    obtain ⟨row', hrow', hid'⟩ := hlater.mem_combat hrow
    exact absurd (hid'.trans hid) (habsent row' hrow')

theorem rest_bind_findCombat (id : String) (f : Combat → Service α) (s : Store) :
    (findCombat id >>= f).run.rest s =
      match s.ask (Store.combat? id) with
      | .ok (some combat) => (f combat).run
      | .ok none => .done (.error (.notFound .combat id))
      | .error e => .done (.error e) := by
  change Task.bind (ExceptT.bindCont _ (s.ask (Store.combat? id))) _ = _
  rcases s.ask (Store.combat? id) with e | _ | combat <;> rfl

theorem nextTurn_rest (r : TurnRequest) {s : Store} (hs : s.Sound) :
    (∃ e, (nextTurn r).run.rest s = .done (.error e)) ∨
      ∃ row ∈ s.combats, row.combat.id = r.combatId ∧ row.combat.version = r.version ∧
        (nextTurn r).run.rest s = (turnFrom r row.combat).run := by
  rw [nextTurn_eq, rest_bind_findCombat, hs.ask]
  cases hfound : s.combat? r.combatId with
  | error e => exact .inl ⟨e, rfl⟩
  | ok found =>
      cases found with
      | none => exact .inl ⟨_, rfl⟩
      | some combat =>
          obtain ⟨row, hrow, rfl, hid⟩ := Store.mem_of_combat? hfound
          dsimp only
          rw [Combat.checkVersion]
          by_cases hversion : r.version = row.combat.version
          · rw [if_pos hversion]
            exact .inr ⟨row, hrow, hid, hversion.symm, rfl⟩
          · rw [if_neg hversion]
            exact .inl ⟨_, rfl⟩

theorem view_reads (combatId : String) (s : Store) :
    Reads (fun _ _ => True) (view combatId) s := by
  refine Reads.bind (findCombat_reads combatId s) (fun combat s₁ _ => ?_) fun _ _ _ => trivial
  exact Reads.bind (Reads.query _ s₁) (fun _ _ _ => Reads.pure trivial) fun _ _ _ => trivial

theorem run_bind_findCombat {s : Store} (hs : s.Tidy) {row : CombatRow} (hrow : row ∈ s.combats)
    (f : Combat → Service α) :
    (findCombat row.combat.id >>= f).run.run s = (f row.combat).run.run s := by
  have hrest := rest_bind_findCombat row.combat.id f s
  rw [hs.ask, hs.combat? hrow] at hrest
  have hrun := congrArg (fun t => Task.run t s) hrest
  exact hrun

theorem run_view {s : Store} (hs : s.Tidy) {row : CombatRow} (hrow : row ∈ s.combats) :
    ((view row.combat.id).run.run s).answer =
      if s.Readable row.combat.id then
        .ok ⟨row.combat, (itemAt? (s.roster row.combat.id) row.combat.turnIndex).map Combatant.id,
          s.roster row.combat.id⟩
      else .error .storage := by
  rw [view, run_bind_findCombat hs hrow, run_bind_query, hs.ask, Store.combatantsOf_eq]
  by_cases hread : s.Readable row.combat.id
  · rw [if_pos hread, if_pos hread]
    rfl
  · rw [if_neg hread, if_neg hread]

end Service

end Gamemaster
