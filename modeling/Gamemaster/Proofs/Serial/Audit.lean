import Gamemaster.Proofs.Combatant.Requests
import Gamemaster.Proofs.Serial

namespace Gamemaster

def Request.combatId? : Request → Option String
  | act r => some r.combatId
  | nextTurn r => some r.combatId
  | _ => none

/-- Whether an event tells of a request what was answered to it. The campaign of a combat's events
is not in the request. -/
def Event.Reports (e : Event) : Request → Answer → Prop
  | .start r, .started a =>
    e = ⟨some r.campaignId, a.summary, .combatStarted a.combatId r.encounterId a.order⟩
  | .act r, .acted a =>
    e.summary = a.summary ∧ e.happening =
      .actionApplied r.tag r.combatId a.targetId a.currentHp a.tempHp a.conditions
  | .nextTurn r, .turned a =>
    e.summary = a.summary ∧ e.happening =
      .turnTaken r.combatId a.round a.turnIndex a.version (a.active.map ActiveCombatant.id)
  | .buildEncounter r, .built a =>
    e = ⟨some r.campaignId, a.summary,
      .encounterBuilt a.encounterId r.difficulty (r.roster.map fun m => (m.name, m.side))⟩
  | .createTable r, .created a =>
    e = ⟨r.campaignId, a.summary, .tableCreated a.tableId r.dice r.entries.length⟩
  | _, _ => False

def Exchange.Started (x : Exchange) (combatId campaignId : String) : Prop :=
  ∃ r a, x.request = .start r ∧ x.outcome.answer = .ok (.started a) ∧ a.combatId = combatId ∧
    r.campaignId = campaignId

def Store.HoldsCombat (s : Store) (combatId campaignId : String) : Prop :=
  ∃ row ∈ s.combats, row.combat.id = combatId ∧ row.combat.campaignId = campaignId

theorem Store.HoldsCombat.congr {s s' : Store} {id c : String} (h : s.HoldsCombat id c)
    (hsame : s'.combats.map (fun row => row.combat.identity) =
      s.combats.map fun row => row.combat.identity) : s'.HoldsCombat id c := by
  obtain ⟨row, hrow, hid, hc⟩ := h
  obtain ⟨row', hrow', hidentity⟩ : ∃ row' ∈ s'.combats,
    row'.combat.identity = row.combat.identity :=
    List.mem_map.mp (hsame ▸ List.mem_map_of_mem hrow)
  exact ⟨row', hrow', (Combat.id_of_identity hidentity).trans hid,
    (Combat.campaignId_of_identity hidentity).trans hc⟩

namespace Effect

variable {r : Request} {a : Answer} {s s' : Store}

theorem reports (h : Effect r a s s') (hwrites : r.writes = true) :
    ∃ e, s'.log = s.log.map (· ++ [e]) ∧ e.Reports r a ∧
      ∀ id, r.combatId? = some id → ∃ c, e.campaignId = some c ∧ s.HoldsCombat id c := by
  have hlogged : ∀ {s₁ : Store} {e : Event}, s₁.append e = .ok s' → s₁.log = s.log →
      s'.log = s.log.map (· ++ [e]) := by
    intro s₁ e logged hlog
    obtain ⟨events, hevents, rfl⟩ := Store.eq_of_append logged
    rw [← hlog, hevents]
    rfl
  cases h with
  | start _ _ _ _ inserted logged =>
      obtain ⟨hcombat, -, rfl⟩ := Store.eq_of_insertCombat inserted
      subst hcombat
      exact ⟨_, hlogged logged rfl, rfl, nofun⟩
  | act _ _ target combat rowFound rowId asked written logged =>
      obtain ⟨-, rfl⟩ := Store.eq_of_commitCombatant? written
      refine ⟨_, hlogged logged rfl, ⟨rfl, ?_⟩, ?_⟩
      · change Happening.actionApplied _ _ _ _ _ _ = .actionApplied _ _ _ _ _ _
        rw [Action.tag_of_request asked, Combatant.combatId_apply, combat]
        rfl
      · rintro _ ⟨⟩
        exact ⟨_, rfl, _, rowFound, rowId, rfl⟩
  | @turn r combat order t row _ s₁ _ found target _ seen _ _ _ written logged =>
      obtain ⟨-, rfl⟩ := Store.eq_of_commitTurn? written
      refine ⟨_, hlogged logged rfl, ⟨rfl, ?_⟩, ?_⟩
      · change Happening.turnTaken combat.id _ _ _ _ =
          .turnTaken _ _ _ _ (((itemAt? order t.turnIndex).map Service.ActiveCombatant.of).map
            ActiveCombatant.id)
        rw [Combat.id_of_identity seen, target, Option.map_map]
        rfl
      · rintro _ ⟨⟩
        exact ⟨_, rfl, _, found, target, (Combat.campaignId_of_identity seen).symm⟩
  | build _ _ _ _ inserted logged =>
      obtain ⟨-, rfl⟩ := Prod.mk.inj inserted
      exact ⟨_, hlogged logged rfl, rfl, nofun⟩
  | create _ _ _ _ inserted logged =>
      obtain ⟨-, rfl⟩ := Prod.mk.inj inserted
      exact ⟨_, hlogged logged rfl, rfl, nofun⟩

theorem identity_combats (h : Effect r a s s') (hother : ∀ q, r ≠ .start q) :
    s'.combats.map (fun row => row.combat.identity) =
      s.combats.map fun row => row.combat.identity := by
  cases h with
  | start => exact absurd rfl (hother _)
  | act _ _ _ _ _ _ _ written logged =>
      obtain ⟨-, rfl⟩ := Store.eq_of_commitCombatant? written
      obtain ⟨events, -, rfl⟩ := Store.eq_of_append logged
      rfl
  | turn _ _ _ _ _ _ _ written logged =>
      obtain ⟨-, rfl⟩ := Store.eq_of_commitTurn? written
      obtain ⟨events, -, rfl⟩ := Store.eq_of_append logged
      rw [List.map_map]
      refine List.map_congr_left fun row _ => ?_
      rw [Function.comp_apply]
      split <;> rfl
  | build _ _ _ _ inserted logged =>
      obtain ⟨-, rfl⟩ := Prod.mk.inj inserted
      obtain ⟨events, -, rfl⟩ := Store.eq_of_append logged
      rfl
  | create _ _ _ _ inserted logged =>
      obtain ⟨-, rfl⟩ := Prod.mk.inj inserted
      obtain ⟨events, -, rfl⟩ := Store.eq_of_append logged
      rfl

theorem holdsCombat_iff (h : Effect r a s s') (id c : String) :
    s'.HoldsCombat id c ↔ s.HoldsCombat id c ∨
      ∃ q b, r = .start q ∧ a = .started b ∧ b.combatId = id ∧ q.campaignId = c := by
  by_cases hstart : ∃ q, r = .start q
  · obtain ⟨q, rfl⟩ := hstart
    cases h with
    | start _ _ _ _ inserted logged =>
        obtain ⟨hcombat, -, rfl⟩ := Store.eq_of_insertCombat inserted
        obtain ⟨events, -, rfl⟩ := Store.eq_of_append logged
        subst hcombat
        constructor
        · rintro ⟨row, hrow, hid, hc⟩
          rcases List.mem_append.mp hrow with hrow | hrow
          · exact .inl ⟨row, hrow, hid, hc⟩
          · rw [List.mem_singleton.mp hrow] at hid hc
            exact .inr ⟨q, _, rfl, rfl, hid, hc⟩
        · rintro (⟨row, hrow, hid, hc⟩ | ⟨_, _, ⟨⟩, ⟨⟩, hid, hc⟩)
          · exact ⟨row, List.mem_append_left _ hrow, hid, hc⟩
          · exact ⟨_, List.mem_append_right _ (List.mem_singleton.mpr rfl), hid, hc⟩
  · have hsame := h.identity_combats fun q hq => hstart ⟨q, hq⟩
    constructor
    · exact fun hholds => .inl (hholds.congr hsame.symm)
    · rintro (hholds | ⟨q, -, hq, -⟩)
      · exact hholds.congr hsame
      · exact absurd ⟨q, hq⟩ hstart

end Effect

namespace Store

theorem holdsCombat_afterAll (onFile : Bool) (rs : List Request) (id c : String) :
    ((empty onFile).afterAll rs).HoldsCombat id c ↔
      ∃ x ∈ (empty onFile).serveAll rs, x.Started id c := by
  refine (afterAll_induction (P := fun rs s => s.HoldsCombat id c ↔
    ∃ x ∈ (empty onFile).serveAll rs, x.Started id c) (sound_empty onFile) ?_ ?_ rs).2
  · simp [HoldsCombat, empty, serveAll]
  · intro rs r hs ih
    have hnew : (r.outcome ((empty onFile).afterAll rs)).store.HoldsCombat id c ↔
        ((empty onFile).afterAll rs).HoldsCombat id c ∨
          Exchange.Started ⟨r, (empty onFile).afterAll rs⟩ id c := by
      generalize (empty onFile).afterAll rs = s at hs
      rcases r.outcome_cases hs with ⟨hsame, hidle⟩ | ⟨a, ha, heffect⟩
      · rw [hsame]
        refine (or_iff_left ?_).symm
        rintro ⟨q, b, rfl, hb, -⟩
        obtain ⟨e, he⟩ := hidle rfl
        simpa using hb.symm.trans he
      · rw [heffect.holdsCombat_iff]
        refine or_congr_right ⟨?_, ?_⟩
        · rintro ⟨q, b, rfl, rfl, hid, hc⟩
          exact ⟨q, b, rfl, ha, hid, hc⟩
        · rintro ⟨q, b, rfl, hb, hid, hc⟩
          exact ⟨q, b, rfl, Except.ok.inj (ha.symm.trans hb), hid, hc⟩
    rw [hnew, ih, serveAll_concat]
    simp [or_and_right, exists_or]

/-- What a store has published and logged once it has served requests one after another. -/
structure RecordsOnce (rs : List Request) (s : Store) : Prop where
  /-- What is published is what calls publish that come in one after another. -/
  made : ∃ moves, ((World.mk s [] [] []).after moves).store = s.afterAll rs ∧
    ((World.mk s [] [] []).after moves).published = s.publishedBy rs
  /-- The log is what was published. -/
  log : (s.afterAll rs).log = some (s.publishedBy rs)
  /-- A request that writes and succeeds is published and logged once, as it was answered. The
  events of a combat go by the campaign in which it was started. -/
  once : ∀ past r later a, rs = past ++ r :: later → r.writes = true →
    (r.outcome (s.afterAll past)).answer = .ok a →
    ∃ e, (r.outcome (s.afterAll past)).published = [e] ∧
      (r.outcome (s.afterAll past)).store.log = some (s.publishedBy past ++ [e]) ∧ e.Reports r a ∧
      ∀ id, r.combatId? = some id → ∃ c, e.campaignId = some c ∧
        ∀ c', (∃ x ∈ s.serveAll past, x.Started id c') ↔ c' = c
  /-- No other request is published or logged. -/
  never : ∀ past r later, rs = past ++ r :: later →
    (r.writes = false ∨ ∃ e, (r.outcome (s.afterAll past)).answer = .error e) →
    (r.outcome (s.afterAll past)).published = [] ∧
      (r.outcome (s.afterAll past)).store.log = some (s.publishedBy past)

theorem recordsOnce_afterAll (onFile : Bool) (rs : List Request) :
    (empty onFile).RecordsOnce rs := by
  have hlog : ∀ rs, ((empty onFile).afterAll rs).log = some ((empty onFile).publishedBy rs) :=
    fun rs => log_afterAll rs (empty onFile)
  refine ⟨?_, hlog rs, ?_, ?_⟩
  · obtain ⟨moves, hstore, hpublished, -⟩ := (World.opened onFile).exists_serving rs
    exact ⟨moves, hstore, hpublished⟩
  · intro past r later a _ hwrites hanswer
    have hs := sound_afterAll (sound_empty onFile) past
    obtain ⟨e, hgrown, hreports, hcampaign⟩ :=
      (Request.effect_of_ok hs hwrites hanswer).reports hwrites
    have htallies := r.tallies_outcome ((empty onFile).afterAll past)
    rw [hlog] at hgrown
    rw [Task.Outcome.Tallies, hgrown, hlog] at htallies
    refine ⟨e, by simpa using htallies.symm, hgrown, hreports, fun id hid => ?_⟩
    obtain ⟨c, hc, hholds⟩ := hcampaign id hid
    refine ⟨c, hc, fun c' => ?_⟩
    rw [← holdsCombat_afterAll]
    constructor
    · rintro ⟨row', hrow', hid', rfl⟩
      obtain ⟨row, hrow, hid, rfl⟩ := hholds
      rw [hs.eq_of_combatId hrow' hrow (hid'.trans hid.symm)]
    · rintro rfl
      exact hholds
  · intro past r later _ hidle
    have hs := sound_afterAll (sound_empty onFile) past
    have hsame : (r.outcome ((empty onFile).afterAll past)).store.log =
        ((empty onFile).afterAll past).log := by
      rcases hidle with hreads | ⟨e, he⟩
      · exact Request.log_of_not_writes hs hreads
      · rw [Request.outcome_of_error hs he]
    exact ⟨Request.published_of_log hs hsame, hsame.trans (hlog past)⟩

example :
    (World.soloWorld.store.publishedBy
      [.act ⟨"combat-1", "combatant-1", "damage", some (.number 3), none⟩,
        .act ⟨"combat-1", "combatant-2", "heal", some (.number 3), none⟩, .view "combat-1",
        .nextTurn ⟨"combat-1", 1⟩]).map Event.happening =
      [.actionApplied "damage" "combat-1" "combatant-1" 7 0 [],
        .turnTaken "combat-1" 2 0 2 (some "combatant-1")] := by cbv

end Store

end Gamemaster
