import Gamemaster.Proofs.Combat.Schedule
import Gamemaster.Proofs.Play.Uninterrupted
import Gamemaster.Proofs.World.Saved

namespace Gamemaster

/-- What of a start does not go by ids: its answer, and the rows that it adds. -/
structure Opening where
  order : List (String × String × Int)
  summary : String
  sessions : List CombatRow
  combatants : List (Kept Combatant)

namespace Opening

def ofSlot (slot : InitiativeSlot) : String × String × Int :=
  (slot.name, slot.side, slot.initiative)

/-- The row of a combat without its id and its label. -/
def ofSession (row : CombatRow) : CombatRow :=
  { row with combat := { row.combat with id := "", encounterId := none } }

def ofCombatant (k : Kept Combatant) : Kept Combatant :=
  { k with record := { k.record with id := "", combatId := "" } }

def ofAnswer (s : Store) (a : StartAnswer) (s' : Store) : Opening where
  order := a.order.map ofSlot
  summary := a.summary
  sessions := (s'.combats.drop s.combats.length).map ofSession
  combatants := (s'.combatants.drop s.combatants.length).map ofCombatant

/-- How a roster opens a combat. -/
def ofRoster (campaignId : String) (roster : List Member) : Opening where
  order := (Entrant.lineUp roster).map fun e => (e.member.name, e.member.side, e.initiative)
  summary := summarize "Combat started"
    (summarizeSides ((Entrant.lineUp roster).map fun e => e.member.side))
    (some (((Entrant.lineUp roster).map fun e => e.member.name).head?.getD "" ++ " acts first"))
  sessions := [⟨Combat.start "" campaignId none, activeStatus⟩]
  combatants := (Entrant.lineUp roster).map fun e => (e.toCombatant "" "").kept

theorem ofCombatant_kept (c : Combatant) :
    ofCombatant c.kept = ({ c with id := "", combatId := "" } : Combatant).kept := by
  unfold Combatant.kept
  cases c.stats.reread? <;> rfl

theorem of_inserted {campaignId : String} {encounterId : Option String} {roster : List Member}
    {combat : Combat} {combatants : List Combatant} {s s₁ : Store}
    (inserted : s.insertCombat campaignId encounterId roster = ((combat, combatants), s₁)) :
    ofAnswer s (Service.startReport combat combatants).1 s₁ = ofRoster campaignId roster := by
  have hnames :
      combatants.map Combatant.name = (Entrant.lineUp roster).map fun e => e.member.name :=
    Store.map_inserted inserted fun _ _ => rfl
  have hsides :
      combatants.map Combatant.side = (Entrant.lineUp roster).map fun e => e.member.side :=
    Store.map_inserted inserted fun _ _ => rfl
  have horder : (combatants.map InitiativeSlot.ofCombatant).map ofSlot =
      (Entrant.lineUp roster).map fun e => (e.member.name, e.member.side, e.initiative) := by
    rw [List.map_map]
    exact Store.map_inserted inserted fun _ _ => rfl
  have hrows : (combatants.map Combatant.kept).map ofCombatant =
      (Entrant.lineUp roster).map fun e => (e.toCombatant "" "").kept := by
    rw [List.map_map]
    exact Store.map_inserted inserted fun e id => ofCombatant_kept (e.toCombatant combat.id id)
  obtain ⟨hcombat, -, rfl⟩ := Store.eq_of_insertCombat inserted
  simp only [ofAnswer, Service.startReport, List.drop_left, horder, hrows, hsides,
    ← List.head?_map, hnames]
  subst hcombat
  rfl

end Opening

namespace StartRequest

def outcome (r : StartRequest) (s : Store) : Task.Outcome (Except Refusal StartAnswer) :=
  (Service.start r).run.run s

def opening (r : StartRequest) (s : Store) : Except Refusal Opening :=
  (r.outcome s).answer.map fun a => .ofAnswer s a (r.outcome s).store

def labels (r : StartRequest) (s : Store) : List (Option String) :=
  ((r.outcome s).store.combats.drop s.combats.length).map fun row => row.combat.encounterId

variable {r : StartRequest} {s : Store} {roster : List Member}

/-- A start whose roster is found goes by the roster, and what it adds bears its label. -/
theorem opening_of_plays (hs : s.Sound) (hplays : r.Plays s roster) :
    (r.opening s =
      if Text.isBlankText r.campaignId then .error (.input .campaignMissing)
      else if roster = [] then .error .noCombatants
      else
        match Roster.fault? roster with
        | some fault => .error (.input (.member fault))
        | none => .ok (.ofRoster r.campaignId roster)) ∧
      r.labels s = if (r.opening s).isOk then [r.encounterId] else [] := by
  have hrefused : ∀ e, r.outcome s = ⟨.error e, s, []⟩ →
      r.opening s = .error e ∧
        r.labels s = if (r.opening s).isOk then [r.encounterId] else [] := by
    intro e he
    simp [opening, labels, he, Except.map, Except.isOk, Except.toBool]
  have hrun : r.outcome s = _ := Service.run_start hs hplays
  by_cases hcampaign : Text.isBlankText r.campaignId = true
  · rw [if_pos hcampaign] at hrun ⊢
    exact hrefused _ hrun
  rw [if_neg hcampaign] at hrun ⊢
  by_cases hempty : roster = []
  · rw [if_pos hempty] at hrun ⊢
    exact hrefused _ hrun
  rw [if_neg hempty] at hrun ⊢
  cases hvalid : Roster.fault? roster with
  | some fault =>
      rw [hvalid] at hrun
      exact hrefused _ hrun
  | none =>
      rw [hvalid] at hrun
      rcases hinserted : s.insertCombat r.campaignId r.encounterId roster with
        ⟨⟨combat, combatants⟩, s₁⟩
      rw [hinserted] at hrun
      have hopening : r.opening s = .ok (.ofRoster r.campaignId roster) := by
        rw [← Opening.of_inserted hinserted, opening, hrun]
        rfl
      refine ⟨hopening, ?_⟩
      obtain ⟨hcombat, -, rfl⟩ := Store.eq_of_insertCombat hinserted
      rw [hopening, labels, hrun]
      change ((s.combats ++ [(⟨combat, activeStatus⟩ : CombatRow)]).drop s.combats.length).map
        _ = _
      rw [List.drop_left, hcombat]
      rfl

theorem opening_eq {r' : StartRequest} {s' : Store} (hs : s.Sound) (hs' : s'.Sound)
    (hplays : r.Plays s roster) (hplays' : r'.Plays s' roster)
    (hcampaign : r'.campaignId = r.campaignId) :
    r'.opening s' = r.opening s := by
  rw [(opening_of_plays hs hplays).1, (opening_of_plays hs' hplays').1, hcampaign]

theorem exists_plays {opening : Opening} (hs : s.Sound) (h : r.opening s = .ok opening) :
    ∃ roster, r.Plays s roster := by
  rcases (Service.start_atomic r s).run hs with ⟨-, e, he⟩ | ⟨a, -, heffect⟩
  · rw [StartRequest.opening, outcome, he] at h
    exact nomatch h
  · obtain ⟨-, roster, -, -, hplays, -⟩ := heffect.enters hs
    exact ⟨roster, hplays⟩

end StartRequest

namespace World

/-- How a world plays saved encounters and rosters that are brought along. -/
structure PlaysSaved (w : World) : Prop where
  /-- An encounter that has been built opens a combat as its roster does that is brought along, in
  this world or in any other. -/
  saved : ∀ i r a, w.request? i = some (.buildEncounter r) → w.answer? i = some (.ok (.built a)) →
    (∀ m ∈ r.roster, m.Lossless) → ∀ campaignId, Text.isBlankText campaignId = false →
      ∀ label onFile moves, ∃ opening,
        StartRequest.opening ⟨campaignId, some a.encounterId, []⟩ w.store = .ok opening ∧
        StartRequest.opening ⟨campaignId, label, r.roster⟩ ((opened onFile).after moves).store =
          .ok opening
  /-- Where a roster is brought along, a start goes the same with any label, if it is refused or
  not. -/
  labelled : ∀ r : StartRequest, r.roster ≠ [] → ∀ label onFile moves,
    StartRequest.opening { r with encounterId := label } ((opened onFile).after moves).store =
      r.opening w.store
  /-- The combat that a start adds bears its label. -/
  labels : ∀ (r : StartRequest) opening, r.opening w.store = .ok opening →
    r.labels w.store = [r.encounterId]

/-- An encounter that has been built can be played ever after, and it plays like its roster. -/
theorem playsSaved_after (onFile : Bool) (moves : List Move) :
    ((opened onFile).after moves).PlaysSaved := by
  have hsound : ∀ onFile moves, ((opened onFile).after moves).store.Sound :=
    fun onFile moves => ((sound_opened onFile).after moves).store
  have hs := hsound onFile moves
  have hsaves := savesEncounters_after onFile moves
  generalize (opened onFile).after moves = w at hs hsaves
  refine ⟨fun i r a hrequest hanswer hlossless campaignId hcampaign label onFile' moves' => ?_,
    fun r hown label onFile' moves' => ?_, fun r opening hopening => ?_⟩
  · obtain ⟨hnonempty, hvalid, hrow⟩ := hsaves i r a hrequest (promises_of_answer hanswer)
    have hfound := hs.encounter? hrow
    rw [EncounterRequest.read_row hlossless] at hfound
    have hplays : StartRequest.Plays ⟨campaignId, some a.encounterId, []⟩ w.store r.roster := by
      rw [StartRequest.Plays, if_pos rfl]
      exact ⟨_, _, rfl, hfound, rfl⟩
    have hbrought : StartRequest.Plays ⟨campaignId, label, r.roster⟩
        ((opened onFile').after moves').store r.roster := by
      rw [StartRequest.Plays, if_neg hnonempty]
    have hopening : StartRequest.opening ⟨campaignId, some a.encounterId, []⟩ w.store =
        .ok (.ofRoster campaignId r.roster) := by
      simpa [hcampaign, hnonempty, hvalid] using (StartRequest.opening_of_plays hs hplays).1
    exact ⟨_, hopening,
      (StartRequest.opening_eq hs (hsound onFile' moves') hplays hbrought rfl).trans hopening⟩
  · have hplays : ∀ label s, StartRequest.Plays { r with encounterId := label } s r.roster := by
      intro label s
      rw [StartRequest.Plays, if_neg hown]
    exact StartRequest.opening_eq hs (hsound onFile' moves') (hplays r.encounterId w.store)
      (hplays label _) rfl
  · obtain ⟨roster, hplays⟩ := StartRequest.exists_plays hs hopening
    rw [(StartRequest.opening_of_plays hs hplays).2, hopening]
    rfl

/-- An encounter of a member with stats, of one without any and of one whose stats are empty. -/
def ambush : EncounterRequest :=
  ⟨"c", "E", "hard",
    [⟨"X", "us", some [("hp", .int 7)]⟩, ⟨"Y", "us", none⟩, ⟨"Z", "us", some []⟩], none⟩

theorem playsSaved_ambush :
    let moves : List Move := [.call (.buildEncounter ambush), .step 0, .step 0]
    let w := (opened false).after moves
    w.request? 0 = some (.buildEncounter ambush) ∧
      w.answer? 0 =
        some (.ok (.built ⟨"encounter-1", "Encounter built: E - 3 combatants (3 us)"⟩)) ∧
      (∀ m ∈ ambush.roster, m.Lossless) ∧
      ∃ opening, StartRequest.opening ⟨"d", some "encounter-1", []⟩ w.store = .ok opening ∧
        StartRequest.opening ⟨"d", none, ambush.roster⟩ (opened true).store = .ok opening := by
  intro moves w
  have hrequest : w.request? 0 = some (.buildEncounter ambush) := by cbv
  have hanswer : w.answer? 0 =
      some (.ok (.built ⟨"encounter-1", "Encounter built: E - 3 combatants (3 us)"⟩)) := by cbv
  have hlossless : ∀ m ∈ ambush.roster, m.Lossless := by
    intro m hm stats hstats
    simp only [ambush, List.mem_cons, List.not_mem_nil, or_false] at hm
    unfold StatBlock.Lossless
    obtain rfl | rfl | rfl := hm
    · cases hstats
      cbv
    · cases hstats
    · cases hstats
      cbv
  have hcampaign : Text.isBlankText "d" = false := by cbv
  exact ⟨hrequest, hanswer, hlossless,
    (playsSaved_after false moves).saved 0 ambush _ hrequest hanswer hlossless "d" hcampaign
      none true []⟩

end World

end Gamemaster
