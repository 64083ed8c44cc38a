import Gamemaster.Proofs.Serial
import Gamemaster.Proofs.World.Saved
import Gamemaster.Wire.Request

namespace Gamemaster

open Json (Written orDefault)

/-- The difficulty of an encounter is the one that is given, and the default where none is. -/
theorem EncounterRequest.difficulty_of_written {w : Written} {r : EncounterRequest}
    (h : EncounterRequest.ofWritten? w = some r) :
    orDefault defaultDifficulty Written.text? (w.given? ["difficulty"] 2) =
      some r.difficulty := by
  obtain ⟨slots, hslots, h⟩ := Option.bind_eq_some_iff.mp h
  have hgiven := Written.getElem?_slots? (i := 2) hslots rfl
  split at h
  · rename_i campaignId name difficulty roster notes
    obtain rfl : difficulty = w.given? ["difficulty"] 2 := Option.some.inj hgiven
    obtain ⟨_, -, h⟩ := Option.bind_eq_some_iff.mp h
    obtain ⟨_, -, h⟩ := Option.bind_eq_some_iff.mp h
    obtain ⟨given, hdifficulty, h⟩ := Option.bind_eq_some_iff.mp h
    obtain ⟨_, -, h⟩ := Option.bind_eq_some_iff.mp h
    obtain ⟨_, -, h⟩ := Option.bind_eq_some_iff.mp h
    obtain rfl := Option.some.inj h
    exact hdifficulty
  · simp at h

namespace Request

variable {s : Store}

theorem outcome_readTable (hs : s.Sound) (id : String) :
    (Request.readTable id).outcome s = ⟨(s.table? id).map .table, s, []⟩ := by
  rw [outcome, serve, Service.run_map_answer, Service.run_query, hs.ask]

theorem outcome_readEncounter (hs : s.Sound) (id : String) :
    (Request.readEncounter id).outcome s = ⟨(s.encounter? id).map .encounter, s, []⟩ := by
  rw [outcome, serve, Service.run_map_answer, Service.run_query, hs.ask]

end Request

namespace World

/-- What is read of the definitions that have been saved. -/
structure KeepsDefinitions (w : World) : Prop where
  tables : ∀ i r a, w.request? i = some (.createTable r) → w.answer? i = some (.ok (.created a)) →
    (∀ e ∈ r.entries, e.Lossless) →
    (Request.readTable a.tableId).outcome w.store =
      ⟨.ok (.table (some ⟨a.tableId, r.campaignId, r.name, r.dice, r.scope, r.entries⟩)),
        w.store, []⟩
  encounters : ∀ i r a, w.request? i = some (.buildEncounter r) →
    w.answer? i = some (.ok (.built a)) →
    (∀ m ∈ r.roster, m.Lossless) →
    (Request.readEncounter a.encounterId).outcome w.store =
      ⟨.ok (.encounter
        (some ⟨a.encounterId, r.campaignId, r.name, r.difficulty, r.notes, r.roster⟩)),
        w.store, []⟩
  /-- A request as it was written gives the difficulty, or leaves it to the default. -/
  difficulties : ∀ written r, EncounterRequest.ofWritten? written = some r →
    orDefault "medium" Written.text? (written.given? ["difficulty"] 2) = some r.difficulty

/-- Tables and encounters that have been saved read as they were sent, at every later moment. -/
theorem keepsDefinitions_after (onFile : Bool) (moves : List Move) :
    ((opened onFile).after moves).KeepsDefinitions := by
  have hs := ((sound_opened onFile).after moves).store
  have hgrants := grants_after onFile moves
  refine ⟨fun i r a hrequest hanswer hlossless => ?_, fun i r a hrequest hanswer hlossless => ?_,
    fun _ _ => EncounterRequest.difficulty_of_written⟩
  · have hrow := hgrants.savesTables i r a hrequest (promises_of_answer hanswer)
    have hfound := hs.table? hrow
    rw [TableRequest.read_row hlossless] at hfound
    rw [Request.outcome_readTable hs, show a.tableId = (r.row a.tableId).id from rfl, hfound]
    rfl
  · obtain ⟨-, -, hrow⟩ := hgrants.savesEncounters i r a hrequest (promises_of_answer hanswer)
    have hfound := hs.encounter? hrow
    rw [EncounterRequest.read_row hlossless] at hfound
    rw [Request.outcome_readEncounter hs, show a.encounterId = (r.row a.encounterId).id from rfl,
      hfound]
    rfl

/-- A table with a result that is null, one that is a text and one that is a list. -/
def weather : TableRequest :=
  ⟨some "c", "W", "1d6", none,
    [⟨4, 6, .null⟩, ⟨1, 2, .text "storm"⟩, ⟨3, 3, .list [.text "rain", .int 2]⟩]⟩

/-- An encounter of a member without stats and of one whose stats are empty. -/
def scouts : EncounterRequest :=
  ⟨"c", "S", "medium", [⟨"X", "us", none⟩, ⟨"Y", "us", some []⟩], none⟩

theorem weather_lossless : ∀ e ∈ weather.entries, e.Lossless := by
  intro e he
  simp only [weather, List.mem_cons, List.not_mem_nil, or_false] at he
  unfold TableEntry.Lossless
  obtain rfl | rfl | rfl := he <;> cbv

theorem scouts_lossless : ∀ m ∈ scouts.roster, m.Lossless := by
  intro m hm stats hstats
  simp only [scouts, List.mem_cons, List.not_mem_nil, or_false] at hm
  unfold StatBlock.Lossless
  obtain rfl | rfl := hm
  · cases hstats
  · cases hstats
    cbv

def scouting : List Move :=
  [.call (.createTable weather), .step 0, .step 0, .call (.buildEncounter scouts),
    .step 1, .step 1, .call (.start ⟨"c", some "encounter-1", []⟩), .step 2, .step 2, .step 2]

theorem calls_scouting :
    ((opened false).after scouting).calls =
      [⟨.createTable weather,
        .done (.ok (.created ⟨"table-1", "Random table created: W - 3 entries"⟩))⟩,
        ⟨.buildEncounter scouts,
          .done (.ok (.built ⟨"encounter-1", "Encounter built: S - 2 combatants (2 us)"⟩))⟩,
        ⟨.start ⟨"c", some "encounter-1", []⟩,
          .done (.ok (.started ⟨"combat-1", 1, 1,
            [⟨"combatant-1", "X", "us", 20⟩, ⟨"combatant-2", "Y", "us", 10⟩],
            "Combat started: 2 combatants (2 us) - X acts first"⟩))⟩] := by
  cbv

/-- A table and an encounter read as they were sent after the encounter has opened a combat. -/
theorem keepsDefinitions_scouting :
    let w := (opened false).after scouting
    (Request.readTable "table-1").outcome w.store =
        ⟨.ok (.table (some ⟨"table-1", some "c", "W", "1d6", none, weather.entries⟩)),
          w.store, []⟩ ∧
      (Request.readEncounter "encounter-1").outcome w.store =
        ⟨.ok (.encounter (some ⟨"encounter-1", "c", "S", "medium", none, scouts.roster⟩)),
          w.store, []⟩ := by
  intro w
  have hcalls : w.calls = _ := calls_scouting
  have hkeeps := keepsDefinitions_after false scouting
  constructor
  · refine hkeeps.tables 0 weather ⟨"table-1", "Random table created: W - 3 entries"⟩ ?_ ?_
      weather_lossless
    · rw [request?, hcalls]
      rfl
    · rw [answer?, hcalls]
      rfl
  · refine hkeeps.encounters 1 scouts
      ⟨"encounter-1", "Encounter built: S - 2 combatants (2 us)"⟩ ?_ ?_ scouts_lossless
    · rw [request?, hcalls]
      rfl
    · rw [answer?, hcalls]
      rfl

end World

end Gamemaster
