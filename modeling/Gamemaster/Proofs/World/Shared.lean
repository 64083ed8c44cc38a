import Gamemaster.Proofs.Combat.Declared
import Gamemaster.Proofs.Combatant.Updates
/-!
Worlds that are shared: besides the calls, others write combatants by transactions of their own,
with any revisions and any values, and keep what they have written or roll it back.
-/
namespace Gamemaster

inductive WriteOutcome where
  | committed
  | aborted
  deriving DecidableEq, Repr

/-- A write is aborted if it has changed no row. -/
def WriteOutcome.ofRows (n : Nat) : WriteOutcome := if n = 0 then aborted else committed

/-- A transaction that writes a combatant over its row, and that is kept or rolled back. -/
structure Transaction where
  combatant : Combatant
  kept : Bool

namespace Transaction

variable {t : Transaction} {s : Store}

/-- What the write is told, before the transaction ends. -/
def outcome (t : Transaction) (s : Store) : WriteOutcome :=
  .ofRows (s.combatants.countP fun k => k.record.id = t.combatant.id ∧
    k.record.revision = t.combatant.revision)

/-- What the transaction leaves behind. -/
def run (t : Transaction) (s : Store) : Store :=
  if t.kept then (s.commitCombatant? t.combatant).getD s else s

/-- Whether the transaction commits a write of the row of a combatant. -/
def writes (t : Transaction) (id : String) (outcome : WriteOutcome) : Bool :=
  t.combatant.id = id ∧ t.kept = true ∧ outcome = .committed

theorem outcome_eq_committed_iff : t.outcome s = .committed ↔
    ∃ k ∈ s.combatants, k.record.id = t.combatant.id ∧
      k.record.revision = t.combatant.revision := by
  simp [outcome, WriteOutcome.ofRows, List.countP_eq_zero]

theorem outcome_eq_aborted (h : t.outcome s ≠ .committed) : t.outcome s = .aborted := by
  cases houtcome : t.outcome s with
  | committed => exact absurd houtcome h
  | aborted => rfl

theorem commitCombatant?_eq_none (h : t.outcome s = .aborted) :
    s.commitCombatant? t.combatant = none := by
  cases hwritten : s.commitCombatant? t.combatant with
  | none => rfl
  | some s' =>
      have hcommitted := outcome_eq_committed_iff.mpr (Store.eq_of_commitCombatant? hwritten).1
      exact nomatch h.symm.trans hcommitted

theorem run_eq_self (h : t.outcome s = .aborted ∨ t.kept = false) : t.run s = s := by
  unfold run
  rcases h with haborted | hundone
  · rw [commitCombatant?_eq_none haborted, Option.getD_none, ite_self]
  · rw [hundone, if_neg Bool.false_ne_true]

theorem commitCombatant?_eq_run (hkept : t.kept = true) (h : t.outcome s = .committed) :
    s.commitCombatant? t.combatant = some (t.run s) := by
  cases hwritten : s.commitCombatant? t.combatant with
  | none =>
      obtain ⟨k, hk, hid, hrevision⟩ := outcome_eq_committed_iff.mp h
      exact absurd hrevision (Store.revision_ne_of_commitCombatant? hwritten hk hid)
  | some s' => rw [run, if_pos hkept, hwritten, Option.getD_some]

/-- A row once the write of the row `k` has been committed. -/
def written (t : Transaction) (k row : Kept Combatant) : Kept Combatant :=
  if row.record.id = k.record.id then Store.overwriteRow t.combatant k else row

theorem identity_written (hs : s.Tidy) {k row : Kept Combatant} (hk : k ∈ s.combatants)
    (hrow : row ∈ s.combatants) :
    (t.written k row).record.identity = row.record.identity := by
  unfold written
  split
  · rename_i hid
    rw [hs.eq_of_combatantId hrow hk hid]
    rfl
  · rfl

theorem revision_written (hs : s.Tidy) {k row : Kept Combatant} (hk : k ∈ s.combatants)
    (hrow : row ∈ s.combatants) :
    (t.written k row).record.revision =
      row.record.revision + if row.record.id = k.record.id then 1 else 0 := by
  unfold written
  split
  · rename_i hid
    rw [hs.eq_of_combatantId hrow hk hid]
    rfl
  · exact (Int.add_zero _).symm

/-- A write does not mend a row that cannot be read. -/
theorem damaged_written (hs : s.Tidy) {k row : Kept Combatant} (hk : k ∈ s.combatants)
    (hrow : row ∈ s.combatants) (hdamaged : row.damaged = true) :
    (t.written k row).damaged = true := by
  unfold written
  split
  · rename_i hid
    obtain rfl := hs.eq_of_combatantId hrow hk hid
    simp [Store.overwriteRow, hdamaged]
  · exact hdamaged

/-- A transaction leaves everything as it was, or it commits its write of a row. -/
theorem run_cases (t : Transaction) (hs : s.Tidy) :
    (t.run s = s ∧ ∀ id, t.writes id (t.outcome s) = false) ∨
      ∃ k ∈ s.combatants, k.record.revision = t.combatant.revision ∧
        t.run s = { s with combatants := s.combatants.map (t.written k) } ∧
        ∀ id, t.writes id (t.outcome s) = decide (k.record.id = id) := by
  by_cases hdone : t.outcome s = .committed ∧ t.kept = true
  · obtain ⟨hcommitted, hkept⟩ := hdone
    obtain ⟨k, hk, hid, hrevision⟩ := outcome_eq_committed_iff.mp hcommitted
    refine .inr ⟨k, hk, hrevision, ?_, fun id => by simp [writes, hcommitted, hkept, hid]⟩
    obtain ⟨-, hrun⟩ := Store.eq_of_commitCombatant? (commitCombatant?_eq_run hkept hcommitted)
    rw [hrun]
    congr 1
    refine List.map_congr_left fun row hrow => ?_
    unfold written
    by_cases hsame : row.record.id = k.record.id
    · obtain rfl := hs.eq_of_combatantId hrow hk hsame
      rw [if_pos ⟨hid, hrevision⟩, if_pos rfl]
    · rw [if_neg fun h => hsame (h.1.trans hid.symm), if_neg hsame]
  · refine .inl ⟨run_eq_self ?_, fun id => ?_⟩
    · rw [not_and_or, Bool.not_eq_true] at hdone
      exact hdone.imp_left outcome_eq_aborted
    · simp only [writes, decide_eq_false_iff_not]
      exact fun h => hdone ⟨h.2.2, h.2.1⟩

theorem run_eq_written (t : Transaction) (hs : s.Tidy) (hkept : t.kept = true)
    (h : t.outcome s = .committed) :
    ∃ k ∈ s.combatants, k.record.id = t.combatant.id ∧ k.record.revision = t.combatant.revision ∧
      t.run s = { s with combatants := s.combatants.map (t.written k) } := by
  have hdone : t.writes t.combatant.id (t.outcome s) = true := decide_eq_true ⟨rfl, hkept, h⟩
  rcases t.run_cases hs with ⟨-, hwrites⟩ | ⟨k, hk, hrevision, hrun, hwrites⟩
  · exact absurd hdone (by simp [hwrites])
  · exact ⟨k, hk, of_decide_eq_true ((hwrites _).symm.trans hdone), hrevision, hrun⟩

theorem run_sound (t : Transaction) (hs : s.Sound) : (t.run s).Sound := by
  rcases t.run_cases hs.toTidy with ⟨hsame, -⟩ | ⟨k, hk, -, hrun, -⟩
  · rw [hsame]
    exact hs
  · rw [hrun]
    refine ⟨hs.toTidy.map_combatants (fun row hrow => identity_written hs.toTidy hk hrow)
      fun row hrow => ?_, hs.encounterIds, hs.tableIds, hs.versions, hs.started⟩
    rw [revision_written hs.toTidy hk hrow]
    split <;> omega

theorem run_later (t : Transaction) (hs : s.Tidy) : s.Later (t.run s) := by
  rcases t.run_cases hs with ⟨hsame, -⟩ | ⟨k, hk, -, hrun, -⟩
  · rw [hsame]
    exact .refl s
  have hidentity :
      ∀ row ∈ s.combatants, (t.written k row).record.identity = row.record.identity :=
    fun _ hrow => identity_written hs hk hrow
  rw [hrun]
  refine ⟨List.prefix_rfl, fun r hr => ⟨r, hr, rfl, .inl rfl⟩, fun row hrow => ?_,
    fun row hrow hdamaged => ?_, fun r _ => Store.roster_map hidentity rfl r.combat.id,
    List.prefix_rfl, List.prefix_rfl⟩
  · refine ⟨_, List.mem_map_of_mem hrow, hidentity row hrow, ?_⟩
    by_cases hid : row.record.id = k.record.id
    · rw [revision_written hs hk hrow, if_pos hid]
      exact .inr (Int.lt_succ _)
    · exact .inl (if_neg hid)
  · exact ⟨_, List.mem_map_of_mem hrow, hidentity row hrow, damaged_written hs hk hrow hdamaged⟩

end Transaction

/-- What may happen to a world that is shared: a move, or a transaction of others from its start
to its end. -/
inductive Incident where
  | move (m : Move)
  | transaction (t : Transaction)

structure Shared where
  world : World
  /-- The transactions of others with what they were told, oldest first. -/
  ended : List (Transaction × WriteOutcome)

namespace Shared

def opened (onFile : Bool) : Shared := ⟨.opened onFile, []⟩

def meet (h : Shared) : Incident → Shared
  | .move m => { h with world := h.world.make m }
  | .transaction t =>
    ⟨{ h.world with store := t.run h.world.store }, h.ended ++ [(t, t.outcome h.world.store)]⟩

def through (h : Shared) (incidents : List Incident) : Shared := incidents.foldl meet h

/-- How often the row of a combatant has been written by what was committed, by calls and by
others. -/
def commits (id : String) (h : Shared) : Nat :=
  (h.world.committed (Request.actsOn id)).length + h.ended.countP fun e => e.1.writes id e.2

variable {h : Shared}

theorem commits_move (h : Shared) (m : Move) (id : String) :
    (h.meet (.move m)).commits id =
      ((h.world.make m).committed (Request.actsOn id)).length + h.ended.countP fun e =>
        e.1.writes id e.2 := rfl

theorem commits_transaction (h : Shared) (t : Transaction) (id : String) :
    (h.meet (.transaction t)).commits id =
      h.commits id + if t.writes id (t.outcome h.world.store) then 1 else 0 := by
  change _ + (h.ended ++ [(t, t.outcome h.world.store)]).countP _ = _
  rw [List.countP_append, List.countP_singleton, ← Nat.add_assoc]
  rfl

/-- Calls go among themselves as they do where nobody else writes. -/
theorem through_moves (h : Shared) (moves : List Move) :
    h.through (moves.map .move) = { h with world := h.world.after moves } := by
  induction moves generalizing h with
  | nil => rfl
  | cons m moves ih => exact ih (h.meet (.move m))

theorem later_meet (hw : h.world.Sound) (x : Incident) :
    h.world.store.Later (h.meet x).world.store := by
  cases x with
  | move m => exact hw.later_make m
  | transaction t => exact t.run_later hw.store.toTidy

theorem sound_meet (hw : h.world.Sound) (x : Incident) : (h.meet x).world.Sound := by
  have hlater := later_meet hw x
  cases x with
  | move m => exact hw.make m
  | transaction t =>
      refine ⟨t.run_sound hw.store, hw.range, hw.nodup, fun i r task hcall => ?_⟩
      -- The calls themselves stay as they are, in a store that has only grown.
      exact (hw.calls i r task hcall).imp_left fun hopen =>
        ⟨hopen.1, hopen.2.later (fun _ _ _ _ hidle => hidle) hlater⟩

theorem through_induction {P : Shared → Prop} (hw : h.world.Sound) (hP : P h)
    (hmeet : ∀ h x, h.world.Sound → P h → P (h.meet x)) (incidents : List Incident) :
    (h.through incidents).world.Sound ∧ P (h.through incidents) := by
  induction incidents generalizing h with
  | nil => exact ⟨hw, hP⟩
  | cons x incidents ih => exact ih (sound_meet hw x) (hmeet h x hw hP)

theorem sound_through (hw : h.world.Sound) (incidents : List Incident) :
    (h.through incidents).world.Sound :=
  (through_induction (P := fun _ => True) hw trivial (fun _ _ _ _ => trivial) incidents).1

theorem later_through (hw : h.world.Sound) (incidents : List Incident) :
    h.world.store.Later (h.through incidents).world.store :=
  (through_induction (P := fun h' => h.world.store.Later h'.world.store) hw (.refl _)
    (fun _ x hw' hlater => hlater.trans (later_meet hw' x)) incidents).2

theorem linesUp_through (onFile : Bool) (incidents : List Incident) :
    ((opened onFile).through incidents).world.LinesUp := by
  refine (through_induction (P := fun h => h.world.LinesUp) (World.sound_opened onFile)
    (World.linesUp_after onFile []) (fun h x hw hlines => ?_) incidents).2
  have hlater := later_meet hw x
  cases x with
  | move m => exact hlines.make hw m
  | transaction t =>
      intro i r a hrequest hpromise
      obtain ⟨roster, hplays, hlined⟩ := hlines i r a hrequest hpromise
      exact ⟨roster, hplays.later hlater, hlined.later hlater⟩

end Shared

end Gamemaster
