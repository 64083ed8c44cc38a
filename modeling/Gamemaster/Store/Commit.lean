import Gamemaster.Json.Reader
import Gamemaster.Store

namespace Gamemaster

def Json.reread? (j : Json) : Option Json := Json.read? j.render

def StatBlock.reread? (stats : StatBlock) : Option StatBlock :=
  (Json.Written.read? (Json.object stats).render).bind Json.Written.block?

/-- Keeps what was written as it will be read again. It is damaged from the start if it will not
be. -/
def Kept.ofReread (written : α) : Option α → Kept α
  | some record => .intact record
  | none => (Kept.intact written).damage

namespace Store

def append (e : Event) (s : Store) : Except Refusal Store :=
  match s.log with
  | none => .error .storage
  | some events => .ok { s with log := some (events ++ [e]) }

/-- Writes a turn if the combat is still at the version the turn is taken from. -/
def commitTurn? (id : String) (t : Turn) (s : Store) : Option Store :=
  let current (r : CombatRow) : Bool := r.combat.id = id ∧ r.combat.version = t.fromVersion
  if s.combats.any current then
    some { s with
      combats := s.combats.map fun r =>
        if current r then { r with combat := r.combat.take t } else r }
  else none

/-- A stored combatant with the fields that actions change taken from `c`, one revision on. -/
def overwrite (c old : Combatant) : Combatant :=
  { old with
    currentHp := c.currentHp
    tempHp := c.tempHp
    conditions := c.conditions
    notes := c.notes
    revision := old.revision + 1 }

/-- The row `k` once `c` has been written over it. The stat block is left alone, so a row that
could not be read stays so, and a revision that has outgrown 64 bits cannot be read any more. -/
def overwriteRow (c : Combatant) (k : Kept Combatant) : Kept Combatant :=
  ⟨overwrite c k.record, k.damaged || !decide (Word.Fits (k.record.revision + 1))⟩

/-- Writes what actions change of a combatant if its row is still at the combatant's revision. -/
def commitCombatant? (c : Combatant) (s : Store) : Option Store :=
  let current (k : Kept Combatant) : Bool := k.record.id = c.id ∧ k.record.revision = c.revision
  if s.combatants.any current then
    some { s with
      combatants := s.combatants.map fun k => if current k then overwriteRow c k else k }
  else none

/-- A new combat with its combatants, who get their ids in the order of their turns. -/
def insertCombat (campaignId : String) (encounterId : Option String) (roster : List Member)
    (s : Store) : (Combat × List Combatant) × Store :=
  let combat := Combat.start (idOf "combat" (s.issued.combats + 1)) campaignId encounterId
  let combatants := (Entrant.lineUp roster).mapIdx fun i e =>
    e.toCombatant combat.id (idOf "combatant" (s.issued.combatants + i + 1))
  let kept (c : Combatant) : Kept Combatant :=
    .ofReread c (c.stats.reread?.map fun stats => { c with stats })
  ((combat, combatants),
    { s with
      issued :=
        { s.issued with
          combats := s.issued.combats + 1
          combatants := s.issued.combatants + combatants.length }
      combats := s.combats ++ [⟨combat, activeStatus⟩]
      combatants := s.combatants ++ combatants.map kept })

def insertEncounter (campaignId name difficulty : String) (notes : Option String)
    (roster : List Member) (s : Store) : String × Store :=
  let id := idOf "encounter" (s.issued.encounters + 1)
  let kept (m : Member) : Kept Member :=
    match m.stats with
    | none => .intact m
    | some stats => .ofReread m (stats.reread?.map fun stats => { m with stats := some stats })
  (id,
    { s with
      issued := { s.issued with encounters := s.issued.encounters + 1 }
      encounters :=
        s.encounters ++ [⟨id, campaignId, name, difficulty, notes, roster.map kept⟩] })

def insertTable (campaignId : Option String) (name dice : String) (scope : Option String)
    (entries : List TableEntry) (s : Store) : String × Store :=
  let id := idOf "table" (s.issued.tables + 1)
  let kept (e : TableEntry) : Kept TableEntry :=
    .ofReread e (e.result.reread?.map fun result => { e with result })
  (id,
    { s with
      issued := { s.issued with tables := s.issued.tables + 1 }
      tables := s.tables ++ [⟨id, campaignId, name, dice, scope, entries.map kept⟩] })

def nextSeed (s : Store) : String := idOf "seed" (s.issued.seeds + 1)

def takeSeed (s : Store) : Store :=
  { s with issued := { s.issued with seeds := s.issued.seeds + 1 } }

end Store

end Gamemaster
