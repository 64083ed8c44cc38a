import Gamemaster.Action
/-!
Hit points under damage and healing. The arithmetic stops at the ends of the 64-bit range, and yet
comes out as it would in unbounded integers: what is taken is taken once, in whatever portions and
order.
-/
namespace Gamemaster

namespace Word

def sub? (a b : Int) : Option Int :=
  if Fits (a - b) then some (a - b) else none

end Word

namespace Combatant

/-- The bounds that hit points keep. The greatest are a 64-bit number. -/
structure HasHitPoints (c : Combatant) : Prop where
  current : 0 ≤ c.currentHp ∧ c.currentHp ≤ c.maxHp
  max : c.maxHp ≤ Word.high
  temp : 0 ≤ c.tempHp

def withHitPoints (c : Combatant) (current temp : Int) : Combatant :=
  { c with currentHp := current, tempHp := temp }

end Combatant

namespace Action

/-- What can be asked for: a 64-bit number, and a negative one counts as zero. -/
def IsAmount (a : Int) : Prop := 0 ≤ a ∧ a ≤ Word.high

def amount? : Action → Option Int
  | damage amount | heal amount | tempHp amount => some amount
  | _ => none

/-- Applies an action with every operation checked that neither compares nor stops at the ends of
the range. There is one, for the temporary hit points that damage leaves. -/
def applyChecked (c : Combatant) : Action → Option Combatant
  | damage amount =>
    let absorbed := min c.tempHp amount
    (Word.sub? c.tempHp absorbed).map fun temp =>
      { c with
        tempHp := temp
        currentHp := max (Word.subSat c.currentHp (Word.subSat amount absorbed)) 0 }
  | action => some (action.apply c)

variable {c : Combatant} {a b : Int}

theorem apply_damage (h : c.HasHitPoints) (ha : IsAmount a) :
    (damage a).apply c =
      c.withHitPoints (max (c.currentHp - max (a - c.tempHp) 0) 0) (max (c.tempHp - a) 0) := by
  obtain ⟨hcurrent, hmax, htemp⟩ := h
  unfold IsAmount Word.high at *
  have hleft : c.tempHp - min c.tempHp a = max (c.tempHp - a) 0 := by omega
  have hrest : Word.subSat a (min c.tempHp a) = max (a - c.tempHp) 0 := by
    unfold Word.subSat Word.clamp Word.low Word.high
    omega
  have htaken :
      Word.subSat c.currentHp (max (a - c.tempHp) 0) = c.currentHp - max (a - c.tempHp) 0 := by
    unfold Word.subSat Word.clamp Word.low Word.high
    omega
  simp only [apply, hleft, hrest, htaken, Combatant.withHitPoints]

theorem apply_heal (h : c.HasHitPoints) (ha : IsAmount a) :
    (heal a).apply c = c.withHitPoints (min (c.currentHp + a) c.maxHp) c.tempHp := by
  obtain ⟨hcurrent, hmax, htemp⟩ := h
  unfold IsAmount Word.high at *
  have hhealed : min (Word.addSat c.currentHp a) c.maxHp = min (c.currentHp + a) c.maxHp := by
    unfold Word.addSat Word.clamp Word.low Word.high
    omega
  simp only [apply, hhealed, Combatant.withHitPoints]

theorem hasHitPoints_damage (h : c.HasHitPoints) (ha : IsAmount a) :
    ((damage a).apply c).HasHitPoints := by
  rw [apply_damage h ha]
  obtain ⟨hcurrent, hmax, htemp⟩ := h
  refine ⟨?_, hmax, ?_⟩ <;> simp only [Combatant.withHitPoints] <;> omega

theorem hasHitPoints_heal (h : c.HasHitPoints) (ha : IsAmount a) :
    ((heal a).apply c).HasHitPoints := by
  rw [apply_heal h ha]
  obtain ⟨hcurrent, hmax, htemp⟩ := h
  unfold IsAmount at ha
  refine ⟨?_, hmax, htemp⟩
  simp only [Combatant.withHitPoints]
  omega

/-- Damage that is taken in two portions is taken once, both together. -/
theorem apply_damage_damage (h : c.HasHitPoints) (ha : IsAmount a) (hb : IsAmount b) :
    (damage b).apply ((damage a).apply c) =
      c.withHitPoints (max (c.currentHp - max (a + b - c.tempHp) 0) 0)
        (max (c.tempHp - (a + b)) 0) := by
  rw [apply_damage (hasHitPoints_damage h ha) hb, apply_damage h ha]
  obtain ⟨hcurrent, -, htemp⟩ := h
  unfold IsAmount at *
  have hleft : max (max (c.tempHp - a) 0 - b) 0 = max (c.tempHp - (a + b)) 0 := by omega
  have hrest :
      max (max (c.currentHp - max (a - c.tempHp) 0) 0 - max (b - max (c.tempHp - a) 0) 0) 0 =
      max (c.currentHp - max (a + b - c.tempHp) 0) 0 := by omega
  simp only [Combatant.withHitPoints, hleft, hrest]

theorem apply_heal_heal (h : c.HasHitPoints) (ha : IsAmount a) (hb : IsAmount b) :
    (heal b).apply ((heal a).apply c) = (heal (Word.addSat a b)).apply c := by
  have hsum : IsAmount (Word.addSat a b) := by
    unfold IsAmount Word.addSat Word.clamp Word.low Word.high at *
    omega
  rw [apply_heal (hasHitPoints_heal h ha) hb, apply_heal h ha, apply_heal h hsum]
  obtain ⟨hcurrent, hmax, -⟩ := h
  have hhealed : min (min (c.currentHp + a) c.maxHp + b) c.maxHp =
      min (c.currentHp + Word.addSat a b) c.maxHp := by
    unfold IsAmount Word.addSat Word.clamp Word.low Word.high at *
    omega
  simp only [Combatant.withHitPoints, hhealed]

/-- What damage leaves of the temporary hit points is in range, even if they are negative. -/
theorem applyChecked_eq {action : Action} (hamount : ∀ n, action.amount? = some n → 0 ≤ n)
    (htemp : Word.Fits c.tempHp) : action.applyChecked c = some (action.apply c) := by
  cases action with
  | damage amount =>
      have hnonneg : 0 ≤ amount := hamount amount rfl
      have hfits : Word.Fits (c.tempHp - min c.tempHp amount) := by
        unfold Word.Fits Word.low Word.high at *
        omega
      simp only [applyChecked, Word.sub?, if_pos hfits, Option.map_some]
      rfl
  | _ => rfl

example (c : Combatant) (h : c.tempHp = Word.high) : (damage (-1)).applyChecked c = none := by
  have hbeyond : ¬Word.Fits (Word.high - min Word.high (-1)) := by decide
  simp only [applyChecked, Word.sub?, h, if_neg hbeyond, Option.map_none]

/-- Damage comes off the sum of current and temporary hit points, and off the current ones only
once the others are used up. Two damages come to the same in either order and in one, two healings
are one, and no action on any combatant leaves the range of 64-bit numbers on the way. -/
theorem hitPoints_exact (h : c.HasHitPoints) (ha : IsAmount a) (hb : IsAmount b) :
    (((damage a).apply c).currentHp + ((damage a).apply c).tempHp =
      max (c.currentHp + c.tempHp - a) 0 ∧
      (((damage a).apply c).currentHp < c.currentHp → c.tempHp < a)) ∧
    (damage b).apply ((damage a).apply c) = (damage a).apply ((damage b).apply c) ∧
    (Word.Fits (a + b) → (damage b).apply ((damage a).apply c) = (damage (a + b)).apply c) ∧
    (heal b).apply ((heal a).apply c) = (heal (Word.addSat a b)).apply c ∧
    ∀ (d : Combatant) (action : Action), Word.Fits d.tempHp →
      (∀ n, action.amount? = some n → 0 ≤ n) →
      action.applyChecked d = some (action.apply d) := by
  have htwice := apply_damage_damage h ha hb
  refine ⟨?_, ?_, ?_, apply_heal_heal h ha hb, fun d action htemp hamount =>
    applyChecked_eq hamount htemp⟩
  · rw [apply_damage h ha]
    obtain ⟨hcurrent, -, htemp⟩ := h
    unfold IsAmount at ha
    simp only [Combatant.withHitPoints]
    omega
  · rw [htwice, apply_damage_damage h hb ha, Int.add_comm b a]
  · intro hsum
    have hamount : IsAmount (a + b) := ⟨Int.add_nonneg ha.1 hb.1, hsum.2⟩
    rw [htwice, apply_damage h hamount]

/-- Two amounts that leave the range together, and hit points that do. -/
theorem hitPoints_exact_greatest :
    let c : Combatant :=
      ⟨"combatant-1", "combat-1", "Aria", "party", Word.high, Word.high, 5, 15, [],
        none, [], 0, 1⟩
    c.HasHitPoints ∧ IsAmount Word.high ∧ IsAmount 6 ∧
    ((damage Word.high).apply c).currentHp + ((damage Word.high).apply c).tempHp = 5 ∧
    (damage 6).apply ((damage Word.high).apply c) = (damage Word.high).apply
    ((damage 6).apply c) ∧
    (heal 6).apply ((heal Word.high).apply c) = (heal Word.high).apply c ∧
    (damage Word.high).applyChecked c = some ((damage Word.high).apply c) := by
  intro c
  have hc : c.HasHitPoints := ⟨by decide, by decide, by decide⟩
  have hhigh : IsAmount Word.high := ⟨by decide, by decide⟩
  have hsix : IsAmount 6 := ⟨by decide, by decide⟩
  obtain ⟨⟨hsum, -⟩, hcomm, -, hheal, hchecked⟩ := hitPoints_exact hc hhigh hsix
  exact ⟨hc, hhigh, hsix, hsum, hcomm, hheal,
    hchecked c (damage Word.high) (by decide) (by rintro n ⟨⟩; decide)⟩

end Action

end Gamemaster
