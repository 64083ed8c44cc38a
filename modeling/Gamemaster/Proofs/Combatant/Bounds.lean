import Gamemaster.Proofs.Combatant.Requests
import Gamemaster.Proofs.World.Run

namespace Gamemaster

namespace Text

theorem trimChars_trimChars (cs : List Char) : trimChars (trimChars cs) = trimChars cs := by
  have htrim : ∀ ds, trimChars ds = (ds.dropWhile isBlank).rdropWhile isBlank := fun _ => rfl
  have hdrop : (trimChars cs).dropWhile isBlank = trimChars cs := by
    rw [List.dropWhile_eq_self_iff]
    intro hlength
    have hfront : trimChars cs <+: cs.dropWhile isBlank := List.rdropWhile_prefix isBlank _
    rw [hfront.getElem hlength]
    exact List.dropWhile_get_zero_not isBlank cs _
  rw [htrim (trimChars cs), hdrop, htrim cs, List.rdropWhile_idempotent]

theorem trim_trim (s : String) : trim (trim s) = trim s := by
  rw [trim, trim, String.toList_ofList, trimChars_trimChars]

end Text

structure Combatant.WellFormed (c : Combatant) : Prop where
  currentHp : 0 ≤ c.currentHp ∧ c.currentHp ≤ c.maxHp
  tempHp : 0 ≤ c.tempHp
  distinct : c.conditions.Nodup
  named : ∀ x ∈ c.conditions, x ≠ "" ∧ Text.trim x = x

namespace Action

def WellFormed : Action → Prop
  | damage amount | heal amount | tempHp amount => 0 ≤ amount
  | addCondition name => name ≠ "" ∧ Text.trim name = name
  | removeCondition _ | customNote _ => True

theorem amountOf_nonneg {tag : String} {value : Option ActionValue} {amount : Int}
    (h : amountOf tag value = .ok amount) : 0 ≤ amount := by
  unfold amountOf at h
  split at h
  · simp at h
  · split at h
    · simp at h
    · rw [← Except.ok.inj h]
      exact Int.le_max_right _ 0

theorem conditionOf_trimmed {tag : String} {value : Option ActionValue}
    {condition : Option String} {name : String} (h : conditionOf tag value condition = .ok name) :
    name ≠ "" ∧ Text.trim name = name := by
  simp only [conditionOf] at h
  split at h
  · simp at h
  · rename_i hne
    rw [← Except.ok.inj h]
    exact ⟨hne, Text.trim_trim _⟩

theorem wellFormed_of_request {tag : String} {value : Option ActionValue}
    {condition : Option String}
    {action : Action} (h : ofRequest tag value condition = .ok action) : action.WellFormed := by
  have hasked := ofRequest_eq_ok_iff.mp h
  cases action with
  | damage | heal | tempHp => exact amountOf_nonneg hasked.2
  | addCondition => exact conditionOf_trimmed hasked.2
  | removeCondition | customNote => trivial

end Action

namespace Combatant.WellFormed

variable {c : Combatant}

theorem apply (h : c.WellFormed) {a : Action} (ha : a.WellFormed) : (a.apply c).WellFormed := by
  obtain ⟨⟨hlow, hhigh⟩, htemp, hdistinct, hnamed⟩ := h
  cases a with
  | damage amount =>
      change 0 ≤ amount at ha
      have habsorbed : 0 ≤ c.tempHp - min c.tempHp amount := by omega
      refine ⟨⟨Int.le_max_right _ 0, ?_⟩, habsorbed, hdistinct, hnamed⟩
      simp only [Action.apply, Word.subSat, Word.clamp, Word.low, Word.high]
      omega
  | heal amount =>
      change 0 ≤ amount at ha
      refine ⟨⟨?_, Int.min_le_right _ _⟩, htemp, hdistinct, hnamed⟩
      simp only [Action.apply, Word.addSat, Word.clamp, Word.low, Word.high]
      omega
  | tempHp amount => exact ⟨⟨hlow, hhigh⟩, ha, hdistinct, hnamed⟩
  | addCondition name =>
      simp only [Action.apply]
      split
      · exact ⟨⟨hlow, hhigh⟩, htemp, hdistinct, hnamed⟩
      · rename_i hnew
        refine ⟨⟨hlow, hhigh⟩, htemp, ?_, fun x hx => ?_⟩
        · rw [← List.concat_eq_append]
          exact hdistinct.concat hnew
        · rcases List.mem_append.mp hx with hx | hx
          · exact hnamed x hx
          · rw [List.mem_singleton.mp hx]
            exact ha
  | removeCondition name =>
      exact ⟨⟨hlow, hhigh⟩, htemp, hdistinct.filter _,
        fun x hx => hnamed x (List.mem_of_mem_filter hx)⟩
  | customNote text => exact ⟨⟨hlow, hhigh⟩, htemp, hdistinct, hnamed⟩

theorem acted {k : Kept Combatant} (h : k.record.WellFormed) {a : Action} (ha : a.WellFormed) :
    (k.acted a).record.WellFormed := by
  obtain ⟨hp, temp, distinct, named⟩ := h.apply ha
  exact ⟨hp, temp, distinct, named⟩

theorem toCombatant (e : Entrant) (combatId id : String) :
    (e.toCombatant combatId id).WellFormed := by
  refine ⟨?_, Int.le_refl 0, List.nodup_nil, by simp [Entrant.toCombatant]⟩
  cases hstats : e.member.stats with
  | none => simp [Entrant.toCombatant, hitPointsOf, hstats]
  | some stats =>
      simp only [Entrant.toCombatant, hitPointsOf, hstats]
      omega

theorem kept (h : c.WellFormed) : c.kept.record.WellFormed := by
  obtain ⟨stats, hrecord⟩ := c.record_kept
  rw [hrecord]
  exact ⟨h.currentHp, h.tempHp, h.distinct, h.named⟩

end Combatant.WellFormed

def Store.WellFormed (s : Store) : Prop := ∀ k ∈ s.combatants, k.record.WellFormed

theorem Effect.wellFormed {r : Request} {a : Answer} {s s' : Store} (h : Effect r a s s')
    (hs : s.Sound) (hwell : s.WellFormed) : s'.WellFormed := by
  intro k hk
  rcases h.row_origin hs hk with
    hold | ⟨q, action, old, hold, hasked, rfl⟩ | ⟨e, combatId, id, rfl⟩
  · exact hwell k hold
  · exact (hwell old hold).acted (Action.wellFormed_of_request hasked)
  · exact (Combatant.WellFormed.toCombatant e combatId id).kept

theorem World.wellFormed_make {w : World} (hw : w.Sound) (h : w.store.WellFormed) (m : Move) :
    (w.make m).store.WellFormed := by
  rcases hw.make_cases m with ⟨hstore, -⟩ | ⟨i, r, a, -, -, -, heffect, -, -⟩
  · rw [hstore]
    exact h
  · exact heffect.wellFormed hw.store h

/-- Whatever is asked of a new store, in whatever order, every combatant that it comes to hold is
well formed. -/
theorem Combatant.wellFormed_of_stored (onFile : Bool) (moves : List Move) {k : Kept Combatant}
    (hk : k ∈ ((World.opened onFile).after moves).store.combatants) : k.record.WellFormed := by
  have hnew : (World.opened onFile).store.WellFormed := fun k hk => by
    simp [World.opened, Store.empty] at hk
  exact ((World.sound_opened onFile).after_induction (P := fun w => w.store.WellFormed) hnew
    (fun _ m hsound h => World.wellFormed_make hsound h m) moves).2 k hk

/-- A combatant is given temporary hit points, hurt more than it can bear, healed, and put under
the same condition twice, once with blanks around it. -/
def World.scuffle : List Move :=
  let asked : List (String × Option ActionValue × Option String) :=
    [("temp_hp", some (.number 2), none), ("damage", some (.number 25), none),
      ("heal", some (.number 4), none), ("add_condition", none, some " prone "),
      ("add_condition", some (.text "prone"), none)]
  (asked.zipIdx 1).flatMap fun ((tag, value, condition), i) =>
    .call (.act ⟨"combat-1", "combatant-1", tag, value, condition⟩) :: List.replicate 4 (.step i)

theorem Combatant.wellFormed_of_scuffle :
    let c := { World.soloCombatant with currentHp := 4, conditions := ["prone"], revision := 5 }
    Kept.intact c ∈
      ((World.opened false).after (World.soloStart ++ World.scuffle)).store.combatants ∧
      c.WellFormed := by
  intro c
  have hrows : (World.soloWorld.after World.scuffle).store.combatants = [.intact c] := by cbv
  have hk : Kept.intact c ∈
      ((World.opened false).after (World.soloStart ++ World.scuffle)).store.combatants := by
    rw [World.after_append, World.after_soloStart, hrows]
    exact List.mem_singleton_self _
  exact ⟨hk, Combatant.wellFormed_of_stored false (World.soloStart ++ World.scuffle) hk⟩

end Gamemaster
