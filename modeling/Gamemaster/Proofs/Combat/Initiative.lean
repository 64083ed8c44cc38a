import Gamemaster.Proofs.Combat.Schedule

namespace Gamemaster

namespace Roster

variable (roster : List Member)

def initiative (place : Fin roster.length) : Int :=
  initiativeOf roster[place].stats place roster.length

/-- Whether places are those of a roster in the order of turns: each place once, those of the
highest initiative first, and of equal ones the one that comes first in the roster. -/
structure InTurn (places : List (Fin roster.length)) : Prop where
  complete : places.Perm (List.finRange roster.length)
  falling : places.Pairwise fun p q => initiative roster q < initiative roster p ∨
    (initiative roster q = initiative roster p ∧ p < q)

variable {roster}

def entrant (place : Fin roster.length) : Entrant :=
  ⟨place, roster[place], initiative roster place⟩

theorem map_entrant : (List.finRange roster.length).map entrant = Entrant.ofRoster roster := by
  apply List.ext_getElem
  · simp [Entrant.ofRoster]
  · intro i h₁ h₂
    simp [Entrant.ofRoster, entrant, initiative]

theorem exists_places :
    ∃ places, InTurn roster places ∧ Entrant.lineUp roster = places.map entrant := by
  have hlined : Entrant.lineUp roster = ((List.finRange roster.length).mergeSort fun p q =>
      decide (initiative roster q ≤ initiative roster p)).map entrant := by
    rw [Entrant.lineUp, ← map_entrant, eq_comm]
    exact List.map_mergeSort fun _ _ _ _ => rfl
  refine ⟨_, ⟨List.mergeSort_perm _ _, ?_⟩, hlined⟩
  have hpairs := Entrant.pairwise_lineUp roster
  rw [hlined, List.pairwise_map] at hpairs
  have hnodup := (List.mergeSort_perm (List.finRange roster.length) fun p q =>
    decide (initiative roster q ≤ initiative roster p)).nodup_iff.mpr (List.nodup_finRange _)
  refine (hpairs.and hnodup).imp ?_
  rintro p q ⟨hlower | ⟨hequal, hle⟩, hne⟩
  · exact .inl hlower
  · exact .inr ⟨hequal, lt_of_le_of_ne hle hne⟩

end Roster

/-- Whether an answer to a turn names the combatant whose turn it is in an order. -/
def TurnAnswer.Names (t : TurnAnswer) (order : List InitiativeSlot) : Prop :=
  t.active.map (fun c => (c.id, c.name, c.side)) =
    (itemAt? order t.turnIndex).map fun slot => (slot.id, slot.name, slot.side)

theorem Effect.names {r : TurnRequest} {t : TurnAnswer} {s s' : Store}
    (h : Effect (.nextTurn r) (.turned t) s s') :
    ∃ row ∈ s.combats, row.combat.id = r.combatId ∧
      t.Names ((s.roster r.combatId).map .ofCombatant) := by
  cases h with
  | turn found target _ _ _ present =>
      refine ⟨_, found, target, ?_⟩
      rw [InitiativeSlot.map_of_identity present.symm, TurnAnswer.Names, itemAt?_map,
        Option.map_map]
      change (Option.map Service.ActiveCombatant.of _).map _ = _
      rw [Option.map_map]
      rfl

namespace World

variable {w : World}

def TurnsNamed (w : World) : Prop :=
  ∀ i r t, w.request? i = some (.nextTurn r) → w.Promises i (.ok (.turned t)) →
    ∃ row ∈ w.store.combats, row.combat.id = r.combatId ∧
      t.Names ((w.store.roster r.combatId).map .ofCombatant)

theorem TurnsNamed.make (h : w.TurnsNamed) (hw : w.Sound) (m : Move) : (w.make m).TurnsNamed := by
  intro i r t hrequest hpromise
  have hbefore : ∃ row ∈ w.store.combats, row.combat.id = r.combatId ∧
      t.Names ((w.store.roster r.combatId).map .ofCombatant) := by
    rcases hw.promises_of_make hrequest rfl hpromise with ⟨hrequest, hpromise⟩ | heffect
    · exact h i r t hrequest hpromise
    · exact heffect.names
  obtain ⟨row, hrow, hid, hnames⟩ := hbefore
  have hlater := hw.later_make m
  obtain ⟨row', hrow', hid'⟩ := hlater.mem_combat hrow
  refine ⟨row', hrow', hid'.trans hid, ?_⟩
  rwa [← hid, InitiativeSlot.map_of_identity (hlater.rosters row hrow), hid]

def Enlists (w : World) : Prop :=
  ∀ i r a, w.request? i = some (.start r) → w.Promises i (.ok (.started a)) →
    ∃ roster rows, r.Plays w.store roster ∧ r.Enters a roster rows ∧ Entered a rows w

theorem Enlists.make (h : w.Enlists) (hw : w.Sound) (m : Move) : (w.make m).Enlists := by
  intro i r a hrequest hpromise
  have hlater := hw.later_make m
  rcases hw.promises_of_make hrequest rfl hpromise with ⟨hrequest, hpromise⟩ | heffect
  · obtain ⟨roster, rows, hplays, henters, hentered⟩ := h i r a hrequest hpromise
    exact ⟨roster, rows, hplays.later hlater, henters, hentered.make hw m⟩
  · obtain ⟨a', roster, rows, ha, hplays, henters, -, htraced, hroster, row, hrow, hid, -⟩ :=
      heffect.enters hw.store
    obtain rfl := Answer.started.inj ha
    exact ⟨roster, rows, hplays.later hlater, henters, ⟨row, hrow, hid⟩, hroster, htraced⟩

theorem enlists_after (onFile : Bool) (moves : List Move) :
    ((opened onFile).after moves).Enlists ∧ ((opened onFile).after moves).TurnsNamed := by
  have hnone : ∀ i, (opened onFile).request? i = none := by
    intro i
    simp [request?, opened]
  refine ((sound_opened onFile).after_induction (P := fun w => w.Enlists ∧ w.TurnsNamed) ⟨?_, ?_⟩
    (fun _ m hsound h => ⟨h.1.make hsound m, h.2.make hsound m⟩) moves).2
  · intro i r a hrequest
    simp [hnone] at hrequest
  · intro i r t hrequest
    simp [hnone] at hrequest

end World

/-- The order of a combat that a call has started: as it was answered, and as it is read in a
world. -/
structure InitiativeOrder (r : StartRequest) (a : StartAnswer) (roster : List Member)
    (w : World) :
    Prop where
  plays : r.Plays w.store roster
  /-- Every member is listed once. -/
  listed : ∃ places, Roster.InTurn roster places ∧
    a.order.map (fun slot => (slot.name, slot.side, slot.initiative)) =
      places.map fun p => (roster[p].name, roster[p].side, Roster.initiative roster p)
  distinct : (a.order.map InitiativeSlot.id).Nodup
  read : a.Legible roster w.store →
    ∃ combatants, w.store.combatantsOf a.combatId = .ok combatants ∧
    combatants.map .ofCombatant = a.order
  shown : a.Legible roster w.store →
    ∃ v, ((Service.view a.combatId).run.run w.store).answer = .ok v ∧
    v.combatants.map .ofCombatant = a.order ∧
    v.activeId = (itemAt? a.order v.combat.turnIndex).map InitiativeSlot.id
  named : ∀ j v t, w.request? j = some (.nextTurn ⟨a.combatId, v⟩) →
    w.answer? j = some (.ok (.turned t)) → t.Names a.order
  hidden : ¬a.Legible roster w.store → w.store.combatantsOf a.combatId = .error .storage ∧
    ((Service.view a.combatId).run.run w.store).answer = .error .storage

theorem StartRequest.Enters.listed {r : StartRequest} {a : StartAnswer} {roster : List Member}
    {rows : List (Kept Combatant)} (h : r.Enters a roster rows) :
    ∃ places, Roster.InTurn roster places ∧
      a.order.map (fun slot => (slot.name, slot.side, slot.initiative)) =
        places.map fun p => (roster[p].name, roster[p].side, Roster.initiative roster p) := by
  obtain ⟨places, hturn, hplaces⟩ := Roster.exists_places
  refine ⟨places, hturn, ?_⟩
  rw [h.lined, hplaces, List.map_map]
  rfl

/-- A combat is lined up as its start says, and whatever is done since, its combatants are read in
that order if they can be read at all. -/
theorem Combat.initiative_order (onFile : Bool) (moves : List Move) {i : Nat} {r : StartRequest}
    {a : StartAnswer}
    (hrequest : ((World.opened onFile).after moves).request? i = some (.start r))
    (hanswer : ((World.opened onFile).after moves).answer? i = some (.ok (.started a))) :
    ∃ roster, InitiativeOrder r a roster ((World.opened onFile).after moves) := by
  have hw := (World.sound_opened onFile).after moves
  obtain ⟨henlists, hnamed⟩ := World.enlists_after onFile moves
  obtain ⟨roster, rows, hplays, henters, h⟩ :=
    henlists i r a hrequest (World.promises_of_answer hanswer)
  generalize (World.opened onFile).after moves = w at *
  have hslots := h.slots henters.inserted
  have hlegible := h.readable_iff_legible hw henters
  obtain ⟨row, hrow, hid⟩ := h.found
  have hread := w.store.combatantsOf_eq a.combatId
  have hview := Service.run_view hw.store.toTidy hrow
  rw [hid] at hview
  refine ⟨roster, hplays, henters.listed, ?_, ?_, ?_, ?_, ?_⟩
  · rw [← hslots, List.map_map]
    exact hw.store.nodup_roster a.combatId
  · intro hcan
    exact ⟨_, hread.trans (if_pos (hlegible.mpr hcan)), hslots⟩
  · intro hcan
    refine ⟨_, hview.trans (if_pos (hlegible.mpr hcan)), hslots, ?_⟩
    rw [← hslots, itemAt?_map, Option.map_map]
    rfl
  · intro j v t hj ht
    obtain ⟨-, -, -, hnames⟩ := hnamed j _ t hj (World.promises_of_answer ht)
    rwa [hslots] at hnames
  · intro hcannot
    have hunread := hlegible.not.mpr hcannot
    exact ⟨hread.trans (if_neg hunread), hview.trans (if_neg hunread)⟩

theorem Combat.initiative_order_tiedStart :
    let moves : List Move := [.call (.start World.tiedStart), .step 0, .step 0]
    let w := (World.opened false).after moves
    w.request? 0 = some (.start World.tiedStart) ∧
      w.answer? 0 = some (.ok (.started World.tiedAnswer)) ∧
      ∃ roster, InitiativeOrder World.tiedStart World.tiedAnswer roster w := by
  intro moves w
  have hrequest : w.request? 0 = some (.start World.tiedStart) := by cbv
  have hanswer : w.answer? 0 = some (.ok (.started World.tiedAnswer)) := by cbv
  exact ⟨hrequest, hanswer, Combat.initiative_order false moves hrequest hanswer⟩

/-- A combat may start with an order that cannot be read again. -/
theorem Combat.order_unread_of_unreadable :
    let r : StartRequest :=
      ⟨"c", none, [⟨"A", "us", none⟩, ⟨"B", "us", some StatBlock.unreadable⟩]⟩
    let w := (World.opened false).after [.call (.start r), .step 0, .step 0]
    w.answer? 0 = some (.ok (.started ⟨"combat-1", 1, 1,
        [⟨"combatant-1", "A", "us", 20⟩, ⟨"combatant-2", "B", "us", 10⟩],
        "Combat started: 2 combatants (2 us) - A acts first"⟩)) ∧
      w.store.combatantsOf "combat-1" = .error .storage := by
  intro r w
  constructor <;> cbv

end Gamemaster
