import Gamemaster.Proofs.Combat.Opening
import Gamemaster.Proofs.StatBlock

namespace Gamemaster

namespace Word

def mul? (a b : Int) : Option Int :=
  if Fits (a * b) then some (a * b) else none

end Word

/-- The points of a member without a score, refused where the difference, its word or the product
is not exact. -/
def fallbackChecked? (index size : Nat) : Option Int :=
  if index ≤ size ∧ Word.Fits (size - index : Nat) then
    Word.mul? (size - index : Nat) 10
  else none

section Fallback

variable {i j size : Nat}

theorem fits_left (hsize : size < 2 ^ 63) : Word.Fits (size - i : Nat) := by
  unfold Word.Fits Word.low Word.high
  omega

theorem fallbackInitiative_eq (hsize : size < 2 ^ 63) :
    fallbackInitiative i size = min (((size - i : Nat) : Int) * 10) Word.high := by
  rw [fallbackInitiative, Word.wrap_of_fits (fits_left hsize), Word.mulSat, Word.clamp,
    max_eq_right]
  unfold Word.low Word.high
  omega

theorem fallbackInitiative_antitone (hsize : size < 2 ^ 63) (hij : i ≤ j) :
    fallbackInitiative j size ≤ fallbackInitiative i size := by
  rw [fallbackInitiative_eq hsize, fallbackInitiative_eq hsize]
  omega

theorem fallbackChecked?_eq (hi : i ≤ size) (hroom : Word.Fits (10 * size)) :
    fallbackChecked? i size = some (10 * ((size : Int) - i)) := by
  unfold Word.Fits Word.low Word.high at hroom
  have hleft : ((size - i : Nat) : Int) = size - i := Int.natCast_sub hi
  have hsize : size < 2 ^ 63 := by omega
  have hproduct : Word.Fits ((size - i : Nat) * 10) := by
    unfold Word.Fits Word.low Word.high
    omega
  rw [fallbackChecked?, if_pos ⟨hi, fits_left hsize⟩, Word.mul?, if_pos hproduct, hleft,
    Int.mul_comm]

theorem fallbackInitiative_of_room (hi : i ≤ size) (hroom : Word.Fits (10 * size)) :
    fallbackInitiative i size = 10 * ((size : Int) - i) := by
  unfold Word.Fits Word.low Word.high at hroom
  rw [fallbackInitiative_eq (by omega)]
  unfold Word.high
  omega

end Fallback

/-- Whether no rule for initiative yields a number from the stats of a member. -/
def Member.Unscored (m : Member) : Prop :=
  ∀ rule ∈ StatRule.initiative, ∀ n, ¬rule.Yields (m.stats.getD []) n

theorem Member.unscored_iff {m : Member} : m.Unscored ↔
    StatRule.initiative.map (StatRule.extract? (m.stats.getD [])) = StatRule.initiative.map
      fun _ => none :=
  (forall₂_congr fun _ _ => StatRule.extract?_eq_none_iff.symm).trans List.map_inj_left.symm

theorem Member.Unscored.initiative {m : Member} (h : m.Unscored) (index size : Nat) :
    initiativeOf m.stats index size = fallbackInitiative index size := by
  have hnone : StatRule.first? StatRule.initiative (m.stats.getD []) = none :=
    List.findSome?_eq_none_iff.mpr fun rule hrule =>
      StatRule.extract?_eq_none_iff.mpr (h rule hrule)
  unfold initiativeOf
  cases hstats : m.stats with
  | none => rw [Option.bind_none, Option.getD_none]
  | some stats =>
      rw [hstats, Option.getD_some] at hnone
      rw [Option.bind_some, hnone, Option.getD_none]

namespace Entrant

variable {roster : List Member}

theorem getElem_ofRoster {i : Nat} (hi : i < (ofRoster roster).length) (hi' : i < roster.length) :
    (ofRoster roster)[i] = ⟨i, roster[i], initiativeOf roster[i].stats i roster.length⟩ := by
  simp [ofRoster]

theorem length_ofRoster : (ofRoster roster).length = roster.length := by simp [ofRoster]

/-- The declaration goes by falling initiative already, so nobody changes places. -/
theorem lineUp_of_unscored (hsize : roster.length < 2 ^ 63) (h : ∀ m ∈ roster, m.Unscored) :
    lineUp roster = ofRoster roster := by
  refine List.mergeSort_of_pairwise (List.pairwise_iff_getElem.mpr fun i j hi hj hij => ?_)
  rw [length_ofRoster] at hi hj
  rw [getElem_ofRoster _ hi, getElem_ofRoster _ hj, decide_eq_true_eq]
  dsimp only
  rw [(h _ (List.getElem_mem hi)).initiative, (h _ (List.getElem_mem hj)).initiative]
  exact fallbackInitiative_antitone hsize (Nat.le_of_lt hij)

def score (e : Entrant) : Nat × Int := (e.position, e.initiative)

theorem map_score_lineUp :
    (lineUp roster).map score = ((ofRoster roster).map score).mergeSort fun a b => decide
    (b.2 ≤ a.2) :=
  List.map_mergeSort fun _ _ _ _ => rfl

/-- Stats that say nothing of initiative may be exchanged for others that say nothing of it. -/
theorem map_score_set {i : Nat} {m : Member} (hi : i < roster.length) (hold : roster[i].Unscored)
    (hnew : m.Unscored) :
    (ofRoster (roster.set i m)).map score = (ofRoster roster).map score := by
  refine List.ext_getElem (by simp [ofRoster]) fun j hj hj' => ?_
  rw [List.length_map, length_ofRoster] at hj hj'
  rw [List.getElem_map, List.getElem_map, getElem_ofRoster _ hj, getElem_ofRoster _ hj', score,
    score, Prod.mk.injEq]
  refine ⟨rfl, ?_⟩
  dsimp only
  rw [List.length_set]
  by_cases hij : i = j
  · subst hij
    rw [List.getElem_set_self, hnew.initiative, hold.initiative]
  · rw [List.getElem_set_ne hij]

end Entrant

/-- How a start has lined a roster up, in its answer and in the rows of its combat. -/
structure StartAnswer.LinesUp (a : StartAnswer) (roster : List Member) (s : Store) : Prop where
  found : ∃ row ∈ s.combats, row.combat.id = a.combatId
  order : a.order.map Opening.ofSlot =
    (Entrant.lineUp roster).map fun e => (e.member.name, e.member.side, e.initiative)
  slots : (s.roster a.combatId).map .ofCombatant = a.order
  places : (s.roster a.combatId).map Combatant.position = (Entrant.lineUp roster).map fun e =>
    (e.position : Int)

/-- How a start takes over the order in which a roster is declared: the members are answered one
after the other, each with what is left of the fallback points, and the row of each slot has the
place of its member. -/
structure StartAnswer.Declares (a : StartAnswer) (roster : List Member) (s : Store) : Prop where
  order : a.order.map Opening.ofSlot =
    roster.mapIdx fun i m => (m.name, m.side, fallbackInitiative i roster.length)
  slots : (s.roster a.combatId).map .ofCombatant = a.order
  places : (s.roster a.combatId).map Combatant.position = (List.range roster.length).map Int.ofNat

namespace StartAnswer.LinesUp

variable {a : StartAnswer} {roster : List Member} {s s₁ s' : Store}

theorem of_inserted {campaignId : String} {encounterId : Option String} {combat : Combat}
    {combatants : List Combatant} {e : Event} (hs : s.Tidy)
    (inserted : s.insertCombat campaignId encounterId roster = ((combat, combatants), s₁))
    (logged : s₁.append e = .ok s') :
    (Service.startReport combat combatants).1.LinesUp roster s' := by
  have hroster := Store.roster_of_start hs inserted logged
  have hopening := Opening.of_inserted inserted
  have hplaces : combatants.map Combatant.position = (Entrant.lineUp roster).map
      fun e => (e.position : Int) :=
    Store.map_inserted inserted fun _ _ => rfl
  refine ⟨?_, congrArg Opening.order hopening, ?_, ?_⟩
  · obtain ⟨-, -, rfl⟩ := Store.eq_of_insertCombat inserted
    obtain ⟨events, -, rfl⟩ := Store.eq_of_append logged
    exact ⟨_, List.mem_append_right _ (List.mem_singleton.mpr rfl), rfl⟩
  · have hslots := InitiativeSlot.map_kept combatants
    rw [List.map_map] at hslots
    change (s'.roster combat.id).map _ = combatants.map _
    rw [hroster, List.map_map]
    exact hslots
  · change (s'.roster combat.id).map _ = _
    rw [hroster, List.map_map, ← hplaces]
    refine List.map_congr_left fun c _ => ?_
    obtain ⟨stats, hrecord⟩ := c.record_kept
    change c.kept.record.position = _
    rw [hrecord]

theorem later (h : a.LinesUp roster s) (hlater : s.Later s') : a.LinesUp roster s' := by
  obtain ⟨row, hrow, hid⟩ := h.found
  have hrosters := hlater.rosters row hrow
  rw [hid] at hrosters
  refine ⟨hid ▸ hlater.mem_combat hrow, h.order, ?_, ?_⟩
  · rw [InitiativeSlot.map_of_identity hrosters, h.slots]
  · have hplace : Combatant.position = Combatant.position ∘ Combatant.identity := rfl
    rw [← h.places, hplace, ← List.map_map, hrosters, List.map_map]

theorem declares (h : a.LinesUp roster s) (hsize : roster.length < 2 ^ 63)
    (hunscored : ∀ m ∈ roster, m.Unscored) :
    a.Declares roster s := by
  have hlined := Entrant.lineUp_of_unscored hsize hunscored
  refine ⟨?_, h.slots, ?_⟩
  · rw [h.order, hlined]
    refine List.ext_getElem (by simp [Entrant.length_ofRoster]) fun i hi hi' => ?_
    rw [List.length_mapIdx] at hi'
    rw [List.getElem_map, Entrant.getElem_ofRoster _ hi', List.getElem_mapIdx]
    dsimp only
    rw [(hunscored _ (List.getElem_mem hi')).initiative]
  · rw [h.places, hlined]
    refine List.ext_getElem (by simp [Entrant.length_ofRoster]) fun i hi hi' => ?_
    rw [List.length_map, List.length_range] at hi'
    rw [List.getElem_map, Entrant.getElem_ofRoster _ hi', List.getElem_map, List.getElem_range]
    rfl

end StartAnswer.LinesUp

theorem StartRequest.Plays.unique {r : StartRequest} {s : Store} {roster roster' : List Member}
    (h : r.Plays s roster) (h' : r.Plays s roster') : roster = roster' := by
  unfold Plays at h h'
  split at h
  · rename_i hown
    rw [if_pos hown] at h'
    obtain ⟨id, e, hid, he, rfl⟩ := h
    obtain ⟨id', e', hid', he', rfl⟩ := h'
    obtain rfl := Option.some.inj (hid.symm.trans hid')
    rw [Option.some.inj (Except.ok.inj (he.symm.trans he'))]
  · rename_i hown
    rw [if_neg hown] at h'
    exact h.trans h'.symm

theorem Effect.linesUp {r : StartRequest} {a : StartAnswer} {s s' : Store}
    (h : Effect (.start r) (.started a) s s') (hs : s.Sound) :
    ∃ roster, r.Plays s' roster ∧ a.LinesUp roster s' := by
  have hlater := h.later hs
  cases h with
  | start _ plays _ _ inserted logged =>
      exact ⟨_, plays.later hlater, .of_inserted hs.toTidy inserted logged⟩

namespace World

def LinesUp (w : World) : Prop :=
  ∀ i r a, w.request? i = some (.start r) → w.Promises i (.ok (.started a)) →
    ∃ roster, r.Plays w.store roster ∧ a.LinesUp roster w.store

theorem LinesUp.make {w : World} (h : w.LinesUp) (hw : w.Sound) (m : Move) :
    (w.make m).LinesUp := by
  intro i r a hrequest hpromise
  have hlater := hw.later_make m
  rcases hw.promises_of_make hrequest rfl hpromise with ⟨hrequest, hpromise⟩ | heffect
  · obtain ⟨roster, hplays, hlined⟩ := h i r a hrequest hpromise
    exact ⟨roster, hplays.later hlater, hlined.later hlater⟩
  · exact heffect.linesUp hw.store

theorem linesUp_after (onFile : Bool) (moves : List Move) :
    ((opened onFile).after moves).LinesUp := by
  refine ((sound_opened onFile).after_induction (P := LinesUp) ?_
    (fun _ m hsound h => h.make hsound m) moves).2
  intro i r a hrequest
  simp [request?, opened] at hrequest

end World

theorem StartRequest.linesUp_outcome {r : StartRequest} {s : Store} {roster : List Member}
    (hs : s.Sound) (hplays : r.Plays s roster) (hcampaign : Text.isBlankText r.campaignId = false)
    (hnonempty : roster ≠ []) (hvalid : Roster.fault? roster = none) :
    ∃ a, (r.outcome s).answer = .ok a ∧ a.LinesUp roster (r.outcome s).store := by
  have hrun : r.outcome s = _ := Service.run_start hs hplays
  rcases hinserted :
    s.insertCombat r.campaignId r.encounterId roster with ⟨⟨combat, combatants⟩, s₁⟩
  have hlog : s₁.log = s.log := by rw [(Store.eq_of_insertCombat hinserted).2.2]
  rw [if_neg (by simp [hcampaign]), if_neg hnonempty, hvalid, hinserted] at hrun
  rw [hrun]
  exact ⟨_, rfl, .of_inserted hs.toTidy hinserted (hs.toTidy.append hlog _)⟩

/-- A roster of whose members none has a score acts in the order in which it is declared. The
points that they are given instead fall from each member to the next, strictly and above zero as
long as ten points for each can be counted, and where they stop falling the order is kept all the
same. In any roster a member without a score may have any other stats that say nothing of it: its
initiative, like that of all others, stays what it is, and so does the order. -/
theorem Combat.declared_order {roster : List Member} (hsize : roster.length < 2 ^ 63)
    (hunscored : ∀ m ∈ roster, m.Unscored) :
    (∀ i j, i ≤ j → fallbackInitiative j roster.length ≤ fallbackInitiative i roster.length) ∧
      (Word.Fits (10 * roster.length) → ∀ i < roster.length,
        fallbackChecked? i roster.length = some (fallbackInitiative i roster.length) ∧
          0 < fallbackInitiative i roster.length ∧
          ∀ j, i < j → fallbackInitiative j roster.length < fallbackInitiative i roster.length) ∧
      (∀ onFile moves, let w := (World.opened onFile).after moves
        (∀ i r a, w.request? i = some (.start r) → w.answer? i = some (.ok (.started a)) →
          r.Plays w.store roster → a.Declares roster w.store) ∧
        ∀ r : StartRequest, r.Plays w.store roster → Text.isBlankText r.campaignId = false →
          roster ≠ [] → Roster.fault? roster = none →
          ∃ a, (r.outcome w.store).answer = .ok a ∧ a.Declares roster (r.outcome w.store).store) ∧
      ∀ (others : List Member) (i : Nat) (hi : i < others.length) (stats : Option StatBlock),
        others[i].Unscored → Member.Unscored { others[i] with stats } →
        (Entrant.ofRoster (others.set i { others[i] with stats })).map Entrant.score =
            (Entrant.ofRoster others).map Entrant.score ∧
          (Entrant.lineUp (others.set i { others[i] with stats })).map Entrant.score =
            (Entrant.lineUp others).map Entrant.score := by
  refine ⟨fun i j => fallbackInitiative_antitone hsize, ?_, ?_, ?_⟩
  · intro hroom i hi
    have hpoints := fallbackInitiative_of_room hi.le hroom
    refine ⟨hpoints ▸ fallbackChecked?_eq hi.le hroom, by omega, fun j hij => ?_⟩
    rw [hpoints, fallbackInitiative_eq hsize]
    omega
  · intro onFile moves w
    have hw : w.Sound := (World.sound_opened onFile).after moves
    refine ⟨fun i r a hrequest hanswer hplays => ?_,
      fun r hplays hcampaign hnonempty hvalid => ?_⟩
    · obtain ⟨roster', hplays', hlined⟩ :=
        World.linesUp_after onFile moves i r a hrequest (World.promises_of_answer hanswer)
      obtain rfl := hplays.unique hplays'
      exact hlined.declares hsize hunscored
    · obtain ⟨a, hanswer, hlined⟩ := r.linesUp_outcome hw.store hplays hcampaign hnonempty hvalid
      exact ⟨a, hanswer, hlined.declares hsize hunscored⟩
  · intro others i hi stats hold hnew
    have hscores := Entrant.map_score_set hi hold hnew
    exact ⟨hscores, by rw [Entrant.map_score_lineUp, Entrant.map_score_lineUp, hscores]⟩

/-- Members with a score that is no number, with stats of other kinds and with none. Two of them
go by one name. -/
def World.volunteers : List Member :=
  [⟨"X", "us", some [("initiative", .text "quick"), ("dex", .int 3)]⟩, ⟨"X", "them", none⟩,
    ⟨"Y", "us", some [("dexMod", .null), ("hp", .int 7)]⟩]

theorem Combat.declared_order_volunteers :
    let roster := World.volunteers
    let w := (World.opened false).after [.call (.start ⟨"c", none, roster⟩), .step 0, .step 0]
    roster.length < 2 ^ 63 ∧ (∀ m ∈ roster, m.Unscored) ∧
      Word.Fits (10 * roster.length) ∧
      fallbackChecked? 1 roster.length = some (fallbackInitiative 1 roster.length) ∧
      ∃ a, w.answer? 0 = some (.ok (.started a)) ∧ a.Declares roster w.store ∧
        a.order.map Opening.ofSlot = [("X", "us", 30), ("X", "them", 20), ("Y", "us", 10)] := by
  intro roster w
  have hsize : roster.length < 2 ^ 63 := by decide
  have hunscored : ∀ m ∈ roster, m.Unscored := by
    intro m hm
    simp only [roster, World.volunteers, List.mem_cons, List.not_mem_nil, or_false] at hm
    obtain rfl | rfl | rfl := hm <;> exact Member.unscored_iff.mpr (by cbv)
  have hroom : Word.Fits (10 * roster.length) := by decide
  have hrequest : w.request? 0 = some (.start ⟨"c", none, roster⟩) := by cbv
  have hanswer : w.answer? 0 = some (.ok (.started ⟨"combat-1", 1, 1,
      [⟨"combatant-1", "X", "us", 30⟩, ⟨"combatant-2", "X", "them", 20⟩,
        ⟨"combatant-3", "Y", "us", 10⟩],
      "Combat started: 3 combatants (2 us, 1 them) - X acts first"⟩)) := by cbv
  obtain ⟨-, hpoints, hstarts, -⟩ := Combat.declared_order hsize hunscored
  have hdeclares :=
    (hstarts false _).1 0 _ _ hrequest hanswer (by rw [StartRequest.Plays, if_neg (by decide)])
  exact ⟨hsize, hunscored, hroom, (hpoints hroom 1 (by decide)).1, _, hanswer, hdeclares, rfl⟩

end Gamemaster
