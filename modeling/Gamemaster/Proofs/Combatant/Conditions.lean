import Gamemaster.Play.Combat
import Gamemaster.Proofs.Combatant.Requests
import Mathlib.Data.List.Nodup
import Mathlib.Order.Lattice.Nat

namespace Gamemaster

namespace ActionRequest

/-- The condition that a request names, in its own field or else in a text value, without the
blanks around it. -/
def named (r : ActionRequest) : String :=
  Text.trim ((r.condition.or (r.value.bind ActionValue.text?)).getD "")

def Accepted (r : ActionRequest) : Prop :=
  ∃ action, Action.ofRequest r.tag r.value r.condition = .ok action

def Adds (x : String) (r : ActionRequest) : Prop :=
  r.Accepted ∧ r.tag = "add_condition" ∧ r.named = x

def Removes (x : String) (r : ActionRequest) : Prop :=
  r.Accepted ∧ r.tag = "remove_condition" ∧ r.named = x

variable {r : ActionRequest} {x y : String}

theorem Adds.iff (h : r.Adds x) : r.Adds y ↔ y = x :=
  ⟨fun hy => hy.2.2.symm.trans h.2.2, fun hy => hy ▸ h⟩

theorem Removes.iff (h : r.Removes x) : r.Removes y ↔ y = x :=
  ⟨fun hy => hy.2.2.symm.trans h.2.2, fun hy => hy ▸ h⟩

theorem Adds.not_removes (hx : r.Adds x) (y : String) : ¬r.Removes y := by
  rintro ⟨-, htag, -⟩
  rw [hx.2.1] at htag
  exact absurd htag (by decide)

theorem named_eq_of_conditionOf (h : Action.conditionOf r.tag r.value r.condition = .ok x) :
    r.named = x := by
  change (if r.named = "" then Except.error (ActionFault.conditionMissing r.tag)
    else .ok r.named) = .ok x at h
  split at h
  · cases h
  · exact Except.ok.inj h

end ActionRequest

namespace Combatant

/-- A combatant after a request. One that is refused changes nothing. -/
def asked (c : Combatant) (r : ActionRequest) : Combatant :=
  match Action.ofRequest r.tag r.value r.condition with
  | .ok action => action.apply c
  | .error _ => c

def askedAll (c : Combatant) (rs : List ActionRequest) : Combatant := rs.foldl asked c

theorem askedAll_concat (c : Combatant) (rs : List ActionRequest) (r : ActionRequest) :
    c.askedAll (rs ++ [r]) = (c.askedAll rs).asked r := by
  rw [askedAll, List.foldl_append]
  rfl

end Combatant

/-- What a request makes of the conditions. -/
inductive ActionRequest.Changes (r : ActionRequest) (before : List String) : List String → Prop
  | add {x : String} (adds : r.Adds x) (absent : x ∉ before) : Changes r before (before ++ [x])
  | again {x : String} (adds : r.Adds x) (present : x ∈ before) : Changes r before before
  | remove {x : String} (removes : r.Removes x) : Changes r before (before.filter fun y => y ≠ x)
  | other (adds : ∀ x, ¬r.Adds x) (removes : ∀ x, ¬r.Removes x) : Changes r before before

namespace ActionRequest

theorem changes_of_other {r : ActionRequest} {conditions : List String}
    (h : r.Accepted → r.tag ≠ "add_condition" ∧ r.tag ≠ "remove_condition") :
    r.Changes conditions conditions :=
  .other (fun _ adds => (h adds.1).1 adds.2.1) fun _ removes => (h removes.1).2 removes.2.1

theorem changes_asked (c : Combatant) (r : ActionRequest) :
    r.Changes c.conditions (c.asked r).conditions := by
  unfold Combatant.asked
  cases hrequest : Action.ofRequest r.tag r.value r.condition with
  | error e =>
      refine changes_of_other fun ⟨action, haccepted⟩ => ?_
      rw [hrequest] at haccepted
      cases haccepted
  | ok action =>
      have haccepted : r.Accepted := ⟨action, hrequest⟩
      have hasked := Action.ofRequest_eq_ok_iff.mp hrequest
      cases action with
      | addCondition x =>
          have adds : r.Adds x := ⟨haccepted, hasked.1, named_eq_of_conditionOf hasked.2⟩
          simp only [Action.apply]
          split
          case isTrue present => exact .again adds present
          case isFalse absent => exact .add adds absent
      | removeCondition x => exact .remove ⟨haccepted, hasked.1, named_eq_of_conditionOf hasked.2⟩
      | damage | heal | tempHp | customNote =>
          exact changes_of_other fun _ => hasked.1 ▸ by decide

end ActionRequest

namespace History

/-- The request at the place `i` of a history is one of those that `p` tells of. -/
def At (rs : List ActionRequest) (p : ActionRequest → Prop) (i : Nat) : Prop :=
  ∃ r, rs[i]? = some r ∧ p r

def TouchedAt (rs : List ActionRequest) (x : String) (i : Nat) : Prop :=
  At rs (ActionRequest.Adds x) i ∨ At rs (ActionRequest.Removes x) i

def StandsAt (rs : List ActionRequest) (x : String) (i : Nat) : Prop :=
  At rs (ActionRequest.Adds x) i ∧ ∀ k, At rs (ActionRequest.Removes x) k → k < i

/-- The insertion of `x`: the first add of it after the last removal. -/
def InsertedAt (rs : List ActionRequest) (x : String) (i : Nat) : Prop :=
  IsLeast {i | StandsAt rs x i} i

variable {rs : List ActionRequest} {r : ActionRequest} {p : ActionRequest → Prop}
  {x y : String} {i j : Nat}

theorem At.lt (h : At rs p i) : i < rs.length := by
  obtain ⟨r, hr, -⟩ := h
  exact (List.getElem?_eq_some_iff.mp hr).1

theorem at_concat_iff : At (rs ++ [r]) p i ↔ At rs p i ∨ i = rs.length ∧ p r := by
  rcases Nat.lt_trichotomy i rs.length with hlt | rfl | hgt
  · simp only [At, List.getElem?_append_left hlt, hlt.ne, false_and, or_false]
  · simp [At]
  · have hnone : (rs ++ [r])[i]? = none := List.getElem?_eq_none (by simp; omega)
    have hnone' : rs[i]? = none := List.getElem?_eq_none hgt.le
    simp [At, hnone, hnone', hgt.ne']

theorem standsAt_concat_iff : StandsAt (rs ++ [r]) x i ↔
    StandsAt rs x i ∧ ¬r.Removes x ∨ i = rs.length ∧ r.Adds x := by
  simp only [StandsAt, at_concat_iff]
  constructor
  · rintro ⟨hadds | hadds, hlast⟩
    · refine .inl ⟨⟨hadds, fun k hk => hlast k (.inl hk)⟩, fun hremoves => ?_⟩
      exact absurd (hlast _ (.inr ⟨rfl, hremoves⟩)) hadds.lt.asymm
    · exact .inr hadds
  · rintro (⟨⟨hadds, hlast⟩, hkept⟩ | ⟨rfl, hadds⟩)
    · refine ⟨.inl hadds, ?_⟩
      rintro k (hk | ⟨-, hremoves⟩)
      · exact hlast k hk
      · exact absurd hremoves hkept
    · refine ⟨.inr ⟨rfl, hadds⟩, ?_⟩
      rintro k (hk | ⟨-, hremoves⟩)
      · exact hk.lt
      · exact absurd hremoves (hadds.not_removes x)

theorem InsertedAt.of_concat (h : InsertedAt (rs ++ [r]) x i) (hstands : StandsAt rs x j)
    (hkept : ¬r.Removes x) :
    InsertedAt rs x i := by
  have hold : ∀ {k}, StandsAt rs x k → i ≤ k := fun hk =>
    h.2 (standsAt_concat_iff.mpr (.inl ⟨hk, hkept⟩))
  rcases standsAt_concat_iff.mp h.1 with ⟨hi, -⟩ | ⟨hi, -⟩
  · exact ⟨hi, fun k hk => hold hk⟩
  · exact absurd (hold hstands) (Nat.not_le.mpr (hi ▸ hstands.1.lt))

theorem InsertedAt.eq_length (h : InsertedAt (rs ++ [r]) x i) (habsent : ¬∃ j, StandsAt rs x j) :
    i = rs.length := by
  rcases standsAt_concat_iff.mp h.1 with ⟨hstands, -⟩ | ⟨hi, -⟩
  · exact absurd ⟨i, hstands⟩ habsent
  · exact hi

theorem exists_insertedAt (h : StandsAt rs x i) : ∃ k, InsertedAt rs x k :=
  ⟨sInf {i | StandsAt rs x i}, Nat.sInf_mem ⟨i, h⟩, fun _ hk => Nat.sInf_le hk⟩

/-- Of the adds after every removal, the last is what happened to a condition last. -/
theorem exists_standsAt_iff :
    (∃ i, StandsAt rs x i) ↔
      ∃ i, IsGreatest {i | TouchedAt rs x i} i ∧ At rs (ActionRequest.Adds x) i := by
  constructor
  · rintro ⟨i, hadds, hlast⟩
    have hbounded : BddAbove {i | TouchedAt rs x i} :=
      ⟨rs.length, fun k hk => (hk.elim At.lt At.lt).le⟩
    have hgreatest := Nat.sSup_mem ⟨i, .inl hadds⟩ hbounded
    refine ⟨_, ⟨hgreatest, fun k hk => le_csSup hbounded hk⟩, hgreatest.resolve_right
      fun hremoves => ?_⟩
    exact absurd (hlast _ hremoves) (Nat.not_lt.mpr (le_csSup hbounded (.inl hadds)))
  · rintro ⟨i, ⟨-, hgreatest⟩, hadds⟩
    refine ⟨i, hadds, fun k hremoves => lt_of_le_of_ne (hgreatest (.inr hremoves)) ?_⟩
    rintro rfl
    obtain ⟨r, hr, hadd⟩ := hadds
    obtain ⟨r', hr', hremove⟩ := hremoves
    obtain rfl := Option.some.inj (hr.symm.trans hr')
    exact hadd.not_removes x hremove

/-- The conditions that a history leaves, as it tells of them. -/
structure Leaves (rs : List ActionRequest) (conditions : List String) : Prop where
  mem_iff : ∀ x, x ∈ conditions ↔ ∃ i, StandsAt rs x i
  ordered : conditions.Pairwise fun x y => ∀ i j, InsertedAt rs x i → InsertedAt rs y j → i < j

namespace Leaves

variable {conditions after : List String}

theorem nil : Leaves [] [] where
  mem_iff _ := ⟨nofun, fun ⟨_, hadds, _⟩ => absurd hadds.lt (Nat.not_lt_zero _)⟩
  ordered := .nil

theorem ordered_concat (h : Leaves rs conditions) (hkept : ∀ x ∈ after, ¬r.Removes x)
    (hsub : after.Sublist conditions) :
    after.Pairwise fun x y =>
      ∀ i j, InsertedAt (rs ++ [r]) x i → InsertedAt (rs ++ [r]) y j → i < j := by
  refine (h.ordered.sublist hsub).imp_of_mem fun {x y} hx hy hbefore i j hi hj => ?_
  obtain ⟨_, hstands⟩ := (h.mem_iff x).mp (hsub.subset hx)
  obtain ⟨_, hstands'⟩ := (h.mem_iff y).mp (hsub.subset hy)
  exact hbefore i j (hi.of_concat hstands (hkept x hx)) (hj.of_concat hstands' (hkept y hy))

theorem step (h : Leaves rs conditions) (hchanges : r.Changes conditions after) :
    Leaves (rs ++ [r]) after := by
  have hstands (x : String) : (∃ i, StandsAt (rs ++ [r]) x i) ↔ x ∈ conditions ∧ ¬r.Removes x ∨
      r.Adds x := by
    simp only [standsAt_concat_iff, exists_or, exists_and_right, exists_eq, true_and, h.mem_iff]
  cases hchanges with
  | @add x adds absent =>
      have hkept (y : String) : ¬r.Removes y := adds.not_removes y
      refine ⟨fun y => ?_, ?_⟩
      · simp [hstands, hkept, adds.iff]
      · refine List.pairwise_append.mpr
          ⟨h.ordered_concat (fun y _ => hkept y) (.refl _), List.pairwise_singleton _ _, ?_⟩
        intro y hy z hz i j hi hj
        obtain rfl := List.mem_singleton.mp hz
        have hnew : j = rs.length := hj.eq_length (mt (h.mem_iff z).mpr absent)
        obtain ⟨_, hstood⟩ := (h.mem_iff y).mp hy
        exact hnew ▸ (hi.of_concat hstood (hkept y)).1.1.lt
  | @again x adds present =>
      have hkept (y : String) : ¬r.Removes y := adds.not_removes y
      refine ⟨fun y => ?_, h.ordered_concat (fun y _ => hkept y) (.refl _)⟩
      rw [hstands]
      exact ⟨fun hy => .inl ⟨hy, hkept y⟩, fun hy => hy.elim And.left
        fun hadds => adds.iff.mp hadds ▸ present⟩
  | @remove x removes =>
      have hadds (y : String) : ¬r.Adds y := fun hy => hy.not_removes x removes
      refine ⟨fun y => ?_, h.ordered_concat (fun y hy => ?_) List.filter_sublist⟩
      · simp [hstands, hadds, removes.iff]
      · simpa [removes.iff] using (List.mem_filter.mp hy).2
  | other adds removes =>
      refine ⟨fun y => ?_, h.ordered_concat (fun y _ => removes y) (.refl _)⟩
      simp [hstands, adds, removes]

theorem nodup (h : Leaves rs conditions) : conditions.Nodup := by
  refine h.ordered.imp_of_mem fun {x y} hx _ hbefore hxy => ?_
  obtain ⟨_, hstands⟩ := (h.mem_iff x).mp hx
  obtain ⟨i, hi⟩ := exists_insertedAt hstands
  exact lt_irrefl i (hbefore i i hi (hxy ▸ hi))

end Leaves

theorem leaves_askedAll {c : Combatant} (hc : c.conditions = []) (rs : List ActionRequest) :
    Leaves rs (c.askedAll rs).conditions := by
  induction rs using List.reverseRecOn with
  | nil => exact hc ▸ .nil
  | append_singleton rs r ih =>
      rw [c.askedAll_concat]
      exact ih.step (ActionRequest.changes_asked _ r)

end History

namespace Combatant

open History

/-- Conditions are a set in the order of insertion. A name is among them if the last accepted
request to add or to remove it is one to add it. It then stands once, and between any two of them
the one that was inserted first stands before the other. -/
theorem conditions_by_insertion {c : Combatant}
    (hc : c.conditions = []) (rs : List ActionRequest) :
    (∀ x, x ∈ (c.askedAll rs).conditions ↔
      ∃ i, IsGreatest {i | TouchedAt rs x i} i ∧ At rs (ActionRequest.Adds x) i) ∧
    (∀ x ∈ (c.askedAll rs).conditions, (c.askedAll rs).conditions.count x = 1 ∧
      ∃! i, InsertedAt rs x i) ∧
    (c.askedAll rs).conditions.Pairwise fun x y =>
      ∀ i j, InsertedAt rs x i → InsertedAt rs y j → i < j := by
  have hleaves := leaves_askedAll hc rs
  refine ⟨fun x => (hleaves.mem_iff x).trans exists_standsAt_iff, fun x hx => ?_, hleaves.ordered⟩
  obtain ⟨_, hstands⟩ := (hleaves.mem_iff x).mp hx
  obtain ⟨i, hi⟩ := exists_insertedAt hstands
  exact ⟨List.count_eq_one_of_mem hleaves.nodup hx, i, hi, fun _ hj => hj.unique hi⟩

/-- The names come from either field. What is blank is refused, what is there does not move, and
what comes back comes last. -/
theorem conditions_by_insertion_poisoned :
    let c := (⟨0, ⟨"Aldric", "party", none⟩, 10⟩ : Entrant).toCombatant "combat-1" "combatant-1"
    let ask tag value condition : ActionRequest :=
      ⟨"combat-1", "combatant-1", tag, value, condition⟩
    let rs :=
      [ask "add_condition" none (some " poisoned "),
        ask "add_condition" (some (.text "prone")) none,
        ask "add_condition" (some (.text "prone")) (some "  "),
        ask "damage" (some (.number 3)) none,
        ask "add_condition" none (some "poisoned"),
        ask "remove_condition" (some (.text "poisoned\n")) none,
        ask "add_condition" none (some "blessed"),
        ask "add_condition" none (some "poisoned")]
    c.conditions = [] ∧ (c.askedAll rs).conditions = ["prone", "blessed", "poisoned"] ∧
      (["prone", "blessed", "poisoned"] : List String).Pairwise fun x y =>
        ∀ i j, InsertedAt rs x i → InsertedAt rs y j → i < j := by
  intro c ask rs
  have hconditions : (c.askedAll rs).conditions = ["prone", "blessed", "poisoned"] := by decide
  obtain ⟨-, -, hordered⟩ := conditions_by_insertion (c := c) rfl rs
  exact ⟨rfl, hconditions, hconditions ▸ hordered⟩

end Combatant

end Gamemaster
