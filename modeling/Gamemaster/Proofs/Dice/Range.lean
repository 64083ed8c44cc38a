import Gamemaster.Proofs.Dice.Canonical
import Gamemaster.Proofs.Dice.Draws

namespace Gamemaster

namespace Word

/-- Whether every total on the way fits where integers are added to a total one after the
other. -/
def FitsAlong (total : Int) (ns : List Int) : Prop := ∀ i, Fits (total + (ns.take i).sum)

def OneSign (ns : List Int) : Prop := (∀ n ∈ ns, 0 ≤ n) ∨ ∀ n ∈ ns, n ≤ 0

theorem FitsAlong.start {total : Int} {ns : List Int} (h : FitsAlong total ns) : Fits total := by
  simpa using h 0

theorem FitsAlong.sum {total : Int} {ns : List Int} (h : FitsAlong total ns) :
    Fits (total + ns.sum) := by
  simpa using h ns.length

theorem fitsAlong_nil {total : Int} : FitsAlong total [] ↔ Fits total := by
  simp [FitsAlong]

theorem fitsAlong_cons {total n : Int} {ns : List Int} :
    FitsAlong total (n :: ns) ↔ Fits total ∧ FitsAlong (total + n) ns := by
  have hshift : ∀ i, total + ((n :: ns).take (i + 1)).sum = total + n + (ns.take i).sum := by
    intro i
    rw [List.take_succ_cons, List.sum_cons, Int.add_assoc]
  constructor
  · exact fun h => ⟨h.start, fun i => hshift i ▸ h (i + 1)⟩
  · rintro ⟨hstart, hrest⟩ i
    cases i with
    | zero => simpa using hstart
    | succ i => exact hshift i ▸ hrest i

theorem fitsAlong_append {total : Int} {ms ns : List Int} :
    FitsAlong total (ms ++ ns) ↔ FitsAlong total ms ∧ FitsAlong (total + ms.sum) ns := by
  induction ms generalizing total with
  | nil =>
      rw [List.nil_append, fitsAlong_nil, List.sum_nil, Int.add_zero]
      exact ⟨fun h => ⟨h.start, h⟩, And.right⟩
  | cons m ms ih =>
      rw [List.cons_append, fitsAlong_cons, fitsAlong_cons, ih, List.sum_cons, Int.add_assoc,
        and_assoc]

theorem sum_nonpos {ns : List Int} (h : ∀ n ∈ ns, n ≤ 0) : ns.sum ≤ 0 := by
  simpa using List.sum_le_card_nsmul ns 0 h

theorem fitsAlong_of_oneSign {total : Int} {ns : List Int} (h : OneSign ns) (hstart : Fits total)
    (hsum : Fits (total + ns.sum)) : FitsAlong total ns := by
  intro i
  have hsplit : (ns.take i).sum + (ns.drop i).sum = ns.sum := List.sum_take_add_sum_drop ns i
  have hfront : ∀ n ∈ ns.take i, n ∈ ns := fun n => List.mem_of_mem_take
  have hback : ∀ n ∈ ns.drop i, n ∈ ns := fun n => List.mem_of_mem_drop
  unfold Fits at *
  rcases h with h | h
  · have h₁ : 0 ≤ (ns.take i).sum := List.sum_nonneg fun n hn => h n (hfront n hn)
    have h₂ : 0 ≤ (ns.drop i).sum := List.sum_nonneg fun n hn => h n (hback n hn)
    omega
  · have h₁ : (ns.take i).sum ≤ 0 := sum_nonpos fun n hn => h n (hfront n hn)
    have h₂ : (ns.drop i).sum ≤ 0 := sum_nonpos fun n hn => h n (hback n hn)
    omega

theorem OneSign.perm {ms ns : List Int} (h : OneSign ns) (hperm : ms.Perm ns) : OneSign ms :=
  h.imp (fun h n hn => h n (hperm.subset hn)) fun h n hn => h n (hperm.subset hn)

/-- From a total that fits there is a way to every sum that fits: below zero go up, else go
down. -/
theorem exists_perm_fitsAlong {total : Int} {ns : List Int} (hfits : ∀ n ∈ ns, Fits n)
    (hstart : Fits total) (hsum : Fits (total + ns.sum)) :
    ∃ ms, ms.Perm ns ∧ FitsAlong total ms := by
  induction hlength : ns.length generalizing total ns with
  | zero =>
      obtain rfl := List.length_eq_zero_iff.mp hlength
      exact ⟨[], .refl _, fitsAlong_nil.mpr hstart⟩
  | succ length ih =>
      by_cases hback : ∃ n ∈ ns, if total < 0 then 0 ≤ n else n ≤ 0
      · obtain ⟨n, hn, hback⟩ := hback
        have hperm : ns.Perm (n :: ns.erase n) := List.perm_cons_erase hn
        have hnext : Fits (total + n) := by
          have := hfits n hn
          unfold Fits low high at *
          split at hback <;> omega
        have hrest : total + n + (ns.erase n).sum = total + ns.sum := by
          rw [hperm.sum_eq, List.sum_cons, Int.add_assoc]
        obtain ⟨ms, hms, halong⟩ := ih (fun m hm => hfits m (List.mem_of_mem_erase hm)) hnext
          (hrest ▸ hsum) (by rw [List.length_erase_of_mem hn, hlength, Nat.add_sub_cancel])
        exact ⟨n :: ms, (hms.cons n).trans hperm.symm, fitsAlong_cons.mpr ⟨hstart, halong⟩⟩
      · refine ⟨ns, .refl _, fitsAlong_of_oneSign ?_ hstart hsum⟩
        simp only [not_exists, not_and] at hback
        by_cases hneg : total < 0
        · exact .inr fun n hn => by have := hback n hn; rw [if_pos hneg] at this; omega
        · exact .inl fun n hn => by have := hback n hn; rw [if_neg hneg] at this; omega

theorem addAll?_zero_eq_some_iff {m : Int} {ns : List Int} :
    addAll? 0 ns = some m ↔ FitsAlong 0 ns ∧ m = ns.sum := by
  have hzero : Fits 0 := by decide
  rw [addAll?_eq_some_iff hzero, Int.zero_add]
  rfl

theorem addAll?_zero_eq_none_iff {ns : List Int} : addAll? 0 ns = none ↔ ¬FitsAlong 0 ns := by
  rw [Option.eq_none_iff_forall_ne_some, ← not_exists]
  simp [addAll?_zero_eq_some_iff]

theorem natAbs_sum_le {ns : List Int} {bound : Nat} (h : ∀ n ∈ ns, n.natAbs ≤ bound) :
    ns.sum.natAbs ≤ ns.length * bound := by
  induction ns with
  | nil => simp
  | cons n ns ih =>
      rw [List.forall_mem_cons] at h
      have hrest := ih h.2
      have hadd := Int.natAbs_add_le n ns.sum
      rw [List.sum_cons, List.length_cons, Nat.succ_mul]
      omega

theorem fitsAlong_of_natAbs_le {ns : List Int} {bound : Nat} (h : ∀ n ∈ ns, n.natAbs ≤ bound)
    (hlength : (ns.length * bound : Nat) ≤ high) : FitsAlong 0 ns := by
  intro i
  have hsum := natAbs_sum_le fun n hn => h n (List.mem_of_mem_take (i := i) hn)
  have hle : (ns.take i).length * bound ≤ ns.length * bound :=
    Nat.mul_le_mul_right _ (List.length_take_le' i ns)
  unfold Fits low high at *
  omega

end Word

namespace Dice

open Gamemaster.Random (Source)

namespace Die

variable {exploding : Bool}

theorem draws_le (d : Die) (s : Source) : d.draws exploding s ≤ maxExplosions + 1 := by
  unfold draws
  split
  · exact Nat.succ_le_succ (Nat.zero_le maxExplosions)
  · exact Nat.succ_le_succ (topFaces_le d.sides maxExplosions s)

theorem pips_le (d : Die) (s : Source) : d.pips exploding s ≤ (maxExplosions + 1) * d.sides := by
  have hface : ∀ face ∈ nextFaces d.sides (d.draws exploding s) s, face ≤ d.sides := by
    intro face hface
    obtain ⟨i, -, rfl⟩ := List.mem_map.mp hface
    exact Source.face_le _ _
  calc d.pips exploding s
      ≤ (nextFaces d.sides (d.draws exploding s) s).length * d.sides :=
        List.sum_le_card_nsmul _ _ hface
    _ = d.draws exploding s * d.sides := by simp [nextFaces]
    _ ≤ (maxExplosions + 1) * d.sides := Nat.mul_le_mul_right _ (d.draws_le s)

theorem natAbs_le_of_mem_valuesAll {ds : List Die} {bound : Nat}
    (hsides : ∀ d ∈ ds, d.sides ≤ bound) {s : Source} :
    ∀ n ∈ valuesAll exploding ds s, n.natAbs ≤ (maxExplosions + 1) * bound := by
  induction ds generalizing s with
  | nil => simp [valuesAll]
  | cons d ds ih =>
      rw [List.forall_mem_cons] at hsides
      refine List.forall_mem_cons.mpr ⟨?_, ih hsides.2⟩
      rw [natAbs_value]
      exact (d.pips_le s).trans (Nat.mul_le_mul_left _ hsides.1)

end Die

theorem Advantage.pick_le {mode : Advantage} {m n bound : Nat} (hm : m ≤ bound) (hn : n ≤ bound) :
    mode.pick m n ≤ bound := by
  cases mode <;> simp only [pick] <;> omega

theorem pairSign?_eq_some_iff {mode : Advantage} {f : Formula} {sign : Sign} :
    pairSign? mode f = some sign ↔ mode ≠ .none ∧ f.terms = [.dice sign 1 20] := by
  unfold pairSign?
  split
  · simp
  · rename_i hmode hterms
    simpa [hterms] using fun _ => hmode
  · rename_i hmode hterms
    simp only [reduceCtorEq, false_iff, not_and]
    exact fun _ => hterms sign

namespace Formula

/-- What the dice add to a total: the value of each or, of two rolls of a d20, the one that is
kept. -/
def diceContributions (f : Formula) (policy : Policy) (s : Source) : List Int :=
  match pairSign? policy.advantage f with
  | some sign =>
    let die : Die := ⟨sign, 20⟩
    let first := die.pips policy.exploding s
    let second := die.pips policy.exploding (s.skip (die.draws policy.exploding s))
    [sign.toInt * policy.advantage.pick first second]
  | none => Die.valuesAll policy.exploding f.dice s

/-- Everything that is added up in a roll, in this order. -/
def contributions (f : Formula) (policy : Policy) (s : Source) : List Int :=
  f.diceContributions policy s ++ f.modifiers

/-- The same dice in the same order, and the same modifiers in any order. -/
structure Reorders (f' f : Formula) : Prop where
  dice : f'.terms.filter Term.isDice = f.terms.filter Term.isDice
  perm : f'.terms.Perm f.terms

/-- Which rolls of a formula are refused. Nothing but the totals on the way matters (`refused`,
`granted`), the dice alone never leave the range before there are billions of them (`few`), and
modifiers of one sign are judged by the sum (`steady`), in any order (`reordered`). Modifiers of
both signs have an order in which a sum in range is granted (`orderable`). -/
structure JudgesTotals (f : Formula) (policy : Policy) (s : Source) : Prop where
  refused : ∀ fault, (f.roll policy s).1 = .error fault ↔
    fault = .totalOutOfRange f.raw ∧ ¬Word.FitsAlong 0 (f.contributions policy s)
  granted : ∀ r, (f.roll policy s).1 = .ok r →
    r.total = (f.contributions policy s).sum ∧ Word.Fits (f.contributions policy s).sum
  few : f.dice.length ≤ 90000000000 → Word.FitsAlong 0 (f.diceContributions policy s)
  steady : Word.OneSign f.modifiers → Word.FitsAlong 0 (f.diceContributions policy s) →
    Word.Fits (f.contributions policy s).sum → ∃ r, (f.roll policy s).1 = .ok r
  reordered : Word.OneSign f.modifiers → ∀ text' f', parse text' = .ok f' → f'.Reorders f →
    ((∃ r, (f'.roll policy s).1 = .ok r) ↔ ∃ r, (f.roll policy s).1 = .ok r)
  orderable : Word.FitsAlong 0 (f.diceContributions policy s) →
    Word.Fits (f.contributions policy s).sum →
    ∃ text' f', parse text' = .ok f' ∧ f'.Reorders f ∧ ∃ r, (f'.roll policy s).1 = .ok r

variable {text : String} {f f' : Formula} {policy : Policy} {s : Source}

theorem roll_of_pairSign?_eq_none (h : pairSign? policy.advantage f = none) :
    f.roll policy s =
      ((f.roll ⟨.none, policy.exploding⟩ s).1.map fun r => { r with policy := policy },
        (f.roll ⟨.none, policy.exploding⟩ s).2) := by
  rw [roll_without_advantage, roll, h]
  rcases rollTerms policy.exploding f.terms 0 s with ⟨_ | ⟨pieces, total⟩, s'⟩ <;> rfl

theorem roll_of_pairSign?_eq_some {mode : Advantage} {sign : Sign}
    (h : pairSign? mode f = some sign) (exploding : Bool) (s : Source) :
    let die : Die := ⟨sign, 20⟩
    let first := die.pips exploding s
    let second := die.pips exploding (s.skip (die.draws exploding s))
    ∃ r, f.roll ⟨mode, exploding⟩ s = (.ok r, s.skip (Die.drawsAll exploding [die, die] s)) ∧
      r.values = Die.valuesAll exploding [die, die] s ∧
      r.total = sign.toInt * mode.pick first second := by
  intro die first second
  have htwenty : 0 < 20 := by decide
  have hdraws : Die.drawsAll exploding [die, die] s =
      die.draws exploding s + die.draws exploding (s.skip (die.draws exploding s)) := rfl
  simp only [roll, h, rollPair, rollDie_eq exploding sign htwenty, hdraws, Source.skip_add]
  exact ⟨_, rfl, rfl, rfl⟩

theorem modifiers_of_pairSign? {sign : Sign} (h : pairSign? policy.advantage f = some sign) :
    f.modifiers = [] := by
  rw [modifiers, (pairSign?_eq_some_iff.mp h).2]
  rfl

theorem sides_le_of_parse (h : parse text = .ok f) : ∀ d ∈ f.dice, d.sides ≤ maxSides := by
  intro d hd
  obtain ⟨t, ht, hd⟩ := List.mem_flatMap.mp hd
  obtain ⟨token, htoken⟩ := (exists_written_of_parse h).2 t ht
  cases htoken with
  | dice _ _ _ _ _ sidesBounds =>
      obtain rfl := List.eq_of_mem_replicate hd
      exact sidesBounds.2
  | modifier => simp [Term.singles] at hd

theorem fits_of_mem_modifiers (h : parse text = .ok f) : ∀ n ∈ f.modifiers, Word.Fits n := by
  intro n hn
  obtain ⟨t, ht, hn⟩ := List.mem_filterMap.mp hn
  obtain ⟨token, htoken⟩ := (exists_written_of_parse h).2 t ht
  cases htoken with
  | dice => simp [Term.modifier?] at hn
  | modifier _ _ fits =>
      obtain rfl := Option.some.inj hn
      exact fits

theorem length_diceContributions (f : Formula) (policy : Policy) (s : Source) :
    (f.diceContributions policy s).length = f.dice.length := by
  unfold diceContributions
  split
  · rename_i sign hpair
    rw [dice, (pairSign?_eq_some_iff.mp hpair).2]
    rfl
  · exact Die.length_valuesAll f.dice s

theorem natAbs_le_of_mem_diceContributions (h : parse text = .ok f) :
    ∀ n ∈ f.diceContributions policy s, n.natAbs ≤ (maxExplosions + 1) * maxSides := by
  unfold diceContributions
  split
  · rename_i sign _
    have hsign : sign.toInt.natAbs = 1 := by cases sign <;> rfl
    rintro n hn
    obtain rfl := List.mem_singleton.mp hn
    rw [Int.natAbs_mul, Int.natAbs_natCast, hsign, Nat.one_mul]
    exact (Advantage.pick_le (Die.pips_le _ _) (Die.pips_le _ _)).trans
      (Nat.mul_le_mul_left _ (by decide : 20 ≤ maxSides))
  · exact Die.natAbs_le_of_mem_valuesAll (sides_le_of_parse h)

theorem fitsAlong_diceContributions (h : parse text = .ok f)
    (hfew : f.dice.length ≤ 90000000000) :
    Word.FitsAlong 0 (f.diceContributions policy s) := by
  refine Word.fitsAlong_of_natAbs_le (natAbs_le_of_mem_diceContributions h) ?_
  rw [length_diceContributions]
  unfold maxExplosions maxSides Word.high
  omega

theorem roll_judged (h : parse text = .ok f) (policy : Policy) (s : Source) :
    (Word.FitsAlong 0 (f.contributions policy s) ∧
      ∃ r, (f.roll policy s).1 = .ok r ∧ r.total = (f.contributions policy s).sum) ∨
    (¬Word.FitsAlong 0 (f.contributions policy s) ∧
      (f.roll policy s).1 = .error (.totalOutOfRange f.raw)) := by
  cases hpair : pairSign? policy.advantage f with
  | some sign =>
      have hdice : f.dice.length = 1 := by
        rw [dice, (pairSign?_eq_some_iff.mp hpair).2]
        rfl
      have hvalues : f.contributions policy s = f.diceContributions policy s := by
        rw [contributions, modifiers_of_pairSign? hpair, List.append_nil]
      obtain ⟨r, hr, -, htotal⟩ := roll_of_pairSign?_eq_some hpair policy.exploding s
      have hsum : r.total = (f.diceContributions policy s).sum := by
        simp only [htotal, diceContributions, hpair, List.sum_singleton]
      rw [hvalues]
      exact .inl ⟨fitsAlong_diceContributions h (by omega), r, congrArg Prod.fst hr, hsum⟩
  | none =>
      let values := Die.valuesAll policy.exploding f.dice s ++ f.modifiers
      have hroll := tallies_of_parse h policy.exploding s
      have hvalues : f.contributions policy s = values := by
        rw [contributions, diceContributions, hpair]
      rw [roll_of_pairSign?_eq_none hpair, hvalues]
      by_cases halong : Word.FitsAlong 0 values
      · obtain ⟨r, hr, -, htotal⟩ :=
          roll_ok_of_tallies hroll (Word.addAll?_zero_eq_some_iff.mpr ⟨halong, rfl⟩)
        exact .inl ⟨halong, { r with policy := policy }, by rw [hr]; rfl, htotal⟩
      · have hr := roll_error_of_tallies hroll (Word.addAll?_zero_eq_none_iff.mpr halong)
        exact .inr ⟨halong, by rw [hr]; rfl⟩

theorem rolls_iff (h : parse text = .ok f) :
    (∃ r, (f.roll policy s).1 = .ok r) ↔ Word.FitsAlong 0 (f.contributions policy s) := by
  rcases roll_judged h policy s with ⟨halong, r, hr, -⟩ | ⟨hnot, hr⟩
  · exact iff_of_true ⟨r, hr⟩ halong
  · rw [hr]
    exact iff_of_false (by simp) hnot

theorem flatMap_singles (terms : List Term) :
    terms.flatMap Term.singles = (terms.filter Term.isDice).flatMap Term.singles := by
  induction terms with
  | nil => rfl
  | cons t terms ih =>
      rw [List.flatMap_cons, ih]
      cases t with
      | dice sign count sides => rfl
      | modifier value => rfl

theorem Reorders.diceContributions_eq (h : f'.Reorders f) (policy : Policy) (s : Source) :
    f'.diceContributions policy s = f.diceContributions policy s := by
  have hdice : f'.dice = f.dice := by
    rw [Formula.dice, flatMap_singles, h.dice, ← flatMap_singles]
    rfl
  have hpair : pairSign? policy.advantage f' = pairSign? policy.advantage f := by
    ext sign
    rw [pairSign?_eq_some_iff, pairSign?_eq_some_iff, ← List.perm_singleton,
      ← List.perm_singleton, h.perm.congr_left]
  rw [diceContributions, diceContributions, hpair, hdice]

theorem Reorders.modifiers_perm (h : f'.Reorders f) : f'.modifiers.Perm f.modifiers :=
  h.perm.filterMap _

theorem fitsAlong_contributions_iff (hsign : Word.OneSign f.modifiers) :
    Word.FitsAlong 0 (f.contributions policy s) ↔
      Word.FitsAlong 0 (f.diceContributions policy s) ∧
      Word.Fits (f.contributions policy s).sum := by
  rw [contributions, List.sum_append, Word.fitsAlong_append, Int.zero_add]
  exact and_congr_right fun hdice =>
    ⟨Word.FitsAlong.sum, Word.fitsAlong_of_oneSign hsign (by simpa using hdice.sum)⟩

theorem filter_modifiers (terms : List Term) :
    (terms.filter fun t => !t.isDice) = (terms.filterMap Term.modifier?).map Term.modifier := by
  induction terms with
  | nil => rfl
  | cons t terms ih =>
      cases t with
      | dice sign count sides => exact ih
      | modifier value => exact congrArg (Term.modifier value :: ·) ih

theorem exists_reordered (h : parse text = .ok f) {ns : List Int} (hns : ns.Perm f.modifiers) :
    ∃ text' f', parse text' = .ok f' ∧ f'.Reorders f ∧ f'.modifiers = ns := by
  let terms := f.terms.filter Term.isDice ++ ns.map Term.modifier
  have hdice : terms.filter Term.isDice = f.terms.filter Term.isDice := by
    have hnone : (ns.map Term.modifier).filter Term.isDice = [] := by simp [Term.isDice]
    rw [List.filter_append, hnone, List.append_nil, List.filter_filter]
    simp
  have hmodifiers : terms.filterMap Term.modifier? = ns := by
    have hnone : (f.terms.filter Term.isDice).filterMap Term.modifier? = [] := by
      rw [List.filterMap_eq_nil_iff]
      rintro (⟨sign, count, sides⟩ | ⟨value⟩) ht
      · rfl
      · simp [Term.isDice] at ht
    rw [List.filterMap_append, hnone, List.nil_append, List.filterMap_map]
    exact List.filterMap_some
  have hfirst : diceFirst terms = terms := by
    rw [diceFirst, hdice, filter_modifiers, hmodifiers]
  have hperm : terms.Perm f.terms := by
    refine List.Perm.trans ?_ (List.filter_append_perm Term.isDice f.terms)
    rw [filter_modifiers]
    exact (hns.map Term.modifier).append_left _
  obtain ⟨hne, hwritten⟩ := exists_written_of_parse h
  have hrendered := parse_rendered (fun hnil => hne (hnil ▸ hperm).nil_eq.symm)
    fun t ht => hwritten t (hperm.subset ht)
  rw [hfirst] at hrendered
  exact ⟨_, _, hrendered, ⟨hdice, hperm⟩, hmodifiers⟩

theorem judgesTotals_of_parse (h : parse text = .ok f) (policy : Policy) (s : Source) :
    f.JudgesTotals policy s where
  refused := by
    intro fault
    rcases roll_judged h policy s with ⟨halong, r, hr, -⟩ | ⟨hnot, hr⟩
    · rw [hr]
      exact iff_of_false (by simp) fun hfault => hfault.2 halong
    · rw [hr, Except.error.injEq, eq_comm]
      exact (and_iff_left hnot).symm
  granted := by
    intro r hr
    rcases roll_judged h policy s with ⟨halong, r', hr', htotal⟩ | ⟨-, hr'⟩
    · obtain rfl := Except.ok.inj (hr.symm.trans hr')
      exact ⟨htotal, by simpa using halong.sum⟩
    · simp [hr] at hr'
  few := fitsAlong_diceContributions h
  steady := fun hsign hdice hsum =>
    (rolls_iff h).mpr ((fitsAlong_contributions_iff hsign).mpr ⟨hdice, hsum⟩)
  reordered := by
    intro hsign text' f' h' hreorders
    have hsum : (f'.contributions policy s).sum = (f.contributions policy s).sum := by
      rw [contributions, contributions, hreorders.diceContributions_eq, List.sum_append,
        List.sum_append, hreorders.modifiers_perm.sum_eq]
    rw [rolls_iff h, rolls_iff h', fitsAlong_contributions_iff hsign,
      fitsAlong_contributions_iff (hsign.perm hreorders.modifiers_perm), hsum,
      hreorders.diceContributions_eq]
  orderable := by
    intro hdice hsum
    obtain ⟨ns, hns, halong⟩ := Word.exists_perm_fitsAlong (fits_of_mem_modifiers h) hdice.sum
      (by rwa [Int.zero_add, ← List.sum_append])
    obtain ⟨text', f', h', hreorders, rfl⟩ := exists_reordered h hns
    refine ⟨text', f', h', hreorders, (rolls_iff h').mpr ?_⟩
    rw [contributions, hreorders.diceContributions_eq, Word.fitsAlong_append]
    exact ⟨hdice, halong⟩

theorem judgesTotals_descending :
    let f : Formula := ⟨"d6 - 2 - 1", [.dice .plus 1 6, .modifier (-2), .modifier (-1)]⟩
    parse "d6 - 2 - 1" = .ok f ∧ ∀ policy s, f.JudgesTotals policy s := by
  intro f
  have hparse : parse "d6 - 2 - 1" = .ok f := by cbv
  exact ⟨hparse, judgesTotals_of_parse hparse⟩

/-- The greatest total is refused when it is passed on the way, and granted when the modifiers
come in another order. -/
theorem greatest_total_refused :
    let f : Formula :=
      ⟨"9223372036854775807+1-1", [.modifier Word.high, .modifier 1, .modifier (-1)]⟩
    let policy : Policy := ⟨.none, false⟩
    parse "9223372036854775807+1-1" = .ok f ∧
    (f.contributions policy (Source.ofSeed "edge")).sum = Word.high ∧
    Dice.roll "9223372036854775807+1-1" policy "edge" = .error (.totalOutOfRange f.raw) ∧
    ∃ r, Dice.roll "9223372036854775807-1+1" policy "edge" = .ok r ∧ r.total = Word.high := by
  intro f policy
  have hparse : parse "9223372036854775807+1-1" = .ok f := by cbv
  have hparse' : parse "9223372036854775807-1+1" =
      .ok ⟨"9223372036854775807-1+1",
        [.modifier Word.high, .modifier (-1), .modifier 1]⟩ := by cbv
  refine ⟨hparse, by rfl, ?_, ?_⟩
  · rw [Dice.roll, hparse]
    rfl
  · rw [Dice.roll, hparse']
    exact ⟨_, rfl, rfl⟩

end Formula

end Dice

end Gamemaster
