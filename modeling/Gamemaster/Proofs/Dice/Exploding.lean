import Gamemaster.Proofs.Dice.Draws

namespace Gamemaster.Dice

open Gamemaster.Random (Source)

namespace Die

/-- Whether a value is the top face of its die. A die with one face has none that could
explode. -/
def ShowsTop (d : Die) (value : Int) : Prop := 1 < d.sides ∧ value.natAbs = d.sides

instance (d : Die) (value : Int) : Decidable (d.ShowsTop value) :=
  inferInstanceAs (Decidable (1 < d.sides ∧ value.natAbs = d.sides))

variable {d : Die} {ds : List Die} {s : Source}

theorem draws_plain (d : Die) (s : Source) : d.draws false s = 1 :=
  draws_of_single (.inl rfl) s

theorem pips_plain (d : Die) (s : Source) : d.pips false s = (s.roll d.sides).1 := by
  simp [pips, draws_plain, nextFaces, Source.skip]

theorem showsTop_iff :
    d.ShowsTop (d.value false s) ↔ 1 < d.sides ∧ (s.roll d.sides).1 = d.sides := by
  rw [ShowsTop, natAbs_value, pips_plain]

theorem draws_of_calm (hsides : 0 < d.sides) (h : ¬d.ShowsTop (d.value false s)) :
    d.draws true s = 1 := by
  rw [showsTop_iff] at h
  by_cases hone : d.sides = 1
  · exact draws_of_single (.inr hone) s
  · have hface : (s.roll d.sides).1 ≠ d.sides := fun hface => h ⟨by omega, hface⟩
    rw [draws_of_chain (by omega), maxExplosions, topFaces_succ, if_neg hface]

theorem value_of_calm (hsides : 0 < d.sides) (h : ¬d.ShowsTop (d.value false s)) :
    d.value true s = d.value false s := by
  rw [value, value, draws_of_calm hsides h, draws_plain]

theorem lt_pips_of_showsTop (h : d.ShowsTop (d.value false s)) : d.sides < d.pips true s := by
  obtain ⟨hmany, hface⟩ := showsTop_iff.mp h
  obtain ⟨n, hn⟩ : ∃ n, d.draws true s = n + 2 := by
    rw [draws_of_chain hmany, maxExplosions, topFaces_succ, if_pos hface]
    exact ⟨_, rfl⟩
  have hnext : 1 ≤ ((s.roll d.sides).2.roll d.sides).1 := Source.one_le_face (by omega) _
  rw [pips, hn, nextFaces_succ, nextFaces_succ, List.sum_cons, List.sum_cons, hface]
  omega

theorem sign_value_of_showsTop (h : d.ShowsTop (d.value false s)) :
    (d.value true s).sign = (d.value false s).sign := by
  have hplain : d.pips false s = d.sides := by rw [pips_plain, (showsTop_iff.mp h).2]
  rw [sign_value (Nat.zero_lt_of_lt (lt_pips_of_showsTop h)), sign_value (by have := h.1; omega)]

theorem valuesAll_of_calm (hsides : ∀ d ∈ ds, 0 < d.sides)
    (h : ∀ (i : Nat) (d : Die) v, ds[i]? = some d → (valuesAll false ds s)[i]? = some v →
      ¬d.ShowsTop v) :
    valuesAll true ds s = valuesAll false ds s ∧ drawsAll true ds s = drawsAll false ds s := by
  induction ds generalizing s with
  | nil => exact ⟨rfl, rfl⟩
  | cons d ds ih =>
      rw [List.forall_mem_cons] at hsides
      have hcalm := h 0 d _ rfl rfl
      have hdraws : d.draws true s = d.draws false s := by
        rw [draws_of_calm hsides.1 hcalm, draws_plain]
      obtain ⟨hvalues, hcount⟩ := ih (s := s.skip (d.draws false s)) hsides.2 fun i => h (i + 1)
      simp only [valuesAll, drawsAll, hdraws, hvalues, hcount, value_of_calm hsides.1 hcalm,
        and_self]

theorem valuesAll_at (exploding : Bool) {j : Nat} (hd : ds[j]? = some d) (s : Source) :
    ∃ rest, valuesAll exploding ds s = valuesAll exploding (ds.take j) s ++
      d.value exploding (s.skip (drawsAll exploding (ds.take j) s)) :: rest := by
  obtain ⟨hj, rfl⟩ := List.getElem?_eq_some_iff.mp hd
  have hsplit : ds = ds.take j ++ ds[j] :: ds.drop (j + 1) := by
    rw [← List.drop_eq_getElem_cons hj, List.take_append_drop]
  exact ⟨_, (congrArg (valuesAll exploding · s) hsplit).trans (valuesAll_append ..)⟩

end Die

namespace Formula

/-- Whether the die at place `j` of a formula shows its top face in the values of a roll. -/
def TopAt (f : Formula) (values : List Int) (j : Nat) : Prop :=
  ∃ d v, f.dice[j]? = some d ∧ values[j]? = some v ∧ d.ShowsTop v

variable {text : String} {f : Formula} {s s' : Source}

theorem getElem?_append_of_some {xs ys : List α} {x : α} {i : Nat} (h : xs[i]? = some x) :
    (xs ++ ys)[i]? = some x := by
  rwa [List.getElem?_append_left (List.getElem?_eq_some_iff.mp h).1]

theorem getElem?_append_cons {xs ys : List α} {x : α} {i : Nat} (hi : xs.length = i) :
    (xs ++ x :: ys)[i]? = some x := by
  subst hi
  simp

/-- Where no die shows its top face, an exploding roll is the plain roll. Else the two agree up to
the first die that does, which then counts for more than its top face and keeps its sign. -/
theorem exploding_agrees_until_top (h : parse text = .ok f) {plain : Roll}
    (hplain : f.roll ⟨.none, false⟩ s = (.ok plain, s')) :
    ((∀ j, ¬f.TopAt plain.values j) → ∃ boom, f.roll ⟨.none, true⟩ s = (.ok boom, s') ∧
      boom.values = plain.values ∧ boom.total = plain.total) ∧
    ∀ boom, (f.roll ⟨.none, true⟩ s).1 = .ok boom →
      ∀ j, f.TopAt plain.values j → (∀ i < j, ¬f.TopAt plain.values i) →
        boom.values.take j = plain.values.take j ∧
        ∃ d u v, f.dice[j]? = some d ∧ plain.values[j]? = some u ∧ boom.values[j]? = some v ∧
          v.sign = u.sign ∧ d.sides < v.natAbs := by
  obtain ⟨htotal, hvalues, rfl⟩ := eq_of_roll_ok h hplain
  have hsides := sides_pos_of_parse h
  constructor
  · intro hcalm
    obtain ⟨hsame, hdraws⟩ := Die.valuesAll_of_calm (s := s) hsides fun i d v hd hv htop =>
      hcalm i ⟨d, v, hd, hvalues ▸ getElem?_append_of_some hv, htop⟩
    have hroll := tallies_of_parse h true s
    rw [hsame, hdraws] at hroll
    obtain ⟨boom, hboom, hboomValues, hboomTotal⟩ := roll_ok_of_tallies hroll htotal
    exact ⟨boom, hboom, hboomValues.trans hvalues.symm, hboomTotal⟩
  · rintro boom hboom j ⟨d, u, hd, hu, htop⟩ hfirst
    obtain ⟨-, hboomValues, -⟩ := eq_of_roll_ok h (Prod.ext hboom rfl)
    obtain ⟨hj, -⟩ := List.getElem?_eq_some_iff.mp hd
    let front := f.dice.take j
    obtain ⟨rest, hrest⟩ := Die.valuesAll_at false hd s
    obtain ⟨rest', hrest'⟩ := Die.valuesAll_at true hd s
    rw [hrest, List.append_assoc, List.cons_append] at hvalues
    -- Up to the top face both rolls draw the same faces, and as many.
    obtain ⟨hsame, hdraws⟩ : Die.valuesAll true front s = Die.valuesAll false front s ∧
        Die.drawsAll true front s = Die.drawsAll false front s := by
      refine Die.valuesAll_of_calm (fun d hd => hsides d (List.mem_of_mem_take hd))
        fun i e v he hv htop => ?_
      have hi : i < j :=
        (List.getElem?_eq_some_iff.mp he).1.trans_le (List.length_take_le j f.dice)
      have hdie : f.dice[i]? = some e :=
        List.take_append_drop j f.dice ▸ getElem?_append_of_some he
      exact hfirst i hi ⟨e, v, hdie, hvalues ▸ getElem?_append_of_some hv, htop⟩
    rw [hrest', hsame, hdraws, List.append_assoc, List.cons_append] at hboomValues
    have hlength : (Die.valuesAll false front s).length = j := by
      rw [Die.length_valuesAll, List.length_take, Nat.min_eq_left hj.le]
    have hplainAt := hvalues ▸ getElem?_append_cons hlength
    obtain rfl := Option.some.inj (hu.symm.trans hplainAt)
    refine ⟨?_, d, _, _, hd, hu, hboomValues ▸ getElem?_append_cons hlength,
      Die.sign_value_of_showsTop htop, ?_⟩
    · rw [hvalues, hboomValues, List.take_left' hlength, List.take_left' hlength]
    · rw [Die.natAbs_value]
      exact Die.lt_pips_of_showsTop htop

/-- The last of three dice is the first to show its top face, and goes beyond it. -/
theorem exploding_agrees_until_top_coin :
    let f : Formula := ⟨"2d6-1d2+1", [.dice .plus 2 6, .dice .minus 1 2, .modifier 1]⟩
    let s := Source.ofSeed "dragon"
    parse "2d6-1d2+1" = .ok f ∧ ∃ plain s', f.roll ⟨.none, false⟩ s = (.ok plain, s') ∧
      plain.values = [5, 1, -2, 1] ∧ ∀ boom, (f.roll ⟨.none, true⟩ s).1 = .ok boom →
        boom.values.take 2 = [5, 1] ∧
          ∃ v, boom.values[2]? = some v ∧ v.sign = -1 ∧ 2 < v.natAbs := by
  intro f s
  have hparse : parse "2d6-1d2+1" = .ok f := by cbv
  have hdice : Die.valuesAll false f.dice s = [5, 1, -2] := by decide +kernel
  have htotal : Word.addAll? 0 (Die.valuesAll false f.dice s ++ f.modifiers) = some 5 := by
    rw [hdice]
    decide
  obtain ⟨plain, hplain, hvalues, -⟩ :=
    roll_ok_of_tallies (tallies_of_parse hparse false s) htotal
  have hplainValues : plain.values = [5, 1, -2, 1] := by
    rw [hvalues, hdice]
    rfl
  refine ⟨hparse, plain, _, hplain, hplainValues, fun boom hboom => ?_⟩
  have hfirst := (exploding_agrees_until_top hparse hplain).2 boom hboom 2
  rw [hplainValues] at hfirst
  have hcalm : ∀ i < 2, ¬f.TopAt [5, 1, -2, 1] i := by
    rintro i hi ⟨d, v, hd, hv, htop⟩
    interval_cases i <;> cases hd <;> cases hv <;> exact absurd htop.2 (by decide)
  obtain ⟨hfront, d, u, v, hd, hu, hv, hsign, hbeyond⟩ :=
    hfirst ⟨⟨.minus, 2⟩, -2, rfl, rfl, by decide⟩ hcalm
  cases hd
  cases hu
  exact ⟨hfront, v, hv, hsign, hbeyond⟩

end Formula

end Gamemaster.Dice
