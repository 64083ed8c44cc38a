import Gamemaster.StatBlock

namespace Gamemaster

theorem Json.fits_numeric {value : Json} {n : Int} (h : value.numeric? = some n) :
    Word.Fits n := by
  cases value with
  | int m =>
      obtain rfl := Option.some.inj h
      exact Word.fits_clamp m
  | real x =>
      obtain rfl := Option.some.inj h
      exact Word.fits_clamp x.truncate
  | text s =>
      simp only [numeric?] at h
      split at h
      · rename_i m hword
        obtain rfl := Option.some.inj h
        exact (Literal.word?_eq_some_iff.mp hword).2
      · obtain ⟨x, -, rfl⟩ := Option.map_eq_some_iff.mp h
        exact Word.fits_clamp x.truncate
  | null => cases h
  | bool => cases h
  | list => cases h
  | object => cases h

namespace StatRule

variable {stats stats' : StatBlock} {rule : StatRule} {rules : List StatRule} {n : Int}

/-- The number that a rule gets out of a stat block. -/
inductive Yields (stats : StatBlock) : StatRule → Int → Prop
  | field {name : String} {value : Json} {n : Int} (found : Json.member? name stats = some value)
      (reads : value.numeric? = some n) : Yields stats (field name) n
  | inside {name key : String} {members : List (String × Json)} {value : Json} {n : Int}
      (found : Json.member? name stats = some (.object members))
      (inner : Json.member? key members = some value)
      (reads : value.numeric? = some n) : Yields stats (nested name key) n
  /-- An object is no number, so this is a field of another kind. -/
  | whole {name key : String} {value : Json} {n : Int}
      (found : Json.member? name stats = some value)
      (reads : value.numeric? = some n) : Yields stats (nested name key) n

/-- The number that a list of rules decides on: that of the first rule that yields one. Where none
does, it is one of those that are left to decide. -/
inductive Decides (stats : StatBlock) (otherwise : Int → Prop) : List StatRule → Int → Prop
  | here {rule : StatRule} {rules : List StatRule} {n : Int} (yields : rule.Yields stats n) :
      Decides stats otherwise (rule :: rules) n
  | later {rule : StatRule} {rules : List StatRule} {n : Int} (fails : ∀ m, ¬rule.Yields stats m)
      (rest : Decides stats otherwise rules n) : Decides stats otherwise (rule :: rules) n
  | left {n : Int} (decided : otherwise n) : Decides stats otherwise [] n

/-- The rules up to the first that yields a number, and this one. -/
def consulted (stats : StatBlock) : List StatRule → List StatRule
  | [] => []
  | rule :: rules =>
      if (extract? stats rule).isSome then [rule] else rule :: consulted stats rules

theorem extract?_eq_some_iff : extract? stats rule = some n ↔ rule.Yields stats n := by
  constructor
  · intro h
    cases rule with
    | field name =>
        obtain ⟨value, hfound, hreads⟩ := Option.bind_eq_some_iff.mp h
        exact .field hfound hreads
    | nested name key =>
        simp only [extract?] at h
        split at h
        · rename_i members hfound
          obtain ⟨value, hinner, hreads⟩ := Option.bind_eq_some_iff.mp h
          exact .inside hfound hinner hreads
        · rename_i value _ hfound
          exact .whole hfound h
        · cases h
  · intro h
    cases h with
    | field hfound hreads => simp [extract?, hfound, hreads]
    | inside hfound hinner hreads => simp [extract?, hfound, hinner, hreads]
    | @whole _ _ value _ hfound hreads =>
        cases value with
        | object members => cases hreads
        | _ => simp only [extract?, hfound, hreads]

theorem extract?_eq_none_iff : extract? stats rule = none ↔ ∀ m, ¬rule.Yields stats m := by
  simp only [Option.eq_none_iff_forall_ne_some, Ne, extract?_eq_some_iff]

theorem first?_cons (rule : StatRule) (rules : List StatRule) (stats : StatBlock) :
    first? (rule :: rules) stats = (extract? stats rule).or (first? rules stats) := by
  rw [first?, List.findSome?_cons]
  cases extract? stats rule <;> rfl

theorem decides_iff {otherwise : Int → Prop} :
    Decides stats otherwise rules n ↔ first? rules stats = some n ∨
    (first? rules stats = none ∧ otherwise n) := by
  induction rules with
  | nil =>
      constructor
      · intro h
        cases h with
        | left hdecided => exact .inr ⟨rfl, hdecided⟩
      · rintro (h | ⟨-, hn⟩)
        · cases h
        · exact .left hn
  | cons rule rules ih =>
      rw [first?_cons]
      cases hextract : extract? stats rule with
      | none =>
          have hfails := extract?_eq_none_iff.mp hextract
          rw [Option.none_or, ← ih]
          constructor
          · rintro (hyields | ⟨-, hrest⟩)
            · exact absurd hyields (hfails n)
            · exact hrest
          · exact .later hfails
      | some m =>
          have hyields := extract?_eq_some_iff.mp hextract
          rw [Option.some_or]
          constructor
          · rintro (hyields' | ⟨hfails, -⟩)
            · exact .inl (hextract.symm.trans (extract?_eq_some_iff.mpr hyields'))
            · exact absurd hyields (hfails m)
          · rintro (h | ⟨h, -⟩)
            · exact .here (Option.some.inj h ▸ hyields)
            · cases h

theorem decides_getD {otherwise : Int → Prop} (h : otherwise n) :
    Decides stats otherwise rules ((first? rules stats).getD n) := by
  rw [decides_iff]
  cases first? rules stats with
  | none => exact .inr ⟨rfl, h⟩
  | some m => exact .inl rfl

theorem Yields.fits (h : rule.Yields stats n) : Word.Fits n := by
  cases h with
  | field _ hreads => exact Json.fits_numeric hreads
  | inside _ _ hreads => exact Json.fits_numeric hreads
  | whole _ hreads => exact Json.fits_numeric hreads

theorem fits_of_decides {otherwise : Int → Prop} (hleft : ∀ m, otherwise m → Word.Fits m)
    (h : Decides stats otherwise rules n) : Word.Fits n := by
  induction h with
  | here hyields => exact hyields.fits
  | later _ _ ih => exact ih
  | left hdecided => exact hleft _ hdecided

theorem first?_congr
    (h : ∀ rule ∈ consulted stats rules, extract? stats' rule = extract? stats rule) :
    first? rules stats' = first? rules stats := by
  induction rules with
  | nil => rfl
  | cons rule rules ih =>
      rw [first?_cons, first?_cons]
      by_cases hyields : (extract? stats rule).isSome
      · obtain ⟨n, hn⟩ := Option.isSome_iff_exists.mp hyields
        rw [consulted, if_pos hyields] at h
        rw [h rule (List.mem_singleton_self rule), hn, Option.some_or, Option.some_or]
      · rw [consulted, if_neg hyields] at h
        rw [h rule List.mem_cons_self, ih fun r hr => h r (List.mem_cons_of_mem _ hr)]

end StatRule

namespace Word

/-- Brings a number between two bounds, which must not cross. -/
def between? (least greatest n : Int) : Option Int :=
  if least ≤ greatest then some (max least (min n greatest)) else none

end Word

/-- The hit points of a stat block, with the bounds of the current value checked. -/
def hitPointsChecked? : Option StatBlock → Option HitPoints
  | none => some ⟨0, 0⟩
  | some stats =>
    let current := StatRule.first? StatRule.currentHp stats
    let top := max (((StatRule.first? StatRule.maxHp stats).or current).getD 0) 0
    (Word.between? 0 top (current.getD top)).map fun n => ⟨top, n⟩

theorem hitPointsChecked?_eq (stats : Option StatBlock) :
    hitPointsChecked? stats = some (hitPointsOf stats) := by
  cases stats with
  | none => rfl
  | some stats =>
      simp only [hitPointsChecked?, Word.between?, if_pos (Int.le_max_right _ 0), Option.map_some]
      rfl

theorem hitPointsOf_getD (stats : Option StatBlock) :
    hitPointsOf stats = hitPointsOf (some (stats.getD [])) := by
  cases stats <;> rfl

/-- The hit points of a stat block. The greatest are the first number that a rule for them yields,
else the first of the current ones, else zero, and never below zero; the current ones are the
first number that a rule for them yields, else the greatest, brought between zero and the
greatest, which never cross. No rule after the first that yields a number is looked at. -/
theorem hitPoints_resolved (stats : Option StatBlock) :
    let block := stats.getD []
    let hp := hitPointsOf stats
    (0 ≤ hp.current ∧ hp.current ≤ hp.max ∧ hp.max ≤ Word.high) ∧
      hitPointsChecked? stats = some hp ∧
      (∃ m, StatRule.Decides block (StatRule.Decides block (· = 0) StatRule.currentHp)
        StatRule.maxHp m ∧
        hp.max = max m 0) ∧
      (∃ m, StatRule.Decides block (· = hp.max) StatRule.currentHp m ∧
        hp.current = max 0 (min m hp.max)) ∧
      ∀ (rules : List StatRule) (stats stats' : StatBlock),
        (∀ rule ∈ StatRule.consulted stats rules, rule.extract? stats' = rule.extract? stats) →
          StatRule.first? rules stats' = StatRule.first? rules stats := by
  intro block hp
  have hresolved : hp = hitPointsOf (some block) := hitPointsOf_getD stats
  have hgreatest :
      ∃ m, StatRule.Decides block (StatRule.Decides block (· = 0) StatRule.currentHp)
        StatRule.maxHp m ∧
      hp.max = max m 0 := by
    refine ⟨_, StatRule.decides_getD (StatRule.decides_getD rfl), ?_⟩
    rw [hresolved, ← Option.getD_or]
    rfl
  have hcurrent : ∃ m, StatRule.Decides block (· = hp.max) StatRule.currentHp m ∧
      hp.current = max 0 (min m hp.max) := by
    refine ⟨_, StatRule.decides_getD rfl, ?_⟩
    rw [hresolved]
    rfl
  refine ⟨?_, hitPointsChecked?_eq stats, hgreatest, hcurrent, fun rules stats stats' =>
    StatRule.first?_congr⟩
  obtain ⟨m, hdecides, hmax⟩ := hgreatest
  obtain ⟨n, -, hclamped⟩ := hcurrent
  have hzero : ∀ k : Int, k = 0 → Word.Fits k := by
    rintro _ rfl
    decide
  -- Whatever a rule yields is a word, and so is zero, which stands in where none does.
  have hfits : Word.Fits m :=
    StatRule.fits_of_decides (fun _ => StatRule.fits_of_decides hzero) hdecides
  unfold Word.Fits at hfits
  have hhigh : 0 ≤ Word.high := by decide
  omega

/-- A greatest value that is no number, and hit points that are an object for one rule and a
number for another. -/
theorem hitPoints_resolved_nested :
    let stats : StatBlock :=
      [("maxHp", .text "quick"), ("hit_points", .object [("current", .int 11), ("max", .null)]),
        ("hp", .text " 9 ")]
    let stats' : StatBlock :=
      [("maxHp", .int 3), ("hit_points", .object [("current", .text "11")])]
    hitPointsOf (some stats) = ⟨9, 9⟩ ∧
      (∀ rule ∈ StatRule.consulted stats StatRule.currentHp,
        rule.extract? stats' = rule.extract? stats) ∧
      StatRule.first? StatRule.currentHp stats' = StatRule.first? StatRule.currentHp stats := by
  intro stats stats'
  have hsame : ∀ rule ∈ StatRule.consulted stats StatRule.currentHp, rule.extract? stats' =
      rule.extract? stats :=
    List.map_inj_left.mp (by decide +kernel)
  obtain ⟨-, -, -, -, hfirst⟩ := hitPoints_resolved (some stats)
  exact ⟨by decide +kernel, hsame, hfirst _ _ _ hsame⟩

end Gamemaster
