import Gamemaster.Proofs.Dice.Draws
import Gamemaster.Proofs.World.Definitions

namespace Gamemaster

open Gamemaster.Random (Source)

theorem Random.Source.seed_next (s : Source) : s.next.2.seed = s.seed := by
  unfold next
  split
  · rfl
  · split <;> rfl

theorem Random.Source.seed_skip (n : Nat) (s : Source) : (skip n s).seed = s.seed := by
  induction n generalizing s with
  | zero => rfl
  | succ n ih => exact (ih s.draw.2).trans s.seed_next

namespace Dice

theorem roll_of_parse {text : String} {f : Formula} (h : Formula.parse text = .ok f)
    (seed : String) :
    (∃ r, roll text ⟨.none, false⟩ seed = .ok r ∧ r.seed = seed) ∨
      roll text ⟨.none, false⟩ seed = .error (.totalOutOfRange (Text.trim text)) := by
  have hroll :
      roll text ⟨.none, false⟩ seed = (f.roll ⟨.none, false⟩ (Source.ofSeed seed)).1 := by
    rw [roll, h]
    rfl
  have hraw : f.raw = Text.trim text := by
    obtain ⟨terms, -, -, rfl⟩ := Formula.exists_terms_of_parse h
    rfl
  have htallies := Formula.tallies_of_parse h false (Source.ofSeed seed)
  rw [hroll, ← hraw]
  cases htotal :
    Word.addAll? 0 (Die.valuesAll false f.dice (Source.ofSeed seed) ++ f.modifiers) with
  | none => exact .inr (Formula.roll_error_of_tallies htallies htotal)
  | some total =>
      obtain ⟨r, hr, -, -⟩ := Formula.roll_ok_of_tallies htallies htotal
      refine .inl ⟨r, congrArg Prod.fst hr, ?_⟩
      rw [Formula.roll_without_advantage] at hr
      split at hr
      · obtain ⟨hok, hsource⟩ := Prod.mk.inj hr
        rw [← Except.ok.inj hok]
        change Source.seed _ = seed
        rw [hsource, Random.Source.seed_skip]
        rfl
      · cases (Prod.mk.inj hr).1

end Dice

theorem TableEntry.holds_iff {e : TableEntry} {total : Int} :
    e.holds total = true ↔ e.low ≤ total ∧ total ≤ e.high := decide_eq_true_iff

namespace RandomTable

/-- What comes up for a total: the result of the first entry whose range holds it. -/
inductive ComesUp (entries : List TableEntry) (total : Int) : Option Json → Prop
  | entry {i : Nat} {e : TableEntry} (place : entries[i]? = some e)
      (holds : e.low ≤ total ∧ total ≤ e.high)
      (first : ∀ j < i, ∀ d, entries[j]? = some d → ¬(d.low ≤ total ∧ total ≤ d.high)) :
      ComesUp entries total (some e.result)
  | nothing (gap : ∀ e ∈ entries, ¬(e.low ≤ total ∧ total ≤ e.high)) : ComesUp entries total none

theorem comesUp_lookup? (entries : List TableEntry) (total : Int) :
    ComesUp entries total ((lookup? entries total).map TableEntry.result) := by
  unfold lookup?
  cases hfound : entries.find? fun e => e.holds total with
  | none =>
      exact .nothing fun e he => TableEntry.holds_iff.not.mp (List.find?_eq_none.mp hfound e he)
  | some e =>
      obtain ⟨hholds, i, hi, rfl, hbefore⟩ := List.find?_eq_some_iff_getElem.mp hfound
      refine .entry (List.getElem?_eq_getElem hi) (TableEntry.holds_iff.mp hholds)
        fun j hj d hd => ?_
      obtain ⟨hlt, rfl⟩ := List.getElem?_eq_some_iff.mp hd
      rw [← TableEntry.holds_iff]
      simpa using hbefore j hj

/-- What a roll on a table comes to: its dice are rolled from the seed, and what comes up for
their total is the result, or else the total is out of range. -/
inductive RollsTo (name dice : String) (entries : List TableEntry) (seed : String) :
    Except Refusal TableRollAnswer → Prop
  | result {rolled : Dice.Roll} {result : Option Json}
      (roll : Dice.roll dice ⟨.none, false⟩ seed = .ok rolled)
      (up : ComesUp entries rolled.total result) :
      RollsTo name dice entries seed
        (.ok ⟨rolled.total, seed, result, rollSummary name rolled.total result⟩)
  | outOfRange
      (roll : Dice.roll dice ⟨.none, false⟩ seed = .error (.totalOutOfRange (Text.trim dice))) :
      RollsTo name dice entries seed (.error (.dice (.totalOutOfRange (Text.trim dice))))

theorem rollsTo_rollOn (table : RandomTable) {f : Dice.Formula}
    (h : Dice.Formula.parse table.dice = .ok f) (seed : String) :
    RollsTo table.name table.dice table.entries seed (Service.rollOn table seed) := by
  rcases Dice.roll_of_parse h seed with ⟨rolled, hroll, rfl⟩ | hroll
  · have hanswer : Service.rollOn table rolled.seed =
        let result := (lookup? table.entries rolled.total).map TableEntry.result
        .ok ⟨rolled.total, rolled.seed, result, rollSummary table.name rolled.total result⟩ := by
      simp only [Service.rollOn, hroll]
      rfl
    rw [hanswer]
    exact .result hroll (comesUp_lookup? _ _)
  · have hanswer :
        Service.rollOn table seed = .error (.dice (.totalOutOfRange (Text.trim table.dice))) := by
      simp only [Service.rollOn, hroll]
      rfl
    rw [hanswer]
    exact .outOfRange hroll

theorem RollsTo.seed_eq {name dice seed : String} {entries : List TableEntry}
    {a : TableRollAnswer} (h : RollsTo name dice entries seed (.ok a)) : a.seed = seed := by
  cases h
  rfl

/-- A result that is null is told from no result, though only in the summary. -/
theorem rollSummary_null_ne (name : String) (total : Int) :
    rollSummary name total (some .null) ≠ rollSummary name total none := by
  intro h
  have htext := String.append_right_inj _ |>.mp h
  exact absurd htext (by decide)

end RandomTable

/-- An entry as it is read again, if it can be. -/
def TableEntry.reread (e : TableEntry) : TableEntry :=
  { e with result := e.result.reread?.getD e.result }

namespace TableRequest

variable {r : TableRequest}

/-- Whether the results of a table can be read again from the text that is kept of them. -/
def Legible (r : TableRequest) : Prop := ∀ e ∈ r.entries, e.result.reread? ≠ none

theorem legible_of_lossless (h : ∀ e ∈ r.entries, e.Lossless) : r.Legible :=
  fun e he => (h e he).symm ▸ Option.some_ne_none _

theorem map_reread_of_lossless (h : ∀ e ∈ r.entries, e.Lossless) :
    r.entries.map TableEntry.reread = r.entries := by
  refine (List.map_congr_left fun e he => ?_).trans (List.map_id _)
  rw [TableEntry.reread, show e.result.reread? = some e.result from h e he]
  rfl

theorem read_row_of_legible (h : r.Legible) (id : String) :
    (r.row id).read =
      .ok ⟨id, r.campaignId, r.name, r.dice, r.scope, r.entries.map TableEntry.reread⟩ := by
  have hkept :
      r.entries.map TableEntry.kept = (r.entries.map TableEntry.reread).map Kept.intact := by
    rw [List.map_map]
    refine List.map_congr_left fun e he => ?_
    obtain ⟨result, hresult⟩ := Option.ne_none_iff_exists'.mp (h e he)
    simp only [TableEntry.kept, TableEntry.reread, Function.comp_apply, hresult]
    rfl
  have hread : (r.row id).entries.mapM Kept.read = .ok (r.entries.map TableEntry.reread) := by
    change (r.entries.map TableEntry.kept).mapM Kept.read = _
    rw [hkept, Kept.mapM_read_intact]
  simp only [TableRow.read, hread]
  rfl

theorem read_row_of_illegible (h : ¬r.Legible) (id : String) :
    (r.row id).read = .error .storage := by
  have hread : (r.row id).entries.mapM Kept.read = .error .storage := by
    change (r.entries.map TableEntry.kept).mapM Kept.read = _
    rw [Kept.mapM_read, if_neg]
    intro hall
    rw [List.all_map, List.all_eq_true] at hall
    refine h fun e he hnone => ?_
    have hundamaged := hall e he
    simp [TableEntry.kept, hnone, Kept.ofReread, Kept.damage] at hundamaged
  simp only [TableRow.read, hread]
  rfl

end TableRequest

theorem World.Grants.rollable {w : World} (h : w.Grants) (i : Nat) (r : TableRequest)
    (a : TableAnswer) (hrequest : w.request? i = some (.createTable r))
    (hpromise : w.Promises i (.ok (.created a))) :
    (∃ f, Dice.Formula.parse r.dice = .ok f) ∧ r.entries ≠ [] := by
  obtain ⟨s, s', -, heffect, -⟩ := h i _ _ hrequest rfl hpromise
  cases heffect with
  | create _ dice nonempty _ _ _ => exact ⟨⟨_, dice⟩, nonempty⟩

namespace Request

variable {s : Store} {row : TableRow}

theorem outcome_rollTable_of_unread (hs : s.Sound) (hrow : row ∈ s.tables) {e : Refusal}
    (hread : row.read = .error e) (seed : Option String) (fresh : String) :
    ((Request.rollTable ⟨row.id, seed⟩ fresh).outcome s).answer = .error e := by
  rw [outcome, serve, Service.run_map_answer, Service.rollTable, Service.run_bind_query, hs.ask,
    hs.table? hrow, hread]
  rfl

theorem outcome_rollTable_of_read (hs : s.Sound) (hrow : row ∈ s.tables) {table : RandomTable}
    (hread : row.read = .ok table) (hentries : table.entries ≠ []) (seed : Option String)
    (fresh : String) :
    ((Request.rollTable ⟨row.id, seed⟩ fresh).outcome s).answer =
      (Service.rollOn table (seed.getD fresh)).map .tableRolled := by
  rw [outcome, serve, Service.run_map_answer, Service.rollTable, Service.run_bind_query, hs.ask,
    hs.table? hrow, hread]
  change ((Task.run (ite _ _ _ : Service TableRollAnswer) s).answer).map _ = _
  rw [if_neg (by simpa using hentries)]
  cases Service.rollOn table (seed.getD fresh) <;> rfl

end Request

namespace World

/-- What rolls on a table come to: each is a roll of its dice from the seed it is given, or else
from the fresh one, and from the seed that is answered the same comes up ever after. -/
structure RollsOn (id name dice : String) (entries : List TableEntry) (w : World) : Prop where
  rolls : ∀ seed fresh, ∃ answer, RandomTable.RollsTo name dice entries (seed.getD fresh) answer ∧
    ((Request.rollTable ⟨id, seed⟩ fresh).outcome w.store).answer = answer.map .tableRolled
  again : ∀ seed fresh a, ((Request.rollTable ⟨id, seed⟩ fresh).outcome w.store).answer =
    .ok (.tableRolled a) →
    ∀ moves other,
      ((Request.rollTable ⟨id, some a.seed⟩ other).outcome (w.after moves).store).answer =
        .ok (.tableRolled a)

theorem Sound.rollsOn {w : World} (hw : w.Sound) {row : TableRow} (hrow : row ∈ w.store.tables)
    {table : RandomTable} (hread : row.read = .ok table) (hentries : table.entries ≠ [])
    {f : Dice.Formula} (hparse : Dice.Formula.parse table.dice = .ok f) :
    w.RollsOn row.id table.name table.dice table.entries where
  rolls seed fresh :=
    ⟨_, table.rollsTo_rollOn hparse _,
      Request.outcome_rollTable_of_read hw.store hrow hread hentries seed fresh⟩
  again := by
    intro seed fresh a hanswer moves other
    rw [Request.outcome_rollTable_of_read hw.store hrow hread hentries] at hanswer
    have hrolls := table.rollsTo_rollOn hparse (seed.getD fresh)
    cases hroll : Service.rollOn table (seed.getD fresh) with
    | error e =>
        rw [hroll] at hanswer
        exact nomatch hanswer
    | ok b =>
        rw [hroll] at hanswer hrolls
        obtain rfl : b = a := Answer.tableRolled.inj (Except.ok.inj hanswer)
        have hlater := (hw.later_after moves).tables.subset hrow
        rw [Request.outcome_rollTable_of_read (hw.after moves).store hlater hread hentries,
          Option.getD_some, hrolls.seed_eq, hroll]
        rfl

/-- What rolls on the tables come to that have been saved. -/
structure RollsTables (w : World) : Prop where
  lossless : ∀ i r a, w.request? i = some (.createTable r) →
    w.answer? i = some (.ok (.created a)) →
    (∀ e ∈ r.entries, e.Lossless) → w.RollsOn a.tableId r.name r.dice r.entries
  /-- Results that do not read as they were sent come up as they read. -/
  legible : ∀ i r a, w.request? i = some (.createTable r) →
    w.answer? i = some (.ok (.created a)) →
    r.Legible → w.RollsOn a.tableId r.name r.dice (r.entries.map TableEntry.reread)
  illegible : ∀ i r a, w.request? i = some (.createTable r) →
    w.answer? i = some (.ok (.created a)) →
    ¬r.Legible → ∀ seed fresh,
      ((Request.rollTable ⟨a.tableId, seed⟩ fresh).outcome w.store).answer = .error .storage
  /-- That null has come up is told from that nothing has. -/
  nulls : ∀ name total, RandomTable.rollSummary name total (some .null) ≠
    RandomTable.rollSummary name total none

/-- Every table that has been saved can be rolled on at every later moment, as long as its results
can be read. -/
theorem rollsTables_after (onFile : Bool) (moves : List Move) :
    ((opened onFile).after moves).RollsTables := by
  have hw := (sound_opened onFile).after moves
  have hgrants := grants_after onFile moves
  generalize (opened onFile).after moves = w at *
  have hlegible : ∀ i r a, w.request? i = some (.createTable r) →
      w.answer? i = some (.ok (.created a)) →
      r.Legible → w.RollsOn a.tableId r.name r.dice (r.entries.map TableEntry.reread) := by
    intro i r a hrequest hanswer hlegible
    have hpromise := promises_of_answer hanswer
    obtain ⟨⟨f, hparse⟩, hnonempty⟩ := hgrants.rollable i r a hrequest hpromise
    exact hw.rollsOn (hgrants.savesTables i r a hrequest hpromise)
      (TableRequest.read_row_of_legible hlegible _) (by simpa using hnonempty) hparse
  refine ⟨fun i r a hrequest hanswer hlossless => ?_, hlegible,
    fun i r a hrequest hanswer hillegible => ?_, RandomTable.rollSummary_null_ne⟩
  · have hrolls := hlegible i r a hrequest hanswer (TableRequest.legible_of_lossless hlossless)
    rwa [TableRequest.map_reread_of_lossless hlossless] at hrolls
  · exact Request.outcome_rollTable_of_unread hw.store
      (hgrants.savesTables i r a hrequest (promises_of_answer hanswer))
      (TableRequest.read_row_of_illegible hillegible a.tableId)

/-- A table whose ranges overlap, and one of whose results is null. -/
def omens : TableRequest :=
  ⟨none, "Omens", "2 + 1", none, [⟨1, 2, .text "storm"⟩, ⟨3, 5, .null⟩, ⟨3, 3, .text "rain"⟩]⟩

theorem omens_lossless : ∀ e ∈ omens.entries, e.Lossless := by
  intro e he
  simp only [omens, List.mem_cons, List.not_mem_nil, or_false] at he
  unfold TableEntry.Lossless
  obtain rfl | rfl | rfl := he <;> cbv

theorem rollsTables_omens :
    let w := (opened false).after [.call (.createTable omens), .step 0, .step 0]
    w.request? 0 = some (.createTable omens) ∧
      w.answer? 0 = some (.ok (.created ⟨"table-1", "Random table created: Omens - 3 entries"⟩)) ∧
      w.RollsOn "table-1" "Omens" "2 + 1" omens.entries ∧
      RandomTable.ComesUp omens.entries 3 (some .null) := by
  intro w
  have hrequest : w.request? 0 = some (.createTable omens) := by cbv
  have hanswer : w.answer? 0 =
      some (.ok (.created ⟨"table-1", "Random table created: Omens - 3 entries"⟩)) := by cbv
  refine ⟨hrequest, hanswer, ?_, RandomTable.comesUp_lookup? omens.entries 3⟩
  exact (rollsTables_after false [.call (.createTable omens), .step 0, .step 0]).lossless 0 omens
    _ hrequest hanswer omens_lossless

/-- A table whose only result cannot be read again. -/
def sealed : TableRequest :=
  ⟨none, "Sealed", "1", none, [⟨1, 1, .object [(Json.embeddedKey, .text "boom"), ("a", .int 1)]⟩]⟩

/-- A table may be saved, and no roll on it may be answered though its dice can be rolled. -/
theorem roll_fails_of_sealed :
    let w := (opened false).after [.call (.createTable sealed), .step 0, .step 0]
    w.answer? 0 = some (.ok (.created ⟨"table-1", "Random table created: Sealed - 1 entries"⟩)) ∧
      (∃ rolled, Dice.roll sealed.dice ⟨.none, false⟩ "dawn" = .ok rolled ∧ rolled.total = 1) ∧
      ((Request.rollTable ⟨"table-1", some "dawn"⟩ "dusk").outcome w.store).answer =
        .error .storage := by
  have hparse : Dice.Formula.parse sealed.dice = .ok ⟨"1", [.modifier 1]⟩ := by cbv
  refine ⟨by cbv, ?_, by cbv⟩
  rw [Dice.roll, hparse]
  exact ⟨_, rfl, rfl⟩

end World

end Gamemaster
