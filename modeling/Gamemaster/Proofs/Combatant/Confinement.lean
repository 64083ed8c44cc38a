import Gamemaster.Proofs.Combatant.Requests
import Gamemaster.Proofs.Dice.Canonical

namespace Gamemaster

namespace Text

theorem trimChars_padded {front token back : List Char}
    (hpadding : ∀ c ∈ front ++ back, isBlank c = true) (htoken : ∀ c ∈ token, isBlank c = false) :
    trimChars (front ++ token ++ back) = token := by
  have hfront : ∀ c ∈ front, isBlank c = true := fun c hc =>
    hpadding c (List.mem_append_left _ hc)
  have hback : ∀ c ∈ back, isBlank c = true := fun c hc => hpadding c (List.mem_append_right _ hc)
  have hkept := trimChars_of_not_blank htoken
  rw [trimChars, List.append_assoc, List.dropWhile_append_of_pos hfront]
  cases token with
  | nil =>
      rw [List.nil_append, List.dropWhile_eq_nil_iff.mpr hback]
      rfl
  | cons t ts =>
      have ht : ¬isBlank t = true := by simp [htoken t]
      rw [List.cons_append, List.dropWhile_cons_of_neg ht, ← List.cons_append,
        List.reverse_append,
        List.dropWhile_append_of_pos fun c hc => hback c (List.mem_reverse.mp hc)]
      rwa [trimChars, List.dropWhile_cons_of_neg ht] at hkept

theorem exists_padding (cs : List Char) :
    ∃ front back, (∀ c ∈ front ++ back, isBlank c = true) ∧
      cs = front ++ trimChars cs ++ back := by
  let rest := cs.dropWhile isBlank
  have hrest : rest = trimChars cs ++ (rest.reverse.takeWhile isBlank).reverse := by
    rw [trimChars, ← List.reverse_append, List.takeWhile_append_dropWhile, List.reverse_reverse]
  refine ⟨cs.takeWhile isBlank, (rest.reverse.takeWhile isBlank).reverse, fun c hc => ?_, ?_⟩
  · rcases List.mem_append.mp hc with hc | hc
    · exact List.mem_takeWhile_imp hc
    · exact List.mem_takeWhile_imp (List.mem_reverse.mp hc)
  · rw [List.append_assoc, ← hrest, List.takeWhile_append_dropWhile]

theorem trim_ne_empty_iff (s : String) : trim s ≠ "" ↔ ∃ c ∈ s.toList, isBlank c = false := by
  rw [Ne, trim_eq_empty_iff, List.eq_nil_iff_forall_not_mem, not_forall]
  simp only [not_not, mem_withoutBlanks]

end Text

namespace ActionValue

/-- How an amount is given: as a number, or as a text with nothing in it but the literal and
blanks around it. -/
inductive Gives (n : Int) : ActionValue → Prop
  | number : Gives n (.number n)
  | text {s : String} {sign : Dice.Sign} {m : Nat} {front mark digits back : List Char}
      (written : s.toList = front ++ (mark ++ digits) ++ back)
      (padding : ∀ c ∈ front ++ back, Text.isBlank c = true)
      (marked : sign.Written mark)
      (numeral : Literal.Numeral m digits)
      (value : n = sign.toInt * m)
      (fits : Word.Fits n) : Gives n (.text s)

theorem amount?_eq_some_iff {v : ActionValue} {n : Int} : v.amount? = some n ↔ v.Gives n := by
  constructor
  · intro h
    cases v with
    | number m =>
        obtain rfl : m = n := Option.some.inj h
        exact .number
    | text s =>
        obtain ⟨sign, mark, digits, m, hmark, hnumeral, hfits, hvalue, htoken⟩ :=
          Dice.word?_eq_some_iff.mp h
        obtain ⟨front, back, hpadding, hs⟩ := Text.exists_padding s.toList
        exact .text (htoken ▸ hs) hpadding hmark hnumeral hvalue hfits
  · intro h
    cases h with
    | number => rfl
    | @text s sign m front mark digits back hs hpadding hmark hnumeral hvalue hfits =>
        have hterm : ∀ c ∈ mark ++ digits, Dice.isTermChar c = true :=
          List.forall_mem_append.mpr
            ⟨hmark.isTermChar_of_mem, Dice.isTermChar_of_mem_numeral hnumeral⟩
        -- No sign and no digit is a blank, so trimming takes the padding and no more.
        have hblank : ∀ c ∈ mark ++ digits, Text.isBlank c = false :=
          fun c hc => Dice.isBlank_of_isTermChar (hterm c hc)
        rw [amount?, hs, Text.trimChars_padded hpadding hblank]
        exact Dice.word?_eq_some_iff.mpr
          ⟨sign, mark, digits, m, hmark, hnumeral, hfits, hvalue, rfl⟩

end ActionValue

namespace Action

variable {tag name : String} {value : Option ActionValue} {condition : Option String}
  {action : Action}

/-- The text that names a condition: the condition of a request or, only where there is none, its
text value. One that is blank names nothing. -/
structure Names (value : Option ActionValue) (condition : Option String) (s : String) : Prop where
  given : condition = some s ∨ condition = none ∧ value = some (.text s)
  named : ∃ c ∈ s.toList, Text.isBlank c = false

/-- What is asked for under a tag. A note is a text value if there is one, and else the
condition. -/
inductive Asks (value : Option ActionValue) (condition : Option String) : String → Action → Prop
  | damage {v : ActionValue} {n : Int} (given : value = some v) (amount : v.Gives n) :
      Asks value condition "damage" (.damage (max n 0))
  | heal {v : ActionValue} {n : Int} (given : value = some v) (amount : v.Gives n) :
      Asks value condition "heal" (.heal (max n 0))
  | tempHp {v : ActionValue} {n : Int} (given : value = some v) (amount : v.Gives n) :
      Asks value condition "temp_hp" (.tempHp (max n 0))
  | addCondition {s : String} (names : Names value condition s) :
      Asks value condition "add_condition" (.addCondition (Text.trim s))
  | removeCondition {s : String} (names : Names value condition s) :
      Asks value condition "remove_condition" (.removeCondition (Text.trim s))
  | noteOfValue {s : String} (given : value = some (.text s)) :
      Asks value condition "custom_note" (.customNote s)
  | noteOfCondition {s : String} (textless : ∀ t, value ≠ some (.text t))
      (given : condition = some s) :
      Asks value condition "custom_note" (.customNote s)

theorem amountOf_eq_ok_iff {amount : Int} :
    amountOf tag value = .ok amount ↔ ∃ v n, value = some v ∧ v.Gives n ∧ amount = max n 0 := by
  constructor
  · intro h
    cases value with
    | none => cases h
    | some v =>
        cases hread : v.amount? with
        | none => simp [amountOf, hread] at h
        | some n =>
            simp only [amountOf, hread, Except.ok.injEq] at h
            exact ⟨v, n, rfl, ActionValue.amount?_eq_some_iff.mp hread, h.symm⟩
  · rintro ⟨v, n, rfl, hgives, rfl⟩
    simp only [amountOf, ActionValue.amount?_eq_some_iff.mpr hgives]

theorem bind_text?_eq_some_iff {s : String} :
    value.bind ActionValue.text? = some s ↔ value = some (.text s) := by
  rcases value with _ | ⟨n⟩ | ⟨t⟩ <;> simp [ActionValue.text?]

theorem conditionOf_eq_ok_iff :
    conditionOf tag value condition = .ok name ↔
      ∃ s, Names value condition s ∧ name = Text.trim s := by
  have hnames : ∀ s, Names value condition s ↔
      condition.or (value.bind ActionValue.text?) = some s ∧ Text.trim s ≠ "" := by
    intro s
    rw [Option.or_eq_some_iff, bind_text?_eq_some_iff, Text.trim_ne_empty_iff]
    exact ⟨fun h => ⟨h.given, h.named⟩, fun h => ⟨h.1, h.2⟩⟩
  simp only [hnames, conditionOf]
  cases condition.or (value.bind ActionValue.text?) with
  | none => exact iff_of_false nofun nofun
  | some s =>
      rw [Option.getD_some]
      by_cases hblank : Text.trim s = ""
      · simp [hblank]
      · rw [if_neg hblank, Except.ok.injEq]
        constructor
        · rintro rfl
          exact ⟨s, ⟨rfl, hblank⟩, rfl⟩
        · rintro ⟨_, ⟨⟨⟩, -⟩, rfl⟩
          rfl

theorem noteOf_eq_ok_iff {text : String} :
    noteOf value condition = .ok text ↔
      value = some (.text text) ∨ (∀ t, value ≠ some (.text t)) ∧ condition = some text := by
  have htextless : value.bind ActionValue.text? = none ↔ ∀ t, value ≠ some (.text t) := by
    simp only [Option.eq_none_iff_forall_ne_some, Ne, bind_text?_eq_some_iff]
  rw [← bind_text?_eq_some_iff, ← htextless, ← Option.or_eq_some_iff, noteOf]
  cases (value.bind ActionValue.text?).or condition <;> simp

theorem asks_of_request (h : ofRequest tag value condition = .ok action) :
    Asks value condition tag action := by
  have hasked := ofRequest_eq_ok_iff.mp h
  cases action with
  | damage | heal | tempHp =>
      obtain ⟨rfl, hamount⟩ := hasked
      obtain ⟨v, n, hgiven, hgives, rfl⟩ := amountOf_eq_ok_iff.mp hamount
      constructor <;> assumption
  | addCondition | removeCondition =>
      obtain ⟨rfl, hname⟩ := hasked
      obtain ⟨s, hnames, rfl⟩ := conditionOf_eq_ok_iff.mp hname
      constructor
      exact hnames
  | customNote text =>
      obtain ⟨rfl, hnote⟩ := hasked
      rcases noteOf_eq_ok_iff.mp hnote with hgiven | ⟨htextless, hgiven⟩
      · exact .noteOfValue hgiven
      · exact .noteOfCondition htextless hgiven

theorem request_of_asks (h : Asks value condition tag action) :
    ofRequest tag value condition = .ok action := by
  rw [ofRequest_eq_ok_iff]
  cases h with
  | damage given amount | heal given amount | tempHp given amount =>
      exact ⟨rfl, amountOf_eq_ok_iff.mpr ⟨_, _, given, amount, rfl⟩⟩
  | addCondition names | removeCondition names =>
      exact ⟨rfl, conditionOf_eq_ok_iff.mpr ⟨_, names, rfl⟩⟩
  | noteOfValue given => exact ⟨rfl, noteOf_eq_ok_iff.mpr (.inl given)⟩
  | noteOfCondition textless given => exact ⟨rfl, noteOf_eq_ok_iff.mpr (.inr ⟨textless, given⟩)⟩

theorem ofRequest_eq_ok_iff_asks :
    ofRequest tag value condition = .ok action ↔ Asks value condition tag action :=
  ⟨asks_of_request, request_of_asks⟩

theorem applyRequest_eq_ok_iff {c after : Combatant} {summary : String} :
    applyRequest c tag value condition = .ok (after, summary) ↔
      ∃ action, Asks value condition tag action ∧ after = action.apply c ∧
        summary = action.summary after := by
  simp only [applyRequest, ← ofRequest_eq_ok_iff_asks]
  cases ofRequest tag value condition with
  | error fault => simp [Except.map]
  | ok action =>
      simp only [Except.map, Except.ok.injEq, Prod.mk.injEq]
      constructor
      · rintro ⟨rfl, rfl⟩
        exact ⟨action, rfl, rfl, rfl⟩
      · rintro ⟨_, rfl, rfl, rfl⟩
        exact ⟨rfl, rfl⟩

/-- Whether a tag is known and comes with an amount, a condition or a note that can be read. -/
def Acceptable (tag : String) (value : Option ActionValue) (condition : Option String) : Prop :=
  (tag ∈ ["damage", "heal", "temp_hp"] ∧ ∃ v n, value = some v ∧ v.Gives n) ∨
  (tag ∈ ["add_condition", "remove_condition"] ∧ ∃ s, Names value condition s) ∨
  (tag = "custom_note" ∧ ∃ s, value = some (.text s) ∨ condition = some s)

theorem exists_asks_iff :
    (∃ action, Asks value condition tag action) ↔ Acceptable tag value condition := by
  constructor
  · rintro ⟨action, hasks⟩
    cases hasks with
    | damage given amount | heal given amount | tempHp given amount =>
        exact .inl ⟨by decide, _, _, given, amount⟩
    | addCondition names | removeCondition names => exact .inr (.inl ⟨by decide, _, names⟩)
    | noteOfValue given => exact .inr (.inr ⟨rfl, _, .inl given⟩)
    | noteOfCondition _ given => exact .inr (.inr ⟨rfl, _, .inr given⟩)
  · rintro (⟨htag, v, n, given, amount⟩ | ⟨htag, s, names⟩ | ⟨rfl, s, hnote⟩)
    · simp only [List.mem_cons, List.not_mem_nil, or_false] at htag
      rcases htag with rfl | rfl | rfl
      · exact ⟨_, .damage given amount⟩
      · exact ⟨_, .heal given amount⟩
      · exact ⟨_, .tempHp given amount⟩
    · simp only [List.mem_cons, List.not_mem_nil, or_false] at htag
      rcases htag with rfl | rfl
      · exact ⟨_, .addCondition names⟩
      · exact ⟨_, .removeCondition names⟩
    · by_cases htext : ∃ t, value = some (.text t)
      · obtain ⟨t, given⟩ := htext
        exact ⟨_, .noteOfValue given⟩
      · have textless : ∀ t, value ≠ some (.text t) := not_exists.mp htext
        exact ⟨_, .noteOfCondition textless (hnote.resolve_left (textless s))⟩

/-- Whether a combatant differs from another at most in the fields that an action is about. -/
def Confines : Action → Combatant → Combatant → Prop
  | damage _, c, c' => ∃ current temp, c' = { c with currentHp := current, tempHp := temp }
  | heal _, c, c' => ∃ current, c' = { c with currentHp := current }
  | tempHp _, c, c' => ∃ temp, c' = { c with tempHp := temp }
  | addCondition _, c, c' | removeCondition _, c, c' => ∃ conditions, c' = { c with conditions }
  | customNote _, c, c' => ∃ notes, c' = { c with notes }

theorem confines_apply (a : Action) (c : Combatant) : a.Confines c (a.apply c) := by
  cases a with
  | damage => exact ⟨_, _, rfl⟩
  | heal | tempHp | removeCondition | customNote => exact ⟨_, rfl⟩
  | addCondition name =>
      by_cases hpresent : name ∈ c.conditions
      · exact ⟨c.conditions, if_pos hpresent⟩
      · exact ⟨c.conditions ++ [name], if_neg hpresent⟩

/-- A request is granted just if its tag is known and comes with an amount, a condition or a note
that can be read. The action that is built then bears the tag, is what the fields ask for, and
keeps to its own fields of the combatant. -/
theorem request_confined (c : Combatant) (tag : String) (value : Option ActionValue)
    (condition : Option String) :
    ((∃ after summary, applyRequest c tag value condition = .ok (after, summary)) ↔
      Acceptable tag value condition) ∧
    ∀ after summary, applyRequest c tag value condition = .ok (after, summary) →
      ∃ action, ofRequest tag value condition = .ok action ∧ action.tag = tag ∧
        Asks value condition tag action ∧
        after = action.apply c ∧ summary = action.summary after ∧ action.Confines c after := by
  constructor
  · rw [← exists_asks_iff]
    constructor
    · rintro ⟨after, summary, h⟩
      obtain ⟨action, hasks, -⟩ := applyRequest_eq_ok_iff.mp h
      exact ⟨action, hasks⟩
    · rintro ⟨action, hasks⟩
      exact ⟨_, _, applyRequest_eq_ok_iff.mpr ⟨action, hasks, rfl, rfl⟩⟩
  · intro after summary h
    obtain ⟨action, hasks, rfl, rfl⟩ := applyRequest_eq_ok_iff.mp h
    have hrequest := ofRequest_eq_ok_iff_asks.mpr hasks
    exact ⟨action, hrequest, tag_of_request hrequest, hasks, rfl, rfl, confines_apply action c⟩

/-- The condition is read from its own field, though there is a text value, and without the blanks
around it. -/
theorem request_confined_revived :
    let c :=
      { (⟨0, ⟨"Aldric", "party", none⟩, 10⟩ : Entrant).toCombatant "combat-1" "combatant-1" with
        conditions := ["prone", "dazed"] }
    let value := some (ActionValue.text "dazed")
    let condition := some "\t prone\u00a0"
    ∃ after summary, applyRequest c "remove_condition" value condition = .ok (after, summary) ∧
      after.conditions = ["dazed"] ∧ Acceptable "remove_condition" value condition ∧
      ∃ action, ofRequest "remove_condition" value condition = .ok action ∧
        action.tag = "remove_condition" ∧
        Asks value condition "remove_condition" action ∧ after = action.apply c ∧
        summary = action.summary after ∧
        action.Confines c after := by
  intro c value condition
  have hgranted : applyRequest c "remove_condition" value condition =
      .ok ({ c with conditions := ["dazed"] },
        "Combat remove_condition: Aldric - hp 0/0") := by cbv
  obtain ⟨hacceptable, hconfined⟩ := request_confined c "remove_condition" value condition
  exact ⟨_, _, hgranted, rfl, hacceptable.mp ⟨_, _, hgranted⟩, hconfined _ _ hgranted⟩

end Action

end Gamemaster
