import Gamemaster.Proofs.World.Run

namespace Gamemaster

theorem getElem?_concat {l : List α} {a b : α} {n : Nat} (h : (l ++ [a])[n]? = some b) :
    l[n]? = some b ∨ (n = l.length ∧ a = b) := by
  by_cases hn : n < l.length
  · exact .inl (by rwa [List.getElem?_append_left hn] at h)
  · rw [List.getElem?_append_right (Nat.not_lt.mp hn), List.getElem?_singleton] at h
    split at h
    · exact .inr ⟨by omega, Option.some.inj h⟩
    · simp at h

def Request.turns (id : String) : Request → Bool
  | nextTurn r => r.combatId = id
  | _ => false

theorem Effect.turns_eq {r : Request} {a : Answer} {s s' : Store} (h : Effect r a s s')
    (id : String) :
    s'.turns id = s.turns id + if r.turns id then 1 else 0 := by
  cases h with
  | start _ _ _ _ inserted logged =>
      obtain ⟨-, -, rfl⟩ := Store.eq_of_insertCombat inserted
      exact Store.turns_append_other logged (fun _ => rfl) id
  | act _ _ _ _ _ _ _ written logged =>
      obtain ⟨-, rfl⟩ := Store.eq_of_commitCombatant? written
      exact Store.turns_append_other logged (fun _ => rfl) id
  | @turn r combat order t row s s₁ s' _ target _ seen _ _ _ written logged =>
      rw [← target] at written
      rw [Store.turns_turn written logged
        fun combatId => by rw [← Combat.id_of_identity seen]; rfl]
      simp [Request.turns, target]
  | build _ _ _ _ inserted logged =>
      obtain ⟨-, rfl⟩ := Prod.mk.inj inserted
      exact Store.turns_append_other logged (fun _ => rfl) id
  | create _ _ _ _ inserted logged =>
      obtain ⟨-, rfl⟩ := Prod.mk.inj inserted
      exact Store.turns_append_other logged (fun _ => rfl) id

/-- A turn is taken from the version that counts the turns before it, and leads to the next
one. -/
theorem Effect.turn_version {r : TurnRequest} {a : Answer} {s s' : Store}
    (h : Effect (.nextTurn r) a s s') (hs : s.Sound) :
    r.version = Word.wrap (1 + s.turns r.combatId) ∧
      ∃ t : TurnAnswer, a = .turned t ∧ t.version = Word.wrap (2 + s.turns r.combatId) := by
  cases h with
  | turn found target current _ _ _ advanced _ _ =>
      have hversion := hs.versions _ found
      rw [current, target] at hversion
      obtain ⟨hobserved, -, ht⟩ := Combat.version_advance advanced
      refine ⟨hversion, _, rfl, ?_⟩
      change Turn.version _ = _
      rw [ht, ← hobserved, hversion, Word.wrap_wrap_add]
      congr 1
      omega

theorem Request.nextTurn_rest (r : TurnRequest) {s : Store} (hs : s.Sound) :
    (∃ a, (nextTurn r).serve.run.rest s = .done a) ∨
      ((nextTurn r).serve.run.rest s).Atomic (Service.Overtaken r)
      (nextTurn r).TakesEffect s := by
  have hrest : (nextTurn r).serve.run.rest s =
      ((Service.nextTurn r).run.rest s).bind fun a => .done (a.map .turned) := by
    rw [serve, Service.run_map]
    rfl
  rw [hrest]
  rcases Service.nextTurn_rest r hs with ⟨e, hrefused⟩ | ⟨row, hrow, hid, hversion, hgoes⟩
  · exact .inl ⟨_, by rw [hrefused]; rfl⟩
  · right
    rw [hgoes, ← Service.run_map]
    refine (Service.turnFrom_atomic r hs hrow hid hversion).map (fun a s h => ?_)
      (fun e s h => ?_) fun _ _ _ h => h
    · simp [Service.Overtaken] at h
    · rcases h with ⟨h, hunread⟩ | ⟨actual, h, hactual⟩
      · exact .inl ⟨by rw [Except.error.inj h], hunread⟩
      · exact .inr ⟨actual, by rw [Except.error.inj h], hactual⟩

theorem Request.nextTurn_atomic (r : TurnRequest) {s : Store} (hs : s.Sound) :
    (nextTurn r).serve.run.Atomic (Service.TurnRefused r s) (nextTurn r).TakesEffect s := by
  refine (Service.nextTurn_atomic r hs).map (fun a s h => ?_) (fun e s h => ?_) fun _ _ _ h => h
  · obtain ⟨e, he, -⟩ := h
    simp at he
  · obtain ⟨e', he, hrefused⟩ := h
    obtain rfl := Except.error.inj he
    exact ⟨e, rfl, hrefused⟩

namespace World

variable {w : World} {id : String}

theorem Sound.turn_cases (hw : w.Sound) (id : String) (m : Move) :
    ((w.make m).committed (Request.turns id) = w.committed (Request.turns id) ∧
        (w.make m).store.turns id = w.store.turns id) ∨
      ∃ i r a, w.request? i = some (.nextTurn r) ∧ r.combatId = id ∧
        Effect (.nextTurn r) a w.store (w.make m).store ∧ (w.make m).Promises i (.ok a) ∧
        (w.make m).committed (Request.turns id) = w.committed (Request.turns id) ++ [i] ∧
        (w.make m).store.turns id = w.store.turns id + 1 := by
  rcases hw.make_cases m with
    ⟨hstore, hsame⟩ | ⟨i, r, a, -, hrequest, -, heffect, hpromise, hcommits⟩
  · exact .inl ⟨hw.committed_same hsame, by rw [hstore]⟩
  · have hgrown : (w.make m).committed (Request.turns id) = _ :=
      hw.committed_concat hrequest hcommits
    have hturns := heffect.turns_eq id
    cases hr : r.turns id with
    | false => exact .inl ⟨by simpa [hr] using hgrown, by simpa [hr] using hturns⟩
    | true =>
        cases r with
        | nextTurn r =>
            refine .inr
              ⟨i, r, a, hrequest, by simpa [Request.turns] using hr, heffect, hpromise, ?_, ?_⟩
            · simpa [hr] using hgrown
            · simpa [hr] using hturns
        | _ => exact absurd hr Bool.false_ne_true

/-- The turns of a combat that calls have taken: the log counts them, and each was taken from the
version that counts those before it. -/
structure TurnsTaken (id : String) (w : World) : Prop where
  count : w.store.turns id = (w.committed (Request.turns id)).length
  sent : ∀ m i : Nat, (w.committed (Request.turns id))[m]? = some i →
    w.request? i = some (.nextTurn ⟨id, Word.wrap (1 + m)⟩) ∧
      ∃ a : TurnAnswer, w.Promises i (.ok (.turned a)) ∧ a.version = Word.wrap (2 + m)

theorem TurnsTaken.make (h : w.TurnsTaken id) (hw : w.Sound) (m : Move) :
    (w.make m).TurnsTaken id := by
  have hkept : ∀ n i : Nat, (w.committed (Request.turns id))[n]? = some i →
      (w.make m).request? i = some (.nextTurn ⟨id, Word.wrap (1 + n)⟩) ∧
        ∃ a : TurnAnswer, (w.make m).Promises i (.ok (.turned a)) ∧
          a.version = Word.wrap (2 + n) := by
    intro n i hi
    obtain ⟨hrequest, a, hpromise, ha⟩ := h.sent n i hi
    exact ⟨request?_make hrequest m, a, hpromise.make m, ha⟩
  rcases hw.turn_cases id m with
    ⟨hsame, hturns⟩ | ⟨i, r, a, hrequest, hid, heffect, hpromise, hgrown, hturns⟩
  · exact ⟨by rw [hturns, hsame, h.count], fun n i hi => hkept n i (hsame ▸ hi)⟩
  · refine ⟨by rw [hturns, hgrown, h.count, List.length_append, List.length_singleton], ?_⟩
    intro n j hj
    rw [hgrown] at hj
    rcases getElem?_concat hj with hj | ⟨hn, rfl⟩
    · exact hkept n j hj
    · obtain ⟨hversion, t, rfl, ht⟩ := heffect.turn_version hw.store
      rw [hid, h.count, ← hn] at hversion ht
      refine ⟨?_, t, hpromise, ht⟩
      rw [← hid, ← hversion]
      exact request?_make hrequest m

theorem Sound.turnsTaken_after (hw : w.Sound) (h : w.TurnsTaken id) (ms : List Move) :
    (w.after ms).TurnsTaken id :=
  (hw.after_induction (P := TurnsTaken id) h (fun _ m hsound h => h.make hsound m) ms).2

theorem turnsTaken_opened (onFile : Bool) (id : String) : (opened onFile).TurnsTaken id where
  count := rfl
  sent := by simp [committed, opened]

/-- How far a call for a turn has come: it has not taken a step, it goes on from a version that
was the current one, it has its answer, or the turn is taken. -/
def TurnPending (r : TurnRequest) (t : Task (Except Refusal Answer)) (s : Store) : Prop :=
  t = (Request.nextTurn r).serve.run ∨
    t.Atomic (Service.Overtaken r) (Request.nextTurn r).TakesEffect s ∨ (∃ a, t = .done a) ∨
      ∃ a, t.Settled (.ok a)

theorem TurnPending.rest {r : TurnRequest} {t : Task (Except Refusal Answer)} {s : Store}
    (h : TurnPending r t s) (hs : s.Sound) : TurnPending r (t.rest s) s := by
  rcases h with rfl | hatomic | ⟨a, rfl⟩ | ⟨a, hsettled⟩
  · rcases Request.nextTurn_rest r hs with hdone | hatomic
    · exact .inr (.inr (.inl hdone))
    · exact .inr (.inl hatomic)
  · rcases hatomic.rest hs with ⟨-, hrest⟩ | ⟨_, ⟨a, rfl, -⟩, hsettled⟩
    · exact .inr (.inl hrest)
    · exact .inr (.inr (.inr ⟨a, hsettled⟩))
  · exact .inr (.inr (.inl ⟨a, rfl⟩))
  · exact .inr (.inr (.inr ⟨a, (hsettled.rest s).1⟩))

theorem TurnPending.later {r : TurnRequest} {t : Task (Except Refusal Answer)} {s s' : Store}
    (h : TurnPending r t s) (hs : s.Later s') : TurnPending r t s' :=
  h.imp_right fun h => h.imp_left fun hatomic => hatomic.later (fun _ _ _ hs h => h.later hs) hs

def TurnsPending (w : World) : Prop :=
  ∀ (i : Nat) r t, w.calls[i]? = some ⟨.nextTurn r, t⟩ → TurnPending r t w.store

theorem turnsPending_opened (onFile : Bool) : (opened onFile).TurnsPending := by
  simp [TurnsPending, opened]

theorem TurnsPending.make (h : w.TurnsPending) (hw : w.Sound) (m : Move) :
    (w.make m).TurnsPending := by
  intro i r t' hcall
  have hlater := hw.later_make m
  rcases call_cases hcall with ⟨-, -, rfl⟩ | ⟨t, hbefore, ⟨-, rfl⟩ | ⟨-, rfl⟩⟩
  · exact .inl rfl
  · exact ((h i r t hbefore).rest hw.store).later hlater
  · exact (h i r t' hbefore).later hlater

theorem TurnsPending.after (h : w.TurnsPending) (hw : w.Sound) (ms : List Move) :
    (w.after ms).TurnsPending :=
  (hw.after_induction (P := TurnsPending) h (fun _ m hsound h => h.make hsound m) ms).2

section Refused

variable {i : Nat} {r : TurnRequest} {ms : List Move} {e : Refusal}

/-- A call that is refused, and that was still open when its version was the current one, was
overtaken by another call. -/
theorem Sound.overtaken_after (hw : w.Sound) (hpending : w.TurnsPending)
    (hrequest : w.request? i = some (.nextTurn r)) (hopen : w.answer? i = none)
    (hcurrent : w.store.version? r.combatId = some r.version)
    (hanswer : (w.after ms).answer? i = some (.error e)) :
    Service.Overtaken r (.error e : Except Refusal Answer) (w.after ms).store := by
  obtain ⟨⟨r', t⟩, hcall, hr⟩ := Option.map_eq_some_iff.mp hrequest
  obtain rfl : r' = .nextTurn r := hr
  rcases hpending i r t hcall with rfl | hatomic | ⟨a, rfl⟩ | ⟨a, hsettled⟩
  · have hrefused := hw.refused_after (fun _ _ _ hs h => h.later hs) hcall
      (Request.nextTurn_atomic r hw.store) hanswer
    obtain ⟨row, hrow, hid, hversion⟩ := Store.mem_of_version? hcurrent
    exact hrefused.overtaken hrow hid hversion
  · exact hw.refused_after (fun _ _ _ hs h => h.later hs) hcall hatomic hanswer
  · simp [answer?, hcall, Call.answer?] at hopen
  · have hpromise : w.Promises i (.ok a) := ⟨_, t, hcall, hsettled⟩
    have := (hpromise.after ms).answer_eq hanswer
    simp at this

theorem Sound.turnRefused_after (hw : w.Sound) (hi : w.calls.length ≤ i)
    (hrequest : (w.after ms).request? i = some (.nextTurn r))
    (hanswer : (w.after ms).answer? i = some (.error e)) :
    ∃ ms₁ ms₂, ms = ms₁ ++ ms₂ ∧ Service.TurnRefused r (w.after ms₁).store
      (.error e : Except Refusal Answer) (w.after ms).store := by
  obtain ⟨ms₁, ms₂, rfl, -, hcall⟩ := exists_call hi hrequest
  refine ⟨ms₁, _, rfl, ?_⟩
  rw [after_append_cons] at hanswer ⊢
  exact ((hw.after ms₁).make _).refused_after (fun _ _ _ hs h => h.later hs) hcall
    (Request.nextTurn_atomic r (hw.after ms₁).store) hanswer

end Refused

theorem TurnsTaken.of_ok (h : w.TurnsTaken id) (hw : w.Sound)
    (hturns : (w.committed (Request.turns id)).length < 2 ^ 63 - 1) {i : Nat} {v : Int}
    {a : Answer} (hrequest : w.request? i = some (.nextTurn ⟨id, v⟩))
    (hanswer : w.answer? i = some (.ok a)) :
    ∃ n : Nat, (w.committed (Request.turns id))[n]? = some i ∧ v = 1 + n ∧
      ∃ t : TurnAnswer, a = .turned t ∧ t.version = v + 1 := by
  have hmem : i ∈ w.committed (Request.turns id) := by
    refine (mem_committed hrequest).mpr ⟨?_, by simp [Request.turns]⟩
    exact hw.mem_commits hrequest rfl (promises_of_answer hanswer)
  obtain ⟨n, hn⟩ := List.getElem?_of_mem hmem
  have hlt := (List.getElem?_eq_some_iff.mp hn).1
  obtain ⟨hsent, t, hpromise, ht⟩ := h.sent n i hn
  rw [hrequest] at hsent
  have hv : v = Word.wrap (1 + n) :=
    (TurnRequest.mk.inj (Request.nextTurn.inj (Option.some.inj hsent))).2
  have ha : a = .turned t := Except.ok.inj (hpromise.answer_eq hanswer)
  have hfits : Word.Fits (1 + (n : Int)) ∧ Word.Fits (2 + (n : Int)) := by
    simp only [Word.Fits, Word.low, Word.high]
    omega
  rw [Word.wrap_of_fits hfits.1] at hv
  rw [Word.wrap_of_fits hfits.2] at ht
  exact ⟨n, hn, hv, t, ha, by omega⟩

theorem TurnsTaken.unique_of_ok (h : w.TurnsTaken id) (hw : w.Sound)
    (hturns : (w.committed (Request.turns id)).length < 2 ^ 63 - 1) {i j : Nat} {v : Int}
    {a b : Answer} (hi : w.request? i = some (.nextTurn ⟨id, v⟩))
    (hj : w.request? j = some (.nextTurn ⟨id, v⟩)) (ha : w.answer? i = some (.ok a))
    (hb : w.answer? j = some (.ok b)) : i = j := by
  obtain ⟨m, hm, hv, -⟩ := h.of_ok hw hturns hi ha
  obtain ⟨n, hn, hv', -⟩ := h.of_ok hw hturns hj hb
  obtain rfl : m = n := by omega
  exact Option.some.inj (hm.symm.trans hn)

theorem TurnsTaken.version?_eq (h : w.TurnsTaken id) (hw : w.Sound)
    (hturns : (w.committed (Request.turns id)).length < 2 ^ 63 - 1)
    (hrow : ∃ row ∈ w.store.combats, row.combat.id = id) :
    w.store.version? id = some (1 + ((w.committed (Request.turns id)).length : Int)) := by
  obtain ⟨row, hrow, rfl⟩ := hrow
  rw [← h.count] at hturns
  rw [hw.store.version? hrow, hw.store.version_eq hrow hturns, h.count]

/-- If a call for a turn from the current version is refused though the combatants can be read,
the combat has taken a turn meanwhile. -/
theorem Sound.turns_lt_of_refused {w₀ w₁ w₂ : World} (h₀ : w₀.Sound) (h₁ : w₁.Sound)
    (hlater : w₀.store.Later w₁.store) (hlater' : w₁.store.Later w₂.store) {v : Int}
    (hv : w₀.store.version? id = some v) (hturns : w₂.store.turns id < 2 ^ 63 - 1)
    (hread : w₂.store.Readable id) {e : Refusal}
    (hrefused : Service.TurnRefused ⟨id, v⟩ w₁.store
      (.error e : Except Refusal Answer) w₂.store) :
    w₀.store.turns id < w₂.store.turns id := by
  obtain ⟨row, hrow, rfl, rfl⟩ := Store.mem_of_version? hv
  obtain ⟨row₁, hrow₁, hid₁⟩ := hlater.mem_combat hrow
  obtain ⟨e', hsame, hrefused⟩ := hrefused
  obtain rfl := Except.error.inj hsame
  obtain ⟨actual, -, hactual⟩ := (hrefused row₁ hrow₁ hid₁).resolve_left fun h => h.2 hread
  obtain ⟨-, hle, hlt⟩ := hactual hturns
  have hle₁ := hlater.turns_le row.combat.id
  have hle₂ := hlater'.turns_le row.combat.id
  have hversion := h₀.store.version_eq hrow (by omega)
  have hversion₁ := h₁.store.version_eq hrow₁ (by rw [hid₁]; omega)
  rw [hid₁] at hversion₁
  -- The version may have moved on before the call came in, or while it was open.
  by_cases hstill : row₁.combat.version = row.combat.version
  · have := hlt hstill
    dsimp only at this hle
    omega
  · omega

theorem Sound.exists_winner (hw : w.Sound) {ms : List Move} (htaken : (w.after ms).TurnsTaken id)
    (hturns : ((w.after ms).committed (Request.turns id)).length < 2 ^ 63 - 1) {i : Nat} {v : Int}
    (hv : w.store.version? id = some v) (hread : (w.after ms).store.Readable id)
    (hi : w.calls.length ≤ i) (hrequest : (w.after ms).request? i = some (.nextTurn ⟨id, v⟩))
    (hanswered : ∀ j, (w.after ms).request? j = some (.nextTurn ⟨id, v⟩) →
      ∃ a, (w.after ms).answer? j = some a) :
    ∃ j, (w.after ms).request? j = some (.nextTurn ⟨id, v⟩) ∧
      ∃ a, (w.after ms).answer? j = some (.ok a) := by
  obtain ⟨a, ha⟩ := hanswered i hrequest
  cases a with
  | ok a => exact ⟨i, hrequest, a, ha⟩
  | error e =>
      have hrefused := hw.turnRefused_after hi hrequest ha
      have hbound : (w.after ms).store.turns id < 2 ^ 63 - 1 := htaken.count ▸ hturns
      have hlt : w.store.turns id < (w.after ms).store.turns id := by
        obtain ⟨ms₁, ms₂, rfl, hrefused⟩ := hrefused
        have hlater := (hw.after ms₁).later_after ms₂
        rw [← after_append] at hlater
        exact hw.turns_lt_of_refused (hw.after ms₁) (hw.later_after ms₁) hlater hv hbound
          hread hrefused
      -- The turn after those that had been taken was taken from the version.
      obtain ⟨row, hrow, rfl, rfl⟩ := Store.mem_of_version? hv
      rw [htaken.count] at hlt
      obtain ⟨hsent, t, hpromise, -⟩ := htaken.sent _ _ (List.getElem?_eq_getElem hlt)
      rw [← hw.store.versions row hrow] at hsent
      obtain ⟨b, hb⟩ := hanswered _ hsent
      exact ⟨_, hsent, .turned t, hpromise.answer_eq hb ▸ hb⟩

theorem Sound.conflict_of_refused (hw : w.Sound) (hpending : w.TurnsPending) {ms : List Move}
    (hturns : (w.after ms).store.turns id < 2 ^ 63 - 1)
    (hrow : ∃ row ∈ w.store.combats, row.combat.id = id) {i : Nat} {v : Int} {e : Refusal}
    (hi : w.calls.length ≤ i) (hrequest : (w.after ms).request? i = some (.nextTurn ⟨id, v⟩))
    (hanswer : (w.after ms).answer? i = some (.error e)) :
    (e = .storage ∧ ¬(w.after ms).store.Readable id) ∨
      ∃ actual, e = .versionConflict id v actual ∧ actual ≠ v ∧ ∀ ms₁ ms₂, ms = ms₁ ++ ms₂ →
        i < (w.after ms₁).calls.length →
        (w.after ms₁).answer? i = none → (w.after ms₁).store.version? id = some v →
        v < actual := by
  obtain ⟨row, hrow, hid⟩ := hrow
  have hrefused := hw.turnRefused_after hi hrequest hanswer
  obtain hunread | ⟨actual, rfl, hne⟩ : (e = .storage ∧ ¬(w.after ms).store.Readable id) ∨
      ∃ actual, e = .versionConflict id v actual ∧ actual ≠ v := by
    obtain ⟨ms₁, ms₂, rfl, e', hsame, hrefused⟩ := hrefused
    obtain rfl := Except.error.inj hsame
    obtain ⟨row₁, hrow₁, hid₁⟩ := (hw.later_after ms₁).mem_combat hrow
    rcases hrefused row₁ hrow₁ (hid₁.trans hid) with hunread | ⟨actual, he, hactual⟩
    · exact .inl hunread
    · exact .inr ⟨actual, he, (hactual hturns).1⟩
  · exact .inl hunread
  · refine .inr ⟨actual, rfl, hne, fun ms₁ ms₂ heq hlt hopen hcurrent => ?_⟩
    subst heq
    rw [after_append] at hrequest hanswer hturns
    have hrequest₁ := request?_of_after hlt hrequest
    rcases (hw.after ms₁).overtaken_after (hpending.after hw ms₁) hrequest₁ hopen hcurrent
        hanswer with h | ⟨actual', h, hbounded⟩
    · simp at h
    · obtain ⟨-, -, rfl⟩ : id = id ∧ v = v ∧ actual = actual' := by simpa using h
      exact (hbounded hturns).1

end World

/-- What the version of a combat decides about the calls for its turns, from a world `w₀` on in
which the combat has been started. -/
structure TurnsLinearized (id : String) (w₀ : World) (during : List Move) (w : World) : Prop where
  version : w.store.version? id = some (1 + ((w.committed (Request.turns id)).length : Int))
  next : ∀ i v a, w.request? i = some (.nextTurn ⟨id, v⟩) → w.answer? i = some (.ok a) →
    ∃ t : TurnAnswer, a = .turned t ∧ t.version = v + 1
  /-- At most one call takes its turn from a version. -/
  unique : ∀ i j v a b, w.request? i = some (.nextTurn ⟨id, v⟩) →
    w.request? j = some (.nextTurn ⟨id, v⟩) → w.answer? i = some (.ok a) →
    w.answer? j = some (.ok b) → i = j
  /-- Of the calls that send the current version one takes its turn, once all are answered, if the
  combatants can be read. -/
  winner : w.store.Readable id → ∀ i v, w₀.store.version? id = some v → w₀.calls.length ≤ i →
    w.request? i = some (.nextTurn ⟨id, v⟩) →
    (∀ j, w.request? j = some (.nextTurn ⟨id, v⟩) → ∃ a, w.answer? j = some a) →
    ∃! j, w.request? j = some (.nextTurn ⟨id, v⟩) ∧ ∃ a, w.answer? j = some (.ok a)
  /-- All others are told a version other than theirs, and a greater one if theirs was the current
  one at any moment while they were open. -/
  refused : w.store.Readable id → ∀ i v e, w₀.calls.length ≤ i →
    w.request? i = some (.nextTurn ⟨id, v⟩) → w.answer? i = some (.error e) →
    ∃ actual, e = .versionConflict id v actual ∧ actual ≠ v ∧
      ∀ ms ms', during = ms ++ ms' → i < (w₀.after ms).calls.length →
        (w₀.after ms).answer? i = none → (w₀.after ms).store.version? id = some v → v < actual
  unchanged : ∀ i e ms ms', during = ms ++ .step i :: ms' → w.answer? i = some (.error e) →
    ((w₀.after ms).step i).store = (w₀.after ms).store

/-- Whatever calls race, the turns of a combat are taken one after the other, each from the
version that the one before it led to. -/
theorem Combat.turns_linearized (onFile : Bool) (before during : List Move) {row : CombatRow}
    (hrow : row ∈ ((World.opened onFile).after before).store.combats)
    (hturns : ((((World.opened onFile).after before).after during).committed
      (Request.turns row.combat.id)).length < 2 ^ 63 - 1) :
    TurnsLinearized row.combat.id ((World.opened onFile).after before) during
      (((World.opened onFile).after before).after during) := by
  have h₀ := (World.sound_opened onFile).after before
  have hpending₀ := (World.turnsPending_opened onFile).after (World.sound_opened onFile) before
  have htaken₀ := (World.sound_opened onFile).turnsTaken_after
    (World.turnsTaken_opened onFile row.combat.id) before
  generalize (World.opened onFile).after before = w₀ at *
  have h := h₀.after during
  have htaken := h₀.turnsTaken_after htaken₀ during
  have hlater := h₀.later_after during
  refine ⟨?_, ?_, ?_, ?_, ?_, ?_⟩
  · exact htaken.version?_eq h hturns (hlater.mem_combat hrow)
  · intro i v a hrequest hanswer
    obtain ⟨n, -, -, ht⟩ := htaken.of_ok h hturns hrequest hanswer
    exact ht
  · exact fun i j v a b => htaken.unique_of_ok h hturns
  · intro hread i v hv hi hrequest hanswered
    obtain ⟨j, hj, b, hb⟩ := h₀.exists_winner htaken hturns hv hread hi hrequest hanswered
    refine ⟨j, ⟨hj, b, hb⟩, ?_⟩
    rintro j' ⟨hj', b', hb'⟩
    exact htaken.unique_of_ok h hturns hj' hj hb' hb
  · intro hread i v e hi hrequest hanswer
    exact (h₀.conflict_of_refused hpending₀ (htaken.count ▸ hturns) ⟨row, hrow, rfl⟩ hi hrequest
      hanswer).resolve_left fun h => h.2 hread
  · intro i e ms ms' hduring hanswer
    rw [hduring] at hanswer
    exact h₀.unchanged_of_refused hanswer

/-- Two calls that send the same version, and both find it to be the current one. -/
def World.turnRace : List Move :=
  [.call (.nextTurn ⟨"combat-1", 1⟩), .call (.nextTurn ⟨"combat-1", 1⟩),
    .step 1, .step 2, .step 1, .step 2, .step 1, .step 2, .step 1, .step 2]

theorem Combat.turns_linearized_turnRace :
    let row : CombatRow := ⟨Combat.start "combat-1" "c" none, activeStatus⟩
    let w₀ := (World.opened false).after World.tiedMoves
    let w := w₀.after World.turnRace
    row ∈ w₀.store.combats ∧ (w.committed (Request.turns row.combat.id)).length < 2 ^ 63 - 1 ∧
      w.store.Readable row.combat.id ∧
      w.answer? 1 = some (.ok (.turned ⟨some ⟨"combatant-2", "Z", "us", 0, 0⟩, 1, 1, 2,
        "Combat next turn: Z - round 1, turn 2"⟩)) ∧
      w.answer? 2 = some (.error (.versionConflict "combat-1" 1 2)) ∧
      TurnsLinearized row.combat.id w₀ World.turnRace w := by
  intro row w₀ w
  have hw₀ : w₀ = World.tiedWorld := World.after_tiedMoves
  have hw : w = World.tiedWorld.after World.turnRace := by
    rw [← hw₀]
  have hrow : row ∈ w₀.store.combats := by
    rw [hw₀]
    exact List.mem_singleton_self row
  have hcommitted : w.committed (Request.turns row.combat.id) = [1] := by
    rw [hw]
    cbv
  have hturns : (w.committed (Request.turns row.combat.id)).length < 2 ^ 63 - 1 := by
    rw [hcommitted]
    decide
  have hundamaged : w.store.combatants.map Kept.damaged = [false, false, false] := by
    rw [hw]
    cbv
  have hread : w.store.Readable row.combat.id := by
    intro k hk _
    have hmem : k.damaged ∈ w.store.combatants.map Kept.damaged := List.mem_map_of_mem hk
    rw [hundamaged] at hmem
    simpa using hmem
  have hgranted : w.answer? 1 =
      some (.ok (.turned ⟨some ⟨"combatant-2", "Z", "us", 0, 0⟩, 1, 1, 2,
        "Combat next turn: Z - round 1, turn 2"⟩)) := by
    rw [hw]
    cbv
  have hrefused : w.answer? 2 = some (.error (.versionConflict "combat-1" 1 2)) := by
    rw [hw]
    cbv
  exact ⟨hrow, hturns, hread, hgranted, hrefused,
    Combat.turns_linearized false World.tiedMoves World.turnRace hrow hturns⟩

end Gamemaster
