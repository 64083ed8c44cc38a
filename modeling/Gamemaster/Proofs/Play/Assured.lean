import Gamemaster.Proofs.Combat.Schedule
import Gamemaster.Proofs.Task.Assures
import Gamemaster.Proofs.World.Audit

namespace Gamemaster

theorem Store.Tidy.combat?_cases {s : Store} (h : s.Tidy) (id : String) :
    s.combat? id = .ok none ∨
      ∃ row ∈ s.combats, row.combat.id = id ∧ s.combat? id = .ok (some row.combat) := by
  cases hfind : s.combats.find? fun r => r.combat.id = id with
  | none => exact .inl (by simp [Store.combat?, hfind])
  | some row =>
      have hrow := List.mem_of_find?_eq_some hfind
      obtain rfl : row.combat.id = id := by simpa using List.find?_some hfind
      exact .inr ⟨row, hrow, rfl, h.combat? hrow⟩

namespace Service

variable {s : Store}

theorem rosterOf_assures (r : StartRequest) (s : Store) :
    Assures (fun a _ => ∀ roster, a = .ok roster → r.roster ≠ [] → roster = r.roster)
      (rosterOf r) s := by
  unfold rosterOf
  split
  · exact .pure fun roster ha _ => (Except.ok.inj ha).symm
  · rename_i hown
    have hnil : r.roster = [] := by simpa using hown
    split
    · exact .pure fun _ _ hne => absurd hnil hne
    · refine .bind (P := fun _ _ => True) (.query fun _ _ _ => trivial) (fun found s' _ => ?_)
        fun _ _ _ _ _ hne => absurd hnil hne
      split
      · exact .throw fun _ _ hne => absurd hnil hne
      · exact .pure fun _ _ hne => absurd hnil hne

/-- What a start has done to the store that is answered: its combat musters the rows that it has
inserted. -/
def Mustered (r : StartRequest) (a : StartAnswer) (s : Store) : Prop :=
  ∃ roster rows, r.Enters a roster rows ∧ s.Musters a.combatId rows

theorem start_assures (r : StartRequest) (s : Store) :
    Assures (fun a s => ∀ b, a = .ok b → Mustered r b s) (start r) s := by
  unfold start
  by_cases hcampaign : Text.isBlankText r.campaignId = true
  · rw [if_pos hcampaign]
    exact .throw nofun
  rw [if_neg hcampaign]
  refine .bind (rosterOf_assures r s) (fun roster s₁ hown => ?_) fun _ _ _ => nofun
  by_cases hnonempty : roster = []
  · rw [if_pos (by simp [hnonempty])]
    exact .throw nofun
  rw [if_neg (by simp [hnonempty])]
  cases Roster.fault? roster with
  | some fault => exact .throw nofun
  | none =>
      refine .bind (P := fun a s => ∀ b, a = .ok b → Mustered r b.1 s) ?_ (fun b s₃ hb => ?_)
        fun _ _ _ => nofun
      · refine .transact (fun s₂ b s₃ _ htidy hchange => ?_) fun _ _ _ => nofun
        rcases hinserted : s₂.insertCombat r.campaignId r.encounterId roster with
          ⟨⟨combat, combatants⟩, s'⟩
        rw [hinserted] at hchange
        obtain ⟨rfl, hlogged⟩ := logged_eq_ok hchange
        have hwrite : s₂.Write s' := .start hnonempty hinserted
        have hnote : s'.Reaches s₃ := .of_write (.note hlogged)
        refine ⟨.of_logged hwrite hlogged, fun b hb => ?_⟩
        obtain rfl := Except.ok.inj hb
        exact ⟨roster, _, r.enters_inserted (hown roster rfl) hinserted,
          hnote.musters (hwrite.tidy htidy) (Store.musters_inserted htidy hinserted)⟩
      · exact .bind (P := fun _ s => Mustered r b.1 s) (.publish _ (hb b rfl))
          (fun _ _ hmustered => .pure fun _ ha => Except.ok.inj ha ▸ hmustered) fun _ _ _ => nofun

/-- That others may write anything makes no step of a request anything but a row of writes. -/
def Writes (x : Service α) : Prop := ∀ s, Assures (fun _ _ => True) x s

namespace Writes

theorem pure (a : α) : Writes (pure a) := fun _ => .pure trivial

theorem throw (e : Refusal) : Writes (throw e : Service α) := fun _ => .throw trivial

theorem query (question : Store → Except Refusal α) : Writes (query question) :=
  fun _ => .query fun _ _ _ => trivial

theorem publish (e : Event) : Writes (publish e) := fun _ => .publish e trivial

theorem ofExcept (outcome : Except Refusal α) : Writes (ofExcept outcome) :=
  fun _ => .ofExcept trivial

theorem bind {x : Service α} {f : α → Service β} (hx : Writes x) (hf : ∀ a, Writes (f a)) :
    Writes (x >>= f) :=
  fun s => (hx s).bind (fun a s' _ => hf a s') fun _ _ _ => trivial

theorem ite {p : Prop} [Decidable p] {x y : Service α} (hx : Writes x) (hy : Writes y) :
    Writes (if p then x else y) := by
  split
  · exact hx
  · exact hy

theorem transact {change : Store → Except Refusal (α × Store)}
    (h : ∀ s a s', change s = .ok (a, s') → s.Reaches s') : Writes (transact change) :=
  fun _ =>
    .transact (fun s' a s'' _ _ hchange => ⟨h s' a s'' hchange, trivial⟩) fun _ _ _ => trivial

end Writes

theorem buildEncounter_writes (r : EncounterRequest) : Writes (buildEncounter r) := by
  unfold buildEncounter
  refine .ite (.throw _) (.ite (.throw _) (.ite (.throw _) ?_))
  cases Roster.fault? r.roster with
  | some fault => exact .throw _
  | none =>
      refine .bind (.transact fun s a s' hchange => ?_) fun _ =>
        .bind (.publish _) fun _ => .pure _
      obtain ⟨-, hlogged⟩ := logged_eq_ok hchange
      exact .of_logged (.build rfl) hlogged

theorem createTable_writes (r : TableRequest) : Writes (createTable r) := by
  unfold createTable
  refine .ite (.throw _) ?_
  cases Dice.Formula.parse r.dice with
  | error fault => exact .throw _
  | ok formula =>
      refine .ite (.throw _) ?_
      cases RandomTable.descending? r.entries with
      | some e => exact .throw _
      | none =>
          refine .bind (.transact fun s a s' hchange => ?_) fun _ =>
            .bind (.publish _) fun _ => .pure _
          obtain ⟨-, hlogged⟩ := logged_eq_ok hchange
          exact .of_logged (.create rfl) hlogged

theorem attempt_writes (r : ActionRequest) (action : Action) (campaignId : Option String)
    (attempts : Nat) (c : Combatant) : Writes (attempt r action campaignId attempts c) := by
  induction attempts generalizing c with
  | zero => exact .throw _
  | succ attempts ih =>
      rw [attempt_succ]
      refine .bind (.transact fun s committed s' hchange => ?_) fun committed => ?_
      · rcases write_eq_ok hchange with ⟨-, -, rfl⟩ | ⟨-, s₁, hwritten, hlogged⟩
        · exact .refl _
        · exact .of_logged (.act hwritten) hlogged
      · refine .ite (.bind (.publish _) fun _ => .pure _) (.ite (.throw _) (.bind ?_ ih))
        rw [locate_eq_query]
        exact .query _

theorem applyAction_writes (r : ActionRequest) : Writes (applyAction r) := by
  unfold applyAction
  rw [locate_eq_query]
  refine .bind (.query _) fun c => ?_
  split
  · exact .throw _
  · exact .bind (.query _) fun combat => attempt_writes r _ _ _ c

theorem findCombat_writes (id : String) : Writes (findCombat id) := by
  refine .bind (.query _) fun found => ?_
  split
  · exact .throw _
  · exact .pure _

theorem view_writes (combatId : String) : Writes (view combatId) :=
  .bind (findCombat_writes _) fun _ => .bind (.query _) fun _ => .pure _

theorem rollTable_writes (r : TableRollRequest) (fresh : String) :
    Writes (rollTable r fresh) := by
  refine .bind (.query _) fun found => ?_
  split
  · exact .throw _
  · exact .ite (.throw _) (.ofExcept _)

/-- What may be answered to a turn request: never that a combat is without combatants, and never a
turn of nobody. -/
def TurnOfOne (r : TurnRequest) (a : Except Refusal TurnAnswer) (s : Store) : Prop :=
  a ≠ .error .noCombatants ∧
    ∀ b, a = .ok b → ∃ rows, s.Musters r.combatId rows ∧ (rows.length < 2 ^ 63 → b.active ≠ none)

theorem turnOfOne_error {r : TurnRequest} {e : Refusal} (h : e ≠ .noCombatants) (s : Store) :
    TurnOfOne r (.error e) s :=
  ⟨fun he => h (Except.error.inj he), nofun⟩

theorem findCombat_assures (id : String) (s : Store) :
    Assures (fun a s => a = .error (.notFound .combat id) ∨
      ∃ row ∈ s.combats, row.combat.id = id ∧ a = .ok row.combat) (findCombat id) s := by
  refine .bind (P := fun a s => a = .ok none ∨ ∃ row ∈ s.combats, row.combat.id = id ∧
    a = .ok (some row.combat))
    (.query fun s' _ htidy => htidy.combat?_cases id) (fun found s' hfound => ?_)
      fun e s' he => ?_
  · rcases hfound with hfound | ⟨row, hrow, hid, hfound⟩
    · obtain rfl := Except.ok.inj hfound
      exact .throw (.inl rfl)
    · obtain rfl := Except.ok.inj hfound
      exact .pure (.inr ⟨row, hrow, hid, rfl⟩)
  · rcases he with he | ⟨_, _, _, he⟩ <;> cases he

theorem ofTurn_assures (turn : Except TurnFault α) (s : Store) :
    Assures (fun a s' => a = turn.mapError Refusal.ofTurnFault ∧ s' = s) (ofTurn turn) s := by
  cases turn <;> exact ⟨rfl, rfl⟩

theorem eq_ok_of_mapError {x : Except TurnFault α} {a : α}
    (h : x.mapError Refusal.ofTurnFault = .ok a) :
    x = .ok a := by
  cases x with
  | error fault => cases h
  | ok b => exact congrArg Except.ok (Except.ok.inj h)

theorem mapError_checkVersion_ne (c : Combat) (observed : Int) :
    (c.checkVersion observed).mapError Refusal.ofTurnFault ≠ .error .noCombatants := by
  unfold Combat.checkVersion
  split <;> simp [Except.mapError, Refusal.ofTurnFault]

/-- Where there are combatants, a turn is refused for its version only. -/
theorem mapError_advance_ne {c : Combat} {observed : Int} {count : Nat} (h : count ≠ 0) :
    (c.advance observed count).mapError Refusal.ofTurnFault ≠ .error .noCombatants := by
  by_cases hversion : observed = c.version
  · obtain ⟨t, ht⟩ := c.exists_advance h
    rw [hversion, ht]
    exact nofun
  · simp [Combat.advance, Combat.checkVersion, hversion, bind, Except.bind, Except.mapError,
      Refusal.ofTurnFault]

theorem turnReport_active_ne {c : Combat} {observed : Int} {order : List Combatant} {t : Turn}
    (h : c.advance observed order.length = .ok t) (hlength : order.length < 2 ^ 63) :
    (turnReport (c.take t) order).1.active ≠ none := by
  change (itemAt? order t.turnIndex).map ActiveCombatant.of ≠ none
  rw [Ne, Option.map_eq_none_iff]
  exact Option.isSome_iff_ne_none.mp (Combat.isSome_advance h hlength)

theorem write_eq_error {written : Option Store} {event : Event} {s : Store} {e : Refusal}
    (h : (match written with
      | none => return (false, s)
      | some s₁ => return (true, ← s₁.append event) : Except Refusal (Bool × Store)) = .error e) :
    e = .storage := by
  cases written with
  | none => simp [pure, Except.pure] at h
  | some s₁ =>
      cases hlog : s₁.log with
      | none => simpa [Store.append, hlog, bind, Except.bind, eq_comm] using h
      | some events => simp [Store.append, hlog, bind, Except.bind, pure, Except.pure] at h

theorem written_assures {written : Store → Option Store} {event : Event} {answer : α}
    {otherwise : Service α} {Q : Except Refusal α → Store → Prop} {combatId : String}
    {rows : List (Kept Combatant)} (hwrite : ∀ s s', written s = some s' → s.Write s')
    (htidy : s.Tidy) (hmusters : s.Musters combatId rows)
    (hok : ∀ s', s'.Musters combatId rows → Q (.ok answer) s')
    (hstorage : ∀ s', Q (.error .storage) s') (hotherwise : ∀ s', Assures Q otherwise s') :
    Assures Q (transact (fun s => match written s with
        | none => return (false, s)
        | some s => return (true, ← s.append event)) >>= fun committed =>
      if committed then do
        publish event
        return answer
      else otherwise) s := by
  refine .bind (P := fun a s => (a = .ok true ∧ s.Musters combatId rows) ∨ a = .ok false ∨
    a = .error .storage)
    (.transact (fun s₁ committed s₂ hreaches htidy' hchange => ?_) fun s₁ e hchange => ?_)
    (fun committed s₁ hcommitted => ?_) fun e s₁ he => ?_
  · rcases write_eq_ok hchange with ⟨rfl, -, rfl⟩ | ⟨rfl, s', hwritten, hlogged⟩
    · exact ⟨.refl _, .inr (.inl rfl)⟩
    · have hwrites : s₁.Reaches s₂ := .of_logged (hwrite _ _ hwritten) hlogged
      exact ⟨hwrites, .inl ⟨rfl, hwrites.musters htidy' (hreaches.musters htidy hmusters)⟩⟩
  · rw [write_eq_error hchange]
    exact .inr (.inr rfl)
  · rcases hcommitted with ⟨hcommitted, hmusters⟩ | hcommitted | hcommitted
    · obtain rfl := Except.ok.inj hcommitted
      rw [if_pos rfl]
      exact hok s₁ hmusters
    · obtain rfl := Except.ok.inj hcommitted
      rw [if_neg Bool.false_ne_true]
      exact hotherwise s₁
    · cases hcommitted
  · rcases he with ⟨he, -⟩ | he | he
    · cases he
    · cases he
    · rw [Except.error.inj he]
      exact hstorage s₁

theorem query_order_assures {row : CombatRow} (hrow : row ∈ s.combats) :
    Assures (fun a s => a = .error .storage ∨ ∃ order, a = .ok order ∧ order ≠ [] ∧ s.Tidy ∧
      s.Musters row.combat.id (order.map Kept.intact)) (query
        (Store.combatantsOf row.combat.id)) s := by
  refine .query fun s₁ hreaches htidy => ?_
  obtain ⟨row', hrow', hid⟩ := hreaches.mem_combat hrow
  rw [Store.combatantsOf_eq]
  by_cases hread : s₁.Readable row.combat.id
  · rw [if_pos hread]
    refine .inr ⟨_, rfl, hid ▸ htidy.roster_ne_nil hrow', htidy, ⟨row', hrow', hid⟩, ?_,
      fun _ k hk hown _ => hread k hk hown⟩
    rw [List.map_map]
    rfl
  · rw [if_neg hread]
    exact .inl rfl

theorem turnFrom_assures (r : TurnRequest) {row : CombatRow} (hrow : row ∈ s.combats)
    (hid : row.combat.id = r.combatId) : Assures (TurnOfOne r) (turnFrom r row.combat) s := by
  refine .bind (query_order_assures hrow) (fun order s₁ horder => ?_) fun e s₁ he => ?_
  · obtain ⟨_, horder, hne, htidy, hmusters⟩ := horder.resolve_left nofun
    obtain rfl := Except.ok.inj horder
    have hlength : order.length ≠ 0 := List.length_eq_zero_iff.not.mpr hne
    refine .bind (ofTurn_assures _ s₁) (fun turn s₂ hturn => ?_) fun e s₂ he => ?_
    · obtain ⟨hturn, rfl⟩ := hturn
      have hadvanced := eq_ok_of_mapError hturn.symm
      refine written_assures (fun _ _ => .turn) htidy hmusters
        (fun s' hmusters => ⟨nofun, fun b hb => ?_⟩) (turnOfOne_error nofun) fun s' => ?_
      · obtain rfl := Except.ok.inj hb
        refine ⟨_, hid ▸ hmusters, fun hfits => turnReport_active_ne hadvanced ?_⟩
        rwa [List.length_map] at hfits
      · refine .bind (P := fun a _ => ∃ version, a = .ok version) (.query fun s₃ _ _ => ⟨_, rfl⟩)
          (fun version s₃ _ => .throw ?_) fun e s₃ he => ?_
        · exact turnOfOne_error Refusal.noConfusion s₃
        · obtain ⟨_, he⟩ := he
          cases he
    · refine turnOfOne_error (fun h => ?_) s₂
      exact mapError_advance_ne hlength (he.1.symm.trans (congrArg Except.error h))
  · refine turnOfOne_error ?_ s₁
    rcases he with he | ⟨_, he, _⟩
    · rw [Except.error.inj he]
      exact nofun
    · cases he

theorem nextTurn_assures (r : TurnRequest) (s : Store) :
    Assures (TurnOfOne r) (nextTurn r) s := by
  rw [nextTurn_eq]
  refine .bind (findCombat_assures r.combatId s) (fun combat s₁ hfound => ?_) fun e s₁ he => ?_
  · rcases hfound with hfound | ⟨row, hrow, hid, hfound⟩
    · cases hfound
    · obtain rfl := Except.ok.inj hfound
      refine .bind (ofTurn_assures _ s₁) (fun _ s₂ hchecked => ?_) fun e s₂ he => ?_
      · obtain ⟨-, rfl⟩ := hchecked
        exact turnFrom_assures r hrow hid
      · refine turnOfOne_error (fun h => ?_) s₂
        exact mapError_checkVersion_ne _ _ (he.1.symm.trans (congrArg Except.error h))
  · refine turnOfOne_error ?_ s₁
    rcases he with he | ⟨_, _, _, he⟩
    · rw [Except.error.inj he]
      exact nofun
    · cases he

end Service

namespace Request

/-- What a request assures of its answer and of the store, whatever others write. -/
def Assurance : Request → Except Refusal Answer → Store → Prop
  | start r, a, s => ∀ b, a = .ok (.started b) → Service.Mustered r b s
  | nextTurn r, a, s => a ≠ .error .noCombatants ∧
      ∀ b, a = .ok (.turned b) → ∃ rows, s.Musters r.combatId rows ∧
        (rows.length < 2 ^ 63 → b.active ≠ none)
  | _, _, _ => True

theorem Assurance.later {r : Request} {a : Except Refusal Answer} {s s' : Store} (hs : s.Tidy)
    (hreaches : s.Reaches s') (h : r.Assurance a s) : r.Assurance a s' := by
  cases r with
  | start r =>
      intro b hb
      obtain ⟨roster, rows, henters, hmusters⟩ := h b hb
      exact ⟨roster, rows, henters, hreaches.musters hs hmusters⟩
  | nextTurn r =>
      refine ⟨h.1, fun b hb => ?_⟩
      obtain ⟨rows, hmusters, hactive⟩ := h.2 b hb
      exact ⟨rows, hreaches.musters hs hmusters, hactive⟩
  | _ => trivial

theorem serve_assures (r : Request) (s : Store) : Service.Assures r.Assurance r.serve s := by
  cases r with
  | start r =>
      refine (Service.start_assures r s).map (fun b s' h c hc => ?_) fun _ _ _ => nofun
      exact Answer.started.inj (Except.ok.inj hc) ▸ h b rfl
  | nextTurn r =>
      refine (Service.nextTurn_assures r s).map (fun b s' h => ⟨nofun, fun c hc => ?_⟩)
        fun e s' h => ⟨fun he => h.1 (congrArg Except.error (Except.error.inj he)), nofun⟩
      exact Answer.turned.inj (Except.ok.inj hc) ▸ h.2 b rfl
  | act r => exact (Service.applyAction_writes r).bind (fun _ => .pure _) s
  | view combatId => exact (Service.view_writes combatId).bind (fun _ => .pure _) s
  | buildEncounter r => exact (Service.buildEncounter_writes r).bind (fun _ => .pure _) s
  | readEncounter id => exact (Service.Writes.query _).bind (fun _ => .pure _) s
  | createTable r => exact (Service.createTable_writes r).bind (fun _ => .pure _) s
  | readTable id => exact (Service.Writes.query _).bind (fun _ => .pure _) s
  | rollTable r fresh => exact (Service.rollTable_writes r fresh).bind (fun _ => .pure _) s
  | rollDice r fresh => exact (Service.Writes.ofExcept _).bind (fun _ => .pure _) s
  | recentEvents campaignId limit => exact (Service.Writes.query _).bind (fun _ => .pure _) s
  | health => exact (Service.Writes.query _).bind (fun _ => .pure _) s

end Request

end Gamemaster
