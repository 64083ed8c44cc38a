import Gamemaster.Proofs.Task.Atomic

namespace Gamemaster

namespace Task

theorem run_bind (t : Task α) (f : α → Task β) (s : Store) :
    (t.bind f).run s =
      { (f (t.run s).answer).run (t.run s).store with
        published :=
          (t.run s).published ++ ((f (t.run s).answer).run (t.run s).store).published } := by
  induction t generalizing s with
  | done a => rfl
  | step effect next ih => exact ih s (effect s)
  | publish e next ih =>
      simp only [bind, run, ih s]
      rfl

theorem Settled.run {t : Task α} {a : α} (h : t.Settled a) (s : Store) :
    (t.run s).answer = a ∧ (t.run s).store = s := by
  induction h with
  | done => exact ⟨rfl, rfl⟩
  | publish _ ih => exact ih

/-- An atomic task that nothing interrupts takes effect on the store that it found, or it leaves
the store alone and publishes nothing. -/
theorem Atomic.run {Q : α → Store → Prop} {E : α → Store → Store → Prop} {t : Task α} {s : Store}
    (h : t.Atomic Q E s) (hs : s.Sound) :
    (t.run s = ⟨(t.run s).answer, s, []⟩ ∧ Q (t.run s).answer s) ∨
      E (t.run s).answer s (t.run s).store := by
  induction t with
  | done a => exact .inl ⟨rfl, h⟩
  | publish e next ih => exact h.elim
  | step effect next ih =>
      rcases h s (.refl s) hs with ⟨hread, hnext⟩ | ⟨a, heffect, hsettled⟩
      · have hrun : (step effect next).run s = (next s).run s := congrArg (next s).run hread
        rw [hrun]
        exact ih s hnext
      · obtain ⟨hanswer, hstore⟩ := hsettled.run (effect s)
        right
        change E ((next s).run (effect s)).answer s ((next s).run (effect s)).store
        rwa [hanswer, hstore]

/-- Whether the log of a store has grown by just the events that were published. -/
def Outcome.Tallies (o : Outcome α) (s : Store) : Prop :=
  o.store.log = s.log.map (· ++ o.published)

theorem tallies_done (a : α) (s : Store) : ((done a).run s).Tallies s := by
  cases hlog : s.log <;> simp [Outcome.Tallies, run, hlog]

theorem tallies_bind {t : Task α} {f : α → Task β} {s : Store} (ht : (t.run s).Tallies s)
    (hf : ((f (t.run s).answer).run (t.run s).store).Tallies (t.run s).store) :
    ((t.bind f).run s).Tallies s := by
  rw [run_bind, Outcome.Tallies, hf, ht, Option.map_map]
  simp [Function.comp_def]

end Task

namespace Service

theorem run_bind_of_read {x : Service α} {a : Except Refusal α} {s : Store}
    (f : α → Service β) : x.run.run s = ⟨a, s, []⟩ →
      (x >>= f).run.run s =
        match a with
        | .ok b => (f b).run.run s
        | .error e => ⟨.error e, s, []⟩ := by
  intro h
  change (x.run.bind _).run s = _
  rw [Task.run_bind, h]
  cases a <;> rfl

theorem run_query (question : Store → Except Refusal α) (s : Store) :
    (query question).run.run s = ⟨s.ask question, s, []⟩ := rfl

theorem run_bind_query (question : Store → Except Refusal α) (f : α → Service β) (s : Store) :
    (query question >>= f).run.run s =
      match s.ask question with
      | .ok a => (f a).run.run s
      | .error e => ⟨.error e, s, []⟩ :=
  run_bind_of_read f (run_query question s)

theorem run_bind_transact (change : Store → Except Refusal (α × Store)) (f : α → Service β)
    (s : Store) :
    (transact change >>= f).run.run s =
      match s.ask change with
      | .ok (a, s') => (f a).run.run s'
      | .error e => ⟨.error e, s, []⟩ := by
  change Task.run (ExceptT.bindCont _ ((s.ask change).map (·.1)))
    (match s.ask change with
      | .ok (_, s') => s'
      | .error _ => s) = _
  rcases s.ask change with e | ⟨a, s'⟩ <;> rfl

theorem run_map_answer (g : α → β) (x : Service α) (s : Store) :
    (do return g (← x) : Service β).run.run s =
      { x.run.run s with answer := (x.run.run s).answer.map g } := by
  rw [run_map, Task.run_bind]
  simp [Task.run]

/-- Whether a service logs what it publishes and nothing else. -/
def Tallies (x : Service α) : Prop := ∀ s, (x.run.run s).Tallies s

namespace Tallies

theorem pure (a : α) : Tallies (pure a) := Task.tallies_done _

theorem throw (e : Refusal) : Tallies (throw e : Service α) := Task.tallies_done _

theorem ofExcept (outcome : Except Refusal α) : Tallies (ofExcept outcome) := by
  cases outcome <;> exact Task.tallies_done _

theorem query (question : Store → Except Refusal α) : Tallies (query question) :=
  fun s => Task.tallies_done _ s

theorem bind {x : Service α} {f : α → Service β} (hx : Tallies x) (hf : ∀ a, Tallies (f a)) :
    Tallies (x >>= f) := by
  refine fun s => Task.tallies_bind (hx s) ?_
  cases (Task.run x s).answer with
  | error e => exact Task.tallies_done _ _
  | ok a => exact hf a _

theorem ite {p : Prop} [Decidable p] {x y : Service α} (hx : Tallies x) (hy : Tallies y) :
    Tallies (if p then x else y) := by
  split
  · exact hx
  · exact hy

theorem transact {change : Store → Except Refusal (α × Store)} {f : α → Service β}
    (h : ∀ s a s', change s = .ok (a, s') → ((f a).run.run s').Tallies s) :
    Tallies (transact change >>= f) := by
  intro s
  rw [run_bind_transact, Store.ask]
  split
  · rename_i a s' hask
    split at hask
    · exact h s a s' hask
    · simp at hask
  · exact Task.tallies_done _ s

end Tallies

theorem tallies_publish {e : Event} {s s₁ s' : Store} (a : α) (logged : s₁.append e = .ok s')
    (hlog : s₁.log = s.log) : ((do publish e; return a : Service α).run.run s').Tallies s := by
  obtain ⟨events, hevents, rfl⟩ := Store.eq_of_append logged
  change some (events ++ [e]) = s.log.map (· ++ [e])
  rw [← hlog, hevents]
  rfl

end Service

end Gamemaster
