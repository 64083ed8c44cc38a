import Gamemaster.Proofs.Play.Assured

namespace Gamemaster

/-- What may happen to a world: a move, or a turn is committed to the row of a combat, whatever is
written by it. -/
inductive Deed where
  | move (m : Move)
  | overwrite (combatId : String) (t : Turn)

namespace World

/-- A turn that is not committed writes nothing. -/
def undergo (w : World) : Deed → World
  | .move m => w.make m
  | .overwrite combatId t => { w with store := (w.store.commitTurn? combatId t).getD w.store }

def through (w : World) (deeds : List Deed) : World := deeds.foldl undergo w

/-- What holds of every world that has come through any deeds. -/
structure Assured (w : World) : Prop where
  tidy : w.store.Tidy
  calls : ∀ (i : Nat) (r : Request) (t : Task (Except Refusal Answer)),
    w.calls[i]? = some ⟨r, t⟩ →
    t.Assures r.Assurance w.store

namespace Assured

variable {w : World}

theorem reaches_make (h : w.Assured) (m : Move) : w.store.Reaches (w.make m).store := by
  cases m with
  | call r => exact .refl _
  | step i =>
      change w.store.Reaches (w.step i).store
      cases hcall : w.calls[i]? with
      | none =>
          rw [step_of_none hcall]
          exact .refl _
      | some c =>
          rw [step_of_some hcall]
          exact ((h.calls i _ _ hcall).rest h.tidy).1

theorem make (h : w.Assured) (m : Move) : (w.make m).Assured := by
  have hreaches := h.reaches_make m
  refine ⟨hreaches.tidy h.tidy, fun i r t hcall => ?_⟩
  rcases call_cases hcall with ⟨-, -, rfl⟩ | ⟨t, hbefore, ⟨rfl, rfl⟩ | ⟨-, rfl⟩⟩
  · exact r.serve_assures _
  · have hstep : w.make (.step i) = _ := step_of_some hbefore
    rw [hstep]
    exact ((h.calls i r t hbefore).rest h.tidy).2
  · exact (h.calls i r t hbefore).later (fun _ _ _ hs hreaches ha => ha.later hs hreaches)
      h.tidy hreaches

theorem undergo (h : w.Assured) (d : Deed) : (w.undergo d).Assured := by
  cases d with
  | move m => exact h.make m
  | overwrite combatId t =>
      have hreaches : w.store.Reaches (w.undergo (.overwrite combatId t)).store := by
        change w.store.Reaches ((w.store.commitTurn? combatId t).getD w.store)
        cases hwritten : w.store.commitTurn? combatId t with
        | none => exact .refl _
        | some s => exact .of_write (.turn hwritten)
      exact ⟨hreaches.tidy h.tidy, fun i r task hcall => (h.calls i r task hcall).later
        (fun _ _ _ hs hreaches ha => ha.later hs hreaches) h.tidy hreaches⟩

theorem through (h : w.Assured) (deeds : List Deed) : (w.through deeds).Assured := by
  induction deeds generalizing w with
  | nil => exact h
  | cons d deeds ih => exact ih (h.undergo d)

end Assured

end World

end Gamemaster
