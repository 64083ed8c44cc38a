import Gamemaster.Number.Power
import Gamemaster.Summary
import Mathlib

namespace Gamemaster

/-- The sides of a roster, each of them once, those first whose first members come first. -/
structure FirstSeen (order sides : List String) : Prop where
  complete : ∀ side, side ∈ order ↔ side ∈ sides
  ordered : order.Pairwise fun s t => sides.idxOf s < sides.idxOf t

namespace FirstSeen

variable {order order' sides : List String} {side : String}

theorem nodup (h : FirstSeen order sides) : order.Nodup :=
  h.ordered.imp fun hlt heq => by simp [heq] at hlt

theorem unique (h : FirstSeen order sides) (h' : FirstSeen order' sides) : order = order' := by
  have hperm : order.Perm order' := by
    rw [List.perm_ext_iff_of_nodup h.nodup h'.nodup]
    exact fun side => (h.complete side).trans (h'.complete side).symm
  exact hperm.eq_of_pairwise (fun s t _ _ hst hts => absurd hst (Nat.lt_asymm hts))
    h.ordered h'.ordered

theorem nil : FirstSeen [] [] := ⟨fun _ => Iff.rfl, .nil⟩

end FirstSeen

section Counts

variable {order : List String} {side : String} (count : String → Nat)

end Counts

namespace Tally

end Tally

end Gamemaster
