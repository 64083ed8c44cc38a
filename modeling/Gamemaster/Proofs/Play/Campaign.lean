import Gamemaster.Proofs.Effect
import Gamemaster.Proofs.Task.Atomic

namespace Gamemaster.Service

theorem buildEncounter_atomic (r : EncounterRequest) (s : Store) :
    Atomic Refused (fun a => Effect (.buildEncounter r) (.built a)) (buildEncounter r) s := by
  unfold buildEncounter
  by_cases hcampaign : Text.isBlankText r.campaignId = true
  · rw [if_pos hcampaign]
    exact Atomic.throw (refused_error _ s)
  rw [if_neg hcampaign]
  by_cases hname : Text.isBlankText r.name = true
  · rw [if_pos hname]
    exact Atomic.throw (refused_error _ s)
  rw [if_neg hname]
  by_cases hnonempty : r.roster = []
  · rw [if_pos (by simp [hnonempty])]
    exact Atomic.throw (refused_error _ s)
  rw [if_neg (by simp [hnonempty])]
  cases hvalid : Roster.fault? r.roster with
  | some fault => exact Atomic.throw (refused_error _ s)
  | none =>
      refine Atomic.transact (fun s₁ b s' _ _ hchange => .inr ?_) fun s₁ e _ _ _ =>
        refused_error e s₁
      rcases hinserted : s₁.insertEncounter r.campaignId r.name r.difficulty r.notes r.roster with
        ⟨id, s₂⟩
      rw [hinserted] at hchange
      obtain ⟨rfl, hlogged⟩ := logged_eq_ok hchange
      refine ⟨_, ?_, settled_publish⟩
      exact .build (by simpa using hcampaign) (by simpa using hname) hnonempty hvalid
        hinserted hlogged

theorem createTable_atomic (r : TableRequest) (s : Store) :
    Atomic Refused (fun a => Effect (.createTable r) (.created a)) (createTable r) s := by
  unfold createTable
  by_cases hname : Text.isBlankText r.name = true
  · rw [if_pos hname]
    exact Atomic.throw (refused_error _ s)
  rw [if_neg hname]
  cases hdice : Dice.Formula.parse r.dice with
  | error fault => exact Atomic.throw (refused_error _ s)
  | ok formula =>
      dsimp only
      by_cases hnonempty : r.entries = []
      · rw [if_pos (by simp [hnonempty])]
        exact Atomic.throw (refused_error _ s)
      rw [if_neg (by simp [hnonempty])]
      cases hascending : RandomTable.descending? r.entries with
      | some e => exact Atomic.throw (refused_error _ s)
      | none =>
          refine Atomic.transact (fun s₁ b s' _ _ hchange => .inr ?_)
            fun s₁ e _ _ _ => refused_error e s₁
          rcases hinserted : s₁.insertTable r.campaignId r.name r.dice r.scope r.entries with
            ⟨id, s₂⟩
          rw [hinserted] at hchange
          obtain ⟨rfl, hlogged⟩ := logged_eq_ok hchange
          refine ⟨_, ?_, settled_publish⟩
          exact .create (by simpa using hname) hdice hnonempty hascending hinserted hlogged

theorem rollTable_reads (r : TableRollRequest) (fresh : String) (s : Store) :
    Reads (fun _ _ => True) (rollTable r fresh) s := by
  refine Reads.bind (Reads.query _ s) (fun found s' _ => ?_) fun _ _ _ => trivial
  cases found with
  | none => exact Reads.throw trivial
  | some table =>
      dsimp only
      split
      · exact Reads.throw trivial
      · exact Reads.ofExcept trivial

end Gamemaster.Service
