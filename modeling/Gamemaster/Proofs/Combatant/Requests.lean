import Gamemaster.Action

namespace Gamemaster.Action

/-- How an action is asked for: by its tag, with an amount, a condition or a note that can be
read. -/
def AskedBy (tag : String) (value : Option ActionValue) (condition : Option String) :
    Action → Prop
  | damage amount => tag = "damage" ∧ amountOf tag value = .ok amount
  | heal amount => tag = "heal" ∧ amountOf tag value = .ok amount
  | tempHp amount => tag = "temp_hp" ∧ amountOf tag value = .ok amount
  | addCondition name => tag = "add_condition" ∧ conditionOf tag value condition = .ok name
  | removeCondition name => tag = "remove_condition" ∧ conditionOf tag value condition = .ok name
  | customNote text => tag = "custom_note" ∧ noteOf value condition = .ok text

variable {tag : String} {value : Option ActionValue} {condition : Option String} {action : Action}

theorem map_eq_ok_iff {x : Except ActionFault α} {f : α → Action} :
    x.map f = .ok action ↔ ∃ a, x = .ok a ∧ f a = action := by
  cases x <;> simp [Except.map]

theorem askedBy_of_request (h : ofRequest tag value condition = .ok action) :
    AskedBy tag value condition action := by
  unfold ofRequest at h
  split at h
  case h_7 => cases h
  -- The tags that are known: what is left of each is its amount, condition or note.
  all_goals
    obtain ⟨_, hread, rfl⟩ := map_eq_ok_iff.mp h
    exact ⟨rfl, hread⟩

theorem request_of_askedBy (h : AskedBy tag value condition action) :
    ofRequest tag value condition = .ok action := by
  cases action
  all_goals
    obtain ⟨rfl, hread⟩ := h
    exact map_eq_ok_iff.mpr ⟨_, hread, rfl⟩

/-- Each tag asks for one kind of action, and every kind can be asked for by its tag. -/
theorem ofRequest_eq_ok_iff :
    ofRequest tag value condition = .ok action ↔ AskedBy tag value condition action :=
  ⟨askedBy_of_request, request_of_askedBy⟩

theorem tag_of_request (h : ofRequest tag value condition = .ok action) : action.tag = tag := by
  have hasked := ofRequest_eq_ok_iff.mp h
  cases action <;> exact hasked.1.symm

end Gamemaster.Action
