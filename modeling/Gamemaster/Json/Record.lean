import Gamemaster.Json.Reader
import Gamemaster.Number.Word
/-!
Reading records from JSON. A record is an object, in which unknown members are passed over unread
and a field is given at most once under any of its names, or a list of its fields in order, at
whose end fields with a default may be missing.
-/
namespace Gamemaster.Json

/-- A field of a record: its names, and whether a default stands in where it is missing. -/
structure Field where
  names : List String
  defaulted : Bool

def field (names : List String) : Field := ⟨names, false⟩

def defaultedField (names : List String) : Field := ⟨names, true⟩

namespace Written

/-- What is given to a field, if anything; `none` if it is given several times. -/
private def slot? (members : List (String × Written)) (f : Field) : Option (Option Written) :=
  match members.filter fun m => f.names.contains m.1 with
  | [] => some none
  | [m] => some (some m.2)
  | _ => none

/-- What is given to the fields, in order, by an object. -/
def objectSlots? (fields : List Field) : Written → Option (List (Option Written))
  | .object members => fields.mapM (slot? members)
  | _ => none

/-- What is given to the fields, in order, by an object or a list. -/
def slots? (fields : List Field) : Written → Option (List (Option Written))
  | .object members => fields.mapM (slot? members)
  | .list items =>
    let absent := fields.drop items.length
    if items.length ≤ fields.length ∧ absent.all Field.defaulted then
      some (items.map some ++ absent.map fun _ => none)
    else none
  | _ => none

def text? : Written → Option String
  | .text s => some s
  | _ => none

def bool? : Written → Option Bool
  | .bool b => some b
  | _ => none

def word? : Written → Option Int
  | .int n => if Word.Fits n then some n else none
  | _ => none

def natural? (limit : Nat) : Written → Option Nat
  | .int n => if 0 ≤ n ∧ n ≤ limit then some n.toNat else none
  | _ => none

def list? (item? : Written → Option α) : Written → Option (List α)
  | .list items => items.mapM item?
  | _ => none

def isNull : Written → Bool
  | .null => true
  | _ => false

def isEmpty : Written → Bool
  | .null => true
  | .object [] => true
  | _ => false

/-- A unit value named by a text, or by an object with that one key and a value that counts as a
unit. -/
def choice? (isUnit : Written → Bool) (named? : String → Option α) : Written → Option α
  | .text s => named? s
  | .object [(k, w)] => if isUnit w then named? k else none
  | _ => none

/-- What is given to a field, which an object names and a list has at a place. -/
def given? (names : List String) (place : Nat) : Written → Option Written
  | .object members => (members.find? fun m => names.contains m.1).map Prod.snd
  | .list items => items[place]?
  | _ => none

private theorem eq_of_slot? {members : List (String × Written)} {f : Field}
    {slot : Option Written} (h : slot? members f = some slot) :
    slot = (members.find? fun m => f.names.contains m.1).map Prod.snd := by
  rw [← List.head?_filter]
  unfold slot? at h
  split at h
  · rename_i hnone
    rw [hnone]
    exact (Option.some.inj h).symm
  · rename_i m hone
    rw [hone]
    exact (Option.some.inj h).symm
  · simp at h

private theorem getElem?_of_mapM {read? : α → Option β} {xs : List α} {ys : List β}
    (h : xs.mapM read? = some ys) {i : Nat} {x : α} (hx : xs[i]? = some x) :
    ∃ y, read? x = some y ∧ ys[i]? = some y := by
  induction xs generalizing i ys with
  | nil => simp at hx
  | cons x' xs ih =>
      rw [List.mapM_cons] at h
      obtain ⟨y, hy, h⟩ := Option.bind_eq_some_iff.mp h
      obtain ⟨ys', hys, h⟩ := Option.bind_eq_some_iff.mp h
      obtain rfl := Option.some.inj h
      cases i with
      | zero =>
          obtain rfl := Option.some.inj hx
          exact ⟨y, hy, rfl⟩
      | succ i => exact ih hys hx

theorem getElem?_slots? {fields : List Field} {w : Written} {slots : List (Option Written)}
    (h : w.slots? fields = some slots) {i : Nat} {f : Field} (hf : fields[i]? = some f) :
    slots[i]? = some (w.given? f.names i) := by
  cases w with
  | object members =>
      obtain ⟨slot, hslot, hi⟩ := getElem?_of_mapM h hf
      rw [hi, eq_of_slot? hslot]
      rfl
  | list items =>
      simp only [slots?, Option.ite_none_right_eq_some, Option.some.injEq] at h
      obtain ⟨-, rfl⟩ := h
      cases hitem : items[i]? with
      | some w =>
          have hlength : i < (items.map some).length := by
            simpa using (List.getElem?_eq_some_iff.mp hitem).1
          rw [List.getElem?_append_left hlength, List.getElem?_map, given?, hitem]
          rfl
      | none =>
          have hlength : items.length ≤ i := List.getElem?_eq_none_iff.mp hitem
          rw [List.getElem?_append_right (by simpa using hlength), List.length_map,
            List.getElem?_map, List.getElem?_drop, Nat.add_sub_cancel' hlength, hf, given?, hitem]
          rfl
  | _ => simp [slots?] at h

end Written

def required (read? : Written → Option α) (slot : Option Written) : Option α :=
  slot.bind read?

def optional (read? : Written → Option α) : Option Written → Option (Option α)
  | none => some none
  | some .null => some none
  | some w => (read? w).map some

def orDefault (default : α) (read? : Written → Option α) : Option Written → Option α
  | none => some default
  | some w => read? w

end Gamemaster.Json
