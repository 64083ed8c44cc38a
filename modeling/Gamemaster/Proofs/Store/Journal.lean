import Gamemaster.Store
import Mathlib.Data.List.Nodup
import Mathlib.Data.String.Basic
/-!
The event log as a table of rows that are stamped with the moment of each event. A page is ordered
by the stamps, as texts, and then by the numbers of the rows; as long as the clock does not go
back this is the order of the log.
-/
namespace Gamemaster

namespace Text

/-- The last digits of a number, as many as asked for. -/
def digits : Nat → Nat → List Char
  | 0, _ => []
  | width + 1, n => digits width (n / 10) ++ [Nat.digitChar (n % 10)]

@[simp] theorem length_digits (width n : Nat) : (digits width n).length = width := by
  induction width generalizing n with
  | zero => rfl
  | succ width ih => simp [digits, ih]

theorem digitChar_lt {m n : Nat} (h : m < n) (hn : n < 10) :
    Nat.digitChar m < Nat.digitChar n := by
  have hdigits : ∀ n < 10, ∀ m < n, Nat.digitChar m < Nat.digitChar n := by decide
  exact hdigits n hn m h

theorem append_lt_append {xs ys : List Char} (h : xs < ys) (hlength : xs.length = ys.length)
    (xs' ys' : List Char) :
    xs ++ xs' < ys ++ ys' := by
  induction xs generalizing ys with
  | nil =>
      obtain rfl := List.eq_nil_of_length_eq_zero hlength.symm
      exact absurd h (List.not_lt_nil _)
  | cons x xs ih =>
      cases ys with
      | nil => exact absurd h (List.not_lt_nil _)
      | cons y ys =>
          rw [List.cons_append, List.cons_append, List.cons_lt_cons_iff]
          rcases List.cons_lt_cons_iff.mp h with hlt | ⟨rfl, hlt⟩
          · exact .inl hlt
          · exact .inr ⟨rfl, ih hlt (Nat.succ.inj hlength)⟩

theorem digits_lt {width m n : Nat} (h : m < n) (hn : n < 10 ^ width) :
    digits width m < digits width n := by
  induction width generalizing m n with
  | zero => simp at hn; omega
  | succ width ih =>
      rw [Nat.pow_succ] at hn
      rcases Nat.lt_or_eq_of_le (Nat.div_le_div_right (c := 10) (Nat.le_of_lt h)) with hlt | heq
      · exact append_lt_append (ih hlt (by omega)) (by simp) _ _
      · rw [digits, digits, heq]
        exact List.append_left_lt
          (List.cons_lt_cons_iff.mpr (.inl (digitChar_lt (by omega) (by omega))))

end Text

structure Instant where
  year : Fin 10000
  month : Fin 13
  day : Fin 32
  hour : Fin 24
  minute : Fin 60
  second : Fin 60
  millisecond : Fin 1000
  microsecond : Fin 1000
  nanosecond : Fin 1000

namespace Instant

open Text (digits)

/-- The parts of a second, down to the smallest. -/
def split (t : Instant) : List Nat := [t.millisecond, t.microsecond, t.nanosecond]

def parts (t : Instant) : List Nat :=
  t.year :: t.month :: t.day :: t.hour :: t.minute :: t.second :: t.split

instance : LE Instant := ⟨fun t u => t = u ∨ t.parts < u.parts⟩

/-- Three digits for each number, as far as there is one that is not zero. -/
def groups : List Nat → List Char
  | [] => []
  | g :: gs => if ∀ n ∈ g :: gs, n = 0 then [] else digits 3 g ++ groups gs

def fraction (gs : List Nat) : List Char :=
  if ∀ n ∈ gs, n = 0 then [] else '.' :: groups gs

def zone : List Char := "+00:00".toList

def text (t : Instant) : String :=
  String.ofList
    (digits 4 t.year ++ ('-' :: (digits 2 t.month ++ ('-' :: (digits 2 t.day ++ ('T' ::
      (digits 2 t.hour ++ (':' :: (digits 2 t.minute ++ (':' :: (digits 2 t.second ++
        (fraction t.split ++ zone))))))))))))

theorem not_zero_of_lt {gs hs : List Nat} (h : gs < hs) (hlength : gs.length = hs.length) :
    ¬∀ n ∈ hs, n = 0 := by
  induction gs generalizing hs with
  | nil =>
      obtain rfl := List.eq_nil_of_length_eq_zero hlength.symm
      exact absurd h (List.not_lt_nil _)
  | cons g gs ih =>
      cases hs with
      | nil => exact absurd h (List.not_lt_nil _)
      | cons k hs =>
          intro hzero
          rcases List.cons_lt_cons_iff.mp h with hlt | ⟨-, hlt⟩
          · exact Nat.not_lt_zero g (hzero k List.mem_cons_self ▸ hlt)
          · exact ih hlt (Nat.succ.inj hlength) fun n hn => hzero n (List.mem_cons_of_mem k hn)

theorem zone_lt_digits (n : Nat) (rest : List Char) : zone < digits 3 n ++ rest := by
  have hdigits : ∀ d < 10, '+' < Nat.digitChar d := by decide
  exact List.cons_lt_cons_iff.mpr (.inl (hdigits _ (Nat.mod_lt _ (by decide))))

theorem groups_lt {gs hs : List Nat} (h : gs < hs) (hlength : gs.length = hs.length)
    (hbound : ∀ n ∈ hs, n < 1000) :
    groups gs ++ zone < groups hs ++ zone := by
  induction gs generalizing hs with
  | nil =>
      obtain rfl := List.eq_nil_of_length_eq_zero hlength.symm
      exact absurd h (List.not_lt_nil _)
  | cons g gs ih =>
      cases hs with
      | nil => exact absurd h (List.not_lt_nil _)
      | cons k hs =>
          rw [groups, groups, if_neg (not_zero_of_lt h hlength), List.append_assoc]
          split
          · exact zone_lt_digits k _
          rw [List.append_assoc]
          rcases List.cons_lt_cons_iff.mp h with hlt | ⟨rfl, hlt⟩
          · exact Text.append_lt_append (Text.digits_lt hlt (hbound k List.mem_cons_self))
              (by simp) _ _
          · exact List.append_left_lt
              (ih hlt (Nat.succ.inj hlength) fun n hn => hbound n (List.mem_cons_of_mem g hn))

theorem fraction_lt {gs hs : List Nat} (h : gs < hs) (hlength : gs.length = hs.length)
    (hbound : ∀ n ∈ hs, n < 1000) :
    fraction gs ++ zone < fraction hs ++ zone := by
  rw [fraction, fraction, if_neg (not_zero_of_lt h hlength)]
  split
  · exact List.cons_lt_cons_iff.mpr (.inl (by decide))
  · exact List.cons_lt_cons_iff.mpr (.inr ⟨rfl, groups_lt h hlength hbound⟩)

theorem part_lt {width m n : Nat} {ms ns : List Nat} {xs ys : List Char} (h : m :: ms < n :: ns)
    (hn : n < 10 ^ width) (hrest : ms < ns → xs < ys) :
    digits width m ++ xs < digits width n ++ ys := by
  rcases List.cons_lt_cons_iff.mp h with hlt | ⟨rfl, hlt⟩
  · exact Text.append_lt_append (Text.digits_lt hlt hn) (by simp) _ _
  · exact List.append_left_lt (hrest hlt)

theorem mark_lt (c : Char) {xs ys : List Char} (h : xs < ys) : c :: xs < c :: ys :=
  List.cons_lt_cons_iff.mpr (.inr ⟨rfl, h⟩)

theorem text_lt {t u : Instant} (h : t.parts < u.parts) : t.text < u.text := by
  rw [String.lt_iff_toList_lt, text, text, String.toList_ofList, String.toList_ofList]
  refine part_lt h u.year.isLt fun h => mark_lt '-' ?_
  refine part_lt h (by omega) fun h => mark_lt '-' ?_
  refine part_lt h (by omega) fun h => mark_lt 'T' ?_
  refine part_lt h (by omega) fun h => mark_lt ':' ?_
  refine part_lt h (by omega) fun h => mark_lt ':' ?_
  refine part_lt h (by omega) fun h => fraction_lt h rfl ?_
  simp [split]

end Instant

/-- An event as it lies in the table of events. Rows are numbered as they are added. -/
structure EventRow where
  number : Nat
  event : Event
  recordedAt : String

namespace EventRow

/-- Whether a row stands before another on a page: it is stamped later, or alike and added
later. -/
def precedes (a b : EventRow) : Bool :=
  decide (b.recordedAt < a.recordedAt ∨ b.recordedAt = a.recordedAt ∧ b.number ≤ a.number)

def page (campaignId : String) (limit : Nat) (rows : List EventRow) : List Event :=
  (((rows.filter fun r => r.event.campaignId = some campaignId).mergeSort precedes).take
    limit).map event

/-- The rows of events, each stamped with the time of a clock. -/
def record (clock : Nat → Instant) (events : List Event) : List EventRow :=
  events.mapIdx fun i e => ⟨i, e, (clock i).text⟩

theorem precedes_iff {a b : EventRow} :
    a.precedes b = true ↔ b.recordedAt < a.recordedAt ∨ b.recordedAt = a.recordedAt ∧
    b.number ≤ a.number :=
  decide_eq_true_iff

theorem precedes_trans {a b c : EventRow} (hab : a.precedes b = true)
    (hbc : b.precedes c = true) :
    a.precedes c = true := by
  rw [precedes_iff] at *
  rcases hab with hab | ⟨hab, hnumber⟩
  · rcases hbc with hbc | ⟨hbc, -⟩
    · exact .inl (hbc.trans hab)
    · exact .inl (hbc ▸ hab)
  · rcases hbc with hbc | ⟨hbc, hnumber'⟩
    · exact .inl (hab ▸ hbc)
    · exact .inr ⟨hbc.trans hab, hnumber'.trans hnumber⟩

theorem precedes_total (a b : EventRow) : (a.precedes b || b.precedes a) = true := by
  rw [Bool.or_eq_true, precedes_iff, precedes_iff]
  rcases lt_trichotomy a.recordedAt b.recordedAt with hlt | heq | hlt
  · exact .inr (.inl hlt)
  · rcases Nat.le_total a.number b.number with hle | hle
    · exact .inr (.inr ⟨heq, hle⟩)
    · exact .inl (.inr ⟨heq.symm, hle⟩)
  · exact .inl (.inl hlt)

theorem number_eq {a b : EventRow} (hab : a.precedes b = true) (hba : b.precedes a = true) :
    a.number = b.number := by
  rw [precedes_iff] at *
  rcases hab with hab | ⟨hab, hle⟩
  · rcases hba with hba | ⟨hba, -⟩
    · exact absurd hba hab.asymm
    · exact absurd hba.symm hab.ne
  · rcases hba with hba | ⟨-, hle'⟩
    · exact absurd hab hba.ne'
    · exact Nat.le_antisymm hle' hle

variable {clock : Nat → Instant}

theorem pairwise_record (hclock : ∀ i j, i ≤ j → clock i ≤ clock j) (events : List Event) :
    (record clock events).Pairwise fun a b => b.precedes a = true ∧ a.number < b.number := by
  rw [List.pairwise_iff_getElem]
  intro i j hi hj hij
  simp only [record, List.getElem_mapIdx, precedes_iff]
  refine ⟨?_, hij⟩
  rcases hclock i j (Nat.le_of_lt hij) with heq | hlt
  · exact .inr ⟨by rw [heq], Nat.le_of_lt hij⟩
  · exact .inl (Instant.text_lt hlt)

theorem map_event_record (clock : Nat → Instant) (events : List Event) :
    (record clock events).map event = events := by
  refine List.ext_getElem (by simp [record]) fun i hi hi' => ?_
  simp [record]

/-- In whatever order the rows lie, the page shows the newest events of the campaign first. -/
theorem page_of_perm (hclock : ∀ i j, i ≤ j → clock i ≤ clock j) {events : List Event}
    {rows : List EventRow} (hrows : rows.Perm (record clock events)) (campaignId : String)
    (limit : Nat) :
    page campaignId limit rows =
      (events.reverse.filter fun e => e.campaignId = some campaignId).take limit := by
  let own : EventRow → Bool := fun r => r.event.campaignId = some campaignId
  have hpairwise := (pairwise_record hclock events).sublist (List.filter_sublist (p := own))
  have hperm : ((rows.filter own).mergeSort precedes).Perm ((record clock events).filter own) :=
    (List.mergeSort_perm _ _).trans (hrows.filter own)
  have hmerged : ((rows.filter own).mergeSort precedes).Pairwise fun a b => a.precedes b = true :=
    List.pairwise_mergeSort (fun a b c => @precedes_trans a b c) precedes_total _
  have hreversed :
      ((record clock events).filter own).reverse.Pairwise fun a b => a.precedes b = true :=
    List.pairwise_reverse.mpr (hpairwise.imp fun h => h.1)
  -- Numbers settle every tie between instants, so the rows have one order only.
  have hnumbers : (((record clock events).filter own).map number).Nodup :=
    List.pairwise_map.mpr (hpairwise.imp fun h => Nat.ne_of_lt h.2)
  have hsorted :
      (rows.filter own).mergeSort precedes = ((record clock events).filter own).reverse := by
    refine List.Perm.eq_of_pairwise (fun a b ha hb hab hba => ?_) hmerged hreversed
      (hperm.trans (List.reverse_perm _).symm)
    exact List.inj_on_of_nodup_map hnumbers (hperm.mem_iff.mp ha) (List.mem_reverse.mp hb)
      (number_eq hab hba)
  calc page campaignId limit rows
      = (((rows.filter own).mergeSort precedes).take limit).map event := rfl
    _ = ((((record clock events).filter own).map event).reverse).take limit := by
        rw [hsorted, List.map_take, List.map_reverse]
    _ = ((events.filter fun e => e.campaignId = some campaignId).reverse).take limit := by
        conv_rhs => rw [← map_event_record clock events, List.filter_map]
        rfl
    _ = (events.reverse.filter fun e => e.campaignId = some campaignId).take limit := by
        rw [List.filter_reverse]

end EventRow

end Gamemaster
