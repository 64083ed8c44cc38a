import Gamemaster.Number.Power
/-!
Signed 64-bit arithmetic on `Int`. Scores, hit points, rounds and totals stay between `Word.low`
and `Word.high`; each operation says what it does at the ends: refuse (`add?`), stop (`addSat`) or
wrap.
-/
namespace Gamemaster.Word

def low : Int := -9223372036854775808

def high : Int := 9223372036854775807

def Fits (n : Int) : Prop := low ≤ n ∧ n ≤ high

instance (n : Int) : Decidable (Fits n) :=
  inferInstanceAs (Decidable (low ≤ n ∧ n ≤ high))

def clamp (n : Int) : Int := max low (min n high)

/-- The integer that fits and agrees with `n` modulo `2 ^ 64`. -/
def wrap (n : Int) : Int := n.bmod (2 ^ 64)

def addSat (a b : Int) : Int := clamp (a + b)

def subSat (a b : Int) : Int := clamp (a - b)

def mulSat (a b : Int) : Int := clamp (a * b)

def add? (a b : Int) : Option Int :=
  if Fits (a + b) then some (a + b) else none

theorem fits_clamp (n : Int) : Fits (clamp n) := by
  unfold Fits clamp low high
  omega

theorem wrap_of_fits {n : Int} (h : Fits n) : wrap n = n := by
  unfold Fits low high at h
  exact Int.bmod_eq_of_le (by omega) (by omega)

theorem wrap_wrap_add (a b : Int) : wrap (wrap a + b) = wrap (a + b) :=
  Int.bmod_add_bmod

theorem wrap_emod (n : Int) : wrap n % 2 ^ 64 = n % 2 ^ 64 :=
  Int.bmod_emod

theorem emod_eq_of_wrap_eq {a b : Int} (h : wrap a = wrap b) : a % 2 ^ 64 = b % 2 ^ 64 := by
  rw [← wrap_emod a, h, wrap_emod]

theorem add?_eq_some_iff {a b c : Int} : add? a b = some c ↔ Fits (a + b) ∧ c = a + b := by
  unfold add?
  split <;> simp_all [eq_comm]

end Gamemaster.Word
