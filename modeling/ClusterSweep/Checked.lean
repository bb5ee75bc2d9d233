/-!
# Checked machine arithmetic

Counts and sizes are natural numbers held in machine words of 32 or 64 bits.  A step whose exact
result leaves its word is not wrapped: it stops the whole computation with an `Overflow`, the
kind of step naming the message.  `checkedAdd` and `checkedMul` are that step; each returns the
exact result whenever it fits (`checkedAdd_ok_iff`, `checkedMul_ok_iff`).

This is the program as its tests build it, with overflow checks on, where such a step panics
with the message of its kind.  The workspace's release profile leaves the checks off, and there
the same step wraps around its word instead; that build is not modelled.
-/

namespace ClusterSweep

/-- An arithmetic step whose exact result does not fit its machine word. -/
inductive Overflow where
  /-- An addition. -/
  | add
  /-- A multiplication. -/
  | mul
  deriving DecidableEq, Repr

/-- The text that reports an overflow. -/
def Overflow.message : Overflow → String
  | .add => "attempt to add with overflow"
  | .mul => "attempt to multiply with overflow"

/-- The largest value of an unsigned 32-bit word. -/
def u32Max : Nat := Nat.pow 2 32 - 1

/-- The largest value of an unsigned 64-bit word. -/
def u64Max : Nat := Nat.pow 2 64 - 1

/-- `a + b` when it is at most `bound`, the word's largest value. -/
def checkedAdd (bound a b : Nat) : Except Overflow Nat :=
  if a + b ≤ bound then .ok (a + b) else .error .add

/-- `a * b` when it is at most `bound`, the word's largest value. -/
def checkedMul (bound a b : Nat) : Except Overflow Nat :=
  if a * b ≤ bound then .ok (a * b) else .error .mul

theorem checkedAdd_ok_iff {bound a b r : Nat} :
    checkedAdd bound a b = .ok r ↔ a + b ≤ bound ∧ r = a + b := by
  unfold checkedAdd
  split
  · simp_all [eq_comm]
  · simp only [reduceCtorEq, false_iff, not_and]
    omega

theorem checkedMul_ok_iff {bound a b r : Nat} :
    checkedMul bound a b = .ok r ↔ a * b ≤ bound ∧ r = a * b := by
  unfold checkedMul
  split
  · simp_all [eq_comm]
  · simp only [reduceCtorEq, false_iff, not_and]
    intro h
    omega

theorem checkedMul_error_iff {bound a b : Nat} :
    checkedMul bound a b = .error .mul ↔ bound < a * b := by
  unfold checkedMul
  split <;> simp_all

end ClusterSweep
