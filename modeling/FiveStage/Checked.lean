/-
  FiveStage.Checked
  ─────────────────
  **ARITHMETIC THAT CAN STOP THE PROGRAM.**

  The sum of two 64-bit numbers is checked: if it is no such number itself,
  the program stops where it would have been used, and no caller gets an
  answer.  That is not an error.  Errors are values, and are reported; so what
  a computation comes to is a `Checked` value, which may be an error, or an
  overflow.

      add64_eq_value_iff      a sum that fits is the sum
      add64_eq_overflow_iff   one that does not stops the program
-/
namespace FiveStage

/-- What a computation comes to that may overflow. -/
inductive Checked (α : Type) where
  /-- It has a value. -/
  | value (a : α)
  /-- A sum did not fit, and the program stopped. -/
  | overflow
  deriving Repr, DecidableEq

namespace Checked

variable {α β : Type}

/-- Go on with the value, if there is one. -/
protected def bind (x : Checked α) (f : α → Checked β) : Checked β :=
  match x with
  | value a => f a
  | overflow => overflow

instance : Monad Checked where
  pure := value
  bind := Checked.bind

/-- Nothing can overflow where nothing is computed. -/
@[simp]
theorem pure_eq (a : α) : (pure a : Checked α) = value a := rfl

/-- A value is handed on. -/
@[simp]
theorem value_bind (a : α) (f : α → Checked β) : value a >>= f = f a := rfl

/-- After an overflow nothing is computed any more. -/
@[simp]
theorem overflow_bind (f : α → Checked β) : overflow >>= f = overflow := rfl

/-- The sum of two 64-bit numbers. -/
def add64 (a b : UInt64) : Checked UInt64 :=
  if a.toNat + b.toNat < UInt64.size then value (a + b) else overflow

/-- A sum that is computed is the sum of the two numbers. -/
theorem add64_eq_value_iff {a b c : UInt64} :
    add64 a b = value c ↔ a.toNat + b.toNat = c.toNat := by
  unfold add64
  split
  · rename_i h
    have hsum : (a + b).toNat = a.toNat + b.toNat := by
      rw [UInt64.toNat_add]
      exact Nat.mod_eq_of_lt h
    rw [value.injEq, ← UInt64.toNat_inj, hsum]
  · rename_i h
    have hc : c.toNat < UInt64.size := c.toNat_lt_size
    refine iff_of_false nofun ?_
    omega

/-- The program stops exactly if the sum is no 64-bit number. -/
theorem add64_eq_overflow_iff {a b : UInt64} :
    add64 a b = overflow ↔ UInt64.size ≤ a.toNat + b.toNat := by
  unfold add64
  split
  · rename_i h
    exact iff_of_false nofun (Nat.not_le.mpr h)
  · rename_i h
    exact iff_of_true rfl (Nat.not_lt.mp h)

end Checked

end FiveStage
