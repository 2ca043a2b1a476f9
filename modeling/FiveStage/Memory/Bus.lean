/-
  FiveStage.Memory.Bus
  ────────────────────
  **DATA MEMORIES BEHIND A BUS.**

  The load/store unit reaches data memory through three transactions: ask
  whether an access is backed, read, and write.  Any type of memory states
  that offers them is a `DataMemory`.  A `Transaction` may fail with a fault;
  what it did to the memory before it failed stays done.
-/
import FiveStage.Access

namespace FiveStage

/-- Something done with a memory of type `σ`, which may end in a fault. -/
abbrev Transaction (σ : Type) (α : Type) : Type :=
  ExceptT Fault (StateM σ) α

/-- A byte-addressed, little-endian data store. -/
class DataMemory (σ : Type) where
  /-- Every byte of the access is backed by storage. -/
  contains : Word → Width → Transaction σ Bool
  /-- The bytes of the access, zero-extended. -/
  read : Word → Width → Transaction σ Word
  /-- Store the low bytes of a word. -/
  write : Word → Width → Word → Transaction σ Unit

namespace Transaction

variable {σ α β : Type}

/-- Do a transaction: its outcome, and the memory afterwards. -/
def perform (t : Transaction σ α) (memory : σ) : Except Fault α × σ :=
  t.run memory

@[simp] theorem perform_pure (a : α) (m : σ) :
    perform (pure a : Transaction σ α) m = (.ok a, m) := rfl

@[simp] theorem perform_throw (fault : Fault) (m : σ) :
    perform (throw fault : Transaction σ α) m = (.error fault, m) := rfl

/-- The second part of a sequence is done only if the first succeeds. -/
@[simp] theorem perform_bind (t : Transaction σ α) (f : α → Transaction σ β) (m : σ) :
    perform (t >>= f) m =
      match perform t m with
      | (.ok a, m') => perform (f a) m'
      | (.error fault, m') => (.error fault, m') := by
  have key : ∀ r : Except Fault α × σ,
      (ExceptT.bindCont f r.1 : StateM σ (Except Fault β)) r.2 =
        match r with
        | (.ok a, m') => perform (f a) m'
        | (.error fault, m') => (.error fault, m') := by
    rintro ⟨_ | _, _⟩ <;> rfl
  exact key (perform t m)

end Transaction

end FiveStage
