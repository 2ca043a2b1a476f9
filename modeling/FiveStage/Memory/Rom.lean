/-
  FiveStage.Memory.Rom
  ────────────────────
  **PROGRAM MEMORY.**

  The instruction ROM holds a program from address 0 upwards and reads as the
  no-op in the rest of its capacity.  A fetch outside the capacity, or from
  an address that is not a multiple of four, is a fault.  A `ProgramMemory`
  is a ROM or a bus tied to one word, which answers it at every address.
-/
import FiveStage.Access
import FiveStage.Isa.Encoding

namespace FiveStage

/-- Instruction ROM. -/
structure Rom where
  /-- The program, from word 0. -/
  program : Array Word
  /-- Size in words. -/
  capacity : Nat
  deriving Repr, DecidableEq

namespace Rom

/-- Word number `i`: the program's, or a no-op.  Words of the program past
the capacity are not there. -/
def word? (rom : Rom) (i : Nat) : Option Word :=
  if i < rom.capacity then some (rom.program[i]?.getD nopWord) else none

/-- The instruction word at an address. -/
def fetch (rom : Rom) (pc : Word) : Except Fault Word :=
  if Width.word.isAligned pc then
    (rom.word? (pc.toNat / 4)).elim (.error (.outOfRange .fetch pc .word)) .ok
  else
    .error (.misaligned .fetch pc .word)

end Rom

/-- What the fetch stage reads. -/
inductive ProgramMemory where
  /-- An instruction ROM. -/
  | rom (r : Rom)
  /-- A bus tied to one word. -/
  | tied (word : Word)
  deriving Repr, DecidableEq

/-- The instruction word at an address. -/
def ProgramMemory.fetch : ProgramMemory → Word → Except Fault Word
  | .rom r, pc => r.fetch pc
  | .tied w, _ => .ok w

end FiveStage
