/-
  FiveStage.Registers
  ───────────────────
  **THE REGISTER FILE.**

  Thirty-two words, of which register 0 always reads zero and is never
  written.  Registers are asked for by number; a number past the last
  register reads zero and cannot be written either, so exactly the numbers 1
  to 31 are *writable*.
-/
import FiveStage.Isa.Assembly

namespace FiveStage

/-- The general-purpose registers. -/
structure Registers where
  /-- Contents by number; that of register 0 is never looked at. -/
  cells : Vector Word 32
  deriving Repr, DecidableEq

namespace Registers

/-! ## §1. Reading and writing. -/

/-- All registers zero. -/
def zero : Registers :=
  ⟨Vector.replicate 32 0⟩

/-- Register numbers that hold what is written to them. -/
def writable (r : Nat) : Bool :=
  0 < r && r < 32

/-- The contents of register `r`. -/
def read (regs : Registers) (r : Nat) : Word :=
  if writable r then regs.cells[r]?.getD 0 else 0

/-- Write register `r`, if it is writable. -/
def write (regs : Registers) (r : Nat) (v : Word) : Registers :=
  if writable r then ⟨regs.cells.setIfInBounds r v⟩ else regs

/-- Write register `r`, and say whether it was writable. -/
def commit (regs : Registers) (r : Nat) (v : Word) : Bool × Registers :=
  (writable r, regs.write r v)

/-- The contents of all registers, `x0` first. -/
def toList (regs : Registers) : List Word :=
  (List.range 32).map regs.read

/-- A write changes what is read of its own register only, and only if that is
writable. -/
theorem read_write (regs : Registers) (r s : Nat) (v : Word) :
    (regs.write r v).read s = if writable r && r == s then v else regs.read s := by
  unfold read write
  by_cases hr : writable r = true
  · by_cases hs : writable s = true
    · by_cases he : r = s
      · subst he
        have hlt : r < 32 := by simp [writable] at hr; omega
        simp [hr, hlt]
      · simp [hr, hs, he]
    · have he : r ≠ s := fun h => hs (h ▸ hr)
      simp [hr, hs, he]
  · simp [hr]

/-! ## §2. The register dump. -/

/-- One register as it stands in a dump: `x1  (ra  ) = 0x00000000`. -/
def cellText (regs : Registers) (r : Nat) : String :=
  "x" ++ padRight 2 (toString r) ++ " (" ++ padRight 4 (registerName r) ++ ") = "
    ++ (regs.read r).hex8

/-- All registers as text, two to a line. -/
def dump (regs : Registers) : String :=
  String.join <| (List.range 16).map fun i =>
    regs.cellText (2 * i) ++ "    " ++ regs.cellText (2 * i + 1) ++ "\n"

end Registers

end FiveStage
