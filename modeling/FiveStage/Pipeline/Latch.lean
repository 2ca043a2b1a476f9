/-
  FiveStage.Pipeline.Latch
  ────────────────────────
  **THE FOUR PIPELINE LATCHES.**

      fetch → IF/ID → decode → ID/EX → execute → EX/MEM → memory → MEM/WB → writeback

  A latch holds one instruction in flight or a *bubble*.  Each later latch
  carries what the stage before it found out.  An instruction is known by the
  number it got when it was fetched; numbers start at one and only grow.
-/
import FiveStage.Isa.Control

namespace FiveStage

/-! ## §1. Instructions in flight. -/

/-- An instruction that was fetched, as it stands in IF/ID. -/
structure InFlight where
  /-- Number given at fetch. -/
  id : Nat
  /-- Its address. -/
  pc : Word
  /-- Its word. -/
  inst : Word
  deriving Repr, DecidableEq

/-- An instruction between decode and execute. -/
structure IdEx extends InFlight where
  /-- Control signals. -/
  control : Control
  /-- First source as read from the register file, zero if there is none. -/
  rv1 : Word
  /-- Second source as read from the register file, zero if there is none. -/
  rv2 : Word
  deriving Repr, DecidableEq

/-- An instruction between execute and memory. -/
structure ExMem extends InFlight where
  /-- Control signals. -/
  control : Control
  /-- ALU result, effective address or link address. -/
  result : Word
  /-- Data of a store, zero for everything else. -/
  storeData : Word
  deriving Repr, DecidableEq

/-- An instruction between memory and writeback. -/
structure MemWb extends InFlight where
  /-- Control signals; a load that faulted no longer writes its destination. -/
  control : Control
  /-- Value for the destination register. -/
  value : Word
  /-- The fault that suppressed the memory access, if there was one. -/
  fault : Option Fault
  deriving Repr, DecidableEq

/-- The number of an instruction as it is written everywhere. -/
def idText (id : Nat) : String :=
  "#" ++ toString id

/-! ## §2. The latches. -/

/-- The contents of the four latches; `none` is a bubble. -/
structure Latches where
  /-- Fetch to decode. -/
  ifId : Option InFlight := none
  /-- Decode to execute. -/
  idEx : Option IdEx := none
  /-- Execute to memory. -/
  exMem : Option ExMem := none
  /-- Memory to writeback. -/
  memWb : Option MemWb := none
  deriving Repr, DecidableEq

/-- Put a bubble into a latch, and say whether it held an instruction. -/
def flushLatch {α : Type} (latch : Option α) : Bool × Option α :=
  (latch.isSome, none)

namespace Latches

/-- Four bubbles. -/
def empty : Latches := {}

/-- Which latches hold an instruction, the youngest first. -/
def occupied (l : Latches) : List Bool :=
  [l.ifId.isSome, l.idEx.isSome, l.exMem.isSome, l.memWb.isSome]

/-- Every latch holds a bubble. -/
def isEmpty (l : Latches) : Bool :=
  l.occupied.all (!·)

/-- Number of instructions in flight. -/
def occupancy (l : Latches) : Nat :=
  l.occupied.count true

/-- Discard the three instructions younger than the one in MEM/WB. -/
def flushYounger (l : Latches) : Latches :=
  { l with ifId := none, idEx := none, exMem := none }

/-- Where work discarded by `flushYounger` has to start again: at the oldest
instruction discarded.  A trap return in EX/MEM has already left the handler
and redirected fetch, so it is no place to start from. -/
def restart? (l : Latches) : Option Word :=
  (l.exMem.bind fun e => if e.control.cls = .mret then none else some e.pc)
    <|> (l.idEx.map (·.pc))
    <|> (l.ifId.map (·.pc))

end Latches

end FiveStage
