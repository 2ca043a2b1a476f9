/-
  FiveStage.Core.Cycle
  ────────────────────
  **ONE CYCLE OF THE CORE.**

  A cycle is indivisible: every stage reads the latches as they were at its
  beginning, and all four new latches are installed together at its end.

      reset       empties the pipeline and counts a cycle, nothing else
      interrupt   writeback retires its instruction, everything younger is
                  discarded, and fetch goes on at the handler
      otherwise   writeback, memory, execute, decode and fetch work at once;
                  a transfer in execute discards what is younger, a stall in
                  decode holds IF/ID and the PC

  Writeback comes first, so that decode reads what it has just written.
-/
import FiveStage.Core.BackEnd
import FiveStage.Core.Compute
import FiveStage.Core.FrontEnd

namespace FiveStage

/-- What a cycle, or a large part of one, answers. -/
structure Cycle where
  /-- The core afterwards. -/
  core : Core
  /-- What happened. -/
  events : List Event

namespace Core

/-! ## §1. Reset and interrupts. -/

/-- Empty the pipeline and start again at the reset vector.  Registers,
memory, counters and the numbering of instructions stay. -/
def reset (p : Platform) (c : Core) : Cycle where
  core :=
    { c with
      latches := .empty
      pc := p.resetVector
      halted := false
      traps := .atReset p.interrupts
      reportedFetch := none
      lastRetired := none }
  events := [.reset p.resetVector]

/-- Discard what is younger than writeback and enter the handler.  The
program resumes at the oldest instruction discarded that still has to run,
or where fetch was about to read. -/
def enterHandler (p : Platform) (c : Core) (cause : InterruptCause) : Cycle :=
  let flushed := { c.latches with memWb := none }.occupancy
  let epc := c.latches.restart?.getD c.pc
  let vector := p.interrupts.handlerVector
  { core :=
      { c with
        latches := { c.latches.flushYounger with memWb := none }
        traps := c.traps.enter cause epc
        pc := vector
        reportedFetch := none
        counters.interrupts := c.counters.interrupts + 1
        counters.flushed := c.counters.flushed + flushed }
    events := [.interrupted cause epc vector flushed] }

/-! ## §2. The ordinary cycle. -/

/-- What fetch does when execute asks for no transfer. -/
def fetchNext (p : Platform) (c : Core) (stall : Bool) : StageResult (Option InFlight) :=
  if c.halted then { out := none, core := c }
  else if stall then { out := c.latches.ifId, core := c }
  else c.fetch p

/-- The core after a transfer: the instruction in IF/ID is discarded, and
decode and fetch deliver bubbles. -/
def applyTransfer (c : Core) (t : Transfer) : Core :=
  let c := { c with counters.flushed := c.counters.flushed + c.latches.ifId.toList.length }
  match t with
  | .redirect target =>
      { c with pc := target, counters.controlStalls := c.counters.controlStalls + 1 }
  | .halt resume => { c with pc := resume, halted := true }

/-- Memory, execute, decode and fetch at once. -/
def flow (p : Platform) (c : Core) : Cycle :=
  let mem := c.access p
  let ex := mem.core.execute
  match ex.out.transfer with
  | some t =>
      -- decode and fetch stand still: what they would deliver is discarded
      { core :=
          { ex.core.applyTransfer t with
            latches := { exMem := ex.out.exMem, memWb := mem.out } }
        events := mem.events ++ ex.events }
  | none =>
      let id := ex.core.decode
      let fe := id.core.fetchNext p id.out.stall
      { core :=
          { fe.core with
            latches :=
              { ifId := fe.out, idEx := id.out.idEx, exMem := ex.out.exMem, memWb := mem.out } }
        events := mem.events ++ ex.events ++ id.events ++ fe.events }

/-! ## §3. The cycle. -/

/-- Count a cycle. -/
def countCycle (c : Core) : Core :=
  { c with counters.cycles := c.counters.cycles + 1 }

/-- Count the cycle, and draw the pipeline if that was asked for. -/
def endCycle (p : Platform) (c : Core) (events : List Event) : Cycle where
  core := c.countCycle
  events := if p.traceInstructions then events ++ [.diagram c.countCycle.snapshot] else events

/-- One cycle of the core under these inputs. -/
def cycle (p : Platform) (c : Core) (inputs : Inputs) : Cycle :=
  if inputs.reset then
    let r := c.reset p
    { r with core := r.core.countCycle }
  else
    let wb := c.writeback
    let retired := { wb.core with lastRetired := wb.out }
    -- a trap return in execute unmasks interrupts from the next cycle on only
    let rest :=
      match c.traps.arbitrate inputs c.halted with
      | some cause => retired.enterHandler p cause
      | none => retired.flow p
    rest.core.endCycle p (wb.events ++ rest.events)

/-- The core after one cycle. -/
def tick (p : Platform) (c : Core) (inputs : Inputs) : Core :=
  (c.cycle p inputs).core

end Core

end FiveStage
