/-
  FiveStage.Core.FrontEnd
  ───────────────────────
  **FETCH AND DECODE.**

  Fetch reads the word at the PC, numbers it and moves the PC on; if program
  memory refuses, it holds the PC and delivers a bubble, and it reports one
  address only once.  Decode turns the word into control signals and reads
  the source registers, unless the instruction has to wait for a load.
-/
import FiveStage.Core.State

namespace FiveStage.Core

/-! ## §1. Fetch. -/

/-- Fetch: the next contents of IF/ID. -/
def fetch (p : Platform) (c : Core) : StageResult (Option InFlight) :=
  match p.program.fetch c.pc with
  | .ok inst =>
      let e : InFlight := ⟨c.lastId + 1, c.pc, inst⟩
      { out := some e
        core := { c with lastId := e.id, pc := c.pc + instructionBytes }
        events := [.fetched e] }
  | .error fault =>
      let c := { c with counters.fetchFaultCycles := c.counters.fetchFaultCycles + 1 }
      if c.reportedFetch = some c.pc then
        -- fetch goes on failing here, which was reported before
        { out := none, core := c }
      else
        { out := none
          core := { c with reportedFetch := some c.pc }.noteFault 0 c.pc fault
          events := [.fetchFailed fault] }

/-! ## §2. Decode. -/

/-- What decode answers. -/
structure DecodeOut where
  /-- Next contents of ID/EX. -/
  idEx : Option IdEx := none
  /-- The instruction waits for a load: hold IF/ID and the PC. -/
  stall : Bool := false
  deriving Repr, DecidableEq

/-- The contents of a source register, zero if there is none. -/
def readSource (c : Core) (r : Option Nat) : Word :=
  r.elim 0 c.regs.read

/-- An instruction with its control signals and the registers it reads. -/
def prepare (c : Core) (e : InFlight) : IdEx :=
  let k := Control.ofWord e.inst
  { e with control := k, rv1 := c.readSource k.rs1, rv2 := c.readSource k.rs2 }

/-- Decode: the next contents of ID/EX, or a stall. -/
def decode (c : Core) : StageResult DecodeOut :=
  match c.latches.ifId with
  | none => { out := {}, core := c }
  | some e =>
      if loadUse c.latches.idEx (Control.ofWord e.inst) then
        { out := { stall := true }
          core := { c with counters.dataStalls := c.counters.dataStalls + 1 }
          events := [.loadUseStall e] }
      else
        let prepared := c.prepare e
        match Control.decode e.inst with
        | .ok _ =>
            { out := { idEx := some prepared }, core := c, events := [.decoded prepared] }
        | .error anomaly =>
            { out := { idEx := some prepared }
              core := c.noteAnomaly e anomaly
              events := [.notAnInstruction e anomaly, .decoded prepared] }

end FiveStage.Core
