/-
  FiveStage.Pipeline.Bypass
  ─────────────────────────
  **STALLS AND BYPASSES.**

  An instruction in decode that reads the register a load in execute will
  write has to wait one cycle: the load's data come too late for any bypass.
  All other dependences are served by the bypass network, which hands execute
  the youngest value in flight of each source register, looking at EX/MEM
  before MEM/WB before the value that decode read.
-/
import FiveStage.Pipeline.Latch

namespace FiveStage

/-! ## §1. The load-use stall. -/

/-- The instruction being decoded must wait for the load in ID/EX. -/
def loadUse (idEx : Option IdEx) (decoding : Control) : Bool :=
  match idEx with
  | none => false
  | some e => e.control.isLoad && e.control.rdValid && decoding.reads e.control.rd

/-! ## §2. The bypass network. -/

/-- Where an operand came from. -/
inductive ForwardSource where
  /-- The register file, read in decode. -/
  | regFile
  /-- The instruction in EX/MEM. -/
  | exMem
  /-- The instruction in MEM/WB. -/
  | memWb
  deriving Repr, DecidableEq

/-- The source as it appears in log fields. -/
def ForwardSource.text : ForwardSource → String
  | .regFile => "RegFile"
  | .exMem => "ExMem"
  | .memWb => "MemWb"

/-- The result in EX/MEM, if it is the value of register `r`.  A load there
has no data yet. -/
def exMemValue? (exMem : Option ExMem) (r : Nat) : Option Word :=
  exMem.bind fun e =>
    if e.control.writes r && !e.control.isLoad then some e.result else none

/-- The value in MEM/WB, if it is the value of register `r`. -/
def memWbValue? (memWb : Option MemWb) (r : Nat) : Option Word :=
  memWb.bind fun w => if w.control.writes r then some w.value else none

/-- The value of one source register, and where it came from. -/
def forward (reg : Option Nat) (read : Word) (exMem : Option ExMem) (memWb : Option MemWb) :
    Word × ForwardSource :=
  match reg with
  | none => (read, .regFile)
  | some r =>
      match exMemValue? exMem r, memWbValue? memWb r with
      | some v, _ => (v, .exMem)
      | none, some v => (v, .memWb)
      | none, none => (read, .regFile)

/-- The operands of the instruction in execute. -/
structure Operands where
  /-- Value of the first source. -/
  rs1 : Word
  /-- Value of the second source. -/
  rs2 : Word
  /-- Where the first came from. -/
  rs1Source : ForwardSource
  /-- Where the second came from. -/
  rs2Source : ForwardSource
  deriving Repr, DecidableEq

namespace Operands

/-- The operands of an instruction, given the two latches ahead of it. -/
def gather (e : IdEx) (exMem : Option ExMem) (memWb : Option MemWb) : Operands :=
  let a := forward e.control.rs1 e.rv1 exMem memWb
  let b := forward e.control.rs2 e.rv2 exMem memWb
  ⟨a.1, b.1, a.2, b.2⟩

/-- Number of operands that came from this source. -/
def countFrom (o : Operands) (s : ForwardSource) : Nat :=
  [o.rs1Source, o.rs2Source].count s

/-- Some operand came over the bypass network. -/
def bypassed (o : Operands) : Bool :=
  o.rs1Source != .regFile || o.rs2Source != .regFile

end Operands

end FiveStage
