/-
  FiveStage.Alu
  ─────────────
  **THE ARITHMETIC LOGIC UNIT.**

  Three functional units answer side by side: the adder, the logic unit (with
  the two set-less-than comparisons) and the shifter.  A unit asked for an
  operation that is not its own answers zero; `Alu.eval` takes the answer
  of the unit that owns the operation.  Arithmetic wraps, and the shifter
  looks at the low five bits of its amount only.
-/
import FiveStage.Word

namespace FiveStage

/-! ## §1. Operations and conditions. -/

/-- Operation of the ALU. -/
inductive AluOp where
  /-- Sum. -/
  | add
  /-- Difference. -/
  | sub
  /-- Shift left. -/
  | sll
  /-- One if less as signed numbers. -/
  | slt
  /-- One if less as unsigned numbers. -/
  | sltu
  /-- Bitwise exclusive or. -/
  | xor
  /-- Shift right, filling with zeros. -/
  | srl
  /-- Shift right, filling with the sign. -/
  | sra
  /-- Bitwise or. -/
  | or
  /-- Bitwise and. -/
  | and
  deriving Repr, DecidableEq

/-- Comparison of a conditional branch. -/
inductive Condition where
  /-- Equal. -/
  | eq
  /-- Not equal. -/
  | ne
  /-- Less, signed. -/
  | lt
  /-- Greater or equal, signed. -/
  | ge
  /-- Less, unsigned. -/
  | ltu
  /-- Greater or equal, unsigned. -/
  | geu
  deriving Repr, DecidableEq

/-- The functional unit an operation belongs to. -/
inductive AluUnit where
  /-- Adder and subtracter. -/
  | adder
  /-- Bitwise operations and comparisons. -/
  | logic
  /-- Shifts. -/
  | shifter
  deriving Repr, DecidableEq

/-- The functional unit that owns an operation. -/
def AluOp.unit : AluOp → AluUnit
  | .add | .sub => .adder
  | .or | .and | .xor | .slt | .sltu => .logic
  | .sll | .srl | .sra => .shifter

/-! ## §2. The units. -/

namespace Alu

/-- One for true, zero for false. -/
def flag (b : Bool) : Word :=
  if b then 1 else 0

/-- The adder. -/
def adder (op : AluOp) (a b : Word) : Word :=
  match op with
  | .add => a + b
  | .sub => a - b
  | _ => 0

/-- The logic unit. -/
def logic (op : AluOp) (a b : Word) : Word :=
  match op with
  | .or => a ||| b
  | .and => a &&& b
  | .xor => a ^^^ b
  | .slt => flag (a.slt b)
  | .sltu => flag (a.ult b)
  | _ => 0

/-- The shift amount: the low five bits. -/
def shiftAmount (b : Word) : Nat :=
  (b.extractLsb' 0 5).toNat

/-- The shifter. -/
def shifter (op : AluOp) (a b : Word) : Word :=
  match op with
  | .sll => a <<< shiftAmount b
  | .srl => a >>> shiftAmount b
  | .sra => a.sshiftRight (shiftAmount b)
  | _ => 0

/-- The result of an operation: the answer of the unit that owns it. -/
def eval (op : AluOp) (a b : Word) : Word :=
  match op.unit with
  | .adder => adder op a b
  | .logic => logic op a b
  | .shifter => shifter op a b

end Alu

/-- The condition holds of two register values. -/
def Condition.holds (c : Condition) (a b : Word) : Bool :=
  match c with
  | .eq => a == b
  | .ne => a != b
  | .lt => a.slt b
  | .ge => !a.slt b
  | .ltu => a.ult b
  | .geu => !a.ult b

end FiveStage
