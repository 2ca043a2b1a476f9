/-
  FiveStage.LoadStore
  ───────────────────
  **THE LOAD/STORE UNIT.**

  Between the memory stage and data memory.  The alignment policy is applied
  before memory is touched: an access is issued whole, or byte by byte, or
  refused.  A store issued byte by byte first asks for every byte whether it
  is backed, so that it is performed completely or not at all.  Loaded bytes
  and halfwords are extended to words.
-/
import FiveStage.Memory.Bus

namespace FiveStage

namespace LoadStore

/-! ## §1. Issuing an access. -/

/-- How an access is issued to data memory. -/
inductive Issue where
  /-- As one access at this aligned address. -/
  | whole (addr : Word)
  /-- Byte by byte from this address. -/
  | bytewise (addr : Word)
  deriving Repr, DecidableEq

/-- How an access is issued under a policy, or the fault that refuses it. -/
def issue (policy : AlignmentPolicy) (kind : AccessKind) (addr : Word) (width : Width) :
    Except Fault Issue :=
  if width.isAligned addr then .ok (.whole addr)
  else
    match policy with
    | .fault => .error (.misaligned kind addr width)
    | .alignDown => .ok (.whole (width.alignDown addr))
    | .permit => .ok (.bytewise addr)

/-- Extend loaded data of this width to a word. -/
def extend (width : Width) (signed : Bool) (raw : Word) : Word :=
  match width, signed with
  | .byte, true => (raw.setWidth 8).signExtend 32
  | .byte, false => (raw.setWidth 8).setWidth 32
  | .half, true => (raw.setWidth 16).signExtend 32
  | .half, false => (raw.setWidth 16).setWidth 32
  | .word, _ => raw

/-! ## §2. Loads and stores. -/

variable {σ : Type} [DataMemory σ]

/-- The offsets of the bytes of an access. -/
def offsets (width : Width) : List Nat :=
  List.range width.bytes

/-- Read byte by byte and put the bytes together, the first lowest. -/
def readBytes (addr : Word) (width : Width) : Transaction σ Word :=
  (offsets width).foldlM (fun acc i => do
    let b ← DataMemory.read (addr + BitVec.ofNat 32 i) .byte
    return acc ||| ((b.setWidth 8).setWidth 32 <<< (8 * i))) 0

/-- Load and extend. -/
def load (policy : AlignmentPolicy) (addr : Word) (width : Width) (signed : Bool) :
    Transaction σ Word := do
  match issue policy .read addr width with
  | .error fault => throw fault
  | .ok (.whole a) => return extend width signed (← DataMemory.read a width)
  | .ok (.bytewise a) => return extend width signed (← readBytes a width)

/-- Write byte by byte, after asking for each byte whether it is backed.  The
fault of an unbacked byte names the access that was requested. -/
def writeBytes (addr : Word) (width : Width) (value : Word) : Transaction σ Unit := do
  -- no byte is written before all of them are known to be backed
  (offsets width).forM fun i => do
    unless ← DataMemory.contains (addr + BitVec.ofNat 32 i) .byte do
      throw (.outOfRange .write addr width)
  (offsets width).forM fun i =>
    DataMemory.write (addr + BitVec.ofNat 32 i) .byte ((value.byte i).setWidth 32)

/-- Store the low bytes of a word. -/
def store (policy : AlignmentPolicy) (addr : Word) (width : Width) (value : Word) :
    Transaction σ Unit := do
  match issue policy .write addr width with
  | .error fault => throw fault
  | .ok (.whole a) => DataMemory.write a width value
  | .ok (.bytewise a) => writeBytes a width value

end LoadStore

end FiveStage
