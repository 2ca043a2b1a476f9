/-
  FiveStage.Access
  ────────────────
  **MEMORY ACCESSES AND THEIR FAULTS.**

  An access has a kind (fetch, read, write), a width (one, two or four bytes)
  and an address.  An access is *aligned* when its address is a multiple of
  its width.  A fault names the access that was refused and why; what to do
  with a misaligned load or store is a policy of the machine.
-/
import FiveStage.Word
import FiveStage.Text.Numeral

namespace FiveStage

/-! ## §1. Kind and width. -/

/-- What a memory access is for. -/
inductive AccessKind where
  /-- Instruction fetch. -/
  | fetch
  /-- Data load. -/
  | read
  /-- Data store. -/
  | write
  deriving Repr, DecidableEq

/-- The kind as it appears in messages. -/
def AccessKind.text : AccessKind → String
  | .fetch => "fetch"
  | .read => "read"
  | .write => "write"

/-- How much one access moves. -/
inductive Width where
  /-- One byte. -/
  | byte
  /-- Two bytes. -/
  | half
  /-- Four bytes. -/
  | word
  deriving Repr, DecidableEq

namespace Width

/-- The width as it appears in messages. -/
def text : Width → String
  | .byte => "byte"
  | .half => "half"
  | .word => "word"

/-- Number of bytes moved by an access of this width. -/
def bytes : Width → Nat
  | .byte => 1
  | .half => 2
  | .word => 4

/-- The address is a multiple of the width. -/
def isAligned (width : Width) (addr : Word) : Bool :=
  addr.toNat % width.bytes == 0

/-- The greatest aligned address that is not above `addr`. -/
def alignDown (width : Width) (addr : Word) : Word :=
  addr &&& ~~~BitVec.ofNat 32 (width.bytes - 1)

end Width

/-! ## §2. Faults. -/

/-- One access to memory, as it was requested. -/
structure Access where
  /-- First byte. -/
  addr : Word
  /-- Bytes moved. -/
  width : Width
  /-- What it is for. -/
  kind : AccessKind
  deriving Repr, DecidableEq

/-- Why an access was refused. -/
inductive FaultCause where
  /-- The address is not aligned for the width. -/
  | misaligned
  /-- Some byte of the access is not backed by storage. -/
  | outOfRange
  deriving Repr, DecidableEq

/-- The cause as it appears in messages. -/
def FaultCause.text : FaultCause → String
  | .misaligned => "misaligned"
  | .outOfRange => "out-of-range"

/-- An access that could not be performed. -/
structure Fault where
  /-- Why it was refused. -/
  cause : FaultCause
  /-- The access that was refused. -/
  access : Access
  deriving Repr, DecidableEq

namespace Fault

/-- An access refused for its alignment. -/
def misaligned (kind : AccessKind) (addr : Word) (width : Width) : Fault :=
  ⟨.misaligned, addr, width, kind⟩

/-- An access refused because it leaves the storage. -/
def outOfRange (kind : AccessKind) (addr : Word) (width : Width) : Fault :=
  ⟨.outOfRange, addr, width, kind⟩

/-- The fault in words, such as `misaligned half read at 0x10000001`. -/
def message (f : Fault) : String :=
  f.cause.text ++ " " ++ f.access.width.text ++ " " ++ f.access.kind.text ++ " at "
    ++ f.access.addr.hex8

end Fault

/-! ## §3. The alignment policy. -/

/-- What happens to a load or store whose address is not aligned. -/
inductive AlignmentPolicy where
  /-- It is refused. -/
  | fault
  /-- It is performed at the aligned address below. -/
  | alignDown
  /-- It is performed byte by byte. -/
  | permit
  deriving Repr, DecidableEq

end FiveStage
