/-
  FiveStage.Memory.Ram
  ────────────────────
  **THE DATA RAM.**

  A RAM backs the addresses from its base up to base plus size.  It keeps the
  bytes written so far by offset; a byte never written is zero.  An access is
  backed when all its bytes are, and it does not wrap around the end of the
  address space.
-/
import FiveStage.Memory.Bus
import Std.Data.TreeMap

namespace FiveStage

/-- Data RAM mapped at `[base, base + size)`. -/
structure Ram where
  /-- Address of the first byte. -/
  base : Word
  /-- Size in bytes. -/
  size : Nat
  /-- Bytes written so far, by offset from the base. -/
  written : Std.TreeMap Nat Byte := {}

namespace Ram

/-! ## §1. Bytes. -/

/-- The byte at an offset. -/
def byteAt (ram : Ram) (offset : Nat) : Byte :=
  ram.written.getD offset 0

/-- Put a byte at an offset. -/
def setByte (ram : Ram) (offset : Nat) (b : Byte) : Ram :=
  { ram with written := ram.written.insert offset b }

theorem byteAt_setByte (ram : Ram) (i j : Nat) (b : Byte) :
    (ram.setByte i b).byteAt j = if i = j then b else ram.byteAt j := by
  simp [byteAt, setByte, Std.TreeMap.getD_insert]

/-! ## §2. Accesses. -/

/-- Where an access begins in the RAM, if every byte of it is backed. -/
def offset? (ram : Ram) (addr : Word) (width : Width) : Option Nat :=
  if ram.base ≤ addr ∧ addr.toNat - ram.base.toNat + width.bytes ≤ ram.size then
    some (addr.toNat - ram.base.toNat)
  else none

/-- Every byte of the access is backed. -/
def contains (ram : Ram) (addr : Word) (width : Width) : Bool :=
  (ram.offset? addr width).isSome

/-- The byte at an address, if it is backed. -/
def byte? (ram : Ram) (addr : Word) : Option Byte :=
  (ram.offset? addr .byte).map ram.byteAt

/-- What `n` addresses in a row hold, `none` where nothing backs them.  After
the last address comes the first. -/
def view (ram : Ram) (addr : Word) (n : Nat) : List (Option Byte) :=
  (List.range n).map fun i => ram.byte? (addr + BitVec.ofNat 32 i)

/-- What the whole RAM holds, from its base.  Bytes past the end of the
address space have no address, so nothing is seen of them. -/
def contents (ram : Ram) : List (Option Byte) :=
  ram.view ram.base ram.size

/-- The bytes of an access as a little-endian number. -/
def read (ram : Ram) (addr : Word) (width : Width) : Except Fault Word :=
  match ram.offset? addr width with
  | some o => .ok (littleEndian ((List.range width.bytes).map fun i => ram.byteAt (o + i)))
  | none => .error (.outOfRange .read addr width)

/-- Store the low bytes of `value`, the lowest first. -/
def write (ram : Ram) (addr : Word) (width : Width) (value : Word) : Except Fault Ram :=
  match ram.offset? addr width with
  | some o =>
      .ok ((List.range width.bytes).foldl (fun r i => r.setByte (o + i) (value.byte i)) ram)
  | none => .error (.outOfRange .write addr width)

instance : DataMemory Ram where
  contains addr width := fun ram => (.ok (ram.contains addr width), ram)
  read addr width := fun ram => (ram.read addr width, ram)
  write addr width value := fun ram =>
    match ram.write addr width value with
    | .ok ram' => (.ok (), ram')
    | .error fault => (.error fault, ram)

end Ram

end FiveStage
