/-
  FiveStage.Word
  ──────────────
  **MACHINE WORDS AND BYTES.**

  The core is a 32-bit machine: addresses, register contents and instruction
  encodings are all `Word`s, and their arithmetic wraps.  Memory is made of
  `Byte`s, and a word in memory is little-endian:

      littleEndian [b₀, b₁, b₂, b₃] = b₃b₂b₁b₀
-/

namespace FiveStage

/-- A 32-bit machine word; arithmetic on words wraps. -/
abbrev Word := BitVec 32

/-- One byte of memory. -/
abbrev Byte := BitVec 8

/-- An instruction occupies four bytes; the PC advances by this amount. -/
def instructionBytes : Word := 4

/-- Byte number `i` of a word, counted from the low end. -/
def Word.byte (w : Word) (i : Nat) : Byte :=
  w.extractLsb' (8 * i) 8

/-- The word whose lowest byte is the first of the list. -/
def littleEndian : List Byte → Word
  | [] => 0
  | b :: bs => b.setWidth 32 ||| littleEndian bs <<< 8

end FiveStage
