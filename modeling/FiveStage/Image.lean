/-
  FiveStage.Image
  ───────────────
  **PROGRAM IMAGES.**

  A program image is a text of hexadecimal words, as hardware tools read it
  into a memory array:

      @00000000            // go on at word address 0
      10000237 0010_0093   # two words

  A comment runs from the first `//` or `#` to the end of its line.  A token
  `@` with hexadecimal digits sets the word address, every other token is a
  word, in which underscores do not count.  Words that no token sets are
  no-ops.  The first token that is malformed, or that would put a word at or
  past the capacity, is the error of the image.
-/
import FiveStage.Isa.Encoding
import FiveStage.Text.Blank
import FiveStage.Text.Numeral

namespace FiveStage

/-! ## §1. Tokens. -/

/-- A token of an image and the line it stands on, counted from one. -/
structure ImageToken where
  /-- Line number. -/
  line : Nat
  /-- Its characters. -/
  text : List Char
  deriving Repr, DecidableEq

/-- A line without its comment. -/
def withoutComment : List Char → List Char
  | [] => []
  | '/' :: '/' :: _ => []
  | c :: cs => if c = '#' then [] else c :: withoutComment cs

/-- The tokens of an image. -/
def imageTokens (text : List Char) : List ImageToken :=
  (lines text).zipIdx.flatMap fun (line, i) =>
    (words (withoutComment line)).map (⟨i + 1, ·⟩)

/-- What a token says. -/
inductive Directive where
  /-- The next word goes to this word address. -/
  | origin (addr : Nat)
  /-- A word. -/
  | word (w : Word)
  deriving Repr, DecidableEq

/-- Read a token.  Word addresses have 64 bits. -/
def Directive.read? : List Char → Option Directive
  | '@' :: cs => (unsignedBits? 16 64 cs).map .origin
  | cs => (unsignedBits? 16 32 (cs.filter (· != '_'))).map fun n => .word (BitVec.ofNat 32 n)

/-! ## §2. Reading an image. -/

/-- Why an image cannot be loaded. -/
inductive ImageError where
  /-- The file cannot be read as text. -/
  | unreadable
  /-- A token is neither a word nor an address. -/
  | invalidToken (line : Nat) (token : String)
  /-- A word would fall at or past the capacity. -/
  | addressOutOfRange (line addr capacity : Nat)
  deriving Repr, DecidableEq

/-- The error in words. -/
def ImageError.message : ImageError → String
  | unreadable => "failed to read program image"
  | invalidToken line token =>
      "line " ++ toString line ++ ": invalid token `" ++ token ++ "`"
  | addressOutOfRange line addr capacity =>
      "line " ++ toString line ++ ": word address " ++ hex addr
        ++ " exceeds instruction memory of " ++ toString capacity ++ " words"

/-- A program image: word `i` goes to byte address `4 * i`. -/
structure Image where
  /-- The words, from word address 0. -/
  words : Array Word := #[]
  deriving Repr, DecidableEq

/-- Put a word at a word address; words skipped are no-ops. -/
def Image.place (image : Image) (addr : Nat) (w : Word) : Image :=
  if addr < image.words.size then ⟨image.words.setIfInBounds addr w⟩
  else ⟨(image.words ++ Array.replicate (addr - image.words.size) nopWord).push w⟩

/-- An image being read. -/
structure ImageReader where
  /-- What was read so far. -/
  image : Image := {}
  /-- Where the next word goes. -/
  addr : Nat := 0
  deriving Repr, DecidableEq

/-- Read one more token. -/
def ImageReader.step (capacity : Nat) (r : ImageReader) (t : ImageToken) :
    Except ImageError ImageReader :=
  match Directive.read? t.text with
  | none => .error (.invalidToken t.line (String.ofList t.text))
  | some (.origin addr) => .ok { r with addr }
  | some (.word w) =>
      if r.addr < capacity then .ok ⟨r.image.place r.addr w, r.addr + 1⟩
      else .error (.addressOutOfRange t.line r.addr capacity)

/-- Read tokens one after the other, up to the first error. -/
def ImageReader.run (capacity : Nat) (r : ImageReader) :
    List ImageToken → Except ImageError ImageReader
  | [] => .ok r
  | t :: ts =>
      match r.step capacity t with
      | .ok r => r.run capacity ts
      | .error e => .error e

/-- Read an image for a program memory of this many words. -/
def Image.parse (text : String) (capacity : Nat) : Except ImageError Image :=
  (ImageReader.run capacity {} (imageTokens text.toList)).map (·.image)

/-- Read an image from the bytes of a file; `none` if there is no file. -/
def Image.load (file : Option ByteArray) (capacity : Nat) : Except ImageError Image :=
  match file.bind String.fromUTF8? with
  | none => .error .unreadable
  | some text => Image.parse text capacity

end FiveStage
