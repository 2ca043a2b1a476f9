/-
  FiveStage.Text.Blank
  ────────────────────
  **WHITE SPACE AND WORDS OF A TEXT.**

  White space is the Unicode property `White_Space`.  Text is cut at a class
  of characters with `splitAtAll`; the words of a text are the pieces between
  its white space that are not empty.
-/

namespace FiveStage

/-- The ranges of code points with the property `White_Space`. -/
def blankRanges : List (Nat × Nat) :=
  [(0x0009, 0x000D), (0x0020, 0x0020), (0x0085, 0x0085), (0x00A0, 0x00A0),
    (0x1680, 0x1680), (0x2000, 0x200A), (0x2028, 0x2029), (0x202F, 0x202F),
    (0x205F, 0x205F), (0x3000, 0x3000)]

/-- The character is white space. -/
def isBlank (c : Char) : Bool :=
  blankRanges.any fun (lo, hi) => lo ≤ c.toNat && c.toNat ≤ hi

/-- The pieces of a text between the characters of a class. -/
def splitAtAll (cut : Char → Bool) (cs : List Char) : List (List Char) :=
  cs.foldr (fun c pieces =>
    if cut c then [] :: pieces
    else match pieces with
      | [] => [[c]]
      | piece :: rest => (c :: piece) :: rest) [[]]

/-- The lines of a text. -/
def lines (cs : List Char) : List (List Char) :=
  splitAtAll (· == '\n') cs

/-- The words of a text. -/
def words (cs : List Char) : List (List Char) :=
  (splitAtAll isBlank cs).filter (!·.isEmpty)

end FiveStage
