/-
  FiveStage.Json.Token
  ────────────────────
  **THE TOKENS OF A JSON TEXT.**

  A lexer that is fed one character at a time.  Between tokens it skips
  blanks, of which JSON has four; inside a string it decodes escapes; a run
  of other characters is a *bare* token, which must be one of the three words
  or a number.  Anything else stops it.
-/
import FiveStage.Text.Numeral

namespace FiveStage.Json

/-! ## §1. Tokens. -/

/-- A token of a JSON text. -/
inductive Token where
  /-- One of the six punctuation marks. -/
  | mark (c : Char)
  /-- The word `null`. -/
  | null
  /-- A truth value. -/
  | bool (b : Bool)
  /-- A number, as it is written. -/
  | number (digits : String)
  /-- A string, and the text it stands for. -/
  | string (text : Option String)
  deriving Repr, DecidableEq

/-! ## §2. The content of strings. -/

/-- A piece of a string: a character, or the code unit of an escape. -/
inductive Piece where
  /-- A character that stands for itself, or a short escape. -/
  | char (c : Char)
  /-- A numbered escape: a code unit of 16 bits. -/
  | unit (n : Nat)
  deriving Repr, DecidableEq

/-- The first half of a surrogate pair. -/
def isHigh (n : Nat) : Bool :=
  0xD800 ≤ n && n ≤ 0xDBFF

/-- The second half of a surrogate pair. -/
def isLow (n : Nat) : Bool :=
  0xDC00 ≤ n && n ≤ 0xDFFF

/-- The text of a string; none if a surrogate is not part of a pair. -/
def Piece.text? : List Piece → Option (List Char)
  | [] => some []
  | .char c :: ps => (text? ps).map (c :: ·)
  | [.unit n] => if isHigh n || isLow n then none else some [Char.ofNat n]
  | .unit hi :: .unit lo :: ps =>
      if isHigh hi then
        if isLow lo then
          (text? ps).map (Char.ofNat (0x10000 + (hi - 0xD800) * 0x400 + (lo - 0xDC00)) :: ·)
        else none
      else if isLow hi then none
      else (text? (.unit lo :: ps)).map (Char.ofNat hi :: ·)
  | .unit n :: .char c :: ps =>
      if isHigh n || isLow n then none
      else (text? (.char c :: ps)).map (Char.ofNat n :: ·)

/-- What the character after a backslash stands for; `u` begins a number. -/
def shortEscape? : Char → Option Char
  | '"' => some '"'
  | '\\' => some '\\'
  | '/' => some '/'
  | 'b' => some '\x08'
  | 'f' => some '\x0c'
  | 'n' => some '\n'
  | 'r' => some '\r'
  | 't' => some '\t'
  | _ => none

/-! ## §3. Bare tokens. -/

/-- Digits, at least one, up to the first other character. -/
def dropDigits? : List Char → Option (List Char)
  | c :: cs => if c.isDigit then some (cs.dropWhile Char.isDigit) else none
  | [] => none

/-- The integer part: a zero alone, or digits that do not begin with zero. -/
def dropInteger? : List Char → Option (List Char)
  | '0' :: cs => some cs
  | cs => dropDigits? cs

/-- The fraction, if there is one. -/
def dropFraction? : List Char → Option (List Char)
  | '.' :: cs => dropDigits? cs
  | cs => some cs

/-- The exponent, if there is one. -/
def dropExponent? : List Char → Option (List Char)
  | c :: cs =>
      if c = 'e' || c = 'E' then
        match cs with
        | s :: ds => if s = '+' || s = '-' then dropDigits? ds else dropDigits? (s :: ds)
        | [] => none
      else some (c :: cs)
  | [] => some []

/-- The characters are a number of JSON. -/
def isNumber (cs : List Char) : Bool :=
  let unsigned := match cs with
    | '-' :: rest => rest
    | rest => rest
  (dropInteger? unsigned >>= dropFraction? >>= dropExponent?) == some []

/-- The token of a run of bare characters. -/
def Token.ofBare? (cs : List Char) : Option Token :=
  if cs = "null".toList then some .null
  else if cs = "true".toList then some (.bool true)
  else if cs = "false".toList then some (.bool false)
  else if isNumber cs then some (.number (String.ofList cs))
  else none

/-! ## §4. The lexer. -/

/-- Where the lexer is. -/
inductive Place where
  /-- Between tokens. -/
  | between
  /-- In a run of bare characters, the latest first. -/
  | bare (run : List Char)
  /-- In a string, its pieces the latest first. -/
  | inString (pieces : List Piece)
  /-- After a backslash in a string. -/
  | escaped (pieces : List Piece)
  /-- In a numbered escape, with the digits still to come. -/
  | numbered (pieces : List Piece) (missing value : Nat)
  deriving Repr, DecidableEq

/-- A lexer: the tokens so far, the latest first, and where it is. -/
structure Lexer where
  /-- Tokens so far. -/
  tokens : List Token := []
  /-- Where it is. -/
  place : Place := .between
  deriving Repr, DecidableEq

namespace Lexer

/-- JSON's blanks. -/
def isBlank (c : Char) : Bool :=
  c == ' ' || c == '\n' || c == '\r' || c == '\t'

/-- The six punctuation marks. -/
def isMark (c : Char) : Bool :=
  "\x7b\x7d[]:,".toList.contains c

/-- Take a character between two tokens. -/
def start (tokens : List Token) (c : Char) : Lexer :=
  if isBlank c then ⟨tokens, .between⟩
  else if isMark c then ⟨.mark c :: tokens, .between⟩
  else if c = '"' then ⟨tokens, .inString []⟩
  else ⟨tokens, .bare [c]⟩

/-- Take one more character. -/
def feed (l : Lexer) (c : Char) : Option Lexer :=
  match l.place with
  | .between => some (start l.tokens c)
  | .bare run =>
      if isBlank c || isMark c || c = '"' then
        (Token.ofBare? run.reverse).map fun t => start (t :: l.tokens) c
      else some { l with place := .bare (c :: run) }
  | .inString pieces =>
      if c = '"' then
        let text := (Piece.text? pieces.reverse).map String.ofList
        some ⟨.string text :: l.tokens, .between⟩
      else if c = '\\' then some { l with place := .escaped pieces }
      else if c.toNat < 0x20 then none
      else some { l with place := .inString (.char c :: pieces) }
  | .escaped pieces =>
      if c = 'u' then some { l with place := .numbered pieces 4 0 }
      else (shortEscape? c).map fun e => { l with place := .inString (.char e :: pieces) }
  | .numbered pieces missing value =>
      (digit? 16 c).map fun d =>
        if missing ≤ 1 then { l with place := .inString (.unit (16 * value + d) :: pieces) }
        else { l with place := .numbered pieces (missing - 1) (16 * value + d) }

/-- The tokens, if the text may end here. -/
def finish? (l : Lexer) : Option (List Token) :=
  match l.place with
  | .between => some l.tokens.reverse
  | .bare run => (Token.ofBare? run.reverse).map fun t => (t :: l.tokens).reverse
  | _ => none

end Lexer

/-- The tokens of a text. -/
def Token.lex? (text : List Char) : Option (List Token) :=
  (text.foldlM Lexer.feed {}).bind Lexer.finish?

end FiveStage.Json
