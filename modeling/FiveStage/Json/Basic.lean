/-
  FiveStage.Json.Basic
  ────────────────────
  **JSON VALUES.**

  Numbers keep the digits they were written with, and objects the order and
  repetition of their members, so that a reader can decide what they mean to
  it.  A string whose escapes leave half of a surrogate pair alone is correct
  JSON, but it stands for no text: its content is `none`.
-/

namespace FiveStage

/-- A JSON value. -/
inductive Json where
  /-- The word `null`. -/
  | null
  /-- A truth value. -/
  | bool (b : Bool)
  /-- A number, as it is written. -/
  | number (digits : String)
  /-- A string, and the text it stands for. -/
  | string (text : Option String)
  /-- An array. -/
  | array (items : List Json)
  /-- An object, its members in order. -/
  | object (members : List (Option String × Json))

namespace Json

/-! ## §1. Building values. -/

/-- A natural number. -/
def nat (n : Nat) : Json :=
  .number (toString n)

/-- A text. -/
def text (s : String) : Json :=
  .string (some s)

/-- An object with these members. -/
def record (members : List (String × Json)) : Json :=
  .object (members.map fun (k, v) => (some k, v))

/-- A value or `null`. -/
def optional (v : Option Json) : Json :=
  v.getD .null

/-! ## §2. Writing. -/

/-- A character as it is written inside a string. -/
def escape (c : Char) : String :=
  match c with
  | '"' => "\\\""
  | '\\' => "\\\\"
  | '\n' => "\\n"
  | '\r' => "\\r"
  | '\t' => "\\t"
  | '\x08' => "\\b"
  | '\x0c' => "\\f"
  | c =>
      if c.toNat < 0x20 then
        let digits := String.ofList (Nat.toDigits 16 c.toNat)
        "\\u" ++ "".pushn '0' (4 - digits.length) ++ digits
      else c.toString

/-- A string in quotes. -/
def quote (s : String) : String :=
  "\"" ++ String.join (s.toList.map escape) ++ "\""

/-- A line break and the indentation of a level. -/
def newline (level : Nat) : String :=
  "\n" ++ "".pushn ' ' (2 * level)

mutual

/-- A value on one line, without blanks. -/
def compact : Json → String
  | null => "null"
  | bool b => if b then "true" else "false"
  | number digits => digits
  | string t => quote (t.getD "")
  | array items => "[" ++ ",".intercalate (compactItems items) ++ "]"
  | object members => "\x7b" ++ ",".intercalate (compactMembers members) ++ "\x7d"

/-- Each value on one line. -/
def compactItems : List Json → List String
  | [] => []
  | v :: vs => v.compact :: compactItems vs

/-- Each member on one line. -/
def compactMembers : List (Option String × Json) → List String
  | [] => []
  | (k, v) :: ms => (quote (k.getD "") ++ ":" ++ v.compact) :: compactMembers ms

end

mutual

/-- A value over several lines, at this level of indentation. -/
def pretty (level : Nat) : Json → String
  | null => "null"
  | bool b => if b then "true" else "false"
  | number digits => digits
  | string t => quote (t.getD "")
  | array [] => "[]"
  | array (v :: vs) =>
      "[" ++ ",".intercalate (prettyItems (level + 1) (v :: vs)) ++ newline level ++ "]"
  | object [] => "\x7b\x7d"
  | object (m :: ms) =>
      "\x7b" ++ ",".intercalate (prettyMembers (level + 1) (m :: ms)) ++ newline level ++ "\x7d"

/-- Each value on lines of its own. -/
def prettyItems (level : Nat) : List Json → List String
  | [] => []
  | v :: vs => (newline level ++ v.pretty level) :: prettyItems level vs

/-- Each member on lines of its own. -/
def prettyMembers (level : Nat) : List (Option String × Json) → List String
  | [] => []
  | (k, v) :: ms =>
      (newline level ++ quote (k.getD "") ++ ": " ++ v.pretty level)
        :: prettyMembers level ms

end

end Json

end FiveStage
