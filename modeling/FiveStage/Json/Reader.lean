/-
  FiveStage.Json.Reader
  ─────────────────────
  **READING JSON.**

  A reader that is fed one token at a time and keeps the arrays and objects
  it is inside of on a stack, so that nesting has no limit.  The grammar is
  strict: no comma before a closing bracket, no second value, no comments.
-/
import FiveStage.Json.Basic
import FiveStage.Json.Token

namespace FiveStage.Json

/-- An array or object the reader is inside of, the latest part first. -/
inductive Frame where
  /-- In an array. -/
  | array (items : List Json)
  /-- In an object, after the colon of this key. -/
  | object (members : List (Option String × Json)) (key : Option String)

/-- What the reader waits for. -/
inductive Expect where
  /-- A value. -/
  | value
  /-- A value, or the end of an array that has just begun. -/
  | firstItem
  /-- A key, or the end of this object that has just begun. -/
  | firstKey
  /-- A key of this object. -/
  | key (members : List (Option String × Json))
  /-- The colon after this key of this object. -/
  | colon (members : List (Option String × Json)) (key : Option String)
  /-- What comes after this value: a comma, the end of what encloses it, or
  the end of the text. -/
  | afterValue (v : Json)

/-- A reader. -/
structure Reader where
  /-- What it is inside of, the innermost first. -/
  stack : List Frame := []
  /-- What it waits for. -/
  expect : Expect := .value

namespace Reader

/-- Take a token where a value may stand. -/
def value? (stack : List Frame) : Token → Option Reader
  | .null => some ⟨stack, .afterValue .null⟩
  | .bool b => some ⟨stack, .afterValue (.bool b)⟩
  | .number digits => some ⟨stack, .afterValue (.number digits)⟩
  | .string text => some ⟨stack, .afterValue (.string text)⟩
  | .mark c =>
      if c = '[' then some ⟨.array [] :: stack, .firstItem⟩
      else if c = '\x7b' then some ⟨stack, .firstKey⟩
      else none

/-- Take a punctuation mark after a value. -/
def afterValue? (stack : List Frame) (v : Json) (c : Char) : Option Reader :=
  match stack with
  | [] => none
  | .array items :: rest =>
      if c = ',' then some ⟨.array (v :: items) :: rest, .value⟩
      else if c = ']' then some ⟨rest, .afterValue (.array (v :: items).reverse)⟩
      else none
  | .object members key :: rest =>
      if c = ',' then some ⟨rest, .key ((key, v) :: members)⟩
      else if c = '\x7d' then
        some ⟨rest, .afterValue (.object ((key, v) :: members).reverse)⟩
      else none

/-- Take one more token. -/
def feed (r : Reader) (t : Token) : Option Reader :=
  match r.expect with
  | .value => value? r.stack t
  | .firstItem =>
      match r.stack, t with
      | .array [] :: rest, .mark ']' => some ⟨rest, .afterValue (.array [])⟩
      | stack, t => value? stack t
  | .firstKey =>
      match t with
      | .string key => some ⟨r.stack, .colon [] key⟩
      | .mark '\x7d' => some ⟨r.stack, .afterValue (.object [])⟩
      | _ => none
  | .key members =>
      match t with
      | .string key => some ⟨r.stack, .colon members key⟩
      | _ => none
  | .colon members key =>
      match t with
      | .mark ':' => some ⟨.object members key :: r.stack, .value⟩
      | _ => none
  | .afterValue v =>
      match t with
      | .mark c => afterValue? r.stack v c
      | _ => none

/-- The value read, if the text may end here. -/
def finish? (r : Reader) : Option Json :=
  match r.stack, r.expect with
  | [], .afterValue v => some v
  | _, _ => none

end Reader

/-- The value of a text, if the text is correct JSON. -/
def parse? (text : String) : Option Json :=
  (Token.lex? text.toList).bind fun ts => (ts.foldlM Reader.feed {}).bind Reader.finish?

/-! ## Records. -/

/-- Read a value as a record with these fields: an object that names no field
twice, or an array of the fields in order, the last ones left out.  Answers
each field's value, if it is there.  Members of other names do not count, but
every key must be a text. -/
def fields? (names : List String) : Json → Option (List (Option Json))
  | .array items =>
      -- the names past the last item find none
      if items.length ≤ names.length then
        some (names.zipIdx.map fun (_, i) => items[i]?)
      else none
  | .object members =>
      if members.all (·.1.isSome)
          && names.all fun n => (members.filter (·.1 == some n)).length ≤ 1 then
        some (names.map fun n => (members.find? (·.1 == some n)).map (·.2))
      else none
  | _ => none

end FiveStage.Json
