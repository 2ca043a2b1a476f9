/-
  FiveStage.Proofs.ImageGrammar
  ─────────────────────────────
  **WHAT A TOKEN OF AN IMAGE SAYS.**

  `HexNumeral` is the grammar of a written number, a digit or a numeral with a
  digit behind it, and `Says` the grammar of a token: `@` and a numeral of 64
  bits, or a numeral of 32 bits once the underscores are gone, each with the
  same sign before the numeral.

      digits?_iff     the number read from digits is the numeral's
      read?_iff       the reader takes the tokens with no sign, and those with
                      a plus sign as well
      says_iff        where there is no plus sign, the grammar and the reader
                      are one
-/
import FiveStage.Image
import Mathlib.Algebra.Group.Nat.Defs
import Mathlib.Data.List.Induction

namespace FiveStage

/-! ## §1. Digits. -/

/-- The character is a hexadecimal digit, in either case, of that value. -/
def HexDigit (c : Char) (d : Nat) : Prop :=
  "0123456789abcdef".toList[d]? = some c ∨ "0123456789ABCDEF".toList[d]? = some c

instance (c : Char) (d : Nat) : Decidable (HexDigit c d) :=
  inferInstanceAs (Decidable (_ ∨ _))

theorem between_iff_toNat {lo hi c : Char} :
    (lo ≤ c ∧ c ≤ hi) ↔ (lo.toNat ≤ c.toNat ∧ c.toNat ≤ hi.toNat) := by
  rw [Char.le_def, Char.le_def, UInt32.le_iff_toNat_le, UInt32.le_iff_toNat_le]
  exact Iff.rfl

/-- A character so far behind another is the one with that code point. -/
theorem eq_ofNat_of_le {lo c : Char} (h : lo.toNat ≤ c.toNat) :
    c = Char.ofNat (lo.toNat + (c.toNat - lo.toNat)) := by
  rw [Nat.add_sub_cancel' h, Char.ofNat_toNat]

theorem hexDigit_of_digit? {c : Char} {d : Nat} (h : digit? 16 c = some d) : HexDigit c d := by
  have hdecimal : ∀ k < 10, HexDigit (Char.ofNat ('0'.toNat + k)) k := by decide
  have hlower : ∀ k < 6, HexDigit (Char.ofNat ('a'.toNat + k)) (k + 10) := by decide
  have hupper : ∀ k < 6, HexDigit (Char.ofNat ('A'.toNat + k)) (k + 10) := by decide
  obtain ⟨hvalue, hd⟩ := Option.filter_eq_some_iff.mp h
  rw [decide_eq_true_eq] at hd
  unfold digitValue? at hvalue
  -- One case for each range of digits: the letters from `g` on are too great.
  split at hvalue
  · rename_i hc
    obtain ⟨hlo, hhi⟩ := between_iff_toNat.mp hc
    cases hvalue
    have hspan : '9'.toNat = '0'.toNat + 9 := rfl
    have hdigit := hdecimal (c.toNat - '0'.toNat) (by omega)
    rwa [← eq_ofNat_of_le hlo] at hdigit
  split at hvalue
  · rename_i _ hc
    cases hvalue
    have hdigit := hlower (c.toNat - 'a'.toNat) (by omega)
    rwa [← eq_ofNat_of_le (between_iff_toNat.mp hc).1] at hdigit
  split at hvalue
  · rename_i _ _ hc
    cases hvalue
    have hdigit := hupper (c.toNat - 'A'.toNat) (by omega)
    rwa [← eq_ofNat_of_le (between_iff_toNat.mp hc).1] at hdigit
  · contradiction

theorem digit?_of_hexDigit {c : Char} {d : Nat} (h : HexDigit c d) : digit? 16 c = some d := by
  have hlower : ∀ d < 16, ("0123456789abcdef".toList[d]?).bind (digit? 16) = some d := by decide
  have hupper : ∀ d < 16, ("0123456789ABCDEF".toList[d]?).bind (digit? 16) = some d := by decide
  rcases h with h | h
  · have hread := hlower d (List.getElem?_eq_some_iff.mp h).1
    rwa [h] at hread
  · have hread := hupper d (List.getElem?_eq_some_iff.mp h).1
    rwa [h] at hread

/-- The digits of base 16 are the hexadecimal digits. -/
theorem digit?_iff {c : Char} {d : Nat} : digit? 16 c = some d ↔ HexDigit c d :=
  ⟨hexDigit_of_digit?, digit?_of_hexDigit⟩

/-! ## §2. Numerals. -/

/-- A numeral of base sixteen and its value. -/
inductive HexNumeral : List Char → Nat → Prop where
  | digit {c d} : HexDigit c d → HexNumeral [c] d
  | snoc {cs n c d} : HexNumeral cs n → HexDigit c d → HexNumeral (cs ++ [c]) (16 * n + d)

/-- The value of a non-empty run of digits, from left to right. -/
theorem digits?_of_ne_nil {base : Nat} {cs : List Char} (h : cs ≠ []) :
    digits? base cs = cs.foldlM (fun n c => (digit? base c).map (base * n + ·)) 0 := by
  cases cs with
  | nil => contradiction
  | cons c cs => rfl

theorem digits?_singleton (base : Nat) (c : Char) : digits? base [c] = digit? base c := by
  rw [digits?_of_ne_nil (List.cons_ne_nil c []), List.foldlM_cons, Nat.mul_zero]
  cases digit? base c with
  | none => rfl
  | some d => exact congrArg some (Nat.zero_add d)

/-- One more digit multiplies by the base and adds. -/
theorem digits?_concat {base : Nat} {cs : List Char} (c : Char) (hne : cs ≠ []) :
    digits? base (cs ++ [c])
      = (digits? base cs).bind fun n => (digit? base c).map (base * n + ·) := by
  have hconcat : cs ++ [c] ≠ [] := by simp
  rw [digits?_of_ne_nil hconcat, digits?_of_ne_nil hne, List.foldlM_append]
  simp only [List.foldlM_cons, List.foldlM_nil, bind_pure]
  rfl

theorem HexNumeral.ne_nil {cs : List Char} {n : Nat} (h : HexNumeral cs n) : cs ≠ [] := by
  cases h with
  | digit => exact List.cons_ne_nil _ _
  | snoc => simp

/-- What is read from digits is the value of the numeral they are. -/
theorem digits?_iff {cs : List Char} {n : Nat} : digits? 16 cs = some n ↔ HexNumeral cs n := by
  constructor
  · intro h
    -- The reader adds a digit behind what it read, as a numeral is built.
    induction cs using List.reverseRecOn generalizing n with
    | nil => exact nomatch h
    | append_singleton cs c ih =>
        by_cases hne : cs = []
        · subst hne
          rw [List.nil_append, digits?_singleton, digit?_iff] at h
          exact .digit h
        · rw [digits?_concat c hne, Option.bind_eq_some_iff] at h
          obtain ⟨m, hm, hc⟩ := h
          obtain ⟨d, hd, rfl⟩ := Option.map_eq_some_iff.mp hc
          exact .snoc (ih hm) (digit?_iff.mp hd)
  · intro h
    induction h with
    | digit hd => rw [digits?_singleton, digit?_iff.mpr hd]
    | snoc hcs hd ih => rw [digits?_concat _ hcs.ne_nil, ih, digit?_iff.mpr hd]; rfl

/-- Every character of a numeral is a digit. -/
theorem HexNumeral.isHexDigit {cs : List Char} {n : Nat} (h : HexNumeral cs n) :
    ∀ c ∈ cs, ∃ d, HexDigit c d := by
  induction h with
  | digit hd => simpa using ⟨_, hd⟩
  | snoc _ hd ih =>
      intro c hc
      rcases List.mem_append.mp hc with hc | hc
      · exact ih c hc
      · rw [List.mem_singleton.mp hc]
        exact ⟨_, hd⟩

theorem not_hexDigit_plus (d : Nat) : ¬ HexDigit '+' d := by
  rw [← digit?_iff]
  exact nofun

theorem not_hexDigit_at (d : Nat) : ¬ HexDigit '@' d := by
  rw [← digit?_iff]
  exact nofun

/-- A numeral with this sign before it. -/
def SignedNumeral (sign cs : List Char) (n : Nat) : Prop :=
  ∃ ds, cs = sign ++ ds ∧ HexNumeral ds n

/-- The reader takes a numeral with no sign, and one with a plus sign. -/
theorem unsigned?_iff {cs : List Char} {n : Nat} :
    unsigned? 16 cs = some n ↔ SignedNumeral [] cs n ∨ SignedNumeral ['+'] cs n := by
  rw [unsigned?.eq_def]
  -- A sign is taken off wherever there is one, since no digit is a sign.
  split
  · rename_i ds
    rw [digits?_iff]
    constructor
    · intro h
      exact .inr ⟨ds, rfl, h⟩
    · rintro (⟨ds', rfl, h⟩ | ⟨ds', heq, h⟩)
      · obtain ⟨d, hd⟩ := h.isHexDigit '+' List.mem_cons_self
        exact absurd hd (not_hexDigit_plus d)
      · obtain ⟨-, rfl⟩ := List.cons.inj heq
        exact h
  · rename_i hplus
    rw [digits?_iff]
    constructor
    · intro h
      exact .inl ⟨cs, rfl, h⟩
    · rintro (⟨ds, rfl, h⟩ | ⟨ds, rfl, -⟩)
      · exact h
      · exact absurd rfl (hplus ds)

/-- What the number reader takes: a numeral, with or without one leading plus,
that fits in the bits. -/
theorem unsignedBits?_iff {bits n : Nat} {cs : List Char} :
    unsignedBits? 16 bits cs = some n
      ↔ (SignedNumeral [] cs n ∨ SignedNumeral ['+'] cs n) ∧ n < 2 ^ bits := by
  unfold unsignedBits?
  rw [Option.filter_eq_some_iff, unsigned?_iff, decide_eq_true_eq]
  exact Iff.rfl

/-! ## §3. Tokens. -/

/-- `Says sign cs d`: the token `cs`, whose numeral has this sign, says `d`. -/
inductive Says (sign : List Char) : List Char → Directive → Prop where
  | origin {cs n} : SignedNumeral sign cs n → n < 2 ^ 64 → Says sign ('@' :: cs) (.origin n)
  | word {cs n} : SignedNumeral sign (cs.filter (· != '_')) n → n < 2 ^ 32 →
      Says sign cs (.word (BitVec.ofNat 32 n))

section Grammar

variable {sign cs : List Char} {d : Directive}

/-- No word starts with `@`: underscores gone, it would still stand there. -/
theorem says_at (hsign : '@' ∉ sign) :
    Says sign ('@' :: cs) d ↔ ∃ n, (SignedNumeral sign cs n ∧ n < 2 ^ 64) ∧ .origin n = d := by
  constructor
  · intro h
    cases h with
    | origin hn hlt => exact ⟨_, ⟨hn, hlt⟩, rfl⟩
    | word hn hlt =>
        obtain ⟨ds, heq, hds⟩ := hn
        have hat : '@' ∈ sign ++ ds := by
          rw [← heq]
          simp
        rcases List.mem_append.mp hat with hat | hat
        · exact absurd hat hsign
        · obtain ⟨k, hk⟩ := hds.isHexDigit '@' hat
          exact absurd hk (not_hexDigit_at k)
  · rintro ⟨n, ⟨hn, hlt⟩, rfl⟩
    exact .origin hn hlt

/-- Without an at sign, a token says a word or nothing. -/
theorem says_of_not_at (hat : ∀ ds, cs ≠ '@' :: ds) :
    Says sign cs d
      ↔ ∃ n, (SignedNumeral sign (cs.filter (· != '_')) n ∧ n < 2 ^ 32)
          ∧ .word (BitVec.ofNat 32 n) = d := by
  constructor
  · intro h
    cases h with
    | origin => exact absurd rfl (hat _)
    | word hn hlt => exact ⟨_, ⟨hn, hlt⟩, rfl⟩
  · rintro ⟨n, ⟨hn, hlt⟩, rfl⟩
    exact .word hn hlt

/-- After an at sign the token reads as an origin. -/
theorem read?_at :
    Directive.read? ('@' :: cs) = some d ↔ ∃ n, unsignedBits? 16 64 cs = some n ∧ .origin n = d :=
  Option.map_eq_some_iff

theorem read?_of_not_at (hat : ∀ ds, cs ≠ '@' :: ds) :
    Directive.read? cs = some d
      ↔ ∃ n, unsignedBits? 16 32 (cs.filter (· != '_')) = some n
          ∧ .word (BitVec.ofNat 32 n) = d := by
  unfold Directive.read?
  split
  · exact absurd rfl (hat _)
  · exact Option.map_eq_some_iff

/-- What the reader takes a token to say: its numeral may have a plus sign. -/
def ReadsAs (cs : List Char) (d : Directive) : Prop :=
  Says [] cs d ∨ Says ['+'] cs d

/-- The reader takes a token exactly as the grammar with the plus sign says. -/
theorem read?_iff : Directive.read? cs = some d ↔ ReadsAs cs d := by
  unfold ReadsAs
  by_cases hat : ∃ ds, cs = '@' :: ds
  · obtain ⟨ds, rfl⟩ := hat
    rw [read?_at, says_at (by simp), says_at (by simp)]
    simp only [unsignedBits?_iff, or_and_right, exists_or]
  · have hat : ∀ ds, cs ≠ '@' :: ds := fun ds h => hat ⟨ds, h⟩
    rw [read?_of_not_at hat, says_of_not_at hat, says_of_not_at hat]
    simp only [unsignedBits?_iff, or_and_right, exists_or]

/-- The sign stands before the digits, so behind the mark of an address. -/
example : Directive.read? "@+1f".toList = some (.origin 31) := by
  decide +kernel

/-- A token that the grammar gives no meaning is one the reader refuses. -/
theorem not_readsAs_iff : (∀ d, ¬ ReadsAs cs d) ↔ Directive.read? cs = none := by
  rw [Option.eq_none_iff_forall_ne_some]
  simp only [ne_eq, read?_iff]

/-- The sign a token is read with stands in it. -/
theorem Says.mem_of_mem_sign {c : Char} (h : Says sign cs d) (hc : c ∈ sign) : c ∈ cs := by
  cases h with
  | origin hn =>
      obtain ⟨ds, rfl, -⟩ := hn
      simp [hc]
  | word hn =>
      obtain ⟨ds, heq, -⟩ := hn
      have hmem : c ∈ cs.filter (· != '_') := by
        rw [heq]
        exact List.mem_append_left ds hc
      exact (List.mem_filter.mp hmem).1

/-- A token of the unsigned grammar has no plus. -/
theorem Says.plus_not_mem (h : Says [] cs d) : '+' ∉ cs := by
  intro hplus
  cases h with
  | @origin cs n hn =>
      obtain ⟨ds, rfl, hds⟩ := hn
      have hmem : '+' ∈ cs := by simpa using hplus
      obtain ⟨k, hk⟩ := hds.isHexDigit '+' hmem
      exact not_hexDigit_plus k hk
  | word hn =>
      obtain ⟨ds, heq, hds⟩ := hn
      have hmem : '+' ∈ cs.filter (· != '_') := List.mem_filter.mpr ⟨hplus, by decide⟩
      rw [heq] at hmem
      obtain ⟨k, hk⟩ := hds.isHexDigit '+' hmem
      exact not_hexDigit_plus k hk

/-- The unsigned grammar is the reader on tokens without a plus. -/
theorem says_iff : Says [] cs d ↔ Directive.read? cs = some d ∧ '+' ∉ cs := by
  rw [read?_iff]
  constructor
  · intro h
    exact ⟨.inl h, h.plus_not_mem⟩
  · rintro ⟨h | h, hplus⟩
    · exact h
    · exact absurd (h.mem_of_mem_sign List.mem_cons_self) hplus

end Grammar

end FiveStage
