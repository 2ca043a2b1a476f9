/-
  FiveStage.Proofs.ImageReading
  ─────────────────────────────
  **FROM THE TEXT OF AN IMAGE TO THE WORDS THAT ARE FETCHED.**

  The tokens of a text place words: `@` sets the word address, a word takes it
  and moves it on by one.  `Places` reads these placements off the tokens, and
  knows of no capacity, image or error.  They settle what the reader does:

      run_of_places     the first placement past the capacity is the error,
                        and without one every placement is made in turn
      getD_placeAll     the image then holds at each address the last word
                        placed there

  A token that says nothing is an error whatever surrounds it, and the error
  of the image if the reader comes so far.
-/
import FiveStage.Proofs.ImageTokens
import FiveStage.Proofs.ImageGrammar
import FiveStage.Memory.Rom

namespace FiveStage

/-! ## §1. Placements. -/

/-- A word, the word address it is placed at, and the line that places it. -/
structure Placement where
  line : Nat
  addr : Nat
  word : Word
  deriving Repr, DecidableEq

/-- `Places meaning addr ts ps`: with the word address at `addr`, the tokens `ts`
make the placements `ps`, from left to right.  What a token says is up to
`meaning`. -/
inductive Places (meaning : List Char → Directive → Prop) :
    Nat → List ImageToken → List Placement → Prop where
  | nil {addr} : Places meaning addr [] []
  | origin {addr t ts ps target} : meaning t.text (.origin target) → Places meaning target ts ps →
      Places meaning addr (t :: ts) ps
  | word {addr t ts ps w} : meaning t.text (.word w) → Places meaning (addr + 1) ts ps →
      Places meaning addr (t :: ts) (⟨t.line, addr, w⟩ :: ps)

/-- The last word placed at an address, or a no-op if there is none. -/
def lastWord (ps : List Placement) (i : Nat) : Word :=
  (ps.filter (·.addr = i)).getLast?.elim nopWord (·.word)

/-- If each token means something, the tokens have placements. -/
theorem Places.exists {meaning : List Char → Directive → Prop} {ts : List ImageToken}
    (h : ∀ t ∈ ts, ∃ d, meaning t.text d) (addr : Nat) : ∃ ps, Places meaning addr ts ps := by
  induction ts generalizing addr with
  | nil => exact ⟨[], .nil⟩
  | cons t ts ih =>
      rw [List.forall_mem_cons] at h
      obtain ⟨⟨d, hd⟩, hts⟩ := h
      cases d with
      | origin target =>
          obtain ⟨ps, hps⟩ := ih hts target
          exact ⟨ps, .origin hd hps⟩
      | word w =>
          obtain ⟨ps, hps⟩ := ih hts (addr + 1)
          exact ⟨_, .word hd hps⟩

/-! ## §2. Making placements. -/

/-- Make placements one after the other. -/
def Image.placeAll (image : Image) (ps : List Placement) : Image :=
  ps.foldl (fun image p => image.place p.addr p.word) image

namespace Image

variable {image : Image}

/-- Placing a word grows the image to just past it, if it was not that long
already. -/
theorem size_place (a : Nat) (w : Word) :
    (image.place a w).words.size = max image.words.size (a + 1) := by
  unfold place
  split
  · simp only [Array.size_setIfInBounds]
    omega
  · simp only [Array.size_push, Array.size_append, Array.size_replicate]
    omega

/-- Placing a word changes what is read at its address only, the gap before it
reading as nops. -/
theorem getD_place (a i : Nat) (w : Word) :
    (image.place a w).words[i]?.getD nopWord
      = if i = a then w else image.words[i]?.getD nopWord := by
  unfold place
  split
  · rename_i hin
    by_cases hi : i = a
    · subst hi
      simp [hin]
    · simp [hi, Ne.symm hi]
  · rename_i hout
    -- Below the new word stand the old words and, up to it, no-ops.
    rw [Array.getElem?_push, Array.getElem?_append, Array.getElem?_replicate,
      Array.size_append, Array.size_replicate]
    have hsize : image.words.size + (a - image.words.size) = a := by omega
    rw [hsize]
    by_cases hi : i = a
    · simp [hi]
    · rw [if_neg hi, if_neg hi]
      by_cases hold : i < image.words.size
      · rw [if_pos hold]
      · rw [if_neg hold, Array.getElem?_eq_none (by omega)]
        split <;> rfl

/-- An image reaches just past its highest placement. -/
theorem size_placeAll (ps : List Placement) :
    (placeAll {} ps).words.size = (ps.map (·.addr + 1)).max?.getD 0 := by
  -- From any image, since the induction places the first word at once.
  have hfold (image : Image) :
      (image.placeAll ps).words.size = (ps.map (·.addr + 1)).foldl max image.words.size := by
    induction ps generalizing image with
    | nil => rfl
    | cons p ps ih =>
        rw [List.map_cons, List.foldl_cons, ← size_place p.addr p.word]
        exact ih (image.place p.addr p.word)
  rw [hfold, List.foldl_max]
  exact Nat.zero_max _

theorem size_placeAll_le {capacity : Nat} {ps : List Placement}
    (h : ∀ p ∈ ps, p.addr < capacity) : (placeAll {} ps).words.size ≤ capacity := by
  rw [size_placeAll]
  cases hmax : (ps.map (·.addr + 1)).max? with
  | none => exact Nat.zero_le capacity
  | some top =>
      obtain ⟨p, hp, rfl⟩ := List.mem_map.mp (List.max?_mem hmax)
      exact h p hp

/-- An image holds at each address the last word that was placed there. -/
theorem getD_placeAll (ps : List Placement) (i : Nat) :
    (placeAll {} ps).words[i]?.getD nopWord = lastWord ps i := by
  induction ps using List.reverseRecOn with
  | nil => rfl
  | append_singleton ps p ih =>
      have hsnoc : placeAll {} (ps ++ [p]) = (placeAll {} ps).place p.addr p.word :=
        List.foldl_append
      rw [hsnoc, getD_place, ih]
      unfold lastWord
      rw [List.filter_append]
      by_cases hi : p.addr = i
      · simp [hi]
      · simp [hi, Ne.symm hi]

end Image

/-! ## §3. Running the reader. -/

namespace ImageReader

variable {capacity : Nat} {r : ImageReader} {t : ImageToken} {ts : List ImageToken}

/-- An origin token moves the address. -/
theorem step_origin {addr : Nat} (h : Directive.read? t.text = some (.origin addr)) :
    r.step capacity t = .ok { r with addr } := by
  simp only [step, h]

/-- A word token within the capacity is placed, and the address moves past it. -/
theorem step_word {w : Word} (h : Directive.read? t.text = some (.word w))
    (hfits : r.addr < capacity) :
    r.step capacity t = .ok ⟨r.image.place r.addr w, r.addr + 1⟩ := by
  simp only [step, h, if_pos hfits]

theorem step_word_past {w : Word} (h : Directive.read? t.text = some (.word w))
    (hpast : ¬ r.addr < capacity) :
    r.step capacity t = .error (.addressOutOfRange t.line r.addr capacity) := by
  simp only [step, h, if_neg hpast]

/-- A token with no meaning stops the reader, with its line and text. -/
theorem step_invalid (h : Directive.read? t.text = none) :
    r.step capacity t = .error (.invalidToken t.line (String.ofList t.text)) := by
  simp only [step, h]

theorem run_cons_ok {r' : ImageReader} (h : r.step capacity t = .ok r') :
    r.run capacity (t :: ts) = r'.run capacity ts := by
  simp only [run, h]

theorem run_cons_error {e : ImageError} (h : r.step capacity t = .error e) :
    r.run capacity (t :: ts) = .error e := by
  simp only [run, h]

theorem run_append_ok {r' : ImageReader} {us : List ImageToken}
    (h : r.run capacity ts = .ok r') : r.run capacity (ts ++ us) = r'.run capacity us := by
  induction ts generalizing r with
  | nil =>
      cases h
      rfl
  | cons t ts ih =>
      cases hstep : r.step capacity t with
      | error e =>
          rw [run_cons_error hstep] at h
          contradiction
      | ok next =>
          rw [run_cons_ok hstep] at h
          rw [List.cons_append, run_cons_ok hstep]
          exact ih h

/-- A token that says nothing is an error of every text it stands in. -/
theorem run_invalid (hmem : t ∈ ts) (h : Directive.read? t.text = none) :
    ∃ e, r.run capacity ts = .error e := by
  induction ts generalizing r with
  | nil => exact absurd hmem List.not_mem_nil
  | cons u ts ih =>
      cases hstep : r.step capacity u with
      | error e => exact ⟨e, run_cons_error hstep⟩
      | ok next =>
          rw [run_cons_ok hstep]
          -- The token read here was no error, so it is another one.
          rcases List.mem_cons.mp hmem with rfl | hmem
          · rw [step_invalid h] at hstep
            contradiction
          · exact ih hmem

/-- The first placement at or past the capacity is the error.  If there is
none, every placement is made. -/
theorem run_of_places {meaning : List Char → Directive → Prop} {addr : Nat}
    {ps : List Placement} (hread : ∀ cs d, meaning cs d → Directive.read? cs = some d)
    (h : Places meaning addr ts ps) (image : Image) :
    (run capacity ⟨image, addr⟩ ts).map (·.image)
      = (ps.find? (capacity ≤ ·.addr)).elim (.ok (image.placeAll ps))
          fun p => .error (.addressOutOfRange p.line p.addr capacity) := by
  -- Along the placements, not the tokens: an address places nothing, and the
  -- first word past the capacity ends the run whatever comes after it.
  induction h generalizing image with
  | nil => rfl
  | origin ht _ ih => rw [run_cons_ok (step_origin (hread _ _ ht)), ih]
  | @word addr t ts ps w ht _ ih =>
      by_cases hfits : addr < capacity
      · rw [run_cons_ok (step_word (hread _ _ ht) hfits), ih]
        rw [List.find?_cons_of_neg (by simpa using hfits)]
        rfl
      · rw [run_cons_error (step_word_past (hread _ _ ht) hfits)]
        rw [List.find?_cons_of_pos (by simpa using hfits)]
        rfl

/-- The reader comes to a token if the words before it fit. -/
theorem run_first_invalid {meaning : List Char → Directive → Prop} {before after : List ImageToken}
    {ps : List Placement} (hread : ∀ cs d, meaning cs d → Directive.read? cs = some d)
    (hps : Places meaning r.addr before ps) (hfits : ∀ p ∈ ps, p.addr < capacity)
    (h : Directive.read? t.text = none) :
    r.run capacity (before ++ t :: after)
      = .error (.invalidToken t.line (String.ofList t.text)) := by
  have hnone : ps.find? (capacity ≤ ·.addr) = none :=
    List.find?_eq_none.mpr (by simpa using hfits)
  have hbefore : (r.run capacity before).map (·.image) = _ := run_of_places hread hps r.image
  rw [hnone] at hbefore
  cases hrun : r.run capacity before with
  | error e =>
      rw [hrun] at hbefore
      contradiction
  | ok r' => rw [run_append_ok hrun, run_cons_error (step_invalid h)]

end ImageReader

/-! ## §4. Reading and fetching a text. -/

section Parse

variable {meaning : List Char → Directive → Prop} {text : String} {capacity : Nat}
  {ts : List ImageToken} {ps : List Placement}

/-- Parsing is the reader run over the tokens that the layout finds. -/
theorem parse_eq_run (hlayout : Layout 1 text.toList ts) :
    Image.parse text capacity = (ImageReader.run capacity {} ts).map (·.image) := by
  unfold Image.parse
  rw [← tokensFrom_one, hlayout.tokens_eq]

/-- Where the tokens mean placements, parsing places them all, or names the
first one past the capacity. -/
theorem parse_of_places (hread : ∀ cs d, meaning cs d → Directive.read? cs = some d)
    (hlayout : Layout 1 text.toList ts) (hps : Places meaning 0 ts ps) :
    Image.parse text capacity
      = (ps.find? (capacity ≤ ·.addr)).elim (.ok (Image.placeAll {} ps))
          fun p => .error (.addressOutOfRange p.line p.addr capacity) := by
  rw [parse_eq_run hlayout]
  exact ImageReader.run_of_places hread hps {}

/-- What a program memory answers that holds an image. -/
theorem fetch_placeAll (pc : Word) :
    (Rom.mk (Image.placeAll {} ps).words capacity).fetch pc
      = if pc.toNat % 4 ≠ 0 then .error (.misaligned .fetch pc .word)
        else if pc.toNat / 4 < capacity then .ok (lastWord ps (pc.toNat / 4))
        else .error (.outOfRange .fetch pc .word) := by
  have haligned : Width.word.isAligned pc = true ↔ pc.toNat % 4 = 0 := by
    rw [Width.isAligned, beq_iff_eq]
    exact Iff.rfl
  unfold Rom.fetch Rom.word?
  by_cases h : pc.toNat % 4 = 0
  · rw [if_pos (haligned.mpr h), if_neg (not_not.mpr h)]
    by_cases hin : pc.toNat / 4 < capacity
    · rw [if_pos hin, if_pos hin, Image.getD_placeAll]
      rfl
    · rw [if_neg hin, if_neg hin]
      rfl
  · rw [if_neg (mt haligned.mp h), if_pos h]

end Parse

/-- The words of a well formed text are fetched from where it places them, and
the only error is the first word past the capacity. -/
theorem Image.parse_well_formed (text : String) (capacity : Nat) (ts : List ImageToken)
    (hlayout : Layout 1 text.toList ts) (hmeaning : ∀ t ∈ ts, ∃ d, Says [] t.text d) :
    ∃ ps, Places (Says []) 0 ts ps
      ∧ (∀ e, Image.parse text capacity = .error e
          ↔ ∃ p, ps.find? (capacity ≤ ·.addr) = some p
              ∧ e = .addressOutOfRange p.line p.addr capacity)
      ∧ ∀ image, Image.parse text capacity = .ok image →
          image.words.size = (ps.map (·.addr + 1)).max?.getD 0
          ∧ (∀ i < image.words.size, image.words[i]? = some (lastWord ps i))
          ∧ image.words.size ≤ capacity
          ∧ ∀ pc : Word, (Rom.mk image.words capacity).fetch pc
              = if pc.toNat % 4 ≠ 0 then .error (.misaligned .fetch pc .word)
                else if pc.toNat / 4 < capacity then .ok (lastWord ps (pc.toNat / 4))
                else .error (.outOfRange .fetch pc .word) := by
  obtain ⟨ps, hps⟩ := Places.exists hmeaning 0
  have hparse : Image.parse text capacity
      = (ps.find? (capacity ≤ ·.addr)).elim (.ok (placeAll {} ps))
          fun p => .error (.addressOutOfRange p.line p.addr capacity) :=
    parse_of_places (fun _ _ h => (says_iff.mp h).1) hlayout hps
  refine ⟨ps, hps, ?_, ?_⟩
  · -- The errors are those of the first placement past the capacity.
    intro e
    cases hpast : ps.find? (capacity ≤ ·.addr) with
    | none =>
        rw [hparse, hpast]
        exact ⟨nofun, nofun⟩
    | some p =>
        rw [hparse, hpast]
        constructor
        · intro h
          cases h
          exact ⟨p, rfl, rfl⟩
        · rintro ⟨q, hq, rfl⟩
          cases hq
          rfl
  · -- An image comes only of placements that all fit.
    intro image himage
    cases hpast : ps.find? (capacity ≤ ·.addr) with
    | some p =>
        rw [hparse, hpast] at himage
        contradiction
    | none =>
        rw [hparse, hpast] at himage
        cases himage
        have hfits : ∀ p ∈ ps, p.addr < capacity := by
          simpa using List.find?_eq_none.mp hpast
        refine ⟨size_placeAll ps, ?_, size_placeAll_le hfits, fetch_placeAll⟩
        intro i hi
        rw [← getD_placeAll ps i, Array.getElem?_eq_getElem hi]
        rfl

/-- Two kinds of comments, an underscore, an address that leaves a gap and one
that goes back. -/
theorem Image.parse_overwriting_text :
    ∃ ps, Places (Says []) 0 [⟨1, "9_3".toList⟩, ⟨1, "13".toList⟩, ⟨2, "@4".toList⟩,
        ⟨2, "7f".toList⟩, ⟨3, "@1".toList⟩, ⟨3, "A".toList⟩] ps
      ∧ Image.parse "9_3 13 // two\n@4 7f# far\n\t@1 A\n" 5
          = .ok ⟨#[0x93, 0xa, nopWord, nopWord, 0x7f]⟩
      ∧ ∀ i < 5, (#[0x93, 0xa, nopWord, nopWord, 0x7f] : Array Word)[i]?
          = some (lastWord ps i) := by
  have hlayout : Layout 1 "9_3 13 // two\n@4 7f# far\n\t@1 A\n".toList
      [⟨1, "9_3".toList⟩, ⟨1, "13".toList⟩, ⟨2, "@4".toList⟩,
        ⟨2, "7f".toList⟩, ⟨3, "@1".toList⟩, ⟨3, "A".toList⟩] :=
    layout_iff.mpr (by decide +kernel)
  have hparse : Image.parse "9_3 13 // two\n@4 7f# far\n\t@1 A\n" 5
      = .ok ⟨#[0x93, 0xa, nopWord, nopWord, 0x7f]⟩ := by decide +kernel
  have hread : ∀ t ∈ ([⟨1, "9_3".toList⟩, ⟨1, "13".toList⟩, ⟨2, "@4".toList⟩,
        ⟨2, "7f".toList⟩, ⟨3, "@1".toList⟩, ⟨3, "A".toList⟩] : List ImageToken),
      (Directive.read? t.text).isSome ∧ '+' ∉ t.text := by decide +kernel
  obtain ⟨ps, hps, -, hok⟩ := Image.parse_well_formed _ 5 _ hlayout fun t ht =>
    ⟨_, says_iff.mpr ⟨(Option.some_get (hread t ht).1).symm, (hread t ht).2⟩⟩
  exact ⟨ps, hps, hparse, (hok _ hparse).2.1⟩

/-- A text with a token outside the grammar is an error, and the first such
token is the error if the reader comes so far.  The grammar is the reader's:
a numeral may have a plus sign. -/
theorem Image.parse_outside_grammar (text : String) (capacity : Nat) (ts : List ImageToken)
    (hlayout : Layout 1 text.toList ts) (hbad : ∃ t ∈ ts, ∀ d, ¬ ReadsAs t.text d) :
    ∃ e, Image.parse text capacity = .error e
      ∧ ∀ before t after ps, ts = before ++ t :: after → (∀ d, ¬ ReadsAs t.text d) →
          Places ReadsAs 0 before ps → (∀ p ∈ ps, p.addr < capacity) →
          e = .invalidToken t.line (String.ofList t.text) := by
  obtain ⟨bad, hmem, hmeaning⟩ := hbad
  have herror : ∃ e, ImageReader.run capacity {} ts = .error e :=
    ImageReader.run_invalid hmem (not_readsAs_iff.mp hmeaning)
  obtain ⟨e, he⟩ := herror
  refine ⟨e, ?_, ?_⟩
  · rw [parse_eq_run hlayout, he]
    rfl
  · rintro before t after ps rfl ht hps hfits
    rw [ImageReader.run_first_invalid (fun _ _ => read?_iff.mpr) hps hfits
      (not_readsAs_iff.mp ht)] at he
    cases he
    rfl

/-- A numeral with a prefix, behind a word that fits. -/
theorem Image.parse_prefixed_numeral :
    Image.parse "13 // one\n0x10 20\n" 4 = .error (.invalidToken 2 "0x10") := by
  have hlayout : Layout 1 "13 // one\n0x10 20\n".toList
      ([⟨1, "13".toList⟩] ++ ⟨2, "0x10".toList⟩ :: [⟨2, "20".toList⟩]) :=
    layout_iff.mpr (by decide +kernel)
  have hbad : ∀ d, ¬ ReadsAs "0x10".toList d := not_readsAs_iff.mpr (by decide +kernel)
  have hword : ReadsAs "13".toList (.word 0x13) := read?_iff.mp (by decide +kernel)
  obtain ⟨e, he, hfirst⟩ := Image.parse_outside_grammar _ 4 _ hlayout
    ⟨⟨2, "0x10".toList⟩, by simp, hbad⟩
  rw [he, hfirst _ _ _ _ rfl hbad (.word hword .nil) (by simp)]
  rfl

/-- A plus sign before the digits does not keep a token from being a word,
though no word of the grammar has one. -/
theorem Image.parse_plus_sign :
    Layout 1 "+13\n".toList [⟨1, "+13".toList⟩]
      ∧ (∀ d, ¬ Says [] "+13".toList d)
      ∧ Image.parse "+13\n" 4 = .ok ⟨#[0x13]⟩ := by
  refine ⟨layout_iff.mpr (by decide +kernel), ?_, by decide +kernel⟩
  intro d h
  exact h.plus_not_mem (by decide)

end FiveStage
