/-
  FiveStage.Proofs.ImageTokens
  ────────────────────────────
  **THE TOKENS OF AN IMAGE.**

  The reader cuts a text into lines, drops the comment of each, and cuts what
  is left at white space.  `Layout` says the same of the text as a whole, with
  no lines and no cutting: from left to right the text is blanks, comments and
  tokens, a token being a run that nothing can lengthen.

      layout_iff      the tokens of a layout are the tokens that are read
      Layout.total    every text has a layout

  What one token says is the grammar of `Proofs.ImageGrammar`.
-/
import FiveStage.Image

namespace FiveStage

/-! ## §1. Cutting at a class of characters. -/

section Cutting

variable {cut : Char → Bool} {c : Char} {cs run piece : List Char} {pieces : List (List Char)}

theorem splitAtAll_cons_cut (h : cut c = true) :
    splitAtAll cut (c :: cs) = [] :: splitAtAll cut cs := by
  simp [splitAtAll, h]

theorem splitAtAll_cons (h : cut c = false) (hcs : splitAtAll cut cs = piece :: pieces) :
    splitAtAll cut (c :: cs) = (c :: piece) :: pieces := by
  unfold splitAtAll at hcs ⊢
  rw [List.foldr_cons, hcs]
  simp [h]

/-- Characters that do not cut join the first piece. -/
theorem splitAtAll_append (hrun : ∀ c ∈ run, cut c = false)
    (hcs : splitAtAll cut cs = piece :: pieces) :
    splitAtAll cut (run ++ cs) = (run ++ piece) :: pieces := by
  induction run with
  | nil => exact hcs
  | cons c run ih =>
      apply splitAtAll_cons (hrun c List.mem_cons_self)
      exact ih fun d hd => hrun d (List.mem_cons_of_mem c hd)

/-- There is a first piece, the text before the first character of the class. -/
theorem exists_splitAtAll (cut : Char → Bool) (cs : List Char) :
    ∃ piece pieces rest, splitAtAll cut cs = piece :: pieces ∧ cs = piece ++ rest
      ∧ (∀ c ∈ piece, cut c = false) ∧ (∀ c ∈ rest.head?, cut c = true) := by
  induction cs with
  | nil => exact ⟨[], [], [], rfl, rfl, by simp, by simp⟩
  | cons c cs ih =>
      by_cases h : cut c = true
      · exact ⟨[], _, c :: cs, splitAtAll_cons_cut h, rfl, by simp, by simpa using h⟩
      · obtain ⟨piece, pieces, rest, hcs, rfl, hpiece, hrest⟩ := ih
        rw [Bool.not_eq_true] at h
        refine ⟨c :: piece, pieces, rest, splitAtAll_cons h hcs, rfl, ?_, hrest⟩
        exact List.forall_mem_cons.mpr ⟨h, hpiece⟩

/-- Text that ends, or goes on with a character of the class, starts with an
empty piece. -/
theorem splitAtAll_of_head (h : ∀ c ∈ cs.head?, cut c = true) :
    ∃ pieces, splitAtAll cut cs = [] :: pieces := by
  cases cs with
  | nil => exact ⟨[], rfl⟩
  | cons c cs => exact ⟨_, splitAtAll_cons_cut (h c rfl)⟩

end Cutting

/-- A leading blank is dropped. -/
theorem words_cons_blank {c : Char} {cs : List Char} (h : isBlank c = true) :
    words (c :: cs) = words cs := by
  simp [words, splitAtAll_cons_cut h]

/-- A run without blanks, up to a blank or the end, is the first word. -/
theorem words_append {run cs : List Char} (hne : run ≠ []) (hrun : ∀ c ∈ run, isBlank c = false)
    (hcs : ∀ c ∈ cs.head?, isBlank c = true) : words (run ++ cs) = run :: words cs := by
  obtain ⟨pieces, hpieces⟩ := splitAtAll_of_head hcs
  unfold words
  rw [splitAtAll_append hrun hpieces, hpieces]
  simp [hne]

/-! ## §2. Comments. -/

/-- A comment opens at the start of the text. -/
def OpensComment (cs : List Char) : Prop :=
  ['#'] <+: cs ∨ ['/', '/'] <+: cs

instance (cs : List Char) : Decidable (OpensComment cs) :=
  inferInstanceAs (Decidable (_ ∨ _))

/-- No comment opens at a character of `run`, when `rest` stands behind it. -/
def ClearOfComments (run rest : List Char) : Prop :=
  ∀ s, s <:+ run → s ≠ [] → ¬ OpensComment (s ++ rest)

theorem OpensComment.mono {cs ds : List Char} (h : OpensComment cs) (hp : cs <+: ds) :
    OpensComment ds :=
  h.imp (·.trans hp) (·.trans hp)

theorem OpensComment.ne_nil {cs : List Char} (h : OpensComment cs) : cs ≠ [] := by
  rintro rfl
  exact absurd h (by decide)

theorem not_opensComment_of_blank {c : Char} {cs : List Char} (h : isBlank c = true) :
    ¬ OpensComment (c :: cs) := by
  rintro (hhash | hslash)
  · rw [← (List.cons_prefix_cons.mp hhash).1] at h
    exact absurd h (by decide)
  · rw [← (List.cons_prefix_cons.mp hslash).1] at h
    exact absurd h (by decide)

/-- A line that opens with a comment is all comment. -/
theorem withoutComment_of_opens {cs : List Char} (h : OpensComment cs) :
    withoutComment cs = [] := by
  rcases h with ⟨ds, rfl⟩ | ⟨ds, rfl⟩
  · cases ds <;> simp [withoutComment]
  · simp [withoutComment]

/-- A character that opens no comment is kept. -/
theorem withoutComment_cons {c : Char} {cs : List Char} (h : ¬ OpensComment (c :: cs)) :
    withoutComment (c :: cs) = c :: withoutComment cs := by
  have hhash : c ≠ '#' := by
    rintro rfl
    exact h (.inl (List.cons_prefix_cons.mpr ⟨rfl, List.nil_prefix⟩))
  rw [withoutComment.eq_def]
  split
  · contradiction
  · rename_i heq
    obtain ⟨rfl, rfl⟩ := List.cons.inj heq
    exact absurd (.inr ⟨_, rfl⟩) h
  · rename_i heq
    obtain ⟨rfl, rfl⟩ := List.cons.inj heq
    rw [if_neg hhash]

theorem ClearOfComments.nil (rest : List Char) : ClearOfComments [] rest := by
  intro s hs hne
  exact absurd (List.suffix_nil.mp hs) hne

theorem ClearOfComments.tail {c : Char} {run rest : List Char}
    (h : ClearOfComments (c :: run) rest) : ClearOfComments run rest :=
  fun s hs => h s (hs.trans (List.suffix_cons c run))

/-- What holds before all of the text holds before the line it starts with. -/
theorem ClearOfComments.of_prefix {run rest line : List Char} (h : ClearOfComments run rest)
    (hline : line <+: rest) : ClearOfComments run line := by
  intro s hs hne hopens
  exact h s hs hne (hopens.mono ((List.prefix_append_right_inj s).mpr hline))

/-- A run clear of comments is kept as it stands. -/
theorem withoutComment_append {run cs : List Char} (h : ClearOfComments run cs) :
    withoutComment (run ++ cs) = run ++ withoutComment cs := by
  induction run with
  | nil => rfl
  | cons c run ih =>
      have hhere : ¬ OpensComment (c :: (run ++ cs)) :=
        h (c :: run) List.suffix_rfl (List.cons_ne_nil c run)
      rw [List.cons_append, withoutComment_cons hhere, ih h.tail]
      rfl

/-! ## §3. The layout of a text. -/

/-- Where a token cannot go on: white space, a comment or the end. -/
def Stops (rest : List Char) : Prop :=
  (∀ c ∈ rest.head?, isBlank c = true) ∨ OpensComment rest

/-- `Layout n cs ts`: the text `cs`, whose first line has number `n`, has the
tokens `ts`. -/
inductive Layout : Nat → List Char → List ImageToken → Prop where
  | nil {n} : Layout n [] []
  | newline {n cs ts} : Layout (n + 1) cs ts → Layout n ('\n' :: cs) ts
  | blank {n c cs ts} : isBlank c = true → c ≠ '\n' → Layout n cs ts → Layout n (c :: cs) ts
  | comment {n body rest ts} : OpensComment body → '\n' ∉ body →
      (∀ c ∈ rest.head?, c = '\n') → Layout n rest ts → Layout n (body ++ rest) ts
  | token {n run rest ts} : run ≠ [] → (∀ c ∈ run, isBlank c = false) →
      ClearOfComments run rest → Stops rest → Layout n rest ts →
      Layout n (run ++ rest) (⟨n, run⟩ :: ts)

/-- The tokens of a text whose first line has number `n`. -/
def tokensFrom (n : Nat) (cs : List Char) : List ImageToken :=
  ((lines cs).zipIdx n).flatMap fun (line, i) => (words (withoutComment line)).map (⟨i, ·⟩)

theorem tokensFrom_one (cs : List Char) : tokensFrom 1 cs = imageTokens cs := by
  unfold tokensFrom imageTokens
  rw [List.zipIdx_succ, List.flatMap_map]

section Line

variable {n : Nat} {c : Char} {cs run line : List Char} {more : List (List Char)}

/-- The tokens of the first line, then those of the others, each under its own
number. -/
theorem tokensFrom_of_lines (h : lines cs = line :: more) :
    tokensFrom n cs = (words (withoutComment line)).map (⟨n, ·⟩)
      ++ ((more.zipIdx (n + 1)).flatMap fun (line, i) =>
          (words (withoutComment line)).map (⟨i, ·⟩)) := by
  unfold tokensFrom
  rw [h, List.zipIdx_cons, List.flatMap_cons]

/-- Characters other than a newline join the first line. -/
theorem lines_append (hrun : '\n' ∉ run) (hcs : lines cs = line :: more) :
    lines (run ++ cs) = (run ++ line) :: more := by
  apply splitAtAll_append _ hcs
  intro c hc
  rw [beq_eq_false_iff_ne]
  rintro rfl
  exact hrun hc

theorem not_newline_of_not_blank (hrun : ∀ c ∈ run, isBlank c = false) : '\n' ∉ run := by
  intro hmem
  have hblank : isBlank '\n' = true := by decide
  rw [hrun _ hmem] at hblank
  contradiction

/-- A newline starts the next line number. -/
theorem tokensFrom_newline : tokensFrom n ('\n' :: cs) = tokensFrom (n + 1) cs := by
  have hlines : lines ('\n' :: cs) = [] :: lines cs := splitAtAll_cons_cut rfl
  rw [tokensFrom_of_lines hlines]
  rfl

/-- A blank within a line separates and nothing more. -/
theorem tokensFrom_blank (hblank : isBlank c = true) (hc : c ≠ '\n') :
    tokensFrom n (c :: cs) = tokensFrom n cs := by
  obtain ⟨line, more, -, hlines, -⟩ := exists_splitAtAll (· == '\n') cs
  have hcons : lines (c :: cs) = (c :: line) :: more :=
    splitAtAll_cons (by simpa using hc) hlines
  rw [tokensFrom_of_lines hcons, tokensFrom_of_lines hlines,
    withoutComment_cons (not_opensComment_of_blank hblank), words_cons_blank hblank]

/-- A comment up to its newline holds no token. -/
theorem tokensFrom_comment (hopens : OpensComment run) (hrun : '\n' ∉ run)
    (hcs : ∀ c ∈ cs.head?, c = '\n') : tokensFrom n (run ++ cs) = tokensFrom n cs := by
  have hhead : ∀ c ∈ cs.head?, (c == '\n') = true := fun c hc => by simp [hcs c hc]
  obtain ⟨more, hlines⟩ := splitAtAll_of_head hhead
  have hcons : lines (run ++ cs) = (run ++ []) :: more := lines_append hrun hlines
  have hdropped : withoutComment (run ++ []) = [] := by
    rw [List.append_nil, withoutComment_of_opens hopens]
  rw [tokensFrom_of_lines hcons, tokensFrom_of_lines hlines, hdropped]
  rfl

/-- A comment that opens in a text opens in its first line. -/
theorem OpensComment.first_line (h : OpensComment cs) (hlines : lines cs = line :: more) :
    OpensComment line := by
  -- The mark holds no line break, so that the line starts with the whole of it.
  have hmark (mark : List Char) (hmark : '\n' ∉ mark) (hcs : mark <+: cs) : mark <+: line := by
    obtain ⟨rest, rfl⟩ := hcs
    obtain ⟨first, others, -, hrest, -⟩ := exists_splitAtAll (· == '\n') rest
    rw [lines_append hmark hrest] at hlines
    obtain ⟨rfl, -⟩ := List.cons.inj hlines
    exact List.prefix_append mark first
  exact h.imp (hmark _ (by decide)) (hmark _ (by decide))

/-- The line behind a token goes on with white space once its comment is gone. -/
theorem Stops.head_withoutComment (h : Stops cs) (hlines : lines cs = line :: more)
    (hline : line <+: cs) : ∀ c ∈ (withoutComment line).head?, isBlank c = true := by
  rcases h with hblank | hopens
  · cases line with
    | nil => simp [withoutComment]
    | cons c line =>
        obtain ⟨rest, rfl⟩ := hline
        have hc : isBlank c = true := hblank c rfl
        simp [withoutComment_cons (not_opensComment_of_blank hc), hc]
  · simp [withoutComment_of_opens (hopens.first_line hlines)]

/-- A run up to a stop is one token, on the line where it stands. -/
theorem tokensFrom_token (hne : run ≠ []) (hrun : ∀ c ∈ run, isBlank c = false)
    (hclear : ClearOfComments run cs) (hstops : Stops cs) :
    tokensFrom n (run ++ cs) = ⟨n, run⟩ :: tokensFrom n cs := by
  obtain ⟨line, more, rest, hlines, hcs, -⟩ := exists_splitAtAll (· == '\n') cs
  have hline : line <+: cs := ⟨rest, hcs.symm⟩
  have hcons : lines (run ++ cs) = (run ++ line) :: more :=
    lines_append (not_newline_of_not_blank hrun) hlines
  have hkept : withoutComment (run ++ line) = run ++ withoutComment line :=
    withoutComment_append (hclear.of_prefix hline)
  rw [tokensFrom_of_lines hcons, tokensFrom_of_lines hlines, hkept,
    words_append hne hrun (hstops.head_withoutComment hlines hline)]
  rfl

end Line

/-- The tokens of a laid-out text are those of its layout. -/
theorem Layout.tokens_eq {n : Nat} {cs : List Char} {ts : List ImageToken} (h : Layout n cs ts) :
    tokensFrom n cs = ts := by
  induction h with
  | nil => rfl
  | newline _ ih => rw [tokensFrom_newline, ih]
  | blank hblank hc _ ih => rw [tokensFrom_blank hblank hc, ih]
  | comment hopens hbody hrest _ ih => rw [tokensFrom_comment hopens hbody hrest, ih]
  | token hne hrun hclear hstops _ ih => rw [tokensFrom_token hne hrun hclear hstops, ih]

/-- Every text starts with a run that stops where a token would, be it empty. -/
theorem exists_run (cs : List Char) : ∃ run rest, cs = run ++ rest
    ∧ (∀ c ∈ run, isBlank c = false) ∧ ClearOfComments run rest ∧ Stops rest := by
  induction cs with
  | nil => exact ⟨[], [], rfl, by simp, .nil [], .inl (by simp)⟩
  | cons c cs ih =>
      by_cases hstops : Stops (c :: cs)
      · exact ⟨[], c :: cs, rfl, by simp, .nil (c :: cs), hstops⟩
      · -- The run goes on: no comment opens here, nor further in by hypothesis.
        obtain ⟨run, rest, rfl, hrun, hclear, hrest⟩ := ih
        obtain ⟨hblank, hopens⟩ := not_or.mp hstops
        refine ⟨c :: run, rest, rfl, ?_, ?_, hrest⟩
        · rw [List.forall_mem_cons]
          exact ⟨by simpa using hblank, hrun⟩
        · intro s hs hne
          rcases List.suffix_cons_iff.mp hs with rfl | hs
          · exact hopens
          · exact hclear s hs hne

/-- A comment ends where its line does. -/
theorem OpensComment.exists_body {cs : List Char} (h : OpensComment cs) :
    ∃ body rest, cs = body ++ rest ∧ OpensComment body ∧ '\n' ∉ body
      ∧ (∀ c ∈ rest.head?, c = '\n') := by
  obtain ⟨line, more, rest, hlines, hcs, hline, hrest⟩ := exists_splitAtAll (· == '\n') cs
  refine ⟨line, rest, hcs, h.first_line hlines, ?_, ?_⟩
  · intro hmem
    simpa using hline _ hmem
  · intro c hc
    simpa using hrest c hc

/-- Every text has a layout. -/
theorem Layout.total (n : Nat) (cs : List Char) : ∃ ts, Layout n cs ts := by
  -- What is consumed first is not empty, so that the rest of the text is shorter.
  induction hlen : cs.length using Nat.strongRecOn generalizing n cs with
  | ind len ih =>
      subst hlen
      by_cases hopens : OpensComment cs
      · obtain ⟨body, rest, rfl, hbody, hline, hrest⟩ := hopens.exists_body
        have hpos : 0 < body.length := List.length_pos_iff.mpr hbody.ne_nil
        have hshorter : rest.length < (body ++ rest).length := by
          rw [List.length_append]
          omega
        obtain ⟨ts, hts⟩ := ih rest.length hshorter n rest rfl
        exact ⟨ts, .comment hbody hline hrest hts⟩
      · obtain ⟨run, rest, rfl, hrun, hclear, hstops⟩ := exists_run cs
        cases run with
        | cons c run =>
            have hshorter : rest.length < (c :: run ++ rest).length := by
              rw [List.length_append, List.length_cons]
              omega
            obtain ⟨ts, hts⟩ := ih rest.length hshorter n rest rfl
            exact ⟨_, .token (List.cons_ne_nil c run) hrun hclear hstops hts⟩
        | nil =>
            -- The text stops a token at once, and not by a comment.
            cases rest with
            | nil => exact ⟨[], .nil⟩
            | cons c rest =>
                have hblank : isBlank c = true := by
                  rcases hstops with hblank | hcomment
                  · exact hblank c rfl
                  · exact absurd hcomment hopens
                by_cases hc : c = '\n'
                · obtain ⟨ts, hts⟩ := ih rest.length (by simp) (n + 1) rest rfl
                  subst hc
                  exact ⟨ts, .newline hts⟩
                · obtain ⟨ts, hts⟩ := ih rest.length (by simp) n rest rfl
                  exact ⟨ts, .blank hblank hc hts⟩

/-- The tokens of a text's layout are the tokens the reader finds. -/
theorem layout_iff {n : Nat} {cs : List Char} {ts : List ImageToken} :
    Layout n cs ts ↔ tokensFrom n cs = ts := by
  constructor
  · exact Layout.tokens_eq
  · rintro rfl
    obtain ⟨ts, hts⟩ := Layout.total n cs
    rw [hts.tokens_eq]
    exact hts

end FiveStage
