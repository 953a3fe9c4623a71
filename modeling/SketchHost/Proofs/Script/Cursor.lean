/-
**Cursors go forward.**

Every reader of the lexical grammar takes a cursor to a later one: what lies between the two is a run
of characters of the source, and the offset grows by the bytes of that run.  A word that is read is
the run that it spells, it is not empty, and it holds no line end.

* `Script.Cursor.Leads` — a cursor comes at or after another one;
* `Script.Cursor.In` — a cursor stands in a source;
* `Script.Cursor.leads_skipTrivia`, `leads_number`, `leads_string`, `leads_regex`,
  `leads_templateText` — the readers go forward;
* `Script.Cursor.word?_spells` — a word is what was passed over.
-/

import SketchHost.Script.Expression
import SketchHost.Proofs.Text.Bytes

set_option relaxedAutoImplicit false
set_option autoImplicit false

namespace SketchHost

namespace Script

open Text (byteLength)

namespace Cursor

/-! ### The order of cursors -/

/-- The second cursor comes at or after the first one: a run of characters lies between them, and the
offset grows by the bytes of the run. -/
def Leads (c d : Cursor) : Prop :=
  ∃ run, c.rest = run ++ d.rest ∧ d.offset = c.offset + byteLength run

/-- A cursor stands in a source. -/
def In (source : List Char) (c : Cursor) : Prop :=
  (start source).Leads c

theorem Leads.refl (c : Cursor) : c.Leads c :=
  ⟨[], by simp, by simp⟩

theorem Leads.trans {c d e : Cursor} (h : c.Leads d) (h' : d.Leads e) : c.Leads e := by
  obtain ⟨run, hrest, hoffset⟩ := h
  obtain ⟨run', hrest', hoffset'⟩ := h'
  exact ⟨run ++ run', by rw [hrest, hrest', List.append_assoc],
    by rw [hoffset', hoffset, Text.byteLength_append, Nat.add_assoc]⟩

theorem Leads.offset_le {c d : Cursor} (h : c.Leads d) : c.offset ≤ d.offset := by
  obtain ⟨run, -, hoffset⟩ := h
  omega

theorem In.trans {source : List Char} {c d : Cursor} (h : c.In source) (h' : c.Leads d) :
    d.In source :=
  Leads.trans h h'

theorem leads_of_cons (c : Char) (rest : List Char) (k : Nat) :
    (⟨c :: rest, k⟩ : Cursor).Leads ⟨rest, k + c.utf8Size⟩ :=
  ⟨[c], rfl, by simp⟩

/-! ### Skipping -/

/-- Skipping passes over the characters that it counts. -/
theorem skip_eq (n : Nat) (c : Cursor) :
    c.skip n = ⟨c.rest.drop n, c.offset + byteLength (c.rest.take n)⟩ := by
  induction n generalizing c with
  | zero => simp
  | succ n ih =>
      obtain ⟨rest, k⟩ := c
      cases rest with
      | nil => simp [skip]
      | cons x xs => simp [skip, ih, Nat.add_assoc]

theorem leads_skip (n : Nat) (c : Cursor) : c.Leads (c.skip n) :=
  ⟨c.rest.take n, by simp [skip_eq], by simp [skip_eq]⟩

theorem leads_takeWhile (p : Char → Bool) (c : Cursor) : c.Leads (c.takeWhile p).2 :=
  leads_skip _ c

/-- A slash and a star, or two slashes, have two bytes. -/
theorem leads_of_two {x y : Char} (hx : x.utf8Size = 1) (hy : y.utf8Size = 1) (rest : List Char)
    (k : Nat) : (⟨x :: y :: rest, k⟩ : Cursor).Leads ⟨rest, k + 2⟩ :=
  ⟨[x, y], rfl, by simp [hx, hy]⟩

/-- Spaces and comments end after where they begin.  A block comment that is not closed leads back to
its opening, which therefore must not come before the place that is looked at. -/
theorem leads_skipFrom {first : Cursor} (mode : Trivia) (cs : List Char) (k : Nat)
    (hmode : ∀ opening, mode = .block opening → first.Leads opening)
    (h : first.Leads ⟨cs, k⟩) : first.Leads (skipFrom mode cs k) := by
  fun_induction skipFrom mode cs k with
  | case1 rest k ih => exact ih (by simp) (h.trans (leads_of_two rfl rfl rest k))
  | case2 rest k ih =>
      exact ih (fun opening ho => by cases ho; exact h) (h.trans (leads_of_two rfl rfl rest k))
  | case3 c rest k _ _ _ ih => exact ih (by simp) (h.trans (leads_of_cons c rest k))
  | case4 => exact h
  | case5 c rest k ih =>
      refine ih (fun opening ho => ?_) (h.trans (leads_of_cons c rest k))
      split at ho <;> cases ho
  | case6 opening rest k ih => exact ih (by simp) (h.trans (leads_of_two rfl rfl rest k))
  | case7 opening c rest k _ ih => exact ih hmode (h.trans (leads_of_cons c rest k))
  | case8 opening => exact hmode opening rfl
  | case9 => exact h

theorem leads_skipTrivia (c : Cursor) : c.Leads c.skipTrivia :=
  leads_skipFrom .spaces c.rest c.offset (by simp) (Leads.refl c)

theorem leads_skipSpaces (c : Cursor) : c.Leads c.skipSpaces :=
  leads_takeWhile _ c

/-! ### Comments -/

theorem leads_blockEnd {cs : List Char} {k : Nat} {d : Cursor} (h : blockEnd? cs k = some d) :
    (⟨cs, k⟩ : Cursor).Leads d := by
  fun_induction blockEnd? cs k with
  | case1 rest k =>
      obtain rfl := Option.some.inj h
      exact leads_of_two rfl rfl rest k
  | case2 c rest k _ ih => exact (leads_of_cons c rest k).trans (ih h)
  | case3 => simp at h

theorem leads_afterComment {c d : Cursor} (h : c.afterComment? = some d) : c.Leads d := by
  unfold afterComment? at h
  refine (leads_skipSpaces c).trans ?_
  dsimp only at h
  split at h
  · obtain rfl := Option.some.inj h
    exact leads_takeWhile _ _
  · next rest hrest =>
      have hopen := leads_of_two (x := '/') (y := '*') rfl rfl rest c.skipSpaces.offset
      rw [← hrest] at hopen
      exact hopen.trans (leads_blockEnd h)
  · simp at h

theorem leads_understoodEnd {comments : Bool} {fuel : Nat} {c d : Cursor}
    (h : understoodEnd? comments fuel c = some d) : c.Leads d := by
  induction fuel generalizing c with
  | zero => simp [understoodEnd?] at h
  | succ fuel ih =>
      unfold understoodEnd? at h
      split at h
      · obtain rfl := Option.some.inj h
        exact Leads.refl _
      · obtain ⟨e, he, hd⟩ := Option.bind_eq_some_iff.1 h
        exact (leads_afterComment he).trans (ih hd)

/-! ### Words -/

/-- The second cursor comes directly after a word at the first one.  A word is not empty and holds no
line end. -/
structure Spells (c : Cursor) (w : String) (d : Cursor) : Prop where
  rest : c.rest = w.toList ++ d.rest
  offset : d.offset = c.offset + byteLength w.toList
  ne_nil : w.toList ≠ []
  newline : '\n' ∉ w.toList

theorem Spells.leads {c d : Cursor} {w : String} (h : c.Spells w d) : c.Leads d :=
  ⟨w.toList, h.rest, h.offset⟩

theorem ne_newline_of_isWordPart {x : Char} (h : isWordPart x = true) : x ≠ '\n' := by
  rintro rfl
  revert h
  decide

theorem ne_newline_of_isHexDigit {x : Char} (h : isHexDigit x = true) : x ≠ '\n' := by
  rintro rfl
  revert h
  decide

/-- An escape in a word spells no line end. -/
theorem newline_not_mem_wordEscape (cs : List Char) : '\n' ∉ cs.take (wordEscape cs) := by
  unfold wordEscape
  split
  · next rest =>
      dsimp only
      split
      · next h =>
          simp only [Bool.and_eq_true, beq_iff_eq] at h
          have hdigits := List.prefix_iff_eq_take.1 (List.takeWhile_prefix isHexDigit (l := rest))
          rw [List.take_succ_cons, List.take_succ_cons, List.take_succ_cons, List.take_add_one,
            h.2, ← hdigits]
          simp only [List.mem_cons, List.mem_append, Option.toList_some, List.not_mem_nil, or_false,
            not_or]
          refine ⟨by decide, by decide, by decide, fun hmem => ?_, by decide⟩
          exact ne_newline_of_isHexDigit (List.all_eq_true.1 List.all_takeWhile _ hmem) rfl
      · simp
  · next rest _ =>
      split
      · next h =>
          simp only [Bool.and_eq_true, beq_iff_eq, List.all_eq_true] at h
          simp only [List.take_succ_cons, List.mem_cons, not_or]
          refine ⟨by decide, by decide, fun hmem => ?_⟩
          exact ne_newline_of_isHexDigit (h.2 _ hmem) rfl
      · simp
  · simp

/-- The characters of a word are no line ends. -/
theorem newline_not_mem_wordLength (fuel : Nat) (cs : List Char) :
    '\n' ∉ cs.take (wordLength fuel cs) := by
  induction fuel generalizing cs with
  | zero => simp [wordLength]
  | succ fuel ih =>
      cases cs with
      | nil => simp
      | cons c rest =>
          rw [wordLength]
          split
          · next hc =>
              rw [Nat.add_comm, List.take_succ_cons, List.mem_cons, not_or]
              exact ⟨(ne_newline_of_isWordPart hc).symm, ih rest⟩
          · split
            · simp
            · rw [List.take_add, List.mem_append, not_or]
              exact ⟨newline_not_mem_wordEscape _, ih _⟩

/-- A word that begins at a place has a character. -/
theorem wordLength_pos {fuel : Nat} {c : Char} {rest : List Char}
    (h : (isWordStart c || (c == '\\' && wordEscape (c :: rest) != 0)) = true) :
    0 < wordLength (fuel + 1) (c :: rest) := by
  rw [wordLength]
  split
  · omega
  · next hc =>
      have hstart : isWordStart c = false := by simp [isWordStart, hc]
      simp only [hstart, Bool.false_or, Bool.and_eq_true, bne_iff_ne] at h
      split
      · next hzero => exact absurd hzero h.2
      · omega

/-- A word is what was passed over. -/
theorem word?_spells {c d : Cursor} {w : String} (h : c.word? = some (w, d)) : c.Spells w d := by
  unfold word? at h
  split at h
  · simp at h
  · next x rest hrest =>
      split at h
      · next hstart =>
          simp only [Option.some.injEq, Prod.mk.injEq] at h
          obtain ⟨rfl, rfl⟩ := h
          have hpos : 0 < wordLength (c.rest.length + 1) c.rest := by
            rw [hrest] at hstart ⊢
            exact wordLength_pos hstart
          rw [skip_eq]
          exact
            { rest := by simp
              offset := by simp
              ne_nil := by
                have hlength : 0 < c.rest.length := by simp [hrest]
                simpa using ⟨by omega, by simp [hrest]⟩
              newline := by simpa using newline_not_mem_wordLength _ c.rest }
      · simp at h

theorem leads_word {c d : Cursor} {w : String} (h : c.word? = some (w, d)) : c.Leads d :=
  (word?_spells h).leads

/-! ### Numbers, strings, templates, regular expressions -/

theorem leads_number {c d : Cursor} (h : c.number? = some d) : c.Leads d := by
  unfold number? at h
  split at h
  · simp at h
  · obtain rfl := Option.some.inj h
    exact leads_skip _ c

theorem leads_stringEnd {quote : Char} {fuel : Nat} {c d : Cursor}
    (h : stringEnd? quote fuel c = some d) : c.Leads d := by
  induction fuel generalizing c with
  | zero => simp [stringEnd?] at h
  | succ fuel ih =>
      unfold stringEnd? at h
      split at h
      · simp at h
      · split at h
        · obtain rfl := Option.some.inj h
          exact leads_skip 1 c
        · split at h
          · split at h
            · simp at h
            · exact (leads_skip _ c).trans (ih h)
          · split at h
            · dsimp only at h
              split at h
              · obtain rfl := Option.some.inj h
                exact (leads_skipTrivia c).trans (leads_skip 1 _)
              · simp at h
            · exact (leads_skip 1 c).trans (ih h)

theorem leads_string {c d : Cursor} (h : c.string? = some d) : c.Leads d := by
  unfold string? at h
  split at h
  · split at h
    · exact (leads_skip 1 c).trans (leads_stringEnd h)
    · simp at h
  · simp at h

/-- A literal is a string or a number. -/
theorem leads_literal {c d : Cursor} (h : (c.string? <|> c.number?) = some d) : c.Leads d := by
  cases hstring : c.string? with
  | some after =>
      rw [hstring] at h
      obtain rfl := Option.some.inj h
      exact leads_string hstring
  | none =>
      rw [hstring] at h
      exact leads_number h

theorem leads_templateText {fuel : Nat} {c d : Cursor} {stop : TemplateStop}
    (h : templateText? fuel c = some (stop, d)) : c.Leads d := by
  induction fuel generalizing c with
  | zero => simp [templateText?] at h
  | succ fuel ih =>
      unfold templateText? at h
      split at h
      · simp at h
      · simp only [Option.some.injEq, Prod.mk.injEq] at h
        obtain ⟨-, rfl⟩ := h
        exact leads_skip 1 c
      · simp only [Option.some.injEq, Prod.mk.injEq] at h
        obtain ⟨-, rfl⟩ := h
        exact leads_skip 2 c
      · split at h
        · simp at h
        · exact (leads_skip _ c).trans (ih h)
      · exact (leads_skip 1 c).trans (ih h)

/-- A substitution begins at its mark, two bytes before the place where its expression begins. -/
theorem le_substitution {fuel : Nat} {c d : Cursor}
    (h : templateText? fuel c = some (.substitution, d)) : c.offset ≤ d.offset - 2 := by
  induction fuel generalizing c with
  | zero => simp [templateText?] at h
  | succ fuel ih =>
      unfold templateText? at h
      split at h
      · simp at h
      · simp at h
      · next rest hrest =>
          simp only [Option.some.injEq, Prod.mk.injEq, true_and] at h
          obtain rfl := h
          simp [skip_eq, hrest, show '$'.utf8Size = 1 from rfl, show '{'.utf8Size = 1 from rfl]
      · split at h
        · simp at h
        · exact Nat.le_trans (leads_skip _ c).offset_le (ih h)
      · exact Nat.le_trans (leads_skip 1 c).offset_le (ih h)

theorem leads_regex {c d : Cursor} (h : c.regex? = some d) : c.Leads d := by
  unfold regex? at h
  split at h
  · split at h
    · obtain rfl := Option.some.inj h
      exact (leads_skip _ c).trans (leads_takeWhile _ _)
    · simp at h
  · simp at h

end Cursor

end Script

end SketchHost
