/-
**Between words.**

A place in a source is a seam if no word runs over it: the character before it or the character behind
it is no word character.  Spaces and comments lead from seam to seam, a word that is read ends at one,
and so does a statement, whether a mark ends it or a semicolon is understood.

* `Script.isWord_eq_false` — what belongs to no word of the grammar is no word character;
* `Script.isWord_behind` — behind a word that is read stands no word character;
* `Script.Seam`, `Script.Cursor.AtSeam` — a place that no word runs over;
* `Script.seam_skipTrivia` — spaces and comments lead from seam to seam;
* `Script.seams_mark`, `Script.seams_semicolon` — the readers that end at seams.
-/

import SketchHost.Proofs.Script.Reading

set_option relaxedAutoImplicit false
set_option autoImplicit false

namespace SketchHost

namespace Script

open Text (isWord isWord?)

/-! ### Word characters -/

/-- The code points of the characters that separate tokens. -/
def spaceCodes : List Nat :=
  List.range' 0x09 5 ++ [0x20, 0x85, 0xa0, 0x1680] ++ List.range' 0x2000 12 ++
    [0x2028, 0x2029, 0x202f, 0x205f, 0x2060, 0x3000, 0xfeff]

theorem isWord_ofNat_spaceCodes : ∀ n ∈ spaceCodes, isWord (Char.ofNat n) = false := by
  decide +kernel

theorem mem_spaceCodes {c : Char} (h : isSpace c = true) : c.toNat ∈ spaceCodes := by
  simp only [isSpace, Text.isWhite, Bool.or_eq_true, Bool.and_eq_true, decide_eq_true_eq,
    beq_iff_eq] at h
  rcases h with ((h | rfl) | rfl) | rfl
  · simp only [spaceCodes, List.mem_append, List.mem_range'_1, List.mem_cons, List.not_mem_nil, or_false]
    omega
  · decide
  · decide
  · decide

theorem isWord_of_isSpace {c : Char} (h : isSpace c = true) : isWord c = false := by
  rw [← Char.ofNat_toNat c]
  exact isWord_ofNat_spaceCodes _ (mem_spaceCodes h)

theorem isWord_ofNat_control : ∀ n < 0x20, isWord (Char.ofNat n) = false := by
  decide +kernel

theorem isWord_of_isReservedMark {c : Char} (h : isReservedMark c = true) : isWord c = false := by
  simp only [isReservedMark, Bool.or_eq_true, decide_eq_true_eq, List.contains_iff_mem] at h
  rcases h with h | h
  · rw [← Char.ofNat_toNat c]
    exact isWord_ofNat_control _ h
  · have hmarks : (":;\x60\x22\x27@#.,|^&<=>+-*/\\%?!~()[]\x7b\x7d".toList.all
        fun x => !isWord x) = true := by decide
    simpa using List.all_eq_true.1 hmarks c h

/-- What belongs to no word of the grammar is no word character. -/
theorem isWord_eq_false {c : Char} (h : isWordPart c = false) : isWord c = false := by
  simp only [isWordPart, Bool.and_eq_false_iff, Bool.not_eq_false'] at h
  rcases h with h | h
  · exact isWord_of_isReservedMark h
  · exact isWord_of_isSpace h

/-! ### Where words end -/

/-- The run of word characters at the head of a text is as long as it can be. -/
theorem isWordPart_wordLength {fuel : Nat} {cs : List Char} (h : cs.length < fuel) :
    ∀ x ∈ (cs.drop (wordLength fuel cs)).head?, isWordPart x = false := by
  induction fuel generalizing cs with
  | zero => omega
  | succ fuel ih =>
      cases cs with
      | nil => simp
      | cons c rest =>
          rw [List.length_cons] at h
          rw [wordLength]
          split
          · rw [Nat.add_comm, List.drop_succ_cons]
            exact ih (by omega)
          · next hc =>
              split
              · simpa using hc
              · next hne =>
                  have hpos : 0 < wordEscape (c :: rest) := Nat.pos_of_ne_zero hne
                  rw [← List.drop_drop]
                  exact ih (by rw [List.length_drop, List.length_cons]; omega)

/-- Behind a word that is read stands no word character. -/
theorem isWord_behind {c d : Cursor} {w : String} (h : c.word? = some (w, d)) :
    isWord? d.rest.head? = false := by
  unfold Cursor.word? at h
  split at h
  · simp at h
  · split at h
    · simp only [Option.some.injEq, Prod.mk.injEq] at h
      obtain ⟨-, rfl⟩ := h
      have hmax := isWordPart_wordLength (Nat.lt_succ_self c.rest.length)
      rw [Cursor.skip_eq]
      cases hhead : (c.rest.drop (wordLength (c.rest.length + 1) c.rest)).head? with
      | none => rfl
      | some x => exact isWord_eq_false (hmax x hhead)
    · simp at h

/-! ### Seams -/

/-- No word runs over the place before the rest of a source. -/
def Seam (source rest : List Char) : Prop :=
  ∀ before, source = before ++ rest →
    isWord? before.getLast? = false ∨ isWord? rest.head? = false

variable {source rest : List Char} {c d : Cursor}

theorem seam_of_head (h : isWord? rest.head? = false) : Seam source rest :=
  fun _ _ => Or.inr h

theorem seam_nil : Seam source [] :=
  seam_of_head rfl

theorem seam_self : Seam source source := by
  intro before h
  rw [List.self_eq_append_left.1 h]
  exact Or.inl rfl

/-- Behind a text that ends with no word character is a seam. -/
theorem seam_of_append (run : List Char) (hsuffix : run ++ rest <:+ source) {x : Char}
    (hlast : run.getLast? = some x) (hx : isWord x = false) : Seam source rest := by
  intro before h
  obtain ⟨front, hfront⟩ := hsuffix
  rw [h, ← List.append_assoc, List.append_cancel_right_eq] at hfront
  rw [← hfront, List.getLast?_append, hlast]
  exact Or.inl hx

theorem seam_of_cons {x : Char} (hsuffix : x :: rest <:+ source) (hx : isWord x = false) :
    Seam source rest :=
  seam_of_append [x] hsuffix rfl hx

theorem Cursor.In.suffix (h : c.In source) : c.rest <:+ source := by
  obtain ⟨run, hrest, -⟩ := h
  exact ⟨run, hrest.symm⟩

/-- At a seam before a word begins a boundary of words. -/
theorem Seam.isBoundary {before : List Char} (h : Seam source rest) (hsource : source = before ++ rest)
    (hword : isWord? rest.head? = true) : Text.isBoundary before.getLast? rest.head? = true := by
  rcases h before hsource with hbefore | hrest
  · simp [Text.isBoundary, hbefore, hword]
  · rw [hword] at hrest
    contradiction

/-! ### Spaces and comments -/

theorem isWord_of_isTerminator {c : Char} (h : isTerminator c = true) : isWord c = false := by
  simp only [isTerminator, Bool.or_eq_true, beq_iff_eq] at h
  rcases h with ((rfl | rfl) | rfl) | rfl <;> decide +kernel

/-- Spaces and comments lead from seam to seam.  Inside a comment there need not be one: it ends with
a line end or a slash. -/
theorem seam_skipFrom (mode : Trivia) (cs : List Char) (k : Nat) (hsuffix : cs <:+ source)
    (hspaces : mode = .spaces → Seam source cs)
    (hblock : ∀ opening, mode = .block opening → Seam source opening.rest) :
    Seam source (skipFrom mode cs k).rest := by
  have hslash : isWord '/' = false := by decide
  fun_induction skipFrom mode cs k with
  | case1 rest k ih =>
      exact ih ((List.suffix_append ['/', '/'] rest).trans hsuffix) (by simp) (by simp)
  | case2 rest k ih =>
      refine ih ((List.suffix_append ['/', '*'] rest).trans hsuffix) (by simp) fun opening ho => ?_
      cases ho
      exact seam_of_head hslash
  | case3 c rest k _ _ hc ih =>
      exact ih ((List.suffix_cons c rest).trans hsuffix)
        (fun _ => seam_of_cons hsuffix (isWord_of_isSpace hc)) (by simp)
  | case4 => exact hspaces rfl
  | case5 c rest k ih =>
      refine ih ((List.suffix_cons c rest).trans hsuffix) (fun hmode => ?_) fun opening ho => ?_
      · split at hmode
        · next hc => exact seam_of_cons hsuffix (isWord_of_isTerminator hc)
        · simp at hmode
      · split at ho <;> cases ho
  | case6 opening rest k ih =>
      refine ih ((List.suffix_append ['*', '/'] rest).trans hsuffix) (fun _ => ?_) (by simp)
      exact seam_of_append ['*', '/'] hsuffix rfl hslash
  | case7 opening c rest k _ ih =>
      exact ih ((List.suffix_cons c rest).trans hsuffix) (by simp) hblock
  | case8 opening => exact hblock opening rfl
  | case9 => exact seam_nil

theorem seam_skipTrivia (hc : c.In source) (h : Seam source c.rest) :
    Seam source c.skipTrivia.rest :=
  seam_skipFrom .spaces c.rest c.offset hc.suffix (fun _ => h) (by simp)

theorem seam_word {w : String} (h : c.word? = some (w, d)) : Seam source d.rest :=
  seam_of_head (isWord_behind h)

/-! ### Marks -/

theorem markOf_prefix (cs : List Char) : markOf cs <+: cs := by
  unfold markOf
  split
  · split
    · exact ⟨_, rfl⟩
    · exact ⟨_, rfl⟩
  · cases hfind : markTexts.find? fun m => m.isPrefixOf cs with
    | none => exact List.nil_prefix
    | some m =>
        have hm := List.find?_some (p := fun m : List Char => m.isPrefixOf cs) hfind
        exact List.isPrefixOf_iff_prefix.1 hm

/-- A mark is what was passed over. -/
theorem rest_of_mark {m : String} (h : c.mark = m) : c.rest = m.toList ++ (c.skip m.length).rest := by
  have hprefix : m.toList <+: c.rest := by
    rw [← h, Cursor.mark, String.toList_ofList]
    exact markOf_prefix c.rest
  rw [Cursor.skip_eq, ← String.length_toList]
  exact (List.prefix_iff_eq_append.1 hprefix).symm

/-- A mark whose last character belongs to no word. -/
def EndsWords (m : String) : Prop :=
  ∃ x, m.toList.getLast? = some x ∧ isWord x = false

theorem seams_mark {m : String} (hm : EndsWords m) :
    Reads source c (mark m) fun d _ => Seam source d.rest := by
  rw [mark]
  refine Reads.of_in fun hc => Reads.here (Reads.ite (fun hmark => ?_) fun _ => Reads.fail)
  have htrivia := Cursor.leads_skipTrivia c
  refine Reads.set (htrivia.trans (Cursor.leads_skip _ _)) (Reads.pure ?_)
  obtain ⟨x, hlast, hx⟩ := hm
  refine seam_of_append m.toList ?_ hlast hx
  rw [← rest_of_mark (beq_iff_eq.1 hmark)]
  exact (hc.trans htrivia).suffix

theorem seams_tryMark {m : String} (hm : EndsWords m) :
    Reads source c (tryMark m) fun d b => b = true → Seam source d.rest := by
  rw [tryMark]
  refine Reads.peekMark (Reads.ite (fun _ => ?_) fun _ => Reads.pure (by simp))
  exact Reads.bind (seams_mark hm) fun _ _ _ hseam => Reads.pure fun _ => hseam

theorem endsWords_brace : EndsWords "\x7d" :=
  ⟨'\x7d', rfl, by decide⟩

theorem endsWords_parenthesis : EndsWords ")" :=
  ⟨')', rfl, by decide⟩

theorem endsWords_semicolon : EndsWords ";" :=
  ⟨';', rfl, by decide⟩

/-! ### Places at seams -/

/-- A place in a source at a seam. -/
def Cursor.AtSeam (source : List Char) (c : Cursor) : Prop :=
  c.In source ∧ Seam source c.rest

theorem Cursor.AtSeam.skipTrivia (hc : c.AtSeam source) : c.skipTrivia.AtSeam source :=
  ⟨hc.1.trans (Cursor.leads_skipTrivia c), seam_skipTrivia hc.1 hc.2⟩

theorem Cursor.AtSeam.word {w : String} (hc : c.AtSeam source) (h : c.word? = some (w, d)) :
    d.AtSeam source :=
  ⟨hc.1.trans (Cursor.leads_word h), seam_word h⟩

theorem Cursor.AtSeam.mark {m : String} (hc : c.AtSeam source) (h : c.mark = m)
    (hm : EndsWords m) : (c.skip m.length).AtSeam source := by
  obtain ⟨x, hlast, hx⟩ := hm
  refine ⟨hc.1.trans (Cursor.leads_skip _ c), seam_of_append m.toList ?_ hlast hx⟩
  rw [← rest_of_mark h]
  exact hc.1.suffix

/-! ### Understood semicolons -/

theorem isWord_of_isPlainSpace {c : Char} (h : isPlainSpace c = true) : isWord c = false := by
  refine isWord_of_isSpace ?_
  simp only [isPlainSpace, Bool.or_eq_true, Bool.and_eq_true, decide_eq_true_eq, beq_iff_eq] at h
  simp only [isSpace, Text.isWhite, Bool.or_eq_true, Bool.and_eq_true, decide_eq_true_eq, beq_iff_eq]
  omega

theorem isWord_of_isBreak {c : Char} (h : isBreak c = true) : isWord c = false := by
  refine isWord_of_isTerminator ?_
  simp only [isBreak, Bool.or_eq_true, beq_iff_eq] at h
  rcases h with (rfl | rfl) | rfl <;> rfl

/-- A semicolon is understood only before what is no word. -/
theorem isWord_of_endsStatement {comments : Bool} {cs : List Char}
    (h : endsStatement comments cs = true) : isWord? cs.head? = false := by
  unfold endsStatement at h
  cases cs with
  | nil => rfl
  | cons x rest =>
      unfold endsFrom at h
      change isWord x = false
      split at h
      · next hx =>
          rw [beq_iff_eq.1 hx]
          decide
      · split at h
        · next hx =>
            rw [beq_iff_eq.1 hx]
            decide
        · split at h
          · next hx => exact isWord_of_isBreak hx
          · split at h
            · next hx => exact isWord_of_isPlainSpace hx
            · contradiction

theorem seam_understoodEnd {comments : Bool} {fuel : Nat}
    (h : understoodEnd? comments fuel c = some d) : Seam source d.rest := by
  induction fuel generalizing c with
  | zero => simp [understoodEnd?] at h
  | succ fuel ih =>
      unfold understoodEnd? at h
      split at h
      · next hends =>
          obtain rfl := Option.some.inj h
          exact seam_of_head (isWord_of_endsStatement hends)
      · obtain ⟨e, -, hd⟩ := Option.bind_eq_some_iff.1 h
        exact ih hd

theorem seams_semicolon (g : Parts) (comments : Bool) :
    Reads source c (semicolon g comments) fun d _ => Seam source d.rest := by
  rw [semicolon]
  refine Reads.get ?_
  split
  · next d hd => exact Reads.move (Cursor.leads_understoodEnd hd) (seam_understoodEnd hd)
  · exact Reads.bind (seams_mark endsWords_semicolon) fun _ _ _ hseam => Reads.pure hseam

end Script

end SketchHost
