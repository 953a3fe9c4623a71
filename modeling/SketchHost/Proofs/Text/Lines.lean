/-
**Lines of a text that was put together.**

A text that is put together of pieces with line feeds between them has the lines of the pieces, one
piece after the other.  A piece without a line feed of its own is one of these lines.

* `Text.splitAt_append_cons`, `Text.splitAt_joined` — the pieces of a text that was put together;
* `Text.notMem_of_mem_splitAt` — the pieces are free of the separator;
* `Text.OneLine`, `Text.oneLine_toList` — a text without a line feed, and a literal without one;
* `Text.lines_of_oneLine`, `Text.lines_joined` — its only line, and the lines of several such texts.
-/

import SketchHost.Text.Blank

set_option relaxedAutoImplicit false
set_option autoImplicit false

namespace SketchHost

namespace Text

/-! ### Pieces -/

/-- A separator ends the last piece of what stands before it. -/
theorem splitAt_append_cons (sep : Char) (cs rest : List Char) :
    splitAt sep (cs ++ sep :: rest) = splitAt sep cs ++ splitAt sep rest := by
  induction cs with
  | nil => simp [splitAt]
  | cons c cs ih =>
      rw [List.cons_append]
      by_cases hc : c = sep
      · simp [splitAt, hc, ih]
      · obtain ⟨piece, more, hpieces⟩ := List.exists_cons_of_ne_nil (splitAt_ne_nil sep cs)
        simp [splitAt, hc, ih, hpieces]

/-- Joined texts fall into the pieces of each of them. -/
theorem splitAt_joined (sep : Char) {texts : List (List Char)} (h : texts ≠ []) :
    splitAt sep (joined [sep] texts) = texts.flatMap (splitAt sep) := by
  induction texts with
  | nil => exact absurd rfl h
  | cons text rest ih =>
      cases rest with
      | nil => simp [joined]
      | cons next more =>
          have hrest : next :: more ≠ [] := by simp
          calc splitAt sep (joined [sep] (text :: next :: more))
              = splitAt sep (text ++ sep :: joined [sep] (next :: more)) := by
                rw [joined_cons _ _ hrest, List.append_assoc, List.singleton_append]
            _ = splitAt sep text ++ (next :: more).flatMap (splitAt sep) := by
                rw [splitAt_append_cons, ih hrest]
            _ = (text :: next :: more).flatMap (splitAt sep) := List.flatMap_cons.symm

/-- A text without the separator is its only piece. -/
theorem splitAt_of_notMem {sep : Char} {cs : List Char} (h : sep ∉ cs) : splitAt sep cs = [cs] := by
  induction cs with
  | nil => rfl
  | cons c cs ih =>
      rw [List.mem_cons, not_or] at h
      simp [splitAt, ih h.2, Ne.symm h.1]

/-- No piece of a text holds the separator. -/
theorem notMem_of_mem_splitAt {sep : Char} {cs piece : List Char} (h : piece ∈ splitAt sep cs) :
    sep ∉ piece := by
  induction cs generalizing piece with
  | nil =>
      obtain rfl : piece = [] := by simpa [splitAt] using h
      simp
  | cons c cs ih =>
      obtain ⟨first, more, hpieces⟩ := List.exists_cons_of_ne_nil (splitAt_ne_nil sep cs)
      rw [hpieces] at ih
      by_cases hc : c = sep
      · rw [splitAt, if_pos (by simpa using hc), hpieces] at h
        rcases List.mem_cons.1 h with rfl | h
        · simp
        · exact ih h
      · rw [splitAt, if_neg (by simpa using hc), hpieces] at h
        rcases List.mem_cons.1 h with rfl | h
        · rw [List.mem_cons, not_or]
          exact ⟨Ne.symm hc, ih List.mem_cons_self⟩
        · exact ih (List.mem_cons_of_mem first h)

/-! ### Texts on one line -/

/-- A text without a line feed. -/
def OneLine (cs : List Char) : Prop :=
  '\n' ∉ cs

instance (cs : List Char) : Decidable (OneLine cs) :=
  inferInstanceAs (Decidable ('\n' ∉ cs))

/-- A string literal is given by its characters, which need not be decoded to look through them. -/
theorem oneLine_toList {cs : List Char} (h : OneLine cs) : OneLine (String.ofList cs).toList := by
  rwa [String.toList_ofList]

theorem OneLine.append {cs ds : List Char} (hcs : OneLine cs) (hds : OneLine ds) :
    OneLine (cs ++ ds) := by
  rw [OneLine, List.mem_append, not_or]
  exact ⟨hcs, hds⟩

theorem OneLine.flatMap {α : Type} {xs : List α} {f : α → List Char} (h : ∀ x ∈ xs, OneLine (f x)) :
    OneLine (xs.flatMap f) := by
  rw [OneLine, List.mem_flatMap]
  rintro ⟨x, hx, hmem⟩
  exact h x hx hmem

theorem lines_of_oneLine {cs : List Char} (h : OneLine cs) : lines cs = [cs] :=
  splitAt_of_notMem h

/-- The lines of a text are on one line each. -/
theorem oneLine_of_mem_lines {cs line : List Char} (h : line ∈ lines cs) : OneLine line :=
  notMem_of_mem_splitAt h

/-- The lines of joined texts. -/
theorem lines_joined {texts : List (List Char)} (h : texts ≠ []) :
    lines (joined ['\n'] texts) = texts.flatMap lines :=
  splitAt_joined '\n' h

/-- Texts that are on one line each are lines. -/
theorem flatMap_lines {texts : List (List Char)} (h : ∀ cs ∈ texts, OneLine cs) :
    texts.flatMap lines = texts := by
  induction texts with
  | nil => rfl
  | cons cs rest ih =>
      rw [List.flatMap_cons, lines_of_oneLine (h cs List.mem_cons_self),
        ih fun ds hds => h ds (List.mem_cons_of_mem cs hds), List.singleton_append]

end Text

end SketchHost
