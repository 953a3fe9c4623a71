/-
**The lines around an error.**

An error is shown with the lines of the source around the smallest number that its text mentions.  That
number is mapped to a line that the source has, so the lines that are shown, cut off at both ends of the
source, are lines of the source and include the one in focus, which alone is marked.

* `LineMap.Recognised` — a text names a line;
* `LineMap.Mapper.IsRow` — a row shows the number and the text of a line;
* `LineMap.Mapper.Surrounds` — rows show the lines around one of them;
* `LineMap.Mapper.surrounds_window` — the rows of an excerpt do so;
* `LineMap.Mapper.lines_excerpt` — they are the lines that follow the mapped message;
* `LineMap.Mapper.withContext_surrounds` — **an error is followed by the lines around it**.
-/

import SketchHost.Proofs.LineMap.Rewriting
import SketchHost.Proofs.Text.Lines
import Mathlib.Order.Bounds.Defs

set_option relaxedAutoImplicit false
set_option autoImplicit false

namespace SketchHost

namespace LineMap

open Text

variable {text : List Char}

/-! ### Numbers that are named -/

/-- A text names a line: it mentions a number above zero in one of the forms. -/
def Recognised (text : List Char) (n : Nat) : Prop :=
  0 < n ∧ ∃ m ∈ mentions text, m.value = n

theorem mem_lineNumbers_iff_recognised {n : Nat} : n ∈ lineNumbers text ↔ Recognised text n := by
  rw [mem_lineNumbers_iff]
  constructor
  · rintro ⟨m, hm, rfl⟩
    exact ⟨(mem_spans_iff.1 hm).2, m, (mem_spans_iff.1 hm).1, rfl⟩
  · rintro ⟨hpos, m, hm, rfl⟩
    exact ⟨m, mem_spans_iff.2 ⟨hm, hpos⟩, rfl⟩

/-- Going through numbers with the minimum ends on the least of them. -/
theorem isLeast_foldl_min (n : Nat) (ns : List Nat) : IsLeast {k | k ∈ n :: ns} (ns.foldl min n) := by
  have hmin : (n :: ns).min? = some (ns.foldl min n) := List.min?_cons'
  obtain ⟨hmem, hle⟩ := List.min?_eq_some_iff.1 hmin
  exact ⟨hmem, fun k hk => hle k hk⟩

namespace Mapper

/-! ### Rows -/

/-- A row shows a line of the source: two columns for the mark of the line in focus, the number,
right-aligned in at least three columns, and the text of the line. -/
def IsRow (m : Mapper) (focus n : Nat) (row : List Char) : Prop :=
  ∃ line, m.lines[n - 1]? = some line ∧
    row = (if n = focus then "> ".toList else "  ".toList) ++ List.leftpad 3 ' ' (decimal n)
      ++ " | ".toList ++ line

/-- A row with the mark of the line in focus. -/
def isMarked (row : List Char) : Bool :=
  "> ".toList.isPrefixOf row

variable (m : Mapper)

/-- The text of a line that the source has is found. -/
theorem exists_lineText {n : Nat} (hpos : 1 ≤ n) (hle : n ≤ m.lineCount) :
    m.lines[n - 1]? = some (m.lineText n) := by
  have hlt : n - 1 < m.lines.length := by
    have hcount : m.lineCount = m.lines.length := rfl
    omega
  have hindex : ((n : Int) - 1).toNat = n - 1 := by omega
  have hlow : ¬ ((n : Int) < 1) := by omega
  rw [lineText, if_neg hlow, hindex, List.getElem?_eq_getElem hlt]
  rfl

theorem isRow_row (focus : Nat) {n : Nat} (hpos : 1 ≤ n) (hle : n ≤ m.lineCount) :
    m.IsRow focus n (m.row focus n) := by
  refine ⟨m.lineText n, m.exists_lineText hpos hle, ?_⟩
  rw [row, lineLabel, List.leftpad]
  by_cases hn : n = focus <;> simp [hn]

variable {m}

/-- Only the row of the line in focus is marked. -/
theorem IsRow.isMarked_iff {focus n : Nat} {row : List Char} (h : m.IsRow focus n row) :
    isMarked row = true ↔ n = focus := by
  obtain ⟨line, -, rfl⟩ := h
  by_cases hn : n = focus <;> simp [isMarked, hn, List.isPrefixOf]

/-- A row is on one line. -/
theorem IsRow.oneLine {focus n : Nat} {row : List Char} (h : m.IsRow focus n row) : OneLine row := by
  obtain ⟨line, hline, rfl⟩ := h
  have hmark : OneLine (if n = focus then "> ".toList else "  ".toList) := by
    split <;> exact oneLine_toList (by decide)
  have hlabel : OneLine (List.leftpad 3 ' ' (decimal n)) := by
    rw [OneLine, List.leftpad, List.mem_append, not_or]
    refine ⟨by simp, fun hmem => ?_⟩
    exact absurd ((isRun_decimal n).2 _ hmem) (by decide)
  exact ((hmark.append hlabel).append (oneLine_toList (by decide))).append
    (oneLine_of_mem_lines (List.mem_of_getElem? hline))

variable (m)

/-! ### Excerpts -/

/-- The first of the lines around one of them. -/
def firstShown (focus reach : Nat) : Nat :=
  max 1 (focus - reach)

/-- The last of them. -/
def lastShown (focus reach : Nat) : Nat :=
  min m.lineCount (focus + reach)

/-- Rows show the lines around a line in focus: one row for each line from the first to the last that
the source has at this distance, in their order.  The line in focus is among them, and its row is the one
that is marked. -/
structure Surrounds (focus reach : Nat) (rows : List (List Char)) : Prop where
  length : rows.length + firstShown focus reach = m.lastShown focus reach + 1
  row_at : ∀ i row, rows[i]? = some row → m.IsRow focus (firstShown focus reach + i) row
  inside : firstShown focus reach ≤ focus ∧ focus ≤ m.lastShown focus reach
  marked : ∀ i row, rows[i]? = some row →
    (isMarked row = true ↔ firstShown focus reach + i = focus)
  marked_once : rows.countP isMarked = 1
  few : rows.length ≤ 2 * reach + 1

/-- The numbers of an excerpt, without the detour through integers. -/
theorem window_eq (focus reach : Nat) :
    m.window focus reach = List.range' (firstShown focus reach)
      (m.lastShown focus reach + 1 - firstShown focus reach) := by
  have hfirst : (max 1 ((focus : Int) - reach)).toNat = firstShown focus reach := by
    rw [firstShown]
    omega
  have hlast : (min (m.lineCount : Int) ((focus : Int) + reach)).toNat = m.lastShown focus reach := by
    rw [lastShown]
    omega
  rw [window, hfirst, hlast]

variable {m}

/-- The rows of an excerpt show the lines around a line that the source has. -/
theorem surrounds_window {focus : Nat} (hpos : 0 < focus) (hle : focus ≤ m.lineCount) (reach : Nat) :
    m.Surrounds focus reach ((m.window focus reach).map (m.row focus)) := by
  have hinside : firstShown focus reach ≤ focus ∧ focus ≤ m.lastShown focus reach := by
    rw [firstShown, lastShown]
    omega
  have hlast : m.lastShown focus reach ≤ m.lineCount := Nat.min_le_left _ _
  have hfirst : 1 ≤ firstShown focus reach := Nat.le_max_left _ _
  have hrow : ∀ i row, ((m.window focus reach).map (m.row focus))[i]? = some row →
      m.IsRow focus (firstShown focus reach + i) row := by
    intro i row hi
    rw [window_eq, List.getElem?_map, Option.map_eq_some_iff] at hi
    obtain ⟨n, hn, rfl⟩ := hi
    obtain ⟨hlt, hnumber⟩ := List.getElem?_eq_some_iff.1 hn
    rw [List.length_range'] at hlt
    obtain rfl : firstShown focus reach + i = n := by simpa using hnumber
    exact m.isRow_row focus (by omega) (by omega)
  refine ⟨?_, hrow, hinside, fun i row hi => (hrow i row hi).isMarked_iff, ?_, ?_⟩
  · rw [List.length_map, window_eq, List.length_range']
    omega
  · -- the mark of a row tells its number, and no number comes twice
    have hmark : ∀ n ∈ m.window focus reach, (isMarked ∘ m.row focus) n = (n == focus) := by
      intro n hn
      rw [window_eq, List.mem_range'_1] at hn
      have hmarked := (m.isRow_row focus (n := n) (by omega) (by omega)).isMarked_iff
      rw [Function.comp_apply, Bool.eq_iff_iff, hmarked, beq_iff_eq]
    rw [List.countP_map, List.countP_congr fun n hn => by rw [hmark n hn]]
    refine List.count_eq_one_of_mem ?_ ?_
    · rw [window_eq]
      exact List.nodup_range'
    · rw [window_eq, List.mem_range'_1]
      omega
  · rw [List.length_map, window_eq, List.length_range', firstShown, lastShown]
    omega

/-- The lines of a message with rows behind it: those of the message, an empty one, and the rows. -/
theorem lines_excerpt {rows : List (List Char)} (hne : rows ≠ []) (hrows : ∀ row ∈ rows, OneLine row)
    (message : List Char) :
    Text.lines (message ++ ['\n', '\n'] ++ joined ['\n'] rows) = Text.lines message ++ [] :: rows := by
  have htext : message ++ ['\n', '\n'] ++ joined ['\n'] rows = joined ['\n'] (message :: [] :: rows) := by
    rw [joined_cons _ _ (by simp), joined_cons _ _ hne]
    simp
  rw [htext, lines_joined (by simp), List.flatMap_cons, List.flatMap_cons, flatMap_lines hrows]
  rfl

variable (m)

/-- **An error is followed by the lines around it.**  The numbers of the text are short enough to be read.
A text that names no line is left as it is.  For any other one there is a smallest line that it names, and
the answer is the mapped text, an empty line, and the rows around the line of the source for that number,
at a distance of at most `reach`; these are the lines of the answer. -/
theorem withContext_surrounds (h : isReadable text = true) (reach : Nat) :
    ((¬ ∃ n, Recognised text n) → m.withContext text reach = .ok text) ∧
    ((∃ n, Recognised text n) → ∃ least mapped rows answer,
      IsLeast {n | Recognised text n} least ∧
      m.mapMessage text = .ok mapped ∧
      m.withContext text reach = .ok answer ∧
      answer = mapped ++ ['\n', '\n'] ++ joined ['\n'] rows ∧
      Text.lines answer = Text.lines mapped ++ [] :: rows ∧
      m.Surrounds (m.lineFor least) reach rows) := by
  have hextract : extract text = .ok (lineNumbers text) := if_pos h
  cases hnumbers : lineNumbers text with
  | nil =>
      have hnone : ¬ ∃ n, Recognised text n := by
        rintro ⟨n, hn⟩
        have hmem := mem_lineNumbers_iff_recognised.2 hn
        simp [hnumbers] at hmem
      refine ⟨fun _ => ?_, fun hsome => absurd hsome hnone⟩
      rw [withContext, hextract, hnumbers]
      rfl
  | cons n ns =>
      have hnumber : Recognised text n :=
        mem_lineNumbers_iff_recognised.1 (by rw [hnumbers]; exact List.mem_cons_self)
      refine ⟨fun hnone => absurd ⟨n, hnumber⟩ hnone, fun _ => ?_⟩
      have hset : {k | Recognised text k} = {k | k ∈ n :: ns} := Set.ext fun k => by
        rw [← hnumbers]
        exact mem_lineNumbers_iff_recognised.symm
      have hsurrounds := surrounds_window (m.lineFor_pos (ns.foldl min n : Nat))
        (m.lineFor_le_lineCount (ns.foldl min n : Nat)) reach
      refine ⟨ns.foldl min n, m.renumber text, _, _, ?_, if_pos h, ?_, rfl, ?_, hsurrounds⟩
      · rw [hset]
        exact isLeast_foldl_min n ns
      · rw [withContext, hextract, hnumbers]
        rfl
      · refine lines_excerpt ?_ ?_ _
        · have hone := hsurrounds.marked_once
          intro hnil
          simp [hnil] at hone
        · intro row hrow
          obtain ⟨i, hi⟩ := List.getElem?_of_mem hrow
          exact (hsurrounds.row_at i row hi).oneLine

/-- An error in the last line of four, with a column and a frame further up. -/
def corner : List Char :=
  "boom (14:3)\n at line 20".toList

/-- The rows are cut off at the end of the source. -/
theorem withContext_surrounds_corner :
    isReadable corner = true ∧ (∃ n, Recognised corner n) ∧
    ∃ least mapped rows answer, IsLeast {n | Recognised corner n} least ∧
      fourLines.mapMessage corner = .ok mapped ∧
      fourLines.withContext corner (1 : Nat) = .ok answer ∧
      answer = mapped ++ ['\n', '\n'] ++ joined ['\n'] rows ∧
      Text.lines answer = Text.lines mapped ++ [] :: rows ∧
      fourLines.Surrounds (fourLines.lineFor least) 1 rows ∧
      answer = "boom (4:3)\n at line 4\n\n    3 | c\n>   4 | d".toList := by
  have hreadable : isReadable corner = true := by decide +kernel
  have hsome : ∃ n, Recognised corner n :=
    ⟨14, mem_lineNumbers_iff_recognised.1 (by decide +kernel)⟩
  obtain ⟨least, mapped, rows, answer, hleast, hmapped, hanswer, htext, hlines, hrows⟩ :=
    (fourLines.withContext_surrounds hreadable 1).2 hsome
  refine ⟨hreadable, hsome, least, mapped, rows, answer, hleast, hmapped, hanswer, htext, hlines, hrows, ?_⟩
  have hcontext : fourLines.withContext corner (1 : Nat)
      = .ok "boom (4:3)\n at line 4\n\n    3 | c\n>   4 | d".toList := by
    simp only [withContext, renumber, splice, mergeSort_eq_insertionSort]
    decide +kernel
  exact Except.ok.inj (hanswer.symm.trans hcontext)

end Mapper

end LineMap

end SketchHost
