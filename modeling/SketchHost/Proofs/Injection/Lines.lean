/-
**Lines of an injected script.**

Whatever a script is made for, its code stands on lines of its own, and as many lines stand before it.
The identifier of the run and the container come in as literals of JSON and the namespace is a name, so
no line end gets in with them.  A line that is reported for the script is therefore the line of the code
that stands there, and what is reported for the lines around the code is put on its first or last line.

* `Text.oneLine_hex`, `Json.oneLine_quote`, `Text.oneLine_of_isName` — what is put into a line has no
  line end;
* `Injection.Script.Framed` — the code of a script is framed by lines, of which so many come first;
* `Injection.Script.Framed.lines_text` — the lines of a script;
* `LineMap.Mapper.Undoes` — a mapper takes reported lines back by a number of lines;
* `Injection.Script.MapsBack`, `Injection.mapsBack_scripts` — **the lines of every script map back to the
  lines of its code**.
-/

import SketchHost.Proofs.Text.Lines
import SketchHost.Injection.Wrapper
import Mathlib.Tactic.SplitIfs

set_option relaxedAutoImplicit false
set_option autoImplicit false

namespace SketchHost

/-! ### What is put into a line -/

namespace Text

/-- The digits of a number are on one line. -/
theorem oneLine_toDigits (n : Nat) : OneLine (Nat.toDigits 16 n) := by
  induction n using Nat.strongRecOn with
  | ind n ih =>
      rcases Nat.lt_or_ge n 16 with hsmall | hlarge
      · rw [Nat.toDigits_of_lt_base hsmall]
        simp [OneLine]
      · rw [Nat.toDigits_of_base_le (by decide) hlarge]
        refine (ih (n / 16) (by omega)).append ?_
        simp [OneLine]

theorem oneLine_hex (width n : Nat) : OneLine (hex width n) := by
  refine OneLine.append ?_ (oneLine_toDigits n)
  simp [OneLine]

/-- A name is on one line. -/
theorem oneLine_of_isName {cs : List Char} (h : isName cs = true) : OneLine cs := by
  cases cs with
  | nil => simp [isName] at h
  | cons c rest =>
      rw [isName, Bool.and_eq_true, List.all_eq_true] at h
      rw [OneLine, List.mem_cons, not_or]
      constructor
      · rintro rfl
        exact absurd h.1 (by decide)
      · intro hmem
        exact absurd (h.2 _ hmem) (by decide)

end Text

namespace Json

open Text

/-- A character that is written as it is, or after a backslash, is no line feed. -/
theorem oneLine_escape (c : Char) : OneLine (escape c) := by
  rw [escape]
  split_ifs with hquote hnewline hreturn htab hback hfeed hplain
  · have hc : c ≠ '\n' := by
      rintro rfl
      exact absurd hquote (by decide)
    simpa [OneLine] using hc.symm
  · decide
  · decide
  · decide
  · decide
  · decide
  · have hc : c ≠ '\n' := by
      rintro rfl
      exact absurd hplain (by decide)
    simpa [OneLine] using hc.symm
  · refine OneLine.flatMap fun unit _ => ?_
    simpa [OneLine, escapeUnit] using oneLine_hex 4 unit

/-- A literal is on one line, whatever its text is. -/
theorem oneLine_quote (cs : List Char) : OneLine (quote cs) := by
  have hbody : OneLine (cs.flatMap escape) := OneLine.flatMap fun c _ => oneLine_escape c
  simpa [OneLine, quote] using hbody

end Json

/-! ### Reported lines -/

namespace LineMap

namespace Mapper

/-- A mapper takes reported lines back by a number of lines, to a source with a number of lines: a line
of the source comes from so many lines further down, and what lies before or behind its lines is put on
the first or on the last one. -/
structure Undoes (m : Mapper) (ahead count : Nat) : Prop where
  own : ∀ k : Nat, 1 ≤ k → k ≤ count → m.lineFor (ahead + k) = k
  before : ∀ line : Int, line ≤ ahead → m.lineFor line = 1
  behind : ∀ line : Int, ahead + count < line → m.lineFor line = count
  monotone : ∀ a b : Int, a ≤ b → m.lineFor a ≤ m.lineFor b

/-- Every mapper takes reported lines back by the number of its lines. -/
theorem undoes (m : Mapper) : m.Undoes m.injected m.lineCount where
  own k hpos hle := by
    have hlow : ¬ ((m.injected : Int) + k - m.injected < 1) := by omega
    simp only [lineFor, hlow, if_false]
    omega
  before line hle := by
    have hlow : line - m.injected < 1 := by omega
    simp only [lineFor, hlow, if_true]
  behind line hlt := by
    have hpos : 0 < m.lineCount := numberOfLines_pos m.source
    have hlow : ¬ (line - m.injected < 1) := by omega
    simp only [lineFor, hlow, if_false]
    omega
  monotone a b hab := by
    have hpos : 0 < m.lineCount := numberOfLines_pos m.source
    simp only [lineFor]
    split <;> split <;> omega

end Mapper

end LineMap

/-! ### The lines of a script -/

namespace Injection

open LineMap (numberOfLines)

/-- The number of lines before the code: those of the bridge, and one that opens the wrapper. -/
def linesAhead : Nat := 64

namespace Script

/-- The code of a script is framed by lines, of which a fixed number comes first. -/
structure Framed (s : Script) : Prop where
  head : ∀ line ∈ s.head, Text.OneLine line
  tail : ∀ line ∈ s.tail, Text.OneLine line
  ahead : s.head.length = linesAhead

variable {s : Script}

/-- The lines of a script are the lines before the code, those of the code, and those after it. -/
theorem Framed.lines_text (h : s.Framed) :
    Text.lines s.text = s.head ++ (Text.lines s.code ++ s.tail) := by
  rw [text, Text.lines_joined (by simp), List.flatMap_append, List.flatMap_cons,
    Text.flatMap_lines h.head, Text.flatMap_lines h.tail]

theorem Framed.linesBefore_eq (h : s.Framed) : s.linesBefore = linesAhead := by
  have hne : s.head ≠ [] := by
    rw [← List.length_pos_iff, h.ahead]
    decide
  rw [linesBefore, numberOfLines, Text.lines_joined hne, Text.flatMap_lines h.head, h.ahead]

/-- A line of the code is a line of the script, so many lines further down. -/
theorem Framed.line_at (h : s.Framed) {i : Nat} {line : List Char}
    (hline : (Text.lines s.code)[i]? = some line) :
    (Text.lines s.text)[s.linesBefore + i]? = some line := by
  obtain ⟨hi, -⟩ := List.getElem?_eq_some_iff.1 hline
  have hle : s.head.length ≤ s.head.length + i := Nat.le_add_right _ _
  rw [h.linesBefore_eq, ← h.ahead, h.lines_text, List.getElem?_append_right hle,
    Nat.add_sub_cancel_left, List.getElem?_append_left hi, hline]

end Script

/-! ### The lines around the code -/

theorem oneLine_identifierLine (id : String) : Text.OneLine (identifierLine id) := by
  refine Text.OneLine.append (Text.OneLine.append ?_ (Json.oneLine_quote _)) (by decide)
  exact Text.oneLine_toList (by decide)

theorem oneLine_bridgeOpening : ∀ line ∈ bridgeOpening, Text.OneLine line.toList := by
  simp only [bridgeOpening, List.forall_mem_cons]
  exact ⟨Text.oneLine_toList (by decide), Text.oneLine_toList (by decide), by simp⟩

theorem oneLine_bridgeRest : ∀ line ∈ bridgeRest, Text.OneLine line.toList := by
  simp only [bridgeRest, List.forall_mem_cons]
  and_intros
  all_goals first
    | exact Text.oneLine_toList (by decide)
    | simp

/-- The bridge and a line that opens a wrapper are lines. -/
theorem oneLine_head (id : String) {opening : List Char} (h : Text.OneLine opening) :
    ∀ line ∈ bridge id ++ [opening], Text.OneLine line := by
  intro line hline
  simp only [bridge, List.mem_append, List.mem_cons, List.mem_map] at hline
  rcases hline with (⟨literal, hmem, rfl⟩ | rfl | ⟨literal, hmem, rfl⟩) | rfl | hline
  · exact oneLine_bridgeOpening literal hmem
  · exact oneLine_identifierLine id
  · exact oneLine_bridgeRest literal hmem
  · exact h
  · exact absurd hline (List.not_mem_nil)

theorem oneLine_sketchOpening {namespaceName : String}
    (h : Text.isName namespaceName.toList = true) : Text.OneLine (sketchOpening namespaceName) := by
  refine Text.OneLine.append (Text.OneLine.append ?_ (Text.oneLine_of_isName h)) ?_
  · exact Text.oneLine_toList (by decide)
  · exact Text.oneLine_toList (by decide)

theorem oneLine_sketchClosing (containerId : String) :
    ∀ line ∈ sketchClosing (.text containerId), Text.OneLine line := by
  simp only [sketchClosing, List.forall_mem_cons]
  refine ⟨?_, Text.oneLine_toList (by decide), Text.oneLine_toList (by decide), by simp⟩
  refine Text.OneLine.append (Text.OneLine.append ?_ (Json.oneLine_quote containerId.toList)) ?_
  · exact Text.oneLine_toList (by decide)
  · exact Text.oneLine_toList (by decide)

theorem oneLine_plainOpening : Text.OneLine plainOpening :=
  Text.oneLine_toList (by decide)

theorem oneLine_plainClosing : ∀ line ∈ plainClosing, Text.OneLine line := by
  simp only [plainClosing, List.forall_mem_cons, String.toList_append]
  refine ⟨?_, Text.OneLine.append ?_ ?_, ?_, ?_, ?_, by simp⟩
  all_goals exact Text.oneLine_toList (by decide)

theorem framed_forInstance (code : List Char) (id containerId : String) {namespaceName : String}
    (h : Text.isName namespaceName.toList = true) :
    (forInstance code id namespaceName (.text containerId)).Framed where
  head := oneLine_head id (oneLine_sketchOpening h)
  tail := oneLine_sketchClosing containerId
  ahead := rfl

theorem framed_plain (code : List Char) (id : String) : (plain code id).Framed where
  head := oneLine_head id oneLine_plainOpening
  tail := oneLine_plainClosing
  ahead := rfl

/-! ### Scripts -/

/-- The lines of a script map back to the lines of the code that it was made of. -/
structure Script.MapsBack (s : Script) (code : List Char) : Prop where
  ahead : s.linesBefore = linesAhead
  line_at : ∀ i line, (Text.lines code)[i]? = some line →
    (Text.lines s.text)[s.linesBefore + i]? = some line
  undoes : ∀ source, numberOfLines source = numberOfLines code →
    (s.mapper source).Undoes s.linesBefore (numberOfLines code)

theorem Script.Framed.mapsBack {s : Script} (h : s.Framed) : s.MapsBack s.code where
  ahead := h.linesBefore_eq
  line_at _ _ hline := h.line_at hline
  undoes source hsource := by
    rw [← hsource]
    exact (s.mapper source).undoes

/-- **Reported lines map back to the lines of the code.**  This holds for every code and every identifier
of a run, for the script of a sketch with any namespace that is taken and any container, and for the
script of other code.  Before the code there are always as many lines.  The lines of the code are the
lines of the script that follow them, each unchanged and in its place.  A mapper for any source with as
many lines takes them back to their numbers in the code; it puts the lines before the code on the first
line and those after it on the last one, and it keeps the order of lines. -/
theorem mapsBack_scripts (code : List Char) (id : String) :
    (plain code id).MapsBack code ∧
      ∀ namespaceName containerId s,
        sketch? code id namespaceName containerId = .ok s → s.MapsBack code := by
  refine ⟨(framed_plain code id).mapsBack, fun namespaceName containerId s hs => ?_⟩
  rw [sketch?] at hs
  split at hs
  · next hname =>
      obtain rfl := Except.ok.inj hs
      exact (framed_forInstance code id containerId hname).mapsBack
  · contradiction

/-- Code of two lines. -/
def twoLines : List Char :=
  "setup();\ndraw();".toList

/-- An identifier and a container with quotes and line feeds do not move the lines of the code. -/
theorem mapsBack_scripts_awkward :
    ∃ s, sketch? twoLines "a\n\x22b" "_p" "box\n1" = .ok s ∧ s.MapsBack twoLines ∧
      (Text.lines s.text)[65]? = some "draw();".toList ∧
      (s.mapper "function setup() \x7b\n\x7d".toList).lineFor 66 = 2 := by
  have hs := (mapsBack_scripts twoLines "a\n\x22b").2 "_p" "box\n1" _ rfl
  refine ⟨_, rfl, hs, ?_, ?_⟩
  · have hline := hs.line_at 1 "draw();".toList (by decide +kernel)
    rwa [hs.ahead] at hline
  · have hown := (hs.undoes "function setup() \x7b\n\x7d".toList (by decide +kernel)).own 2
      (by decide) (by decide +kernel)
    rwa [hs.ahead] at hown

end Injection

end SketchHost
