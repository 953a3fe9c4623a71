/-
**Edits between characters.**

The range of an edit is counted in bytes, and a character may have several of them.  Edits that begin
and end between characters, and that put in texts, make a text of a text.

* `Text.Divides` — a place between two characters of a text, or at one of its ends;
* `TextEdit.Whole` — an edit that divides no character and puts in a text;
* `editText_eq_ok_iff` — an edited text and its bytes;
* `exists_editText` — edits of that kind that leave each other alone can be applied to a text.
-/

import SketchHost.Proofs.Text.Bytes
import SketchHost.Proofs.Text.Splice

set_option relaxedAutoImplicit false
set_option autoImplicit false

namespace SketchHost

/-! ### Places between characters -/

namespace Text

/-- As many bytes as some first characters of a text have: the place behind them divides the text
between characters. -/
def Divides (cs : List Char) (k : Nat) : Prop :=
  ∃ run, run <+: cs ∧ byteLength run = k

theorem divides_zero (cs : List Char) : Divides cs 0 :=
  ⟨[], List.nil_prefix, rfl⟩

theorem eq_nil_of_byteLength_eq_zero {cs : List Char} (h : byteLength cs = 0) : cs = [] := by
  by_contra hne
  have hpos := byteLength_pos hne
  omega

/-- Of two beginnings of a text, the one with fewer bytes is a beginning of the other. -/
theorem prefix_of_byteLength_le {cs run run' : List Char} (h : run <+: cs) (h' : run' <+: cs)
    (hle : byteLength run ≤ byteLength run') : run <+: run' := by
  rcases List.prefix_or_prefix_of_prefix h h' with hprefix | ⟨more, rfl⟩
  · exact hprefix
  · rw [byteLength_append] at hle
    have hmore : more = [] := eq_nil_of_byteLength_eq_zero (by omega)
    simp [hmore]

end Text

open Text (Divides byteLength)

variable {source : String}

/-- The bytes of the characters, as the bytes of a text. -/
theorem bytesOf_ofList (cs : List Char) :
    bytesOf (String.ofList cs) = cs.flatMap String.utf8EncodeChar := by
  rw [bytesOf_eq, String.toList_ofList]

theorem bytesOf_append (s t : String) : bytesOf (s ++ t) = bytesOf s ++ bytesOf t := by
  rw [bytesOf_eq, bytesOf_eq, bytesOf_eq, String.toList_append, List.flatMap_append]

/-- What stands between two places that divide a text is a text. -/
theorem exists_stretch {a b : Nat} (ha : Divides source.toList a) (hb : Divides source.toList b)
    (h : a ≤ b) : ∃ t, stretch (bytesOf source) a b = bytesOf t := by
  obtain ⟨run, hrun, rfl⟩ := ha
  obtain ⟨run', hrun', rfl⟩ := hb
  obtain ⟨middle, rfl⟩ := Text.prefix_of_byteLength_le hrun hrun' h
  obtain ⟨rest, hrest⟩ := hrun'
  refine ⟨String.ofList middle, ?_⟩
  have hstretch := stretch_between (run.flatMap String.utf8EncodeChar)
    (middle.flatMap String.utf8EncodeChar) (rest.flatMap String.utf8EncodeChar)
  rw [length_flatMap_utf8EncodeChar, length_flatMap_utf8EncodeChar,
    ← Text.byteLength_append] at hstretch
  rw [bytesOf_ofList, bytesOf_eq, ← hrest, List.flatMap_append, List.flatMap_append]
  exact hstretch

/-- What stands behind a place that divides a text is a text. -/
theorem exists_drop {k : Nat} (h : Divides source.toList k) :
    ∃ t, (bytesOf source).drop k = bytesOf t := by
  obtain ⟨run, ⟨rest, hrest⟩, rfl⟩ := h
  refine ⟨String.ofList rest, ?_⟩
  rw [bytesOf_ofList, bytesOf_eq, ← hrest, List.flatMap_append, ← length_flatMap_utf8EncodeChar]
  exact List.drop_left

/-! ### Edits of texts -/

/-- An edit of a text that begins and ends between characters and puts in a text. -/
structure TextEdit.Whole (cs : List Char) (e : TextEdit) : Prop where
  start : Divides cs e.start
  stop : Divides cs e.stop
  content : ∃ t, e.content = bytesOf t

theorem TextEdit.whole_textEdit {cs : List Char} {a b : Nat} (ha : Divides cs a) (hb : Divides cs b)
    (t : String) : TextEdit.Whole cs (textEdit a b t) :=
  ⟨ha, hb, t, rfl⟩

/-- A text with edits of that kind applied to its bytes is a text. -/
theorem exists_text_of_spliceFrom {edits : List TextEdit} {cursor : Nat} {out : List UInt8}
    (h : spliceFrom (bytesOf source) cursor edits = .ok out)
    (hcursor : Divides source.toList cursor)
    (hwhole : ∀ e ∈ edits, TextEdit.Whole source.toList e) : ∃ t, out = bytesOf t := by
  induction edits generalizing cursor out with
  | nil =>
      obtain rfl := Except.ok.inj h
      exact exists_drop hcursor
  | cons e rest ih =>
      obtain ⟨hstart, out', hout', rfl⟩ := spliceFrom_cons_iff.1 h
      obtain ⟨hdivides, hstop, content, hcontent⟩ := hwhole e List.mem_cons_self
      obtain ⟨before, hbefore⟩ := exists_stretch hcursor hdivides hstart
      obtain ⟨after, rfl⟩ := ih hout' hstop fun f hf => hwhole f (List.mem_cons_of_mem e hf)
      refine ⟨before ++ content ++ after, ?_⟩
      rw [hbefore, hcontent, bytesOf_append, bytesOf_append]

/-- The bytes of an edited text are the bytes of the text with the edits applied. -/
theorem splice_of_editText {code : String} {edits : List TextEdit}
    (h : editText source edits = .ok code) : splice (bytesOf source) edits = .ok (bytesOf code) := by
  unfold editText at h
  split at h
  · simp at h
  · next bytes hbytes =>
      split at h
      · next s hs =>
          obtain rfl := Except.ok.inj h
          rw [hbytes, bytesOf_of_textOfBytes? hs]
      · simp at h

/-- An edited text is the text of the bytes with the edits applied. -/
theorem editText_eq_ok_iff {code : String} {edits : List TextEdit} :
    editText source edits = .ok code ↔
      (splice (bytesOf source) edits).toOption.bind textOfBytes? = some code := by
  rw [editText]
  cases splice (bytesOf source) edits with
  | error o => simp [Except.toOption]
  | ok bytes => cases htext : textOfBytes? bytes <;> simp [Except.toOption, htext]

/-- Edits that leave each other alone and divide no character can be applied to a text. -/
theorem exists_editText {edits : List TextEdit} (hforward : ∀ e ∈ edits, e.Forward)
    (hclear : edits.Pairwise fun e f => e.Clear f.start f.stop)
    (hwhole : ∀ e ∈ edits, TextEdit.Whole source.toList e) :
    ∃ code, editText source edits = .ok code := by
  obtain ⟨out, hsplice⟩ := exists_splice (bytesOf source) hforward hclear
  obtain ⟨code, rfl⟩ := exists_text_of_spliceFrom hsplice (Text.divides_zero _)
    fun e he => hwhole e (mem_inOrder.1 he)
  exact ⟨code, editText_eq_ok_iff.2 (by simp [hsplice, Except.toOption, textOfBytes?_bytesOf])⟩

end SketchHost
