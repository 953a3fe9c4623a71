/-
**The numbers of a mapped text.**

Mapping a text changes no more than its digits, so each form finds in the mapped text what it finds in
the text: the numbers that the mapped text mentions are the lines of the source for the numbers that the
text mentions, in the same order.

* `LineMap.eraseDups_map_eraseDups` — repetitions may be left out before a list is mapped, or after;
* `LineMap.Mapper.mappedValue`, `LineMap.Mapper.value_renumbered` — the number in the place of a number;
* `LineMap.Mapper.isReadable_renumber` — a mapped text can be read if the text can;
* `LineMap.Mapper.extract_mapMessage` — **mapping commutes with extraction**.
-/

import SketchHost.Proofs.LineMap.Rewriting

set_option relaxedAutoImplicit false
set_option autoImplicit false

namespace SketchHost

namespace LineMap

open Text

/-! ### Lists without repetitions -/

theorem filter_eraseDups (p : Nat → Bool) (ns : List Nat) :
    ns.eraseDups.filter p = (ns.filter p).eraseDups := by
  induction ns using filter_induction with
  | nil => rfl
  | cons n ns ih =>
      rw [List.eraseDups_cons]
      cases hn : p n with
      | true =>
          rw [List.filter_cons_of_pos hn, List.filter_cons_of_pos hn, List.eraseDups_cons, ih,
            List.filter_comm]
      | false =>
          have hne : ∀ x ∈ ns, (p x && !x == n) = p x := by
            intro x _
            cases hx : p x with
            | false => rfl
            | true =>
                have hxn : x ≠ n := by
                  rintro rfl
                  simp [hn] at hx
                simp [hxn]
          rw [List.filter_cons_of_neg (by simp [hn]), List.filter_cons_of_neg (by simp [hn]), ih,
            List.filter_filter, List.filter_congr hne]

/-- Repetitions may be left out before a list is mapped, or after. -/
theorem eraseDups_map_eraseDups (f : Nat → Nat) (ns : List Nat) :
    (ns.eraseDups.map f).eraseDups = (ns.map f).eraseDups := by
  induction ns using filter_induction with
  | nil => rfl
  | cons n ns ih =>
      have hne : ∀ x ∈ ns, (((fun y => !y == f n) ∘ f) x && !x == n) = ((fun y => !y == f n) ∘ f) x := by
        intro x _
        by_cases hx : x = n <;> simp [hx]
      rw [List.eraseDups_cons, List.map_cons, List.map_cons, List.eraseDups_cons, List.eraseDups_cons,
        List.filter_map, List.filter_map, filter_eraseDups, List.filter_filter, ih, List.filter_congr hne]

/-! ### The numbers of a mapped text -/

namespace Mapper

variable (m : Mapper) {text : List Char}

/-- The number that stands in a mapped text in the place of a number; zero is no line. -/
def mappedValue (n : Nat) : Nat :=
  if n = 0 then 0 else m.lineFor n

@[simp] theorem mappedValue_pos_iff {n : Nat} : 0 < m.mappedValue n ↔ 0 < n := by
  rw [mappedValue]
  split
  · next h => simp [h]
  · next h => exact iff_of_true (m.lineFor_pos n) (Nat.pos_of_ne_zero h)

/-- A mention of a text, and the mention that the mapped text has in its place. -/
def MapsMention (s s' : Mention) : Prop :=
  s'.value = m.mappedValue s.value ∧ s'.digits.length ≤ s.digits.length

theorem value_renumbered {s s' : Mention} (hs : s ∈ mentions text)
    (h : RenumberedMention (m.Becomes text) s s') : m.MapsMention s s' := by
  have hne : s.digits ≠ [] := (Mention.isWholeRun hs).isRun.1
  rcases h.2 with ⟨t, ht, hstart, -, hdigits⟩ | ⟨hnone, hdigits⟩
  · obtain rfl := Mention.eq_of_start (mem_spans_iff.1 ht).1 hs hstart
    have hpos := (mem_spans_iff.1 ht).2
    have hvalue : s'.value = m.lineFor t.value := by rw [Mention.value, hdigits, natOfDigits_decimal]
    refine ⟨?_, ?_⟩
    · rw [hvalue, mappedValue, if_neg (Nat.ne_of_gt hpos)]
    · rw [hdigits]
      exact length_decimal_le hne (m.lineFor_le hpos)
  · have hzero : s.value = 0 := by
      by_contra hpos
      exact hnone s (mem_spans_iff.2 ⟨hs, Nat.pos_of_ne_zero hpos⟩) rfl
    have hvalue : s'.value = s.value := by rw [Mention.value, hdigits, Mention.value]
    exact ⟨by rw [hvalue, hzero]; rfl, Nat.le_of_eq (congrArg List.length hdigits)⟩

/-- **Each form finds in a mapped text what it finds in the text.** -/
theorem scan_renumber (text : List Char) {form : Form} (hform : form ∈ forms) :
    List.Forall₂ m.MapsMention (scan text form) (scan (m.renumber text) form) := by
  have hscan := scan_renumbered (m.renumbered_renumber text) hform
  have hmem : ∀ s ∈ scan text form, s ∈ mentions text :=
    fun s hs => List.mem_flatMap.2 ⟨form, hform, hs⟩
  exact ((List.forall₂_and_left _ _).2 ⟨hmem, hscan⟩).imp fun _ _ h => m.value_renumbered h.1 h.2

theorem mentions_renumber (text : List Char) :
    List.Forall₂ m.MapsMention (mentions text) (mentions (m.renumber text)) :=
  ((List.forall₂_and_left _ _).2 ⟨fun _ => id, mentions_renumbered (m.renumbered_renumber text)⟩).imp
    fun _ _ h => m.value_renumbered h.1 h.2

/-- A mapped text can be read if the text can. -/
theorem isReadable_renumber (h : isReadable text = true) : isReadable (m.renumber text) = true := by
  rw [isReadable, List.all_eq_true] at h ⊢
  have hmentions := m.mentions_renumber text
  generalize mentions text = ms at h hmentions
  generalize mentions (m.renumber text) = ms' at hmentions
  induction hmentions with
  | nil => simp
  | @cons s s' ms ms' hs _ ih =>
      obtain ⟨hshort, hrest⟩ := List.forall_mem_cons.1 h
      refine List.forall_mem_cons.2 ⟨?_, ih hrest⟩
      have hlength := hs.2
      simp only [Mention.isTooLong, Bool.not_eq_true', decide_eq_false_iff_not] at hshort ⊢
      omega

theorem lineNumbers_renumber (text : List Char) :
    lineNumbers (m.renumber text)
      = ((lineNumbers text).map fun (n : Nat) => m.lineFor n).eraseDups := by
  have hmentions := m.mentions_renumber text
  rw [lineNumbers, lineNumbers, eraseDups_map_eraseDups, positiveMentions, positiveMentions]
  refine congrArg List.eraseDups ?_
  generalize mentions text = ms at hmentions
  generalize mentions (m.renumber text) = ms' at hmentions
  induction hmentions with
  | nil => rfl
  | @cons s s' ms ms' hs _ ih =>
      have hvalue := hs.1
      by_cases hpos : 0 < s.value
      · have hpos' : 0 < s'.value := by rwa [hvalue, mappedValue_pos_iff]
        rw [mappedValue, if_neg (Nat.ne_of_gt hpos)] at hvalue
        rw [List.filter_cons_of_pos (by simpa using hpos'), List.filter_cons_of_pos (by simpa using hpos)]
        simp only [List.map_cons, ih, hvalue]
      · have hpos' : ¬ 0 < s'.value := by rwa [hvalue, mappedValue_pos_iff]
        rw [List.filter_cons_of_neg (by simpa using hpos'), List.filter_cons_of_neg (by simpa using hpos)]
        exact ih

/-- A text and the text that it is mapped to mention the same numbers but for the mapping: `ns` are the
numbers of the text. -/
structure KeepsMentions (text out : List Char) (ns : List Nat) : Prop where
  /-- Each form finds a number for each that it finds in the text, and no other. -/
  found : ∀ form ∈ forms, List.Forall₂ m.MapsMention (scan text form) (scan out form)
  /-- The numbers of the mapped text are the lines of the source for the numbers of the text. -/
  extracted : extract out = .ok ((ns.map fun (n : Nat) => m.lineFor n).eraseDups)
  /-- They are the lines that the text is said to name. -/
  lines : (m.extractMapped text).map List.eraseDups = extract out

/-- **Mapping commutes with extraction.** -/
theorem extract_mapMessage (h : isReadable text = true) :
    ∃ out ns, m.mapMessage text = .ok out ∧ extract text = .ok ns ∧ m.KeepsMentions text out ns := by
  have hout : extract (m.renumber text)
      = .ok ((lineNumbers text).map fun (n : Nat) => m.lineFor n).eraseDups := by
    rw [extract, if_pos (m.isReadable_renumber h), lineNumbers_renumber]
  have htext : extract text = .ok (lineNumbers text) := if_pos h
  refine ⟨m.renumber text, lineNumbers text, if_pos h, htext,
    fun form hform => m.scan_renumber text hform, hout, ?_⟩
  rw [hout, extractMapped, htext]
  rfl

/-- Two of the reported lines are mapped to the last line of the source, which is named once. -/
theorem extract_mapMessage_meeting : isReadable meeting = true ∧
    ∃ out ns, fourLines.mapMessage meeting = .ok out ∧ extract meeting = .ok ns
      ∧ fourLines.KeepsMentions meeting out ns
      ∧ fourLines.extractMapped meeting = .ok [3, 1, 4, 4, 2] ∧ extract out = .ok [3, 1, 4, 2] := by
  have hreadable : isReadable meeting = true := by decide +kernel
  have hlines : fourLines.extractMapped meeting = .ok [3, 1, 4, 4, 2] := by decide +kernel
  obtain ⟨out, ns, hout, hns, hkeeps⟩ := fourLines.extract_mapMessage hreadable
  refine ⟨hreadable, out, ns, hout, hns, hkeeps, hlines, ?_⟩
  rw [← hkeeps.lines, hlines]
  rfl

end Mapper

end LineMap

end SketchHost
