/-
**Which lines a conversion keeps.**

Of the edits of a conversion only one can take a line end away: the one that replaces the head of a
hoisted declaration, from its first word to its value.  A conversion therefore keeps every line of a
sketch exactly if no such head has a line end, that is, if every hoisted value begins on the line on
which its declaration does.

* `lineAt` — the line of a byte;
* `OnSameLine` — what stands for a range is on the line of the range;
* `Dialect.newline_removed_iff` — the edits of a plan take no line end away if no head has one;
* `Dialect.keeps_lines_iff` — when the lines are kept;
* `Dialect.not_keepsLines_broken` — a sketch whose lines move.
-/

import SketchHost.Proofs.InstanceMode.Names

set_option relaxedAutoImplicit false
set_option autoImplicit false

namespace SketchHost

open Script

/-! ### Lines -/

/-- The line, counted from one, of the byte at an offset. -/
def lineAt (bytes : List UInt8) (k : Nat) : Nat :=
  (bytes.take k).count newline + 1

/-- Two places are on one line exactly if no line end is between them. -/
theorem lineAt_eq_iff {bytes : List UInt8} {a b : Nat} (h : a ≤ b) :
    lineAt bytes b = lineAt bytes a ↔ newline ∉ stretch bytes a b := by
  have hsplit := stretch_append bytes (Nat.zero_le a) h
  have htake : ∀ k, stretch bytes 0 k = bytes.take k := fun k => List.drop_zero
  rw [htake, htake] at hsplit
  rw [lineAt, lineAt, ← hsplit, List.count_append, ← List.count_eq_zero]
  omega

/-- What stands in the result of edits for a range is on the line on which the range is. -/
def OnSameLine (data : List UInt8) (edits : List TextEdit) (a b : Nat) (shown out : List UInt8) :
    Prop :=
  ∃ head tail, Stands data edits a b head shown tail out ∧ lineAt out head.length = lineAt data a

/-- Edits that neither put in nor take away a line end keep lines. -/
theorem Stands.onSameLine {data out head shown tail : List UInt8} {edits : List TextEdit}
    {a b : Nat} (h : Stands data edits a b head shown tail out)
    (hforward : ∀ e ∈ edits, e.Forward) (hcontent : ∀ e ∈ edits, newline ∉ e.content)
    (hremoved : ∀ e ∈ edits, newline ∉ e.removed data) :
    OnSameLine data edits a b shown out := by
  refine ⟨head, tail, h, ?_⟩
  have hhead : out.take head.length = head := by
    rw [h.out_eq, List.append_assoc]
    exact List.take_left
  rw [lineAt, hhead, h.count_head hforward hcontent hremoved, lineAt]

namespace Dialect

variable {d : Dialect} {source : String} {root : Node} {c : Converted}

/-! ### Line ends in edits -/

/-- The name that a word has afterwards holds no line end if the prefix holds none. -/
theorem newline_not_mem_nameOf {p : Node.Place} (hlead : '\n' ∉ d.lead.toList)
    (htext : '\n' ∉ p.node.text.toList) :
    '\n' ∉ ((d.plan source.toList root).nameOf p).toList := by
  rw [Plan.nameOf]
  split
  · exact htext
  · cases hnew : (d.plan source.toList root).renames.target? p.node.text with
    | none => exact htext
    | some new =>
        obtain ⟨rfl, -, -⟩ := Renames.target?_collect_iff.1 hnew
        rcases Renames.prefixed_eq d.lead p.node.text with ⟨heq, -⟩ | ⟨heq, -⟩
        · rw [heq]
          exact htext
        · rw [heq, Option.getD_some, String.toList_append, List.mem_append, not_or]
          exact ⟨hlead, htext⟩

/-- What is written for a word holds no line end if the namespace and the prefix hold none. -/
theorem newline_not_mem_written {p : Node.Place} (hspace : '\n' ∉ d.namespaceName.toList)
    (hlead : '\n' ∉ d.lead.toList) (htext : '\n' ∉ p.node.text.toList) :
    '\n' ∉ (d.written (d.plan source.toList root) p).toList := by
  have hmeaning : '\n' ∉ (d.meaning (d.plan source.toList root) p).toList := by
    rw [meaning]
    split
    · exact newline_not_mem_onInstance hspace htext
    · exact newline_not_mem_nameOf hlead htext
  have hcolon : '\n' ∉ ": ".toList := by decide
  rw [written]
  split
  · exact hmeaning
  · simp only [String.toList_append, List.mem_append, not_or]
    exact ⟨⟨htext, hcolon⟩, hmeaning⟩

/-- The edits of a plan put in no line end if the namespace and the prefix hold none. -/
theorem newline_not_mem_edits (hroot : root.WellFormed source.toList)
    (hspace : '\n' ∉ d.namespaceName.toList) (hlead : '\n' ∉ d.lead.toList) :
    ∀ e ∈ (d.plan source.toList root).edits, newline ∉ e.content := by
  intro e he
  rcases mem_edits he with ⟨s, hs, x, hhoist, -, he⟩ | ⟨p, hp, -, hkind, rfl⟩
  · have hwf := (hroot.fits_children hs).wellFormed
    exact (hoists_of_hoist? hwf hhoist).newline_not_mem hwf hspace e he
  · have hspelled := (hroot.fits_of_mem_places hp).wellFormed.spelledAt
      (isNamed_of_isVariableName hkind)
    rw [replaceNode, textEdit, newline_mem_bytesOf]
    exact newline_not_mem_written hspace hlead hspelled.newline_not_mem

/-- The edits of a plan take no line end away exactly if every hoisted value begins on the line on
which its declaration does. -/
theorem newline_removed_iff (hroot : root.WellFormed source.toList) :
    (∀ e ∈ (d.plan source.toList root).edits, newline ∉ e.removed (bytesOf source)) ↔
      ∀ s ∈ root.children, ∀ value ∈ d.hoistedValue? source.toList s,
        lineAt (bytesOf source) value.start = lineAt (bytesOf source) s.start := by
  constructor
  · -- the head of a hoisted declaration is what one of the edits takes away
    intro h s hs value hvalue
    have hwf := (hroot.fits_children hs).wellFormed
    obtain ⟨x, hhoist, hle, e, he, hstart, hstop⟩ := exists_edit_of_hoistedValue? hwf hvalue
    rw [lineAt_eq_iff hle, ← hstart, ← hstop]
    refine h e (List.mem_append_left _ (List.mem_flatMap.2 ⟨x, ?_, he⟩))
    exact List.mem_filterMap.2 ⟨s, hs, hhoist⟩
  · -- all else that is taken away is a word, and no word holds a line end
    intro h e he
    have hword : ∀ n ∈ root.preorder, isNamed n.kind = true →
        newline ∉ stretch (bytesOf source) n.start n.stop := by
      intro n hn hnamed
      have hspelled := (hroot.fits_of_mem hn).wellFormed.spelledAt hnamed
      rw [hspelled.stretch_eq, newline_mem_bytesOf]
      exact hspelled.newline_not_mem
    rw [Edit.removed]
    rcases mem_edits he with ⟨s, hs, x, hhoist, -, he⟩ | ⟨p, hp, -, hkind, rfl⟩
    · have hwf := (hroot.fits_children hs).wellFormed
      have hform := hoists_of_hoist? hwf hhoist
      rcases hform.range_cases hhoist e he with heq | ⟨n, hn, hkind, hstart, hstop⟩ |
        ⟨value, hvalue, hstart, hstop⟩
      · rw [heq]
        simp [stretch]
      · rw [hstart, hstop]
        exact hword n (Node.mem_preorder_trans (Node.mem_preorder_of_mem_children hs) hn)
          (by rw [hkind]; rfl)
      · obtain ⟨-, -, hle, -⟩ := exists_edit_of_hoistedValue? hwf hvalue
        rw [hstart, hstop, ← lineAt_eq_iff hle]
        exact h s hs value hvalue
    · exact hword p.node (Node.mem_preorder_of_mem_places hp) (isNamed_of_isVariableName hkind)

/-! ### Conversions that keep lines -/

/-- A conversion keeps the lines of a sketch: the result has as many line ends, and every range that
the edits leave alone, and every word, stands on the line on which it stood. -/
structure KeepsLines (d : Dialect) (source : String) (root : Node) (code : String) : Prop where
  count_eq : code.toList.count '\n' = source.toList.count '\n'
  kept : ∀ a b, a < b → (∀ e ∈ (d.plan source.toList root).edits, e.Clear a b) →
    OnSameLine (bytesOf source) (d.plan source.toList root).edits a b
      (stretch (bytesOf source) a b) (bytesOf code)
  words : ∀ p ∈ root.places [], isVariableName p.node.kind = true →
    p.node.span ∉ (d.plan source.toList root).consumed →
      OnSameLine (bytesOf source) (d.plan source.toList root).edits p.node.start p.node.stop
        (bytesOf (d.written (d.plan source.toList root) p)) (bytesOf code)

/-- A conversion keeps the lines of a sketch exactly if every hoisted value begins on the line on
which its declaration does. -/
theorem keeps_lines_iff (hroot : parse source = .ok root)
    (hconvert : standard.convert source = .ok c) :
    standard.KeepsLines source root c.code ↔
      ∀ s ∈ root.children, ∀ value ∈ standard.hoistedValue? source.toList s,
        lineAt (bytesOf source) value.start = lineAt (bytesOf source) s.start := by
  have hwf : root.WellFormed source.toList := wellFormed_of_parse? (parse_eq_ok_iff.1 hroot)
  obtain ⟨hsplice, -⟩ := splice_of_convert hroot hconvert
  have hforward := forward_edits (d := standard) hwf
  have hcontent := newline_not_mem_edits (d := standard) hwf (by decide) (by decide)
  rw [← newline_removed_iff hwf]
  constructor
  · intro h
    rw [← count_splice_iff hsplice hforward hcontent, count_newline_bytesOf, count_newline_bytesOf]
    exact h.count_eq
  · intro hremoved
    refine ⟨?_, fun a b hab hclear => ?_, fun p hp hkind hspan => ?_⟩
    · rw [← count_newline_bytesOf, ← count_newline_bytesOf]
      exact (count_splice_iff hsplice hforward hcontent).2 hremoved
    · obtain ⟨head, tail, hstands⟩ := stands_of_clear hsplice hforward hab hclear
      exact hstands.onSameLine hforward hcontent hremoved
    · obtain ⟨head, tail, hstands⟩ := stands_written hroot hconvert hp hkind hspan
      exact hstands.onSameLine hforward hcontent hremoved

/-- A sketch with a hook whose value begins on the line of its declaration and ends below it. -/
def tidy : String := "let /* once */ setup = () => [\n];\nredraw"

/-- The rule at a sketch whose lines are kept. -/
theorem keeps_lines_iff_tidy : ∃ root c, parse tidy = .ok root ∧ standard.convert tidy = .ok c ∧
    c.code = "_p.setup = () => [\n];\nredraw" ∧ standard.KeepsLines tidy root c.code := by
  have hread : standard.convertsTo tidy ⟨"_p.setup = () => [\n];\nredraw", []⟩ (fun root => decide
      (∀ s ∈ root.children, ∀ value ∈ standard.hoistedValue? tidy.toList s,
        lineAt (bytesOf tidy) value.start = lineAt (bytesOf tidy) s.start)) = true := by
    decide +kernel
  obtain ⟨root, hroot, hconvert, hlines⟩ := exists_convert hread
  exact ⟨root, _, hroot, hconvert, rfl,
    (keeps_lines_iff hroot hconvert).2 (of_decide_eq_true hlines)⟩

/-- A hook whose value begins on the line below its declaration. -/
def broken : String := "const setup =\n  () => [];"

/-- The line end before the value is taken away, so the lines of the sketch are not kept. -/
theorem not_keepsLines_broken : ∃ root c, parse broken = .ok root ∧
    standard.convert broken = .ok c ∧ c.code = "_p.setup = () => [];" ∧
    ¬ standard.KeepsLines broken root c.code := by
  have hread : standard.convertsTo broken ⟨"_p.setup = () => [];", []⟩ (fun _ => true) = true := by
    decide +kernel
  obtain ⟨root, hroot, hconvert, -⟩ := exists_convert hread
  refine ⟨root, _, hroot, hconvert, rfl, fun h => ?_⟩
  exact absurd h.count_eq (by decide)

end Dialect

end SketchHost
