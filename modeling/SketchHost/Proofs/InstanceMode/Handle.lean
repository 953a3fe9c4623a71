/-
**The handle of the instance.**

A converted sketch reaches the library through the namespace.  No rule keeps a new name apart from
it: a variable whose name with the prefix is the namespace takes its place.  In a sketch that does
not use the namespace itself, this happens exactly if a variable of that one name is declared.

* `Dialect.belongs_of_consumed` — a name that a hoist uses up belongs to the library;
* `Dialect.HandleIsFree` — the namespace stands only before a point;
* `Dialect.handleIsFree_iff` — when it does;
* `Dialect.not_handleIsFree_taking` — a sketch in which a variable takes it.
-/

import SketchHost.Proofs.InstanceMode.Names

set_option relaxedAutoImplicit false
set_option autoImplicit false

namespace SketchHost

open Script

namespace Dialect

variable {d : Dialect} {source : String} {root : Node} {c : Converted}

/-! ### Names that hoists use up -/

/-- A word whose span a hoist uses up is a name of the library. -/
theorem belongs_of_consumed {chars : List Char} (hroot : root.WellFormed chars) {m : Node}
    (hm : m ∈ root.preorder) (hnamed : isNamed m.kind = true)
    (hspan : m.span ∈ (d.plan chars root).consumed) :
    d.symbols.belongsToInstance m.text = true := by
  obtain ⟨x, hx, hconsumed⟩ := List.mem_map.1 hspan
  obtain ⟨s, hs, -, hform⟩ := exists_hoists_of_mem hroot hx
  obtain ⟨n, hn, hkind, htext, hnspan⟩ := hform.consumed
  have hnn : isNamed n.kind = true := by rw [hkind]; rfl
  have hnroot : n ∈ root.preorder :=
    Node.mem_preorder_trans (Node.mem_preorder_of_mem_children hs) hn
  obtain rfl := hroot.node_eq_of_span hm hnroot hnamed hnn (hconsumed.symm.trans hnspan.symm)
  rw [htext]
  exact hform.belongs

/-! ### Names of the library -/

theorem standard_belongs_p : standard.symbols.belongsToInstance "p" = false := by
  decide +kernel

/-- With the usual prefix, the namespace is the new name of itself and of `p`. -/
theorem prefixed_eq_namespace_iff {name : String} :
    Renames.prefixed standard.lead name = standard.namespaceName ↔ name = "_p" ∨ name = "p" := by
  constructor
  · intro h
    rcases Renames.prefixed_eq standard.lead name with ⟨heq, -⟩ | ⟨heq, -⟩
    · exact Or.inl (heq.symm.trans h)
    · have happend : "_" ++ name = "_" ++ "p" := heq.symm.trans h
      exact Or.inr (String.append_right_inj _ |>.1 happend)
  · rintro (rfl | rfl)
    · decide
    · decide

/-! ### Sketches that leave the handle alone -/

/-- In a converted sketch the namespace stands only where an access was put in: no variable is
renamed to it, no word stands under it, and what is put in besides the words is an access or a
semicolon. -/
structure HandleIsFree (d : Dialect) (source : String) (root : Node) (c : Converted) : Prop where
  renames : ∀ r ∈ c.renames, r.2 ≠ d.namespaceName
  words : ∀ p ∈ root.places [], isVariableName p.node.kind = true →
    p.node.span ∉ (d.plan source.toList root).consumed →
      d.nameIn? (d.plan source.toList root) p ≠ some d.namespaceName ∧
        ∃ head tail, Stands (bytesOf source) (d.plan source.toList root).edits p.node.start
          p.node.stop head (bytesOf (d.written (d.plan source.toList root) p)) tail
          (bytesOf c.code)
  edits : ∀ e ∈ (d.plan source.toList root).edits,
    (∃ p ∈ root.places [], p.node.span ∉ (d.plan source.toList root).consumed ∧
      isVariableName p.node.kind = true ∧
      e = replaceNode p.node (d.written (d.plan source.toList root) p)) ∨
    ∃ name, d.symbols.belongsToInstance name = true ∧
      (e.content = bytesOf (d.onInstance name ++ " = ") ∨ e.content = bytesOf (d.onInstance name) ∨
        e.content = bytesOf ";" ∨ e.content = bytesOf "")

/-- The handle of a sketch that does not use it is left alone exactly if no variable `p` is
declared. -/
theorem handleIsFree_iff (hroot : parse source = .ok root)
    (hconvert : standard.convert source = .ok c)
    (hfree : ∀ n ∈ root.preorder, isVariableName n.kind = true → n.text ≠ standard.namespaceName) :
    standard.HandleIsFree source root c ↔ ∀ b ∈ Renames.declaredNames root, b.text ≠ "p" := by
  have hwf : root.WellFormed source.toList := wellFormed_of_parse? (parse_eq_ok_iff.1 hroot)
  obtain ⟨-, hrenames⟩ := splice_of_convert hroot hconvert
  constructor
  · -- a variable `p` has an entry in the map, with the namespace as its new name
    intro h b hb htext
    obtain ⟨hmem, hkind⟩ := Renames.mem_declaredNames hb
    have hspan : b.span ∉ (standard.plan source.toList root).consumed := by
      intro hspan
      have hbelongs := belongs_of_consumed hwf hmem (isNamed_of_isVariableName hkind) hspan
      rw [htext, standard_belongs_p] at hbelongs
      simp at hbelongs
    have hhook : standard.symbols.isHook "p" = false := by decide +kernel
    have hentry : ("p", "_p") ∈ (standard.plan source.toList root).renames :=
      Renames.mem_collect_iff.2 ⟨by decide, b, hb, htext, hspan, hhook⟩
    rw [← hrenames] at hentry
    exact h.renames _ hentry rfl
  · -- the namespace is the new name of `p` and of itself alone, and neither is declared
    intro h
    have hnew : ∀ r ∈ (standard.plan source.toList root).renames,
        r.2 ≠ standard.namespaceName := by
      intro r hr heq
      obtain ⟨hrule, b, hb, htext, -, -⟩ := Renames.mem_collect_iff.1 hr
      rw [heq] at hrule
      rcases prefixed_eq_namespace_iff.1 hrule.symm with hname | hname
      · obtain ⟨hmem, hkind⟩ := Renames.mem_declaredNames hb
        exact hfree b hmem hkind (htext.trans hname)
      · exact h b hb (htext.trans hname)
    refine ⟨by rw [hrenames]; exact hnew, fun p hp hkind hspan => ⟨?_, ?_⟩, fun e he => ?_⟩
    · intro hname
      obtain ⟨-, -, hname⟩ := nameIn?_eq_some_iff.1 hname
      rcases nameOf_cases (standard.plan source.toList root) p with hown | hgiven
      · exact hfree p.node (Node.mem_preorder_of_mem_places hp) hkind (hown.symm.trans hname)
      · rw [hname] at hgiven
        obtain ⟨hrule, -, hrenamed⟩ := Renames.target?_collect_iff.1 hgiven
        exact hnew (p.node.text, standard.namespaceName)
          (Renames.mem_collect_iff.2 ⟨hrule, hrenamed⟩) rfl
    · exact stands_written hroot hconvert hp hkind hspan
    · rcases mem_edits he with ⟨s, hs, x, hhoist, -, he⟩ | hword
      · have hform := hoists_of_hoist? (hwf.fits_children hs).wellFormed hhoist
        exact Or.inr ⟨x.name, hform.belongs, hform.content_cases e he⟩
      · exact Or.inl hword

/-- A sketch with a hook, a library function and a variable. -/
def courteous : String := "let q = 1\nfunction draw() \x7b circle(q, width) \x7d"

/-- The rule at a sketch that leaves the handle alone. -/
theorem handleIsFree_iff_courteous : ∃ root c, parse courteous = .ok root ∧
    standard.convert courteous = .ok c ∧
    (∀ n ∈ root.preorder, isVariableName n.kind = true → n.text ≠ standard.namespaceName) ∧
    c.code = "let _q = 1\n_p.draw = function () \x7b _p.circle(_q, _p.width) \x7d;" ∧
    standard.HandleIsFree courteous root c := by
  have hread : standard.convertsTo courteous
      ⟨"let _q = 1\n_p.draw = function () \x7b _p.circle(_q, _p.width) \x7d;", [("q", "_q")]⟩ (fun root => decide
      ((∀ n ∈ root.preorder, isVariableName n.kind = true → n.text ≠ standard.namespaceName) ∧
        ∀ b ∈ Renames.declaredNames root, b.text ≠ "p")) = true := by
    decide +kernel
  obtain ⟨root, hroot, hconvert, hnames⟩ := exists_convert hread
  obtain ⟨hfree, hdeclared⟩ := of_decide_eq_true hnames
  exact ⟨root, _, hroot, hconvert, hfree, rfl, (handleIsFree_iff hroot hconvert hfree).2 hdeclared⟩

/-- A sketch with a variable whose new name is the namespace. -/
def taking : String := "let p = 1;"

/-- The variable takes the place of the handle. -/
theorem not_handleIsFree_taking : ∃ root c, parse taking = .ok root ∧
    standard.convert taking = .ok c ∧
    (∀ n ∈ root.preorder, isVariableName n.kind = true → n.text ≠ standard.namespaceName) ∧
    c.code = "let _p = 1;" ∧ ¬ standard.HandleIsFree taking root c := by
  have hread : standard.convertsTo taking ⟨"let _p = 1;", [("p", "_p")]⟩ (fun root => decide
      (∀ n ∈ root.preorder, isVariableName n.kind = true → n.text ≠ standard.namespaceName)) = true := by
    decide +kernel
  obtain ⟨root, hroot, hconvert, hfree⟩ := exists_convert hread
  refine ⟨root, _, hroot, hconvert, of_decide_eq_true hfree, rfl, fun h => ?_⟩
  exact h.renames ("p", "_p") List.mem_cons_self rfl

end Dialect

end SketchHost
