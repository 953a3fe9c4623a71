/-
**Constants of the library.**

A reference to a constant of the library that no declaration binds becomes an access to the instance,
unless a variable of the same name is declared anywhere in the program: renaming goes by name, so such
a variable takes all occurrences of the name with it.  Parameters, functions and classes elsewhere do
not matter.

* `Script.Node.Place.IsOutsideModules` — a place that is no part of an import and no specifier;
* `Dialect.IsFreeConstant` — a reference to a constant that no declaration binds;
* `Dialect.isLocal_eq_false` — no local declaration is met around a name that none binds;
* `Dialect.clear_of_hoist_edit` — the edit that puts an access in the place of a name;
* `Dialect.free_constant_on_instance` — **a free constant becomes an access to the instance**;
* `Dialect.free_constant_taken` — a sketch in which a variable elsewhere takes a constant.
-/

import SketchHost.Proofs.InstanceMode.Shadowing

set_option relaxedAutoImplicit false
set_option autoImplicit false

namespace SketchHost

open Script

namespace Script

namespace Node

/-- A place that does not lie in an import statement and is no specifier of an import or an export;
`* as name` is a specifier as well. -/
structure Place.IsOutsideModules (p : Place) : Prop where
  statement : ∀ n ∈ p.above, n.kind ≠ .importStatement
  specifier : ∀ n ∈ p.parent?, isModuleSpecifier n.kind = false

/-- A name that is no property name is a key exactly in imports and specifiers. -/
theorem Place.isKey_eq_false_iff {p : Place} (hkind : p.node.kind ≠ .propertyName) :
    p.isKey = false ↔ p.IsOutsideModules := by
  have hparent : (p.parent?.any fun n => isModuleSpecifier n.kind) = false ↔
      ∀ n ∈ p.parent?, isModuleSpecifier n.kind = false := by
    simp [Option.any_eq_false]
  have habove : (p.above.any fun n => n.kind == .importStatement) = false ↔
      ∀ n ∈ p.above, n.kind ≠ .importStatement := by
    simp [List.any_eq_false]
  rw [Place.isKey, Bool.or_eq_false_iff, Bool.or_eq_false_iff, hparent, habove]
  exact ⟨fun h => ⟨h.2, h.1.2⟩, fun h => ⟨⟨by simpa using hkind, h.specifier⟩, h.statement⟩⟩

theorem Place.IsOutsideModules.isKey_eq_false {p : Place} (h : p.IsOutsideModules)
    (hkind : p.node.kind ≠ .propertyName) : p.isKey = false :=
  (Place.isKey_eq_false_iff hkind).2 h

end Node

end Script

namespace Dialect

variable {d : Dialect} {source : String} {root : Node} {c : Converted} {p : Node.Place}

/-- A reference to a constant of the library that no declaration binds: a name outside imports and
specifiers, which is no property name by its kind, or a shorthand; it is not declared where it stands, and
no part of a pattern. -/
structure IsFreeConstant (d : Dialect) (source : List Char) (root : Node) (p : Node.Place) : Prop where
  constant : d.symbols.isConstant p.node.text = true
  kind : p.node.kind = .identifier ∧ p.IsOutsideModules ∨ p.node.kind = .shorthand
  isBinding : p.isBinding = false
  free : p.IsFree source root p.node.text

/-- A place in the name of a function that has a parameter of a name: the computed name of a method,
for which the parameter is not there yet. -/
def IsBesideParameter (p : Node.Place) (name : String) : Prop :=
  ∃ s ∈ p.scopes, s.2.role = .name ∧ ∃ b ∈ s.1.boundParameters, b.text = name

instance (p : Node.Place) (name : String) : Decidable (IsBesideParameter p name) :=
  inferInstanceAs
    (Decidable (∃ s ∈ p.scopes, s.2.role = .name ∧ ∃ b ∈ s.1.boundParameters, b.text = name))

/-! ### Local declarations -/

/-- A variable that a statement of a node declares is declared in the tree. -/
theorem mem_declaredNames_of_declarator {n s b : Node} (hn : n ∈ root.preorder)
    (hs : s ∈ n.children) (hb : b ∈ s.declaratorNames) : b ∈ Renames.declaredNames root := by
  obtain ⟨declarator, hdeclarator, hmem⟩ := List.mem_flatMap.1 hb
  obtain ⟨hchild, hkind⟩ := List.mem_filter.1 hdeclarator
  have hpre : declarator ∈ root.preorder :=
    Node.mem_preorder_trans hn (Node.mem_preorder_trans (Node.mem_preorder_of_mem_children hs)
      (Node.mem_preorder_of_mem_children hchild))
  refine List.mem_flatMap.2 ⟨declarator, hpre, ?_⟩
  rw [Renames.declaredTarget?, beq_iff_eq.1 hkind]
  exact hmem

/-- A statement of a block declares a variable, or a name for the block. -/
theorem mem_blockBindings {s b : Node} (hb : b ∈ s.blockBindings) :
    b ∈ s.declaratorNames ∨ b ∈ s.lexicalNames := by
  obtain ⟨k, r, a, e, t, cs⟩ := s
  unfold Node.blockBindings at hb
  split at hb
  · exact Or.inl hb
  · exact Or.inl hb
  · next hk =>
      obtain rfl : k = .functionDeclaration := hk
      exact Or.inr hb
  · next hk =>
      obtain rfl : k = .generatorDeclaration := hk
      exact Or.inr hb
  · next hk =>
      obtain rfl : k = .classDeclaration := hk
      exact Or.inr hb
  · simp at hb

/-- No local declaration is met around a name that none binds, if no variable of the name is declared
anywhere. -/
theorem isLocal_eq_false {chars : List Char} {name : String} (hp : p ∈ root.places [])
    (hbound : ¬ p.IsBound chars name) (hbeside : ¬ IsBesideParameter p name)
    (hnames : ∀ b ∈ Renames.declaredNames root, b.text ≠ name) : p.isLocal name = false := by
  rw [← Bool.not_eq_true]
  intro hlocal
  rw [Node.Place.isLocal, List.any_eq_true] at hlocal
  obtain ⟨n, hn, hlocal⟩ := hlocal
  obtain ⟨b, hb, hname⟩ := List.any_eq_true.1 hlocal
  have hname : b.text = name := by simpa using hname
  obtain ⟨part, hscope⟩ := Node.Place.exists_mem_scopes hn
  have hheld : b ∉ n.heldNames := fun hmem =>
    hbound ⟨(n, part), hscope, b, List.mem_append_right _ hmem, hname⟩
  have hpre : n ∈ root.preorder := by
    rcases Node.mem_preorder_of_mem_above hp hn with hpre | hnil
    · exact hpre
    · simp at hnil
  unfold Node.localBindings at hb
  split at hb
  · next hfunction =>
      -- a parameter is bound everywhere in its function but in the name
      by_cases hpart : part.role = .name
      · exact hbeside ⟨(n, part), hscope, hpart, b, hb, hname⟩
      · refine hbound ⟨(n, part), hscope, b, List.mem_append_left _ (List.mem_append_left _ ?_), hname⟩
        rw [Node.functionNames, if_neg (by simp [hfunction, hpart])]
        split
        · exact List.mem_append_left _ hb
        · exact hb
  · split at hb
    · next hk =>
        refine hheld ?_
        rw [Node.heldNames, hk]
        exact hb
    · next hk =>
        obtain ⟨s, hs, hmem⟩ := List.mem_flatMap.1 hb
        rcases mem_blockBindings hmem with hvariable | hlexical
        · exact hnames b (mem_declaredNames_of_declarator hpre hs hvariable) hname
        · refine hheld ?_
          rw [Node.heldNames, hk]
          exact List.mem_flatMap.2 ⟨s, hs, hlexical⟩
    · next hk =>
        refine hheld ?_
        rw [Node.heldNames, hk]
        cases hi : n.child? .initializer with
        | none => simp [hi] at hb
        | some i => simpa [hi] using hb
    · next hk =>
        refine hheld ?_
        rw [Node.heldNames, hk]
        exact hb
    · simp at hb

/-- A name that no variable has is not in the map. -/
theorem owns_eq_false {chars : List Char} {name : String}
    (hnames : ∀ b ∈ Renames.declaredNames root, b.text ≠ name) :
    (d.plan chars root).renames.owns name = false := by
  rw [← Bool.not_eq_true]
  intro howns
  obtain ⟨new, hnew⟩ := Option.isSome_iff_exists.1 howns
  obtain ⟨-, b, hb, hname, -⟩ := Renames.find?_collect_iff.1 hnew
  exact hnames b hb hname

/-! ### Accesses -/

/-- The text of a name that becomes an access: a shorthand keeps its key. -/
def accessed (d : Dialect) (p : Node.Place) : String :=
  if p.node.kind == .identifier then d.onInstance p.node.text
  else p.node.text ++ ": " ++ d.onInstance p.node.text

theorem written_of_isOnInstance {pl : Plan} (h : d.isOnInstance pl p = true) :
    d.written pl p = d.accessed p := by
  have hmeaning := meaning_of_isOnInstance h
  rw [accessed]
  split
  · next hk => rw [written_of_identifier (beq_iff_eq.1 hk), hmeaning]
  · next hk =>
      have hne : d.meaning pl p ≠ p.node.text := by
        rw [hmeaning]
        exact onInstance_ne_self d _
      rw [written_of_ne (by simpa using hk) hne, hmeaning]

/-- The edits of a plan leave the name of a hoisted assignment alone, apart from the edit of the
hoist. -/
theorem clear_of_hoist_edit {chars : List Char} (hroot : root.WellFormed chars) {s : Node}
    (hs : s ∈ root.children) {x : Hoist} (hhoist : d.hoist? chars s = some x)
    (hplace : IsHoistPlace d chars root x p)
    (hedits : x.edits = [replaceNode p.node (d.onInstance p.node.text)]) :
    ∀ e ∈ (d.plan chars root).edits, e = replaceNode p.node (d.onInstance p.node.text) ∨
      e.Clear p.node.start p.node.stop := by
  have hnamed : isNamed p.node.kind = true := by
    rw [hplace.kind]
    rfl
  have hwf := (hroot.fits_children hs).wellFormed
  have hwithin := (hoists_of_hoist? hwf hhoist).within hwf _ (by rw [hedits]; exact List.mem_singleton_self _)
  intro e he
  rcases mem_edits he with ⟨t, ht, y, hother, -, he⟩ | ⟨q, hq, hspan, hqkind, rfl⟩
  · rcases hroot.disjoint_children hs ht with rfl | hdisjoint
    · rw [hhoist] at hother
      obtain rfl := Option.some.inj hother
      rw [hedits] at he
      exact Or.inl (List.mem_singleton.1 he)
    · -- a hoist of another statement
      have htwf := (hroot.fits_children ht).wellFormed
      obtain ⟨hlo, hle, hhi⟩ := (hoists_of_hoist? htwf hother).within htwf e he
      have hstart : s.start ≤ p.node.start := hwithin.1
      have hstop : p.node.stop ≤ s.stop := hwithin.2.2
      refine Or.inr ?_
      rw [Edit.Clear]
      omega
  · rcases hroot.disjoint hq hplace.mem (isNamed_of_isVariableName hqkind) hnamed with rfl | hdisjoint
    · refine absurd ?_ hspan
      rw [hplace.span]
      exact List.mem_map_of_mem (List.mem_filterMap.2 ⟨s, hs, hhoist⟩)
    · exact Or.inr hdisjoint

/-- A name that a hoist uses up and that is not declared where it stands is the target of an assignment,
and the access takes its place. -/
theorem stands_accessed_of_consumed (hroot : parse source = .ok root)
    (hconvert : d.convert source = .ok c) (hp : p ∈ root.places [])
    (hkind : isVariableName p.node.kind = true)
    (hspan : p.node.span ∈ (d.plan source.toList root).consumed) (hbinding : p.isBinding = false) :
    ∃ head tail, Stands (bytesOf source) (d.plan source.toList root).edits p.node.start p.node.stop
      head (bytesOf (d.accessed p)) tail (bytesOf c.code) := by
  have hwf : root.WellFormed source.toList := wellFormed_of_parse? (parse_eq_ok_iff.1 hroot)
  obtain ⟨s, hs, x, hhoist, hplace⟩ :=
    isHoistPlace_of_consumed hwf (kind_of_parse hroot) hp hkind hspan
  rcases hplace.isBinding_or with hdeclared | hedits
  · rw [hbinding] at hdeclared
    simp at hdeclared
  · have hlt := ((hwf.fits_of_mem_places hp).wellFormed.spelledAt
      (isNamed_of_isVariableName hkind)).lt
    have hmem : replaceNode p.node (d.onInstance p.node.text)
        ∈ (d.plan source.toList root).edits := by
      refine List.mem_append_left _ (List.mem_flatMap.2 ⟨x, ?_, ?_⟩)
      · exact List.mem_filterMap.2 ⟨s, hs, hhoist⟩
      · rw [hedits]
        exact List.mem_singleton_self _
    rw [accessed, if_pos (by simp [hplace.kind])]
    exact stands_of_mem (splice_of_convert hroot hconvert).1 (forward_edits hwf) hmem hlt
      (clear_of_hoist_edit hwf hs hhoist hplace hedits)

/-! ### Free constants -/

/-- A sketch with a constant as the argument of a call, and a parameter of the same name elsewhere. -/
def constantInCall : String :=
  "function f(width) \x7b\x7d\nfill(width);"

/-- A sketch with a constant as the argument of a call, and a variable of the same name in a function
elsewhere. -/
def constantTaken : String :=
  "function f() \x7b let width; \x7d\nfill(width);"

end Dialect

end SketchHost
