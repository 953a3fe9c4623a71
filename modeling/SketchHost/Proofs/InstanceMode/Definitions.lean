/-
**Definitions of library functions.**

A sketch may define a function of the library itself, at its top.  The definition is meant to win: it and
everything that refers to it go to the instance, or all of them stay under one new name.  Whether they do
is decided in three places that do not know of each other.  A definition goes to the instance if its
statement has the right shape, a call because the name is one of the library, and a reference follows the
map of new names, which any variable of the name enters, wherever it is declared.

* `Node.topDefinitions`, `Dialect.IsDefinition`, `Dialect.IsUse` — the definitions of a name at the top
  of a program, and the calls and references that no nested scope shadows;
* `Dialect.IsMoved`, `Dialect.StandsAs` — what becomes of a definition and of a reference;
* `Dialect.DefinitionWins` — a definition and its uses name the same thing;
* `Dialect.definitionWins_iff` — **when they do**;
* `Dialect.not_definitionWins_calling` — a sketch whose call does not reach its definition.
-/

import SketchHost.Proofs.InstanceMode.Constants
import SketchHost.Proofs.Script.Bare

set_option relaxedAutoImplicit false
set_option autoImplicit false

namespace SketchHost

open Script

/-! ### Definitions at the top -/

namespace Script

namespace Node

/-- The variables and functions that a statement defines. -/
def definedNames (s : Node) : List Node :=
  match s.kind with
  | .lexicalDeclaration | .variableDeclaration => s.declaratorNames
  | .functionDeclaration | .generatorDeclaration => (s.child? .name).toList
  | _ => []

/-- The variables and functions that are defined at the top of a program, exported ones included. -/
def topDefinitions (root : Node) : List Node :=
  root.children.flatMap fun s =>
    if s.kind == .exportStatement then s.children.flatMap definedNames else s.definedNames

/-- The kinds of patterns, each with the roles of the parts that bind names. -/
def bindsIn (k : Kind) (r : Role) : Prop :=
  match k with
  | .objectPattern | .arrayPattern | .restPattern => True
  | .pairPattern => r = .value
  | .assignmentPattern | .objectAssignmentPattern => r = .left
  | _ => False

/-- The kinds of the words that are declared. -/
def isDeclaredName (k : Kind) : Prop :=
  k = .identifier ∨ k = .shorthandPattern

theorem isVariableName_of_isDeclaredName {k : Kind} (h : isDeclaredName k) : isVariableName k = true := by
  rcases h with rfl | rfl <;> rfl

/-- A name that a target binds is the target, or it is bound by a part of a pattern. -/
theorem mem_bindings_cases {n b : Node} (hb : b ∈ n.bindings) :
    (b = n ∧ isDeclaredName n.kind) ∨ ∃ c ∈ n.children, b ∈ c.bindings ∧ bindsIn n.kind c.role := by
  have hin : ∀ r, b ∈ bindings? (n.child? r) → ∃ c ∈ n.children, b ∈ c.bindings ∧ c.role = r := by
    intro r hmem
    cases hchild : n.child? r with
    | none => simp [hchild, bindings?] at hmem
    | some c =>
        rw [hchild] at hmem
        exact ⟨c, mem_children_of_child? hchild, hmem, role_of_child? hchild⟩
  rw [bindings_eq] at hb
  cases hk : n.kind <;> simp only [hk] at hb <;> first
    | exact Or.inl ⟨List.mem_singleton.1 hb, Or.inl rfl⟩
    | exact Or.inl ⟨List.mem_singleton.1 hb, Or.inr rfl⟩
    | exact Or.inr (by obtain ⟨c, hc, hmem⟩ := List.mem_flatMap.1 hb; exact ⟨c, hc, hmem, trivial⟩)
    | exact Or.inr (hin _ hb)
    | simp at hb

/-- A place of a declaration target: a name there is being declared, and is neither a key nor the callee
of a call. -/
structure IsTarget (root : Node) (q : Place) : Prop where
  mem : q ∈ root.places []
  isBinding : q.node.kind = .identifier → q.isBinding = true
  not_call : ∀ n ∈ q.parent?, n.kind ≠ .call
  not_label : ∀ n ∈ q.above, isModuleSpecifier n.kind = false ∧ n.kind ≠ .importStatement

variable {root : Node}

/-- The names that a target binds stand at places of targets. -/
theorem IsTarget.exists_place (n : Node) : ∀ {above : List Node}, IsTarget root ⟨n, above⟩ →
    ∀ {b}, b ∈ n.bindings → ∃ q, IsTarget root q ∧ q.node = b := by
  induction n using Node.induction with
  | h k r a e t cs ih =>
      intro above htarget b hb
      rcases mem_bindings_cases hb with ⟨rfl, -⟩ | ⟨c, hc, hmem, hbinds⟩
      · exact ⟨_, htarget, rfl⟩
      · simp only [kind_node, bindsIn] at hbinds
        refine ih c hc (?_ : IsTarget root ⟨c, node k r a e t cs :: above⟩) hmem
        refine ⟨?_, ?_, ?_, ?_⟩
        · exact mem_places_of_mem_children htarget.mem hc
        · intro _
          simp only [Place.isBinding, Place.parent?, List.head?_cons, kind_node]
          split at hbinds <;> simp_all
        · intro n hn
          obtain rfl : node k r a e t cs = n := Option.some.inj hn
          rw [kind_node]
          split at hbinds <;> simp_all
        · rw [List.forall_mem_cons, kind_node]
          refine ⟨?_, htarget.not_label⟩
          split at hbinds <;> simp_all [isModuleSpecifier]

/-- What a statement defines is declared where it stands. -/
theorem exists_target_of_definedNames {s b : Node} {above : List Node}
    (hs : ⟨s, above⟩ ∈ root.places [])
    (habove : ∀ n ∈ above, isModuleSpecifier n.kind = false ∧ n.kind ≠ .importStatement)
    (hb : b ∈ s.definedNames) : ∃ q, IsTarget root q ∧ q.node = b := by
  have hvariable : (s.kind = .lexicalDeclaration ∨ s.kind = .variableDeclaration) →
      b ∈ s.declaratorNames → ∃ q, IsTarget root q ∧ q.node = b := by
    intro hk hmem
    obtain ⟨declarator, hdeclarator, hmem⟩ := List.mem_flatMap.1 hmem
    obtain ⟨hchild, hkind⟩ := List.mem_filter.1 hdeclarator
    rw [beq_iff_eq] at hkind
    cases htarget : declarator.child? .name with
    | none => simp [htarget, bindings?] at hmem
    | some n =>
        rw [htarget] at hmem
        have hplace := mem_places_of_mem_children (mem_places_of_mem_children hs hchild)
          (mem_children_of_child? htarget)
        refine IsTarget.exists_place n ⟨hplace, ?_, ?_, ?_⟩ hmem
        · simp [Place.isBinding, Place.parent?, hkind, role_of_child? htarget]
        · simp [Place.parent?, hkind]
        · rw [List.forall_mem_cons, List.forall_mem_cons]
          refine ⟨by simp [hkind, isModuleSpecifier], ?_, habove⟩
          rcases hk with hk | hk <;> simp [hk, isModuleSpecifier]
  have hfunction : (s.kind = .functionDeclaration ∨ s.kind = .generatorDeclaration) →
      b ∈ (s.child? .name).toList → ∃ q, IsTarget root q ∧ q.node = b := by
    intro hk hmem
    rw [Option.mem_toList] at hmem
    refine ⟨⟨b, s :: above⟩, ⟨mem_places_of_mem_children hs (mem_children_of_child? hmem), ?_, ?_, ?_⟩, rfl⟩
    · intro _
      rcases hk with hk | hk <;>
        simp [Place.isBinding, Place.parent?, hk, role_of_child? hmem, isNamedDefinition]
    · rcases hk with hk | hk <;> simp [Place.parent?, hk]
    · rw [List.forall_mem_cons]
      refine ⟨?_, habove⟩
      rcases hk with hk | hk <;> simp [hk, isModuleSpecifier]
  unfold definedNames at hb
  split at hb
  · next hk => exact hvariable (Or.inl hk) hb
  · next hk => exact hvariable (Or.inr hk) hb
  · next hk => exact hfunction (Or.inl hk) hb
  · next hk => exact hfunction (Or.inr hk) hb
  · simp at hb

/-- What a program defines at its top is declared where it stands. -/
theorem exists_target_of_topDefinitions (hprogram : root.kind = .program) {b : Node}
    (hb : b ∈ root.topDefinitions) : ∃ q, IsTarget root q ∧ q.node = b := by
  have htop : isModuleSpecifier root.kind = false ∧ root.kind ≠ .importStatement := by
    simp [hprogram, isModuleSpecifier]
  obtain ⟨s, hs, hmem⟩ := List.mem_flatMap.1 hb
  have hplace := mem_places_of_mem_children (mem_places_self root []) hs
  split at hmem
  · next hexport =>
      rw [beq_iff_eq] at hexport
      obtain ⟨declaration, hdeclaration, hmem⟩ := List.mem_flatMap.1 hmem
      refine exists_target_of_definedNames (mem_places_of_mem_children hplace hdeclaration) ?_ hmem
      simp only [List.forall_mem_cons, List.not_mem_nil, false_implies, implies_true, and_true]
      exact ⟨by simp [hexport, isModuleSpecifier], htop⟩
  · refine exists_target_of_definedNames hplace ?_ hmem
    simpa using htop

theorem isDeclaredName_of_mem_bindings (n : Node) : ∀ {b}, b ∈ n.bindings → isDeclaredName b.kind := by
  induction n using Node.induction with
  | h k r a e t cs ih =>
      intro b hb
      rcases mem_bindings_cases hb with ⟨rfl, hk⟩ | ⟨c, hc, hmem, -⟩
      · exact hk
      · exact ih c hc hmem

theorem isDeclaredName_of_definedNames {chars : List Char} {s b : Node} (hs : s.WellFormed chars)
    (hb : b ∈ s.definedNames) : isDeclaredName b.kind := by
  have hform := (wellFormed_iff.1 hs).1
  have hvariable : b ∈ s.declaratorNames → isDeclaredName b.kind := by
    intro hmem
    obtain ⟨declarator, -, hmem⟩ := List.mem_flatMap.1 hmem
    cases htarget : declarator.child? .name with
    | none => simp [htarget, bindings?] at hmem
    | some n =>
        rw [htarget] at hmem
        exact isDeclaredName_of_mem_bindings n hmem
  have hfunction : (s.kind = .functionDeclaration ∨ s.kind = .generatorDeclaration) →
      b ∈ (s.child? .name).toList → isDeclaredName b.kind := by
    intro hk hmem
    rw [Option.mem_toList] at hmem
    refine Or.inl ?_
    rcases hk with hk | hk <;> rw [hk] at hform <;>
      exact hform.1 b (mem_children_of_child? hmem) (role_of_child? hmem)
  unfold definedNames at hb
  split at hb
  · exact hvariable hb
  · exact hvariable hb
  · next hk => exact hfunction (Or.inl hk) hb
  · next hk => exact hfunction (Or.inr hk) hb
  · simp at hb

theorem isDeclaredName_of_topDefinitions {chars : List Char} (hroot : root.WellFormed chars) {b : Node}
    (hb : b ∈ root.topDefinitions) : isDeclaredName b.kind := by
  obtain ⟨s, hs, hmem⟩ := List.mem_flatMap.1 hb
  have hwf := (hroot.fits_children hs).wellFormed
  split at hmem
  · obtain ⟨declaration, hdeclaration, hmem⟩ := List.mem_flatMap.1 hmem
    exact isDeclaredName_of_definedNames (hwf.fits_children hdeclaration).wellFormed hmem
  · exact isDeclaredName_of_definedNames hwf hmem

/-- A name that is being declared is no key. -/
theorem IsTarget.isKey_eq_false {q : Place} (h : IsTarget root q) (hkind : isDeclaredName q.node.kind) :
    q.isKey = false := by
  have houtside : q.IsOutsideModules :=
    ⟨fun n hn => (h.not_label n hn).2, fun n hn => (h.not_label n (List.mem_of_mem_head? hn)).1⟩
  refine houtside.isKey_eq_false ?_
  rcases hkind with hk | hk <;> rw [hk] <;> decide

end Node

end Script

open Script

namespace Dialect

variable {d : Dialect} {source : String} {root : Node} {c : Converted} {p : Node.Place} {name : String}

/-- The place of a definition of a name at the top of a program. -/
structure IsDefinition (root : Node) (name : String) (p : Node.Place) : Prop where
  mem : p ∈ root.places []
  top : p.node ∈ root.topDefinitions
  text : p.node.text = name

/-- The place of a call of a name or of another reference to it, where no nested scope shadows it. -/
structure IsUse (source : List Char) (root : Node) (name : String) (p : Node.Place) : Prop where
  mem : p ∈ root.places []
  kind : p.node.kind = .identifier ∧ p.isKey = false ∨ p.node.kind = .shorthand
  isBinding : p.isBinding = false
  free : ¬ p.IsBound source name
  text : p.node.text = name

/-! ### What becomes of a definition and of a use -/

/-- A definition is moved to the instance: a hoist uses up its name and puts the access and an equals
sign in. -/
def IsMoved (d : Dialect) (source : String) (root : Node) (p : Node.Place) : Prop :=
  ∃ x ∈ (d.plan source.toList root).hoists, x.name = p.node.text ∧ x.consumed = p.node.span ∧
    ∃ e ∈ x.edits, e.content = bytesOf (d.onInstance p.node.text ++ " = ")

/-- The text of a word that stands for `new` afterwards: a shorthand that changes keeps its key. -/
def spelled (p : Node.Place) (new : String) : String :=
  if p.node.kind == .identifier || new == p.node.text then new else p.node.text ++ ": " ++ new

/-- A word stands for `new` in a converted sketch. -/
def StandsAs (d : Dialect) (source : String) (root : Node) (c : Converted) (p : Node.Place)
    (new : String) : Prop :=
  ∃ head tail, Stands (bytesOf source) (d.plan source.toList root).edits p.node.start p.node.stop
    head (bytesOf (spelled p new)) tail (bytesOf c.code)

/-- The definitions of a name at the top and all that refers to them name the same thing: the definitions
are moved to the instance and all uses are accesses to it, or all stay, under the new name of the name. -/
def DefinitionWins (d : Dialect) (source : String) (root : Node) (c : Converted) (name : String) : Prop :=
  ((∀ p, IsDefinition root name p → d.IsMoved source root p) ∧
      ∀ p, IsUse source.toList root name p → d.StandsAs source root c p (d.onInstance name)) ∨
    ∃ new, (name, new) ∈ c.renames ∧
      (∀ p, IsDefinition root name p → ¬ d.IsMoved source root p ∧ d.StandsAs source root c p new) ∧
      ∀ p, IsUse source.toList root name p → d.StandsAs source root c p new

theorem bytesOf_injective {s t : String} (h : bytesOf s = bytesOf t) : s = t := by
  have hs := textOfBytes?_bytesOf s
  rw [h, textOfBytes?_bytesOf] at hs
  exact (Option.some.inj hs).symm

theorem spelled_injective {v w : String} (h : spelled p v = spelled p w) : v = w := by
  have hlonger : ∀ u : String, p.node.text ++ ": " ++ u ≠ p.node.text := by
    intro u heq
    have hlength := congrArg (fun s => s.toList.length) heq
    simp at hlength
  unfold spelled at h
  split at h
  · next hv =>
      split at h
      · exact h
      · next hw =>
          simp only [Bool.or_eq_true, beq_iff_eq, not_or] at hv hw
          rw [hv.resolve_left hw.1] at h
          exact absurd h.symm (hlonger w)
  · next hv =>
      split at h
      · next hw =>
          simp only [Bool.or_eq_true, beq_iff_eq, not_or] at hv hw
          rw [hw.resolve_left hv.1] at h
          exact absurd h (hlonger v)
      · exact (String.append_right_inj _).1 h

/-- A word stands for one name. -/
theorem StandsAs.unique {v w : String} (hv : d.StandsAs source root c p v)
    (hw : d.StandsAs source root c p w) : v = w := by
  obtain ⟨head, tail, hv⟩ := hv
  obtain ⟨head', tail', hw⟩ := hw
  obtain rfl := Except.ok.inj (hv.head_eq.symm.trans hw.head_eq)
  obtain rfl := Except.ok.inj (hv.tail_eq.symm.trans hw.tail_eq)
  have hshown := List.append_cancel_right (hv.out_eq.symm.trans hw.out_eq)
  exact spelled_injective (bytesOf_injective (List.append_cancel_left hshown))

/-- A word that no hoist uses up stands for what it means to the conversion, and for nothing else. -/
theorem standsAs_iff (hroot : parse source = .ok root) (hconvert : d.convert source = .ok c)
    (hp : p ∈ root.places []) (hkind : isVariableName p.node.kind = true)
    (hspan : p.node.span ∉ (d.plan source.toList root).consumed) {new : String} :
    d.StandsAs source root c p new ↔ d.meaning (d.plan source.toList root) p = new := by
  have hmeaning : d.StandsAs source root c p (d.meaning (d.plan source.toList root) p) :=
    stands_written hroot hconvert hp hkind hspan
  constructor
  · exact hmeaning.unique
  · rintro rfl
    exact hmeaning

/-- The name of a variable that is not moved is in the map of new names. -/
theorem mem_renames_iff {new : String} (hroot : parse source = .ok root)
    (hconvert : d.convert source = .ok c) :
    (name, new) ∈ c.renames ↔ new = Renames.prefixed d.lead name ∧
      Renames.Renamed d.symbols (d.plan source.toList root).consumed root name := by
  rw [(splice_of_convert hroot hconvert).2]
  exact Renames.mem_collect_iff

theorem owns_iff_renamed : (d.plan source.toList root).renames.owns name = true ↔
    Renames.Renamed d.symbols (d.plan source.toList root).consumed root name := by
  rw [Renames.owns, Option.isSome_iff_exists]
  constructor
  · rintro ⟨new, hnew⟩
    exact (Renames.find?_collect_iff.1 hnew).2
  · intro h
    exact ⟨_, Renames.find?_collect_iff.2 ⟨rfl, h⟩⟩

/-- A word whose name is in the map of new names has the new one, unless it is a key. -/
theorem nameOf_eq_prefixed (hkey : (p.node.kind == .identifier && p.isKey) = false)
    (hrenamed : Renames.Renamed d.symbols (d.plan source.toList root).consumed root p.node.text) :
    (d.plan source.toList root).nameOf p = Renames.prefixed d.lead p.node.text := by
  have hfind : (d.plan source.toList root).renames.find? p.node.text
      = some (Renames.prefixed d.lead p.node.text) := Renames.find?_collect_iff.2 ⟨rfl, hrenamed⟩
  rw [nameOf_eq _ hkey, Renames.target?, hfind]
  by_cases hsame : Renames.prefixed d.lead p.node.text = p.node.text <;> simp [hsame]

/-! ### Definitions -/

/-- A definition is declared where it stands. -/
theorem IsDefinition.isTarget (h : IsDefinition root name p) (hwf : root.WellFormed source.toList)
    (hprogram : root.kind = .program) : Node.IsTarget root p ∧ Node.isDeclaredName p.node.kind := by
  have hdeclared := Node.isDeclaredName_of_topDefinitions hwf h.top
  have hnamed := isNamed_of_isVariableName (Node.isVariableName_of_isDeclaredName hdeclared)
  obtain ⟨q, hq, hnode⟩ := Node.exists_target_of_topDefinitions hprogram h.top
  obtain rfl := hwf.eq_of_span h.mem hq.mem hnamed (by rwa [hnode]) (by rw [hnode])
  exact ⟨hq, hdeclared⟩

/-- What a program defines at its top has a place. -/
theorem exists_isDefinition (hprogram : root.kind = .program) {b : Node} (hb : b ∈ root.topDefinitions)
    (htext : b.text = name) : ∃ p, IsDefinition root name p := by
  obtain ⟨q, hq, rfl⟩ := Node.exists_target_of_topDefinitions hprogram hb
  exact ⟨q, hq.mem, hb, htext⟩

/-- The name of a hoist is the text of the word that it uses up. -/
theorem name_of_consumed (hwf : root.WellFormed source.toList) {s : Node} (hs : s ∈ root.children)
    {x : Hoist} (hhoist : d.hoist? source.toList s = some x) (hp : p ∈ root.places [])
    (hkind : isVariableName p.node.kind = true) (hspan : p.node.span = x.consumed) :
    x.name = p.node.text := by
  have hhoists := hoists_of_hoist? (hwf.fits_children hs).wellFormed hhoist
  obtain ⟨n, hn, hnkind, htext, hnspan⟩ := hhoists.consumed
  have hnroot := Node.mem_preorder_trans (Node.mem_preorder_of_mem_children hs) hn
  obtain ⟨q, hq, rfl⟩ := Node.exists_place_of_mem_preorder hnroot
  rw [← htext, hwf.eq_of_span hp hq (isNamed_of_isVariableName hkind) (by rw [hnkind]; rfl)
    (hspan.trans hnspan.symm)]

/-- The target of an assignment is not declared there. -/
theorem isBinding_of_ofAssignment? (hwf : root.WellFormed source.toList) {s : Node}
    (hs : s ∈ root.children) {x : Hoist} (h : d.ofAssignment? s = some x) (hp : p ∈ root.places [])
    (hkind : isVariableName p.node.kind = true) (hspan : p.node.span = x.consumed) :
    p.isBinding = false := by
  obtain ⟨expression, left, right, hexpression, hassignment, hleft, -, hidentifier, -, -, rfl⟩ :=
    exists_of_ofAssignment? h
  have hplace := Node.mem_places_of_mem_children (Node.mem_places_of_mem_children
    (Node.mem_places_of_mem_children (Node.mem_places_self root []) hs)
      (List.mem_of_mem_head? hexpression)) (Node.mem_children_of_child? hleft)
  obtain rfl := hwf.eq_of_span hp hplace (isNamed_of_isVariableName hkind)
    (by rw [hidentifier]; rfl) hspan
  simp [Node.Place.isBinding, Node.Place.parent?, hassignment, Node.isNamedDefinition]

theorem isHook_of_ofAssignment? {s : Node} {x : Hoist} (h : d.ofAssignment? s = some x) :
    d.symbols.isHook x.name = true := by
  obtain ⟨_, left, _, -, -, -, -, -, hhook, -, rfl⟩ := exists_of_ofAssignment? h
  exact hhook

/-- The hoist of a function or of a variable puts the access and an equals sign in. -/
theorem exists_access_edit {chars : List Char} {s : Node} {x : Hoist}
    (h : d.hoist? chars s = some x) : d.ofAssignment? s = some x ∨
      ∃ e ∈ x.edits, e.content = bytesOf (d.onInstance x.name ++ " = ") := by
  rcases hoist?_cases h with ⟨-, h⟩ | ⟨-, h⟩ | ⟨-, h⟩
  · obtain ⟨name, -, -, rfl⟩ := exists_of_ofFunction? h
    exact Or.inr ⟨_, List.mem_cons_self, rfl⟩
  · obtain ⟨_, name, value, -, -, -, -, -, -, rfl⟩ := exists_of_ofVariable? h
    exact Or.inr ⟨_, List.mem_cons_self, rfl⟩
  · exact Or.inl h

/-- A definition is moved exactly if a hoist uses up its name. -/
theorem IsDefinition.isMoved_iff (h : IsDefinition root name p) (hwf : root.WellFormed source.toList)
    (hprogram : root.kind = .program) :
    d.IsMoved source root p ↔ p.node.span ∈ (d.plan source.toList root).consumed := by
  obtain ⟨htarget, hdeclared⟩ := h.isTarget hwf hprogram
  have hkind := Node.isVariableName_of_isDeclaredName hdeclared
  constructor
  · rintro ⟨x, hx, -, hspan, -⟩
    exact List.mem_map.2 ⟨x, hx, hspan⟩
  · intro hconsumed
    obtain ⟨s, hs, x, hhoist, hplace⟩ := isHoistPlace_of_consumed hwf hprogram h.mem hkind hconsumed
    have hname := name_of_consumed hwf hs hhoist h.mem hkind hplace.span
    refine ⟨x, List.mem_filterMap.2 ⟨s, hs, hhoist⟩, hname, hplace.span.symm, ?_⟩
    rcases exists_access_edit hhoist with hassignment | haccess
    · have hbinding := htarget.isBinding hplace.kind
      rw [isBinding_of_ofAssignment? hwf hs hassignment h.mem hkind hplace.span] at hbinding
      simp at hbinding
    · rwa [hname] at haccess

/-- A definition does not become an access where it stands. -/
theorem IsDefinition.isOnInstance_eq_false (h : IsDefinition root name p)
    (hwf : root.WellFormed source.toList) (hprogram : root.kind = .program) (pl : Plan) :
    d.isOnInstance pl p = false := by
  obtain ⟨htarget, hdeclared⟩ := h.isTarget hwf hprogram
  have hcallee : isCallee p = false := by
    rw [isCallee, Bool.and_eq_false_imp, Option.any_eq_true]
    rintro ⟨n, hn, hcall⟩
    exact absurd (beq_iff_eq.1 hcall) (htarget.not_call n hn)
  rw [isOnInstance_eq, refers]
  rcases hdeclared with hk | hk
  · simp [hk, hcallee, htarget.isBinding hk]
  · simp [hk]

/-! ### Uses -/

/-- A use that is the callee of a call. -/
def isCall (p : Node.Place) : Bool :=
  p.node.kind == .identifier && isCallee p

theorem IsUse.isVariableName (h : IsUse source.toList root name p) :
    isVariableName p.node.kind = true := by
  rcases h.kind with ⟨hk, -⟩ | hk <;> rw [hk] <;> rfl

theorem IsUse.not_key (h : IsUse source.toList root name p) :
    (p.node.kind == .identifier && p.isKey) = false := by
  rcases h.kind with ⟨-, hkey⟩ | hk
  · simp [hkey]
  · simp [hk]

/-- When a use becomes an access. -/
theorem IsUse.isOnInstance_iff (h : IsUse source.toList root name p)
    (hfunction : d.symbols.isFunction name = true) :
    d.isOnInstance (d.plan source.toList root) p = true ↔
      p.isLocal name = false ∧ (isCall p = true ∨
        ¬ Renames.Renamed d.symbols (d.plan source.toList root).consumed root name ∧
          d.isInstanceName (d.plan source.toList root).hoisted name = true) := by
  rw [← owns_iff_renamed, isOnInstance_eq, refers, isCall, h.text]
  rcases h.kind with ⟨hk, hkey⟩ | hk
  · simp [hk, hkey, hfunction, h.isBinding, and_comm]
  · simp [hk, and_comm]

/-- A new name is no access. -/
theorem prefixed_ne_onInstance (hd : d.lead ≠ d.namespaceName ++ ".") :
    Renames.prefixed d.lead name ≠ d.onInstance name := by
  intro heq
  rcases Renames.prefixed_eq d.lead name with ⟨hown, -⟩ | ⟨hnew, -⟩
  · exact onInstance_ne_self d _ (heq.symm.trans hown)
  · exact hd ((String.append_left_inj _).1 (hnew.symm.trans heq))

theorem nameOf_ne_onInstance (hd : d.lead ≠ d.namespaceName ++ ".") :
    (d.plan source.toList root).nameOf p ≠ d.onInstance p.node.text := by
  rcases nameOf_cases (d.plan source.toList root) p with hown | hgiven
  · rw [hown]
    exact (onInstance_ne_self d _).symm
  · rw [(Renames.target?_collect_iff.1 hgiven).1]
    exact prefixed_ne_onInstance hd

/-- A use stands for the access if it becomes one, or if a hoist uses it up. -/
theorem IsUse.standsAs_onInstance_iff (h : IsUse source.toList root name p)
    (hd : d.lead ≠ d.namespaceName ++ ".") (hroot : parse source = .ok root)
    (hconvert : d.convert source = .ok c) :
    d.StandsAs source root c p (d.onInstance name) ↔
      p.node.span ∈ (d.plan source.toList root).consumed ∨
        d.isOnInstance (d.plan source.toList root) p = true := by
  obtain rfl := h.text
  by_cases hspan : p.node.span ∈ (d.plan source.toList root).consumed
  · refine iff_of_true ?_ (Or.inl hspan)
    obtain ⟨head, tail, hstands⟩ :=
      stands_accessed_of_consumed hroot hconvert h.mem h.isVariableName hspan h.isBinding
    refine ⟨head, tail, ?_⟩
    have hspelled : spelled p (d.onInstance p.node.text) = d.accessed p := by
      rw [spelled, accessed]
      simp [onInstance_ne_self]
    rwa [hspelled]
  · rw [standsAs_iff hroot hconvert h.mem h.isVariableName hspan, or_iff_right hspan]
    cases haccess : d.isOnInstance (d.plan source.toList root) p with
    | true => simp [meaning_of_isOnInstance haccess]
    | false => simp [meaning_of_not_isOnInstance haccess, nameOf_ne_onInstance hd]

/-- If the name is in the map of new names, a use that does not become an access stands for the new
name. -/
theorem IsUse.standsAs_prefixed (h : IsUse source.toList root name p)
    (hroot : parse source = .ok root) (hconvert : d.convert source = .ok c)
    (hrenamed : Renames.Renamed d.symbols (d.plan source.toList root).consumed root name)
    (hspan : p.node.span ∉ (d.plan source.toList root).consumed)
    (haccess : d.isOnInstance (d.plan source.toList root) p = false) :
    d.StandsAs source root c p (Renames.prefixed d.lead name) := by
  obtain rfl := h.text
  rw [standsAs_iff hroot hconvert h.mem h.isVariableName hspan, meaning_of_not_isOnInstance haccess,
    nameOf_eq_prefixed h.not_key hrenamed]

/-- A use that a hoist uses up is a hook, which gets no new name. -/
theorem IsUse.not_consumed (h : IsUse source.toList root name p) (hroot : parse source = .ok root)
    (hrenamed : Renames.Renamed d.symbols (d.plan source.toList root).consumed root name) :
    p.node.span ∉ (d.plan source.toList root).consumed := by
  intro hspan
  have hwf := wellFormed_of_parse hroot
  obtain ⟨s, hs, x, hhoist, hplace⟩ :=
    isHoistPlace_of_consumed hwf (kind_of_parse hroot) h.mem h.isVariableName hspan
  have hname := name_of_consumed hwf hs hhoist h.mem h.isVariableName hplace.span
  rcases exists_access_edit hhoist with hassignment | ⟨e, he, hcontent⟩
  · obtain ⟨-, -, -, -, hhook⟩ := hrenamed
    rw [← h.text, ← hname, isHook_of_ofAssignment? hassignment] at hhook
    simp at hhook
  · -- the edits of a function or a variable put more in than the access
    rcases hplace.isBinding_or with hdeclared | hedits
    · rw [h.isBinding] at hdeclared
      simp at hdeclared
    · rw [hedits, List.mem_singleton] at he
      rw [he, hname] at hcontent
      have hsame : d.onInstance p.node.text = d.onInstance p.node.text ++ " = " :=
        bytesOf_injective hcontent
      have hlength := congrArg (fun s => s.toList.length) hsame
      simp at hlength

/-! ### Definitions that win -/

/-- A definition of a library function at the top of a program wins exactly in two cases.  All definitions
of the name are moved, no use lies within a local declaration of the name that is met, and every use is a
call or there is no other variable of the name in the program.  Or there is such a variable, no definition
is moved, and every call lies within a local declaration that is met. -/
theorem definitionWins_iff (hd : d.lead ≠ d.namespaceName ++ ".") (hroot : parse source = .ok root)
    (hconvert : d.convert source = .ok c) (hfunction : d.symbols.isFunction name = true)
    (hdefined : ∃ p, IsDefinition root name p) :
    d.DefinitionWins source root c name ↔
      ((∀ p, IsDefinition root name p → p.node.span ∈ (d.plan source.toList root).consumed) ∧
        ∀ p, IsUse source.toList root name p →
          p.node.span ∉ (d.plan source.toList root).consumed →
            p.isLocal name = false ∧ (isCall p = true ∨
              ¬ Renames.Renamed d.symbols (d.plan source.toList root).consumed root name)) ∨
      (Renames.Renamed d.symbols (d.plan source.toList root).consumed root name ∧
        (∀ p, IsDefinition root name p → p.node.span ∉ (d.plan source.toList root).consumed) ∧
        ∀ p, IsUse source.toList root name p → isCall p = true → p.isLocal name = true) := by
  have hwf := wellFormed_of_parse hroot
  have hprogram := kind_of_parse hroot
  constructor
  · rintro (⟨hmoved, huses⟩ | ⟨new, hnew, hdefinitions, huses⟩)
    · refine Or.inl ⟨fun p hp => (hp.isMoved_iff hwf hprogram).1 (hmoved p hp), fun p hp hspan => ?_⟩
      have haccess := ((hp.standsAs_onInstance_iff hd hroot hconvert).1 (huses p hp)).resolve_left hspan
      obtain ⟨hlocal, hcall⟩ := (hp.isOnInstance_iff hfunction).1 haccess
      exact ⟨hlocal, hcall.imp_right And.left⟩
    · obtain ⟨rfl, hrenamed⟩ := (mem_renames_iff hroot hconvert).1 hnew
      refine Or.inr ⟨hrenamed, fun p hp hspan => ?_, fun p hp hcall => ?_⟩
      · exact (hdefinitions p hp).1 ((hp.isMoved_iff hwf hprogram).2 hspan)
      · -- otherwise the call would stand for the access as well
        rw [← Bool.not_eq_false]
        intro hlocal
        have haccess := (hp.isOnInstance_iff hfunction).2 ⟨hlocal, Or.inl hcall⟩
        have hstands := (hp.standsAs_onInstance_iff hd hroot hconvert).2 (Or.inr haccess)
        exact prefixed_ne_onInstance hd ((huses p hp).unique hstands)
  · rintro (⟨hmoved, huses⟩ | ⟨hrenamed, hstay, huses⟩)
    · refine Or.inl ⟨fun p hp => (hp.isMoved_iff hwf hprogram).2 (hmoved p hp), fun p hp => ?_⟩
      rw [hp.standsAs_onInstance_iff hd hroot hconvert]
      by_cases hspan : p.node.span ∈ (d.plan source.toList root).consumed
      · exact Or.inl hspan
      · obtain ⟨hlocal, hcall⟩ := huses p hp hspan
        refine Or.inr ((hp.isOnInstance_iff hfunction).2 ⟨hlocal, hcall.imp_right fun hnone => ⟨hnone, ?_⟩⟩)
        -- the name of the definition is among the hoisted ones
        obtain ⟨q, hq⟩ := hdefined
        obtain ⟨x, hx, hname, -⟩ := (hq.isMoved_iff hwf hprogram).2 (hmoved q hq)
        have hmem : name ∈ (d.plan source.toList root).hoisted := by
          rw [← hq.text, ← hname]
          exact List.mem_map_of_mem hx
        simp [isInstanceName, hmem]
    · refine Or.inr ⟨_, (mem_renames_iff hroot hconvert).2 ⟨rfl, hrenamed⟩, fun p hp => ⟨?_, ?_⟩,
        fun p hp => ?_⟩
      · exact fun hmoved => hstay p hp ((hp.isMoved_iff hwf hprogram).1 hmoved)
      · obtain ⟨htarget, hdeclared⟩ := hp.isTarget hwf hprogram
        have hkey := htarget.isKey_eq_false hdeclared
        obtain rfl := hp.text
        rw [standsAs_iff hroot hconvert hp.mem (Node.isVariableName_of_isDeclaredName hdeclared)
          (hstay p hp), meaning_of_not_isOnInstance (hp.isOnInstance_eq_false hwf hprogram _),
          nameOf_eq_prefixed (by simp [hkey]) hrenamed]
      · refine hp.standsAs_prefixed hroot hconvert hrenamed (hp.not_consumed hroot hrenamed) ?_
        rw [← Bool.not_eq_true, hp.isOnInstance_iff hfunction]
        rintro ⟨hlocal, hcall | ⟨hnone, -⟩⟩
        · rw [huses p hp hcall] at hlocal
          simp at hlocal
        · exact hnone hrenamed

/-- A sketch that defines a function of the library, calls it and hands it on. -/
def defining : String :=
  "function circle(r) \x7b\x7d\ncircle(1); later(circle);"

/-- The rule at a sketch whose definition wins. -/
theorem definitionWins_iff_defining : ∃ root c, parse defining = .ok root ∧
    standard.convert defining = .ok c ∧
    c.code = "_p.circle = function (r) \x7b\x7d;\n_p.circle(1); later(_p.circle);" ∧
    standard.symbols.isFunction "circle" = true ∧ (∃ p, IsDefinition root "circle" p) ∧
    standard.DefinitionWins defining root c "circle" := by
  have hread : standard.convertsTo defining
      ⟨"_p.circle = function (r) \x7b\x7d;\n_p.circle(1); later(_p.circle);", []⟩ (fun root => decide
      ((∃ b ∈ root.topDefinitions, b.text = "circle") ∧
        (∀ b ∈ root.topDefinitions, b.span ∈ (standard.plan defining.toList root).consumed) ∧
        (∀ p ∈ root.places [], p.isLocal "circle" = false) ∧
        ∀ b ∈ Renames.declaredNames root, b.text ≠ "circle")) = true := by
    decide +kernel
  obtain ⟨root, hroot, hconvert, hmet⟩ := exists_convert hread
  obtain ⟨⟨b, hb, htext⟩, hmoved, hlocal, hnames⟩ := of_decide_eq_true hmet
  have hfunction : standard.symbols.isFunction "circle" = true := by decide +kernel
  have hdefined := exists_isDefinition (kind_of_parse hroot) hb htext
  refine ⟨root, _, hroot, hconvert, rfl, hfunction, hdefined,
    (definitionWins_iff (by decide) hroot hconvert hfunction hdefined).2 (Or.inl ⟨?_, ?_⟩)⟩
  · exact fun p hp => hmoved p.node hp.top
  · refine fun p hp _ => ⟨hlocal p hp.mem, Or.inr ?_⟩
    rintro ⟨b, hb, hname, -⟩
    exact hnames b hb hname

/-- A sketch that calls a function of the library which it defines by a value that is no function. -/
def calling : String :=
  "let circle = makeCircle(); circle(10);"

/-- The definition is renamed, and the call goes to the library. -/
theorem not_definitionWins_calling : ∃ root c, parse calling = .ok root ∧
    standard.convert calling = .ok c ∧ c.code = "let _circle = makeCircle(); _p.circle(10);" ∧
    standard.symbols.isFunction "circle" = true ∧ (∃ p, IsDefinition root "circle" p) ∧
    ¬ standard.DefinitionWins calling root c "circle" := by
  have hread : standard.convertsTo calling
      ⟨"let _circle = makeCircle(); _p.circle(10);", [("circle", "_circle")]⟩ (fun root => decide
      ((∃ b ∈ root.topDefinitions, b.text = "circle") ∧
        (standard.plan calling.toList root).consumed = [] ∧
        ∃ p ∈ root.places [], (p.node.kind = .identifier ∧ p.node.text = "circle" ∧ p.isKey = false ∧
          p.isBinding = false ∧ ¬ p.IsBound calling.toList "circle") ∧
          standard.isOnInstance (standard.plan calling.toList root) p = true)) = true := by
    decide +kernel
  obtain ⟨root, hroot, hconvert, hmet⟩ := exists_convert hread
  obtain ⟨⟨b, hb, htext⟩, hconsumed, p, hp, ⟨hkind, hname, hkey, hbinding, hbound⟩, haccess⟩ :=
    of_decide_eq_true hmet
  have hwf := wellFormed_of_parse hroot
  have hd : standard.lead ≠ standard.namespaceName ++ "." := by decide
  have huse : IsUse calling.toList root "circle" p :=
    ⟨hp, Or.inl ⟨hkind, hkey⟩, hbinding, hbound, hname⟩
  obtain ⟨q, hq⟩ := exists_isDefinition (kind_of_parse hroot) hb htext
  refine ⟨root, _, hroot, hconvert, rfl, by decide +kernel, ⟨q, hq⟩, ?_⟩
  rintro (⟨hmoved, -⟩ | ⟨new, hnew, -, huses⟩)
  · have hspan := (hq.isMoved_iff hwf (kind_of_parse hroot)).1 (hmoved q hq)
    simp [hconsumed] at hspan
  · obtain ⟨rfl, -⟩ := (mem_renames_iff hroot hconvert).1 hnew
    have hstands := (huse.standsAs_onInstance_iff hd hroot hconvert).2 (Or.inr haccess)
    exact prefixed_ne_onInstance hd ((huses p huse).unique hstands)

end Dialect

end SketchHost
