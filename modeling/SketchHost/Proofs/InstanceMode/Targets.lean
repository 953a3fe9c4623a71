/-
**Declaration targets.**

The names of a declaration are collected from above, part by part of its target.  Whether a name is being
declared is asked from below: by the kind of its parent, and by whether it is what the parent has in the
right role, which is told by kinds and byte ranges.  The two know nothing of each other.  They agree
nevertheless, and what is collected is what the target declares, every word of it outside its keys, its
default values and its accesses, but for a single one.  The word `undefined` is no identifier within a
pattern and among parameters, where the grammar has a kind of its own for it, and the collection takes it
for no name there; as the plain name of a declarator it is collected like any other.

* `Script.Node.asides`, `Script.Node.Introduces` — the parts of a target that declare nothing, and the words
  that a target declares;
* `Script.Node.mem_bindings_iff` — the collected names among these words;
* `Script.Node.bindings_sublist`, `Script.Node.WellFormed.pairwise_bindings` — they are collected in the
  order of the source;
* `Script.Node.Place.isBindingBySpan` — declared names, told by kinds and byte ranges;
* `Script.Node.Place.isBindingBySpan_eq` — these are the names that stand in the right roles;
* `Script.Node.collectsExactly_iff` — **what is collected of a declaration is what it declares, but for the
  word `undefined`**;
* `Script.Node.not_collectsExactly_undefined` — a function that declares the word.
-/

import SketchHost.Proofs.InstanceMode.Uniformity
import Mathlib.Data.List.Flatten

set_option relaxedAutoImplicit false
set_option autoImplicit false

namespace SketchHost

open Script

namespace Script

namespace Node

variable {source : List Char} {root n m c w q : Node}

/-! ### What a target declares -/

/-- The kinds of the words that a target can declare. -/
def isNameKind (k : Kind) : Bool :=
  match k with
  | .identifier | .undefinedName | .shorthandPattern => true
  | _ => false

theorem isNamed_of_isNameKind {k : Kind} (h : isNameKind k = true) : isNamed k = true := by
  cases k <;> first | rfl | simp [isNameKind] at h

theorem isDeclaredName_of_isNameKind {k : Kind} (h : isNameKind k = true) (hk : k ≠ .undefinedName) :
    isDeclaredName k := by
  cases k <;> simp_all [isNameKind, isDeclaredName]

/-- The parts of a target that declare nothing, whatever stands in them: keys, default values, and the
parts of an access. -/
def isAside (k : Kind) (r : Role) : Bool :=
  match k with
  | .pairPattern => r == .key
  | .assignmentPattern | .objectAssignmentPattern => r == .right
  | .member | .subscript => true
  | _ => false

theorem isAside_of_bindsIn {k : Kind} {r : Role} (h : bindsIn k r) : isAside k r = false := by
  cases k <;> first | rfl | simp_all [bindsIn, isAside]

/-- The keys and default values in a target, computed keys included, and the parts of the accesses. -/
def asides (t : Node) : List Node :=
  t.preorder.flatMap fun m => m.children.filter fun c => isAside m.kind c.role

/-- A node lies in the range of another one. -/
def LiesIn (n m : Node) : Prop :=
  m.start ≤ n.start ∧ n.stop ≤ m.stop

instance (n m : Node) : Decidable (n.LiesIn m) :=
  inferInstanceAs (Decidable (_ ∧ _))

/-- A name that a target declares: a word in it that lies in no part aside. -/
structure Introduces (t w : Node) : Prop where
  mem : w ∈ t.preorder
  name : isNameKind w.kind = true
  outside : ∀ q ∈ t.asides, ¬ w.LiesIn q

theorem mem_asides {t : Node} : q ∈ t.asides ↔
    ∃ m ∈ t.preorder, q ∈ m.children ∧ isAside m.kind q.role = true := by
  simp [asides]

theorem mem_preorder_of_mem_asides {t : Node} (hq : q ∈ t.asides) : q ∈ t.preorder := by
  obtain ⟨m, hm, hchild, -⟩ := mem_asides.1 hq
  exact mem_preorder_trans hm (mem_preorder_of_mem_children hchild)

/-- What is aside in a child is aside. -/
theorem mem_asides_of_mem_children (hc : c ∈ n.children) (hq : q ∈ c.asides) : q ∈ n.asides := by
  obtain ⟨m, hm, haside⟩ := mem_asides.1 hq
  exact mem_asides.2 ⟨m, mem_preorder_trans (mem_preorder_of_mem_children hc) hm, haside⟩

/-- A part aside is a child, or it is aside in a child. -/
theorem mem_asides_cases (hq : q ∈ n.asides) :
    (q ∈ n.children ∧ isAside n.kind q.role = true) ∨ ∃ d ∈ n.children, q ∈ d.asides := by
  obtain ⟨m, hm, haside⟩ := mem_asides.1 hq
  rcases mem_preorder_cases hm with rfl | ⟨d, hd, hm⟩
  · exact Or.inl haside
  · exact Or.inr ⟨d, hd, mem_asides.2 ⟨m, hm, haside⟩⟩

/-! ### Parts of a target -/

/-- A word in one child does not lie in a part of another. -/
theorem WellFormed.not_liesIn_of_ne (h : n.WellFormed source) {d : Node} (hc : c ∈ n.children)
    (hd : d ∈ n.children) (hne : c ≠ d) (hw : w ∈ c.preorder) (hword : isNamed w.kind = true)
    (hq : q ∈ d.preorder) : ¬ w.LiesIn q := by
  rintro ⟨hstart, hstop⟩
  have hfits := (h.fits_children hc).wellFormed.fits_of_mem hw
  have hpart := (h.fits_children hd).wellFormed.fits_of_mem hq
  have hlt := hfits.wellFormed.start_lt_stop hword
  rcases (h.disjoint_children hc hd).resolve_left hne with hle | hle
  · have hbehind := hfits.le_hi
    have hbefore := hpart.lo_le
    omega
  · have hbehind := hpart.le_hi
    have hbefore := hfits.lo_le
    omega

/-- What is declared in a part that is not aside is declared. -/
theorem WellFormed.introduces_of_part (h : n.WellFormed source) (hc : c ∈ n.children)
    (hpart : isAside n.kind c.role = false) (hw : c.Introduces w) : n.Introduces w := by
  refine ⟨mem_preorder_trans (mem_preorder_of_mem_children hc) hw.mem, hw.name, fun q hq => ?_⟩
  have hword := isNamed_of_isNameKind hw.name
  rcases mem_asides_cases hq with ⟨hchild, haside⟩ | ⟨d, hd, hq⟩
  · have hne : c ≠ q := by
      rintro rfl
      simp [hpart] at haside
    exact h.not_liesIn_of_ne hc hchild hne hw.mem hword (mem_preorder_self q)
  · by_cases hcd : c = d
    · subst hcd
      exact hw.outside q hq
    · exact h.not_liesIn_of_ne hc hd hcd hw.mem hword (mem_preorder_of_mem_asides hq)

/-- A name that a target declares is the target, or it is declared in a part that is not aside. -/
theorem WellFormed.introduces_cases (h : n.WellFormed source) (hw : n.Introduces w) :
    w = n ∨ ∃ c ∈ n.children, isAside n.kind c.role = false ∧ c.Introduces w := by
  rcases mem_preorder_cases hw.mem with rfl | ⟨c, hc, hmem⟩
  · exact Or.inl rfl
  · refine Or.inr ⟨c, hc, ?_, hmem, hw.name, fun q hq => ?_⟩
    · rw [← Bool.not_eq_true]
      intro haside
      have hfits := (h.fits_children hc).wellFormed.fits_of_mem hmem
      exact hw.outside c (mem_asides.2 ⟨n, mem_preorder_self n, hc, haside⟩)
        ⟨hfits.lo_le, hfits.le_hi⟩
    · exact hw.outside q (mem_asides_of_mem_children hc hq)

/-- A name declares itself. -/
theorem WellFormed.introduces_self (h : n.WellFormed source) (hn : isNameKind n.kind = true) :
    n.Introduces n := by
  refine ⟨mem_preorder_self n, hn, fun q hq => ?_⟩
  have hleaf := h.children_eq_nil (isNamed_of_isNameKind hn)
  rcases mem_asides_cases hq with ⟨hchild, -⟩ | ⟨d, hd, -⟩
  · simp [hleaf] at hchild
  · simp [hleaf] at hd

/-! ### Where targets stand -/

/-- The kinds of the nodes that are lists of targets. -/
def isTargetList (k : Kind) : Bool :=
  match k with
  | .formalParameters | .objectPattern | .arrayPattern | .restPattern => true
  | _ => false

/-- The role of the target in a node of another kind, if there is one. -/
def targetRole? (k : Kind) : Option Role :=
  match k with
  | .variableDeclarator => some .name
  | .functionDeclaration | .generatorDeclaration | .classDeclaration => some .name
  | .functionExpression | .generatorExpression | .classExpression => some .name
  | .forInStatement | .assignmentPattern | .objectAssignmentPattern => some .left
  | .pairPattern => some .value
  | .arrowFunction | .catchClause => some .parameter
  | _ => none

/-- A node with children has the shape of its kind. -/
theorem WellFormed.shape_of_mem (h : n.WellFormed source) (hc : c ∈ n.children) :
    Shape n.kind n.children := by
  refine (wellFormed_iff.1 h).1.shape ?_
  rw [← Bool.not_eq_true]
  intro hword
  simp [h.children_eq_nil hword] at hc

/-- The children of a list of targets are targets. -/
theorem WellFormed.isTargetKind_of_list (h : n.WellFormed source) (hn : isTargetList n.kind = true)
    (hc : c ∈ n.children) : isTargetKind c.kind = true := by
  have hshape := h.shape_of_mem hc
  unfold isTargetList at hn
  split at hn
  all_goals first
    | next hk => rw [hk] at hshape; exact hshape c hc
    | simp at hn

/-- The name of a declarator is its only target. -/
theorem soleTarget_of_declarator {cs : List Node} (h : Shape .variableDeclarator cs) :
    SoleTarget .name cs := by
  obtain ⟨target, rest, rfl, -, -, hrest, hkind⟩ := h
  refine .cons (fun _ => hkind) fun d hd => ?_
  rw [hrest d hd]
  decide

/-- The target in its role is the only child there. -/
theorem soleTarget_of_shape {k : Kind} {r : Role} {cs : List Node} (h : Shape k cs)
    (hk : targetRole? k = some r)
    (hloop : k = .forInStatement → ∃ d ∈ cs, d.role = .declarationWord) : SoleTarget r cs := by
  unfold targetRole? at hk
  split at hk
  all_goals first
    | simp at hk; done
    | obtain rfl := Option.some.inj hk
      first
        | exact soleTarget_of_declarator h
        | exact h
        | exact h.2
        | exact h (hloop rfl)

/-- A loop that declares its variable has the word of the declaration. -/
theorem exists_declarationWord (h : n.declaresTarget = true) :
    ∃ d ∈ n.children, d.role = .declarationWord := by
  obtain ⟨d, hd⟩ := Option.isSome_iff_exists.1 h
  exact ⟨d, mem_children_of_child? hd, role_of_child? hd⟩

/-- A part that is declared, or in which a pattern binds names, belongs to a list of targets or stands in
the role of the target. -/
theorem target_cases {r : Role} (h : n.declares r = true ∨ bindsIn n.kind r) :
    isTargetList n.kind = true ∨
      targetRole? n.kind = some r ∧ (n.kind = .forInStatement → n.declaresTarget = true) := by
  unfold declares bindsIn at h
  cases hk : n.kind <;> simp_all [isTargetList, targetRole?, isNamedDefinition]

/-- In the role of the target nothing but the target stands. -/
theorem WellFormed.soleTarget (h : n.WellFormed source) (hc : c ∈ n.children) {r : Role}
    (hrole : targetRole? n.kind = some r)
    (hloop : n.kind = .forInStatement → n.declaresTarget = true) : SoleTarget r n.children :=
  soleTarget_of_shape (h.shape_of_mem hc) hrole fun hk => exists_declarationWord (hloop hk)

theorem WellFormed.isTargetKind_of_part (h : n.WellFormed source) (hc : c ∈ n.children)
    (hpart : n.declares c.role = true ∨ bindsIn n.kind c.role) : isTargetKind c.kind = true := by
  rcases target_cases hpart with hlist | ⟨hrole, hloop⟩
  · exact h.isTargetKind_of_list hlist hc
  · exact (h.soleTarget hc hrole hloop c hc rfl).1

/-- What is declared is a target. -/
theorem WellFormed.isTargetKind_of_isDeclared (h : root.WellFormed source) {p : Place}
    (hp : p ∈ root.places []) (hdeclared : p.isDeclared = true) : isTargetKind p.node.kind = true := by
  rw [Place.isDeclared] at hdeclared
  rcases exists_parent hp with rfl | ⟨q, hq, hchild, habove⟩
  · simp [isDeclaredBelow] at hdeclared
  · rw [habove, isDeclaredBelow, Bool.or_eq_true, Bool.and_eq_true, decide_eq_true_iff] at hdeclared
    exact (h.fits_of_mem_places hq).wellFormed.isTargetKind_of_part hchild
      (hdeclared.imp_right And.left)

/-! ### Collected names -/

theorem bindings_of_isDeclaredName (h : isDeclaredName n.kind) : n.bindings = [n] := by
  rw [bindings_eq]
  rcases h with hk | hk <;> rw [hk]

/-- The names of the first part in a role in which a pattern binds names. -/
theorem bindings_subset_of_child? (hbinds : bindsIn n.kind c.role) (hchild : n.child? c.role = some c) :
    c.bindings ⊆ n.bindings := by
  intro b hb
  have hall : b ∈ n.children.flatMap bindings :=
    List.mem_flatMap.2 ⟨c, mem_children_of_child? hchild, hb⟩
  unfold bindsIn at hbinds
  rw [bindings_eq]
  split at hbinds <;> simp_all [bindings?]

theorem Halves.role_cases {r r' : Role} {cs : List Node} (h : Halves r r' cs) (hc : c ∈ cs) :
    c.role = r ∨ c.role = r' := by
  obtain ⟨d, e, rfl, hd, he⟩ := h
  simp only [List.mem_cons, List.not_mem_nil, or_false] at hc
  rcases hc with rfl | rfl
  · exact Or.inl hd
  · exact Or.inr he

/-- In a part of a target a pattern binds names, unless the part is aside. -/
theorem WellFormed.bindsIn_of_not_isAside (h : n.WellFormed source) (hn : isTargetKind n.kind = true)
    (hc : c ∈ n.children) (hpart : isAside n.kind c.role = false) : bindsIn n.kind c.role := by
  have hshape := h.shape_of_mem hc
  have hword : isNamed n.kind = false := by
    rw [← Bool.not_eq_true]
    intro hword
    simp [h.children_eq_nil hword] at hc
  cases hk : n.kind with
  | objectPattern | arrayPattern | restPattern => trivial
  | pairPattern =>
      rw [hk] at hshape hpart
      rcases hshape.1.role_cases hc with hrole | hrole
      · simp [isAside, hrole] at hpart
      · exact hrole
  | assignmentPattern | objectAssignmentPattern =>
      rw [hk] at hshape hpart
      rcases hshape.1.role_cases hc with hrole | hrole
      · exact hrole
      · simp [isAside, hrole] at hpart
  | _ => simp_all [isTargetKind, isNamed, isAside]

/-- A pattern collects what a part collects in which it binds names. -/
theorem WellFormed.bindings_subset (h : n.WellFormed source) (hc : c ∈ n.children)
    (hbinds : bindsIn n.kind c.role) : c.bindings ⊆ n.bindings := by
  rcases target_cases (Or.inr hbinds) with hlist | ⟨hrole, hloop⟩
  · intro b hb
    have hall : b ∈ n.children.flatMap bindings := List.mem_flatMap.2 ⟨c, hc, hb⟩
    rw [bindings_eq]
    unfold isTargetList at hlist
    split at hlist <;> simp_all [bindsIn]
  · exact bindings_subset_of_child? hbinds (h.soleTarget hc hrole hloop c hc rfl).2

/-- **The collected names** are those that the target declares, but for the word `undefined`. -/
theorem mem_bindings_iff (n : Node) : n.WellFormed source → isTargetKind n.kind = true →
    (w ∈ n.bindings ↔ n.Introduces w ∧ w.kind ≠ .undefinedName) := by
  induction n using Node.induction with
  | h k r a b t cs ih =>
      intro h hn
      have hpart : ∀ c ∈ cs, bindsIn k c.role →
          (w ∈ c.bindings ↔ c.Introduces w ∧ w.kind ≠ .undefinedName) := fun c hc hbinds =>
        ih c hc (h.fits_children hc).wellFormed (h.isTargetKind_of_part hc (Or.inr hbinds))
      constructor
      · intro hw
        rcases mem_bindings_cases hw with ⟨rfl, hk | hk⟩ | ⟨c, hc, hmem, hbinds⟩
        · exact ⟨h.introduces_self (by rw [hk]; rfl), by simp [hk]⟩
        · exact ⟨h.introduces_self (by rw [hk]; rfl), by simp [hk]⟩
        · obtain ⟨hintroduced, hword⟩ := (hpart c hc hbinds).1 hmem
          exact ⟨h.introduces_of_part hc (isAside_of_bindsIn hbinds) hintroduced, hword⟩
      · rintro ⟨hw, hword⟩
        rcases h.introduces_cases hw with rfl | ⟨c, hc, haside, hintroduced⟩
        · rw [bindings_of_isDeclaredName (isDeclaredName_of_isNameKind hw.name hword)]
          exact List.mem_singleton_self _
        · have hbinds := h.bindsIn_of_not_isAside hn hc haside
          exact h.bindings_subset hc hbinds ((hpart c hc hbinds).2 ⟨hintroduced, hword⟩)

/-- The names are collected in the order in which the nodes of the target are met. -/
theorem bindings_sublist (n : Node) : n.bindings.Sublist n.preorder := by
  induction n using Node.induction with
  | h k r a b t cs ih =>
      have hall : (cs.flatMap bindings).Sublist (node k r a b t cs).preorder := by
        rw [preorder_node]
        exact (List.Sublist.flatMap_right cs ih).trans (List.sublist_cons_self _ _)
      have hchild : ∀ role, (bindings? ((node k r a b t cs).child? role)).Sublist
          (node k r a b t cs).preorder := by
        intro role
        cases hc : (node k r a b t cs).child? role with
        | none => exact List.nil_sublist _
        | some c =>
            have hmem : [c].Sublist cs := List.singleton_sublist.2 (mem_children_of_child? hc)
            have hpart := hmem.flatMap bindings
            rw [List.flatMap_singleton] at hpart
            exact hpart.trans hall
      rw [bindings_eq, kind_node, children_node]
      split
      all_goals first
        | exact hall
        | exact hchild _
        | exact List.nil_sublist _
        | exact List.singleton_sublist.2 (mem_preorder_self _)

/-- The words of a tree follow each other. -/
theorem WellFormed.pairwise_words (h : n.WellFormed source) :
    (n.preorder.filter fun m => isNamed m.kind).Pairwise fun m l => m.stop ≤ l.start := by
  rw [← map_node_places n [], List.filter_map, List.pairwise_map]
  exact pairwise_places h []

/-- The collected names follow each other. -/
theorem WellFormed.pairwise_bindings (h : n.WellFormed source) :
    n.bindings.Pairwise fun b c => b.start < c.start := by
  have hword : ∀ b ∈ n.bindings, isNamed b.kind = true := fun b hb =>
    isNamed_of_isVariableName (mem_bindings n hb).2
  have hsub : n.bindings.Sublist (n.preorder.filter fun m => isNamed m.kind) := by
    rw [← List.filter_eq_self.2 hword]
    exact (bindings_sublist n).filter _
  refine (h.pairwise_words.sublist hsub).imp_of_mem fun {b c} hb _ hbc => ?_
  have hlt := (h.fits_of_mem (mem_bindings n hb).1).wellFormed.start_lt_stop (hword b hb)
  omega

/-! ### Declared names, told by their ranges -/

/-- Whether the first child in a role is of the kind and in the range of another node. -/
def holdsAt (r : Role) (n c : Node) : Bool :=
  (n.child? r).any fun d => d.kind == c.kind && d.span == c.span

/-- A name that is being declared at its place, where no role of it is known: what its parent has in a
role is compared with it by kinds and ranges. -/
def Place.isBindingBySpan (p : Place) : Bool :=
  match p.parent? with
  | none => false
  | some parent =>
      match parent.kind with
      | .formalParameters | .arrayPattern | .restPattern | .objectPattern => true
      | .assignmentPattern | .objectAssignmentPattern => parent.holdsAt .left p.node
      | .pairPattern => parent.holdsAt .value p.node
      | .arrowFunction | .catchClause => parent.holdsAt .parameter p.node
      | .forInStatement => parent.declaresTarget && parent.holdsAt .left p.node
      | .variableDeclarator => parent.holdsAt .name p.node
      | k => isNamedDefinition k && parent.holdsAt .name p.node

/-- In the role of the target, the comparison finds nothing but the child that plays the role. -/
theorem WellFormed.holdsAt_eq (h : n.WellFormed source) (hc : c ∈ n.children)
    (hword : isNamed c.kind = true) {r : Role} (hrole : targetRole? n.kind = some r)
    (hloop : n.kind = .forInStatement → n.declaresTarget = true) :
    n.holdsAt r c = (c.role == r) := by
  by_cases hr : c.role = r
  · have hfirst : n.child? r = some c := (h.soleTarget hc hrole hloop c hc hr).2
    simp [holdsAt, hfirst, hr]
  · rw [beq_false_of_ne hr, ← Bool.not_eq_true]
    intro hholds
    obtain ⟨d, hd, hsame⟩ := (Option.any_eq_true _ _).1 hholds
    rw [Bool.and_eq_true, beq_iff_eq, beq_iff_eq] at hsame
    have hchild := mem_children_of_child? hd
    -- the range and the kind tell the children apart, and this one plays another role
    obtain rfl : d = c := (h.node_eq_of_span (mem_preorder_of_mem_children hchild)
      (mem_preorder_of_mem_children hc) (by rwa [hsame.1]) hword hsame.2)
    exact hr (role_of_child? hd)

/-- The names that are declared by their roles are the ones that are declared by their ranges. -/
theorem Place.isBindingBySpan_eq (h : root.WellFormed source) {p : Place} (hp : p ∈ root.places [])
    (hword : isNamed p.node.kind = true) : p.isBindingBySpan = p.isBinding := by
  rcases exists_parent hp with rfl | ⟨q, hq, hchild, habove⟩
  · rfl
  · have hholds : ∀ {r : Role}, targetRole? q.node.kind = some r →
        (q.node.kind = .forInStatement → q.node.declaresTarget = true) →
          q.node.holdsAt r p.node = (p.node.role == r) :=
      (h.fits_of_mem_places hq).wellFormed.holdsAt_eq hchild hword
    rw [isBindingBySpan, isBinding, parent?, habove, List.head?_cons]
    cases hk : q.node.kind with
    | forInStatement =>
        cases hloop : q.node.declaresTarget with
        | true => simp [hk, hholds (r := .left), hloop, targetRole?]
        | false => simp [hk, hloop]
    | _ => simp [hk, hholds, targetRole?, isNamedDefinition]

/-! ### What is collected -/

/-- The names of a target are collected one after the other, they are declared by it, and each stands where
a name is being declared. -/
structure CollectsInOrder (root t : Node) : Prop where
  distinct : t.bindings.Nodup
  increasing : t.bindings.Pairwise fun b c => b.start < c.start
  sound : ∀ b ∈ t.bindings, t.Introduces b
  binding : ∀ q ∈ root.places [], q.node ∈ t.bindings →
    q.isBinding = true ∧ q.isBindingBySpan = true

/-- Moreover, all that the target declares is collected. -/
structure CollectsExactly (root t : Node) : Prop extends CollectsInOrder root t where
  complete : ∀ w, t.Introduces w → w ∈ t.bindings

/-- The names of a declared target stand where names are being declared. -/
theorem WellFormed.isBinding_of_mem_bindings (h : root.WellFormed source) {p q : Place}
    (hp : p ∈ root.places []) (hdeclared : p.isDeclared = true) (hq : q ∈ root.places [])
    (hmem : q.node ∈ p.node.bindings) : q.isBinding = true ∧ q.isBindingBySpan = true := by
  have hword := isNamed_of_isVariableName (mem_bindings p.node hmem).2
  obtain ⟨q', hq', hdeclared', hnode⟩ := exists_isDeclared_of_mem_bindings p.node hp hdeclared hmem
  have hplace : q' = q := by
    refine h.eq_of_span hq' hq ?_ hword (congrArg span hnode)
    rw [hnode]
    exact hword
  subst hplace
  have hbinding := Place.isBinding_of_isDeclared hdeclared'
  exact ⟨hbinding, by rw [Place.isBindingBySpan_eq h hq hword, hbinding]⟩

/-- **What is collected of a declaration is what it declares, but for the word `undefined`.**  Whatever
is declared, as a variable, as the variable of a loop, as a parameter, as the name of a function or a class,
or as a part of such a pattern, however deep: its names are collected in the order of the source, each once,
none of them lies in a key, a default value or a computed key, and each stands where a name is being declared,
by its role as well as by its range.  No name that is declared is missing exactly if `undefined` is not
among them as a word of its own. -/
theorem collectsExactly_iff {source : String} (hroot : parse source = .ok root) {p : Place}
    (hp : p ∈ root.places []) (hdeclared : p.isDeclared = true) :
    CollectsInOrder root p.node ∧
      (CollectsExactly root p.node ↔ ∀ w, p.node.Introduces w → w.kind ≠ .undefinedName) := by
  have h := Dialect.wellFormed_of_parse hroot
  have hwf := (h.fits_of_mem_places hp).wellFormed
  have hmem : ∀ w, w ∈ p.node.bindings ↔ p.node.Introduces w ∧ w.kind ≠ .undefinedName := fun w =>
    mem_bindings_iff p.node hwf (h.isTargetKind_of_isDeclared hp hdeclared)
  have hincreasing := hwf.pairwise_bindings
  have horder : CollectsInOrder root p.node :=
    { distinct := hincreasing.imp fun {b c} hlt heq => by simp [heq] at hlt
      increasing := hincreasing
      sound := fun b hb => ((hmem b).1 hb).1
      binding := fun q hq => h.isBinding_of_mem_bindings hp hdeclared hq }
  refine ⟨horder, fun hall w hw => ?_, fun hwords => ⟨horder, fun w hw => ?_⟩⟩
  · exact ((hmem w).1 (hall.complete w hw)).2
  · exact (hmem w).2 ⟨hw, hwords w hw⟩

/-- A variable declaration whose target has a shorthand, a computed key, a list with a default value and a
rest, and a plain key with a default value. -/
def nested : String :=
  "let \x7b a, [k]: [b = d, ...e], f: g = h \x7d = s;"

/-- The rule at a target from which four names are collected. -/
theorem collectsExactly_iff_nested : ∃ root p, parse nested = .ok root ∧ p ∈ root.places [] ∧
    p.isDeclared = true ∧ p.node.bindings.map text = ["a", "b", "e", "g"] ∧
    CollectsExactly root p.node := by
  have hread : ((parse? nested.toList).any fun root => decide
      (∃ p ∈ root.places [], p.isDeclared = true ∧ p.node.bindings.map text = ["a", "b", "e", "g"] ∧
        ∀ w ∈ p.node.preorder, w.kind ≠ .undefinedName)) = true := by
    decide +kernel
  obtain ⟨root, hroot, hmet⟩ := (Option.any_eq_true _ _).1 hread
  obtain ⟨p, hp, hdeclared, hnames, hwords⟩ := of_decide_eq_true hmet
  have hparse : parse nested = .ok root := parse_eq_ok_iff.2 hroot
  exact ⟨root, p, hparse, hp, hdeclared, hnames,
    (collectsExactly_iff hparse hp hdeclared).2.2 fun w hw => hwords w hw.mem⟩

/-- A function with a variable whose name is `undefined`, which a list pattern declares. -/
def undefinedInList : String :=
  "function f() \x7b let [undefined] = [1]; \x7d"

/-- The name is not collected: the sketch is left as it is. -/
theorem not_collectsExactly_undefined : ∃ root p w, parse undefinedInList = .ok root ∧
    Dialect.standard.convert undefinedInList = .ok ⟨undefinedInList, []⟩ ∧
    p ∈ root.places [] ∧ p.isDeclared = true ∧ p.node.Introduces w ∧ w.text = "undefined" ∧
    w ∉ p.node.bindings ∧ ¬ CollectsExactly root p.node := by
  have hread : Dialect.standard.convertsTo undefinedInList ⟨undefinedInList, []⟩ (fun root => decide
      (∃ p ∈ root.places [], p.isDeclared = true ∧ ∃ w ∈ p.node.preorder, isNameKind w.kind = true ∧
        (∀ q ∈ p.node.asides, ¬ w.LiesIn q) ∧ w.text = "undefined" ∧ w ∉ p.node.bindings)) = true := by
    decide +kernel
  obtain ⟨root, hroot, hconvert, hmet⟩ := Dialect.exists_convert hread
  obtain ⟨p, hp, hdeclared, w, hmem, hname, houtside, htext, hmissing⟩ := of_decide_eq_true hmet
  have hintroduced : p.node.Introduces w := ⟨hmem, hname, houtside⟩
  exact ⟨root, p, w, hroot, hconvert, hp, hdeclared, hintroduced, htext, hmissing,
    fun hall => hmissing (hall.complete w hintroduced)⟩

end Node

end Script

end SketchHost
