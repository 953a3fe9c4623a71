/-
**Trees without positions.**

What a conversion does to a tree, apart from where it edits, depends on kinds, roles, names and children
alone.  A bare tree has nothing else: two sources with one bare tree are converted alike.

* `Script.Node.bare`, `Script.Node.Place.bare` — a tree and a place without positions;
* `Script.Node.bindings_eq` — the names that a declaration target binds, by its kind;
* `Script.Node.places_bare` — the places of a bare tree;
* `Script.Node.bindings_bare`, `localBindings_bare`, `Script.Node.Place.isKey_bare`, `isBinding_bare`,
  `isLocal_bare` — what the bindings of a tree and its places are without positions;
* `Script.Node.same` — whether two trees are equal.
-/

import SketchHost.Proofs.Script.Occurrences

set_option relaxedAutoImplicit false
set_option autoImplicit false

namespace SketchHost

namespace Script

namespace Node

/-! ### Bare trees -/

/-- A tree without the positions of its nodes. -/
def bare : Node → Node
  | node k r _ _ t cs => node k r 0 0 t (bareAll cs)
where
  /-- Several trees without positions. -/
  bareAll : List Node → List Node
    | [] => []
    | c :: rest => bare c :: bareAll rest

theorem bare_node (k : Kind) (r : Role) (a b : Nat) (t : String) (cs : List Node) :
    (node k r a b t cs).bare = node k r 0 0 t (cs.map bare) := by
  have hall : ∀ ds : List Node, bare.bareAll ds = ds.map bare := by
    intro ds
    induction ds with
    | nil => rfl
    | cons d rest ih => rw [bare.bareAll, ih, List.map_cons]
  rw [bare, hall]

@[simp] theorem kind_bare (n : Node) : n.bare.kind = n.kind := by
  cases n
  rw [bare_node]
  rfl

@[simp] theorem role_bare (n : Node) : n.bare.role = n.role := by
  cases n
  rw [bare_node]
  rfl

@[simp] theorem text_bare (n : Node) : n.bare.text = n.text := by
  cases n
  rw [bare_node]
  rfl

@[simp] theorem children_bare (n : Node) : n.bare.children = n.children.map bare := by
  cases n
  rw [bare_node]
  rfl

/-- The first tree in a role, among trees that were changed but kept their roles. -/
theorem find?_role_map {f : Node → Node} (hf : ∀ c, (f c).role = c.role) (r : Role) (cs : List Node) :
    (cs.map f).find? (fun c => c.role == r) = (cs.find? fun c => c.role == r).map f := by
  have hrole : (fun c : Node => c.role == r) ∘ f = fun c => c.role == r := by
    funext c
    rw [Function.comp_apply, hf]
  rw [List.find?_map, hrole]

@[simp] theorem child?_bare (r : Role) (n : Node) : n.bare.child? r = (n.child? r).map bare := by
  rw [child?, child?, children_bare, find?_role_map role_bare]

/-! ### Bindings -/

/-- The names that a declaration target binds, by its kind. -/
theorem bindings_eq (n : Node) : n.bindings = match n.kind with
    | .identifier | .shorthandPattern => [n]
    | .objectPattern | .arrayPattern | .restPattern => n.children.flatMap bindings
    | .pairPattern => bindings? (n.child? .value)
    | .assignmentPattern | .objectAssignmentPattern => bindings? (n.child? .left)
    | _ => [] := by
  have hall : ∀ ds : List Node, bindings.bindingsAll ds = ds.flatMap bindings := by
    intro ds
    induction ds with
    | nil => rfl
    | cons d rest ih => rw [bindings.bindingsAll, ih, List.flatMap_cons]
  have hin : ∀ (r : Role) (ds : List Node),
      bindings.bindingsIn r ds = bindings? (ds.find? fun c => c.role == r) := by
    intro r ds
    induction ds with
    | nil => rfl
    | cons d rest ih =>
        rw [bindings.bindingsIn, List.find?_cons]
        split
        · next h => rw [h]; rfl
        · next h => rw [Bool.not_eq_true] at h; rw [h, ih]
  obtain ⟨k, r, a, b, t, cs⟩ := n
  cases k <;> first | rfl | exact hall cs | exact hin _ cs

/-- What is listed for each of several trees is listed for the bare trees, if this holds for each. -/
theorem flatMap_bare {f : Node → List Node} {cs : List Node}
    (h : ∀ c ∈ cs, f c.bare = (f c).map bare) :
    (cs.map bare).flatMap f = (cs.flatMap f).map bare := by
  rw [List.flatMap_map, List.map_flatMap]
  exact List.flatMap_congr h

@[simp] theorem bindings_bare (n : Node) : n.bare.bindings = n.bindings.map bare := by
  induction n using Node.induction with
  | h k r a b t cs ih =>
      have hchild : ∀ role, bindings? ((node k r a b t cs).bare.child? role)
          = (bindings? ((node k r a b t cs).child? role)).map bare := by
        intro role
        rw [child?_bare]
        cases hc : (node k r a b t cs).child? role with
        | none => rfl
        | some c => exact ih c (mem_children_of_child? hc)
      rw [bindings_eq, bindings_eq (node k r a b t cs), kind_bare, children_bare]
      split
      · rfl
      · rfl
      · exact flatMap_bare ih
      · exact flatMap_bare ih
      · exact flatMap_bare ih
      · exact hchild _
      · exact hchild _
      · exact hchild _
      · rfl

@[simp] theorem bindings?_bare (n? : Option Node) :
    bindings? (n?.map bare) = (bindings? n?).map bare := by
  cases n? with
  | none => rfl
  | some n => exact bindings_bare n

@[simp] theorem boundParameters_bare (n : Node) :
    n.bare.boundParameters = n.boundParameters.map bare := by
  rw [boundParameters, boundParameters, child?_bare, child?_bare]
  cases n.child? .parameters with
  | none => exact bindings?_bare _
  | some ps =>
      rw [Option.map_some]
      dsimp only
      rw [children_bare]
      exact flatMap_bare fun c _ => bindings_bare c

@[simp] theorem blockBindings_bare (n : Node) :
    n.bare.blockBindings = n.blockBindings.map bare := by
  have hdeclarators : ((n.bare.children.filter fun c => c.kind == .variableDeclarator).flatMap
      fun d => bindings? (d.child? .name))
        = ((n.children.filter fun c => c.kind == .variableDeclarator).flatMap
            fun d => bindings? (d.child? .name)).map bare := by
    have hkind : (fun c : Node => c.kind == .variableDeclarator) ∘ bare
        = fun c => c.kind == .variableDeclarator := by
      funext c
      simp
    rw [children_bare, List.filter_map, hkind]
    exact flatMap_bare fun c _ => by rw [child?_bare, bindings?_bare]
  have hname : (n.bare.child? .name).toList = ((n.child? .name).toList).map bare := by
    rw [child?_bare]
    cases n.child? .name <;> rfl
  rw [blockBindings, blockBindings, kind_bare]
  split
  · exact hdeclarators
  · exact hdeclarators
  · exact hname
  · exact hname
  · exact hname
  · rfl

@[simp] theorem declaresTarget_bare (n : Node) : n.bare.declaresTarget = n.declaresTarget := by
  rw [declaresTarget, declaresTarget, child?_bare, Option.isSome_map]

@[simp] theorem localBindings_bare (n : Node) :
    n.bare.localBindings = n.localBindings.map bare := by
  rw [localBindings, localBindings, kind_bare]
  split
  · exact boundParameters_bare n
  · split
    · rw [child?_bare, bindings?_bare]
    · rw [children_bare]
      exact flatMap_bare fun c _ => blockBindings_bare c
    · rw [child?_bare]
      cases n.child? .initializer with
      | none => rfl
      | some c => exact blockBindings_bare c
    · rw [declaresTarget_bare, child?_bare, bindings?_bare]
      split <;> rfl
    · rfl

/-! ### Places -/

/-- A place without positions. -/
def Place.bare (p : Place) : Place :=
  ⟨p.node.bare, p.above.map Node.bare⟩

theorem places_bare (n : Node) : ∀ above,
    n.bare.places (above.map bare) = (n.places above).map Place.bare := by
  induction n using Node.induction with
  | h k r a b t cs ih =>
      intro above
      rw [places_node, bare_node, places_node, List.map_cons, List.map_flatMap, List.flatMap_map,
        ← bare_node k r a b t, ← List.map_cons]
      congr 1
      exact List.flatMap_congr fun c hc => ih c hc _

theorem preorder_bare (n : Node) : n.bare.preorder = n.preorder.map bare := by
  rw [← map_node_places n [], ← map_node_places n.bare ([].map bare), places_bare, List.map_map,
    List.map_map]
  rfl

@[simp] theorem Place.node_bare (p : Place) : p.bare.node = p.node.bare := rfl

@[simp] theorem Place.parent?_bare (p : Place) : p.bare.parent? = p.parent?.map Node.bare := by
  rw [parent?, parent?, bare, List.head?_map]

@[simp] theorem Place.isKey_bare (p : Place) : p.bare.isKey = p.isKey := by
  rw [isKey, isKey, node_bare, kind_bare, parent?_bare, bare]
  cases p.parent? <;> simp [List.any_map, Function.comp_def]

@[simp] theorem Place.isBinding_bare (p : Place) : p.bare.isBinding = p.isBinding := by
  rw [isBinding, isBinding, parent?_bare]
  cases p.parent? with
  | none => rfl
  | some n => simp

@[simp] theorem Place.isLocal_bare (p : Place) (name : String) :
    p.bare.isLocal name = p.isLocal name := by
  rw [isLocal, isLocal, bare]
  simp [List.any_map, Function.comp_def]

/-! ### Equality -/

/-- Whether two trees are equal. -/
def same : Node → Node → Bool
  | node k r a b t cs, node k' r' a' b' t' cs' =>
      k == k' && r == r' && a == a' && b == b' && t == t' && sameAll cs cs'
where
  /-- Whether the trees of two lists are equal. -/
  sameAll : List Node → List Node → Bool
    | [], [] => true
    | c :: rest, c' :: rest' => same c c' && sameAll rest rest'
    | _, _ => false

theorem same_iff (m : Node) : ∀ n, m.same n = true ↔ m = n := by
  induction m using Node.induction with
  | h k r a b t cs ih =>
      have hall : ∀ ds, same.sameAll cs ds = true ↔ cs = ds := by
        clear k r a b t
        induction cs with
        | nil =>
            intro ds
            cases ds <;> simp [same.sameAll]
        | cons c rest ihs =>
            intro ds
            cases ds with
            | nil => simp [same.sameAll]
            | cons d others =>
                rw [same.sameAll, Bool.and_eq_true, ih c List.mem_cons_self,
                  ihs (fun e he => ih e (List.mem_cons_of_mem _ he)), List.cons.injEq]
      rintro ⟨k', r', a', b', t', ds⟩
      rw [same]
      simp only [Bool.and_eq_true, beq_iff_eq, hall, node.injEq, and_assoc]

instance : DecidableEq Node := fun m n => decidable_of_iff (m.same n = true) (same_iff m n)

end Node

end Script

end SketchHost
