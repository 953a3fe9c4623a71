/-
**Scopes.**

Which declarations the language itself binds a name to, apart from those of the whole program: the
parameters of a function and the variables declared anywhere in its body, the name of a function
expression, the parameter of a catch, the declarations of a block or of a switch, and those in the head
of a loop.  A conversion looks for local declarations in fewer places.  What it overlooks are variables
declared deeper in the body of a function, names of function expressions, the declarations of a switch,
and functions with a label.

* `Script.Node.lexicalNames`, `variableNames` — the names that a statement declares for the block and
  for the function around it;
* `Script.Node.namesFor` — the names that a node binds for what lies in one of its parts;
* `Script.Node.Place.IsBound` — a local declaration binds a name at a place;
* `Script.Node.Place.IsFree` — no declaration binds a name at a place;
* `Script.Node.remoteNamesFor`, `Script.Node.Place.IsBoundRemotely` — the declarations that a
  conversion overlooks;
* `Script.Node.Place.isLocal_or_isBoundRemotely` — **there are no others**.
-/

import SketchHost.InstanceMode.Hoist
import SketchHost.Proofs.Script.Occurrences

set_option relaxedAutoImplicit false
set_option autoImplicit false

namespace SketchHost

namespace Script

namespace Node

/-! ### What a statement declares -/

/-- The names of the variables of a declaration. -/
def declaratorNames (n : Node) : List Node :=
  (n.children.filter fun c => c.kind == .variableDeclarator).flatMap fun c =>
    bindings? (c.child? .name)

/-- The names that a statement declares for the block around it; a label changes nothing. -/
def lexicalNames : Node → List Node
  | node k r a b t cs =>
      match k with
      | .lexicalDeclaration => (node k r a b t cs).declaratorNames
      | .functionDeclaration | .generatorDeclaration | .classDeclaration =>
          ((node k r a b t cs).child? .name).toList
      | .labeledStatement => lexicalNamesAll cs
      | _ => []
where
  /-- The names that several statements declare. -/
  lexicalNamesAll : List Node → List Node
    | [] => []
    | c :: rest => lexicalNames c ++ lexicalNamesAll rest

/-- Whether a loop over a collection declares its variables for the function around it. -/
def declaresForFunction (source : List Char) (n : Node) : Bool :=
  (n.child? .declarationWord).any fun w => slice source w.span == "var".toList

/-- The variables that a node itself declares for the function around it. -/
def ownVariables (source : List Char) (n : Node) : List Node :=
  match n.kind with
  | .variableDeclaration => n.declaratorNames
  | .forInStatement => if n.declaresForFunction source then bindings? (n.child? .left) else []
  | _ => []

/-- The variables that a node declares for the function around it, at any depth but not in functions
of its own. -/
def variableNames (source : List Char) : Node → List Node
  | node k r a b t cs =>
      if isFunctionScope k || k == .staticBlock then []
      else (node k r a b t cs).ownVariables source ++ variableNamesAll cs
where
  /-- The variables that several nodes declare. -/
  variableNamesAll : List Node → List Node
    | [] => []
    | c :: rest => variableNames source c ++ variableNamesAll rest

/-! ### What a node binds -/

/-- The name of a function expression, which is bound in the function. -/
def ownName (n : Node) : List Node :=
  match n.kind with
  | .functionExpression | .generatorExpression => (n.child? .name).toList
  | _ => []

/-- The names that a function binds for one of its parts: its parameters, and in its body the variables
of the body.  Neither is bound in the name of a method. -/
def functionNames (source : List Char) (n part : Node) : List Node :=
  if !isFunctionScope n.kind || part.role == .name then []
  else if part.role == .body then n.boundParameters ++ part.variableNames source
  else n.boundParameters

/-- The names that a node other than a function binds for its parts. -/
def heldNames (n : Node) : List Node :=
  match n.kind with
  | .catchClause => bindings? (n.child? .parameter)
  | .block => n.children.flatMap lexicalNames
  | .switchBody => n.children.flatMap fun c => c.children.flatMap lexicalNames
  | .forStatement => (n.child? .initializer).toList.flatMap blockBindings
  | .forInStatement => if n.declaresTarget then bindings? (n.child? .left) else []
  | _ => []

/-- The names that a node binds for one of its parts. -/
def namesFor (source : List Char) (n part : Node) : List Node :=
  n.functionNames source part ++ n.ownName ++ n.heldNames

/-- The nodes around a place, each with the part of it in which the place lies. -/
def Place.scopes (p : Place) : List (Node × Node) :=
  p.above.zip (p.node :: p.above)

/-- A local declaration binds a name at a place. -/
def Place.IsBound (source : List Char) (p : Place) (name : String) : Prop :=
  ∃ s ∈ p.scopes, ∃ b ∈ s.1.namesFor source s.2, b.text = name

instance (source : List Char) (p : Place) (name : String) : Decidable (p.IsBound source name) :=
  inferInstanceAs (Decidable (∃ s ∈ p.scopes, ∃ b ∈ s.1.namesFor source s.2, b.text = name))

/-! ### What a program declares -/

/-- The names that a statement declares for the whole program, imported names included. -/
def topNames (s : Node) : List Node :=
  match s.kind with
  | .importStatement => s.preorder.filter fun n => n.kind == .identifier
  | .exportStatement => s.children.flatMap lexicalNames
  | _ => s.lexicalNames

/-- The names that a program declares at its top, with the variables at any depth outside functions. -/
def programNames (source : List Char) (root : Node) : List Node :=
  root.children.flatMap topNames ++ root.variableNames source

/-- No declaration binds a name at a place, neither a local one nor one of the program. -/
structure Place.IsFree (source : List Char) (root : Node) (p : Place) (name : String) : Prop where
  local_ : ¬ p.IsBound source name
  program : ∀ b ∈ root.programNames source, b.text ≠ name

/-! ### What a conversion overlooks -/

/-- The variables of the body of a function that are not declared by a statement of the body. -/
def deepVariables (source : List Char) (body : Node) : List Node :=
  if body.kind == .block then
    body.children.flatMap fun s =>
      if s.kind == .variableDeclaration then s.children.flatMap (variableNames source)
      else s.variableNames source
  else body.variableNames source

/-- The names that a node binds for one of its parts by a declaration that is overlooked: a variable
deep in a body, the name of a function expression, a declaration in a switch, and a function with a
label. -/
def remoteNamesFor (source : List Char) (n part : Node) : List Node :=
  (if isFunctionScope n.kind && part.role == .body then part.deepVariables source else [])
    ++ n.ownName
    ++ match n.kind with
      | .switchBody => n.heldNames
      | .block => (n.children.filter fun c => c.kind == .labeledStatement).flatMap lexicalNames
      | _ => []

/-- A local declaration that is overlooked binds a name at a place. -/
def Place.IsBoundRemotely (source : List Char) (p : Place) (name : String) : Prop :=
  ∃ s ∈ p.scopes, ∃ b ∈ s.1.remoteNamesFor source s.2, b.text = name

instance (source : List Char) (p : Place) (name : String) :
    Decidable (p.IsBoundRemotely source name) :=
  inferInstanceAs (Decidable (∃ s ∈ p.scopes, ∃ b ∈ s.1.remoteNamesFor source s.2, b.text = name))

/-! ### There are no other declarations -/

theorem variableNames_node (source : List Char) (k : Kind) (r : Role) (a b : Nat) (t : String)
    (cs : List Node) : (node k r a b t cs).variableNames source
      = if isFunctionScope k || k == .staticBlock then []
        else (node k r a b t cs).ownVariables source ++ cs.flatMap (variableNames source) := by
  have hall : ∀ ds : List Node,
      variableNames.variableNamesAll source ds = ds.flatMap (variableNames source) := by
    intro ds
    induction ds with
    | nil => rfl
    | cons d rest ih => rw [variableNames.variableNamesAll, ih, List.flatMap_cons]
  rw [variableNames, hall]

/-- The variables of a body are those that its statements declare, and those that are declared deeper
in it. -/
theorem mem_variableNames_body {source : List Char} {body v : Node}
    (hv : v ∈ body.variableNames source) :
    (body.kind = .block ∧ v ∈ body.children.flatMap blockBindings)
      ∨ v ∈ body.deepVariables source := by
  rw [deepVariables]
  by_cases hk : body.kind = .block
  · rw [if_pos (by simp [hk])]
    obtain ⟨k, r, a, b, t, cs⟩ := body
    obtain rfl : k = .block := hk
    have hcs : v ∈ cs.flatMap (variableNames source) := by
      simpa [variableNames_node, isFunctionScope, ownVariables] using hv
    obtain ⟨s, hs, hmem⟩ := List.mem_flatMap.1 hcs
    by_cases hs' : s.kind = .variableDeclaration
    · -- what the statement declares itself, and what is declared in its values
      have hsplit : v ∈ s.declaratorNames ∨ v ∈ s.children.flatMap (variableNames source) := by
        obtain ⟨k, r, a, b, t, ds⟩ := s
        obtain rfl : k = .variableDeclaration := hs'
        rw [variableNames_node] at hmem
        exact List.mem_append.1 hmem
      rcases hsplit with hown | hdeep
      · refine Or.inl ⟨rfl, List.mem_flatMap.2 ⟨s, hs, ?_⟩⟩
        rw [blockBindings, hs']
        exact hown
      · exact Or.inr (List.mem_flatMap.2 ⟨s, hs, by rwa [if_pos (by simp [hs'])]⟩)
    · exact Or.inr (List.mem_flatMap.2 ⟨s, hs, by rwa [if_neg (by simp [hs'])]⟩)
  · rw [if_neg (by simp [hk])]
    exact Or.inr hv

/-- A statement of a block declares what is met in it, unless it has a label. -/
theorem mem_lexicalNames {s v : Node} (hv : v ∈ s.lexicalNames) :
    v ∈ s.blockBindings ∨ s.kind = .labeledStatement := by
  obtain ⟨k, r, a, b, t, cs⟩ := s
  unfold lexicalNames at hv
  split at hv
  · exact Or.inl hv
  · exact Or.inl hv
  · exact Or.inl hv
  · exact Or.inl hv
  · exact Or.inr rfl
  · simp at hv

/-- What a node other than a function binds is met, or overlooked. -/
theorem mem_heldNames {source : List Char} {n v : Node} (part : Node) (hv : v ∈ n.heldNames) :
    v ∈ n.localBindings ∨ v ∈ n.remoteNamesFor source part := by
  unfold heldNames at hv
  split at hv
  · next hk =>
      refine Or.inl ?_
      rw [localBindings, hk]
      exact hv
  · next hk =>
      obtain ⟨s, hs, hmem⟩ := List.mem_flatMap.1 hv
      rcases mem_lexicalNames hmem with hmet | hlabel
      · refine Or.inl ?_
        rw [localBindings, hk]
        exact List.mem_flatMap.2 ⟨s, hs, hmet⟩
      · refine Or.inr (List.mem_append_right _ ?_)
        rw [hk]
        exact List.mem_flatMap.2 ⟨s, List.mem_filter.2 ⟨hs, by simp [hlabel]⟩, hmem⟩
  · next hk =>
      refine Or.inr (List.mem_append_right _ ?_)
      rw [hk, heldNames, hk]
      exact hv
  · next hk =>
      refine Or.inl ?_
      rw [localBindings, hk]
      obtain ⟨i, hi, hmem⟩ := List.mem_flatMap.1 hv
      rw [Option.mem_toList] at hi
      simpa [hi, isFunctionScope] using hmem
  · next hk =>
      refine Or.inl ?_
      rw [localBindings, hk]
      exact hv
  · simp at hv

/-- What a node binds for one of its parts is met at the node or at the part, or overlooked. -/
theorem mem_namesFor {source : List Char} {n part v : Node} (hv : v ∈ n.namesFor source part) :
    v ∈ n.localBindings ∨ (part.kind = .block ∧ v ∈ part.localBindings)
      ∨ v ∈ n.remoteNamesFor source part := by
  rw [namesFor] at hv
  rcases List.mem_append.1 hv with hv | hv
  · rcases List.mem_append.1 hv with hv | hv
    · unfold functionNames at hv
      split at hv
      · simp at hv
      · next hn =>
          simp only [Bool.or_eq_true, Bool.not_eq_true', beq_iff_eq, not_or, Bool.not_eq_false] at hn
          have hparameter : v ∈ n.boundParameters → v ∈ n.localBindings := by
            intro hmem
            rwa [localBindings, if_pos hn.1]
          split at hv
          · next hbody =>
              rcases List.mem_append.1 hv with hv | hv
              · exact Or.inl (hparameter hv)
              · rcases mem_variableNames_body hv with ⟨hblock, hmet⟩ | hdeep
                · refine Or.inr (Or.inl ⟨hblock, ?_⟩)
                  rw [localBindings, hblock]
                  exact hmet
                · refine Or.inr (Or.inr (List.mem_append_left _ (List.mem_append_left _ ?_)))
                  rwa [if_pos (by simp [hn.1, hbody])]
          · exact Or.inl (hparameter hv)
    · exact Or.inr (Or.inr (List.mem_append_left _ (List.mem_append_right _ hv)))
  · exact (mem_heldNames part hv).imp_right Or.inr

/-- Every node around a place is one of its scopes. -/
theorem Place.exists_mem_scopes {p : Place} {n : Node} (hn : n ∈ p.above) :
    ∃ part, (n, part) ∈ p.scopes := by
  have hzip : (p.above.zip (p.node :: p.above)).map Prod.fst = p.above :=
    List.map_fst_zip (by simp)
  rw [← hzip] at hn
  obtain ⟨s, hs, rfl⟩ := List.mem_map.1 hn
  exact ⟨s.2, hs⟩

/-- The nodes in the scopes of a place are around it, and so are their parts but the place itself. -/
theorem Place.mem_scopes {p : Place} {s : Node × Node} (hs : s ∈ p.scopes) :
    s.1 ∈ p.above ∧ (s.2 = p.node ∨ s.2 ∈ p.above) := by
  obtain ⟨n, part⟩ := s
  obtain ⟨hn, hpart⟩ := List.of_mem_zip hs
  exact ⟨hn, List.mem_cons.1 hpart⟩

theorem Place.isLocal_of_mem {p : Place} {n b : Node} {name : String} (hn : n ∈ p.above)
    (hb : b ∈ n.localBindings) (hname : b.text = name) : p.isLocal name = true := by
  rw [Place.isLocal, List.any_eq_true]
  exact ⟨n, hn, List.any_eq_true.2 ⟨b, hb, by simp [hname]⟩⟩

/-- **There are no others**: a local declaration that binds a name is one that a conversion meets, or
one that it overlooks. -/
theorem Place.isLocal_or_isBoundRemotely {source : List Char} {p : Place} {name : String}
    (hblock : p.node.kind ≠ .block) (h : p.IsBound source name) :
    p.isLocal name = true ∨ p.IsBoundRemotely source name := by
  obtain ⟨s, hs, b, hb, hname⟩ := h
  obtain ⟨hn, hpart⟩ := mem_scopes hs
  rcases mem_namesFor hb with hmet | ⟨hkind, hmet⟩ | hremote
  · exact Or.inl (isLocal_of_mem hn hmet hname)
  · rcases hpart with hself | habove
    · rw [hself] at hkind
      exact absurd hkind hblock
    · exact Or.inl (isLocal_of_mem habove hmet hname)
  · exact Or.inr ⟨s, hs, b, hremote, hname⟩

/-- A declaration deep in a body is one of the body. -/
theorem mem_variableNames_of_mem_deepVariables {source : List Char} {body v : Node}
    (hv : v ∈ body.deepVariables source) : v ∈ body.variableNames source := by
  rw [deepVariables] at hv
  split at hv
  · next hk =>
      obtain ⟨k, r, a, b, t, cs⟩ := body
      obtain rfl : k = .block := by simpa using hk
      obtain ⟨s, hs, hmem⟩ := List.mem_flatMap.1 hv
      have hmem : v ∈ s.variableNames source := by
        split at hmem
        · next hs' =>
            obtain ⟨k, r, a, b, t, ds⟩ := s
            obtain rfl : k = .variableDeclaration := by simpa using hs'
            rw [variableNames_node]
            exact List.mem_append_right _ hmem
        · exact hmem
      rw [variableNames_node]
      exact List.mem_append_right _ (List.mem_flatMap.2 ⟨s, hs, hmem⟩)
  · exact hv

/-- What is overlooked binds names as well. -/
theorem mem_namesFor_of_remote {source : List Char} {n part v : Node}
    (hv : v ∈ n.remoteNamesFor source part) : v ∈ n.namesFor source part := by
  rw [remoteNamesFor] at hv
  rw [namesFor]
  rcases List.mem_append.1 hv with hv | hv
  · rcases List.mem_append.1 hv with hv | hv
    · refine List.mem_append_left _ (List.mem_append_left _ ?_)
      split at hv
      · next hbody =>
          simp only [Bool.and_eq_true, beq_iff_eq] at hbody
          rw [functionNames, if_neg (by simp [hbody]), if_pos (by simp [hbody])]
          exact List.mem_append_right _ (mem_variableNames_of_mem_deepVariables hv)
      · simp at hv
    · exact List.mem_append_left _ (List.mem_append_right _ hv)
  · refine List.mem_append_right _ ?_
    split at hv
    · exact hv
    · next hk =>
        obtain ⟨s, hs, hmem⟩ := List.mem_flatMap.1 hv
        rw [heldNames, hk]
        exact List.mem_flatMap.2 ⟨s, (List.mem_filter.1 hs).1, hmem⟩
    · simp at hv

theorem Place.IsBoundRemotely.isBound {source : List Char} {p : Place} {name : String}
    (h : p.IsBoundRemotely source name) : p.IsBound source name := by
  obtain ⟨s, hs, b, hb, hname⟩ := h
  exact ⟨s, hs, b, mem_namesFor_of_remote hb, hname⟩

end Node

end Script

end SketchHost
