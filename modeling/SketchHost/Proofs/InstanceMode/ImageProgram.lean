/-
**The converted program.**

A hoisted statement becomes an assignment to the instance; its other words become what they become
anywhere, and its name is gone.  So the words of a converted program are all left alone by a second
conversion.

* `Dialect.programImage` — what a program becomes;
* `Dialect.HoistsTo` — the three forms of a hoist, and what each becomes;
* `Dialect.settled_of_hoistsTo` — the words of a statement that was hoisted are left alone;
* `Dialect.settled_programImage` — **all words of a converted program are left alone**.
-/

import SketchHost.Proofs.InstanceMode.Settled

set_option relaxedAutoImplicit false
set_option autoImplicit false

namespace SketchHost

open Script

namespace Dialect

/-! ### Programs -/

/-- The statement of an assignment to the instance. -/
def assignmentImage (d : Dialect) (name : String) (value : Node) : Node :=
  .node .expressionStatement .plain 0 0 ""
    [.node .assignment .plain 0 0 "" [d.accessNode .left name, value]]

/-- The function expression for a named function. -/
def expressionKind (k : Kind) : Kind :=
  match k with
  | .generatorDeclaration => .generatorExpression
  | _ => .functionExpression

/-- The function expression that a named function becomes. -/
def functionImage (d : Dialect) (pl : Plan) (root s : Node) : Node :=
  .node (expressionKind s.kind) .right 0 0 ""
    ((s.children.filter fun c => c.role != .name).map (d.image pl [s, root]))

/-- What a part of an assignment to a hook becomes: the access takes the place of the target. -/
def hookPart (d : Dialect) (pl : Plan) (root s e : Node) (name : String) (c : Node) : Node :=
  if c.kind == .identifier && c.role == .left then d.accessNode .left name
  else d.image pl [e, s, root] c

/-- What the statement of an assignment to a hook becomes. -/
def hookImage (d : Dialect) (pl : Plan) (root s e : Node) (rest : List Node) (name : String) : Node :=
  .node .expressionStatement s.role 0 0 s.text
    (.node .assignment e.role 0 0 e.text (e.children.map (d.hookPart pl root s e name))
      :: rest.map (d.image pl [s, root]))

/-- What a hoisted statement becomes: the function without its name or the value of the variable is
assigned to the instance, and an assignment to a hook gets the access as its target. -/
def hoistImage (d : Dialect) (pl : Plan) (root s : Node) (name : String) : Node :=
  match s.kind, s.children with
  | .functionDeclaration, _ | .generatorDeclaration, _ =>
      d.assignmentImage name (d.functionImage pl root s)
  | .lexicalDeclaration, declarator :: _ | .variableDeclaration, declarator :: _ =>
      match declarator.child? .value with
      | some value =>
          d.assignmentImage name ((d.image pl [declarator, s, root] value).withRole .right)
      | none => d.image pl [root] s
  | _, e :: rest => d.hookImage pl root s e rest name
  | _, [] => d.image pl [root] s

/-- What a statement of a program becomes. -/
def statementImage (d : Dialect) (source : List Char) (root s : Node) : Node :=
  match d.hoist? source s with
  | some x => d.hoistImage (d.plan source root) root s x.name
  | none => d.image (d.plan source root) [root] s

/-- What a program becomes. -/
def programImage (d : Dialect) (source : List Char) (root : Node) : Node :=
  .node root.kind root.role 0 0 root.text (root.children.map (d.statementImage source root))

/-! ### Forms of hoists -/

variable {d : Dialect} {pl : Plan} {chars : List Char} {root s : Node} {x : Hoist}

/-- What a hoisted statement becomes, by the form of the hoist. -/
inductive HoistsTo (d : Dialect) (pl : Plan) (root s : Node) (x : Hoist) : Node → Prop
  /-- A function loses its name. -/
  | function {name : Node} (hkind : s.kind = .functionDeclaration ∨ s.kind = .generatorDeclaration)
      (hname : s.child? .name = some name) (hidentifier : name.kind = .identifier)
      (hconsumed : x.consumed = name.span) :
      HoistsTo d pl root s x (d.assignmentImage x.name (d.functionImage pl root s))
  /-- Of a declaration the value is left. -/
  | declaration {declarator name value : Node} (hkind : Node.isVariableDeclaration s.kind = true)
      (hchildren : s.children = [declarator]) (hdeclarator : declarator.kind = .variableDeclarator)
      (hname : declarator.child? .name = some name) (hvalue : declarator.child? .value = some value)
      (hidentifier : name.kind = .identifier) (hfunction : isFunctionValue value.kind = true)
      (hconsumed : x.consumed = name.span) :
      HoistsTo d pl root s x (d.assignmentImage x.name
        ((d.image pl [declarator, s, root] value).withRole .right))
  /-- An assignment keeps everything but its target. -/
  | assignment {e left : Node} {rest : List Node} (hkind : s.kind = .expressionStatement)
      (hchildren : s.children = e :: rest) (hassignment : e.kind = .assignment)
      (hleft : e.child? .left = some left) (hidentifier : left.kind = .identifier)
      (hconsumed : x.consumed = left.span) :
      HoistsTo d pl root s x (d.hookImage pl root s e rest x.name)

theorem hoistsTo_of_ofFunction? (hs : s.WellFormed chars)
    (hkind : s.kind = .functionDeclaration ∨ s.kind = .generatorDeclaration)
    (h : d.ofFunction? chars s = some x) : HoistsTo d pl root s x (d.hoistImage pl root s x.name) := by
  obtain ⟨name, hname, -, rfl⟩ := exists_of_ofFunction? h
  have himage (text : String) : d.hoistImage pl root s text
      = d.assignmentImage text (d.functionImage pl root s) := by
    rcases hkind with hk | hk <;> rw [hoistImage, hk]
  rw [himage]
  exact .function hkind hname (kind_of_functionName hs hkind hname) rfl

theorem hoistsTo_of_ofVariable? (hs : s.WellFormed chars)
    (hkind : s.kind = .lexicalDeclaration ∨ s.kind = .variableDeclaration)
    (h : d.ofVariable? chars s = some x) : HoistsTo d pl root s x (d.hoistImage pl root s x.name) := by
  have hvariable : Node.isVariableDeclaration s.kind = true := by
    rcases hkind with hk | hk <;> rw [hk] <;> rfl
  obtain ⟨declarator, name, value, hfilter, hname, hvalue, hidentifier, hfunction, -, rfl⟩ :=
    exists_of_ofVariable? h
  have hdeclarator := (mem_of_filter_declarators hfilter).2
  have hchildren : s.children = [declarator] := by
    rw [← filter_declarators hs hvariable, hfilter]
  have himage (text : String) : d.hoistImage pl root s text = d.assignmentImage text
      ((d.image pl [declarator, s, root] value).withRole .right) := by
    rcases hkind with hk | hk <;> rw [hoistImage, hk, hchildren] <;> dsimp only <;> rw [hvalue]
  rw [himage]
  exact .declaration hvariable hchildren hdeclarator hname hvalue hidentifier hfunction rfl

theorem hoistsTo_of_ofAssignment? (hkind : s.kind = .expressionStatement)
    (h : d.ofAssignment? s = some x) : HoistsTo d pl root s x (d.hoistImage pl root s x.name) := by
  obtain ⟨e, left, right, he, hassignment, hleft, -, hidentifier, -, -, rfl⟩ :=
    exists_of_ofAssignment? h
  obtain ⟨rest, hchildren⟩ := List.head?_eq_some_iff.1 he
  have himage (text : String) :
      d.hoistImage pl root s text = d.hookImage pl root s e rest text := by
    rw [hoistImage, hkind, hchildren]
  rw [himage]
  exact .assignment hkind hchildren hassignment hleft hidentifier rfl

/-- What a hoisted statement becomes. -/
theorem hoistsTo_of_hoist? (pl : Plan) (root : Node) (hs : s.WellFormed chars)
    (h : d.hoist? chars s = some x) : HoistsTo d pl root s x (d.hoistImage pl root s x.name) := by
  rcases hoist?_cases h with ⟨hk, h⟩ | ⟨hk, h⟩ | ⟨hk, h⟩
  · exact hoistsTo_of_ofFunction? hs hk h
  · exact hoistsTo_of_ofVariable? hs hk h
  · exact hoistsTo_of_ofAssignment? hk h

/-! ### Words of converted programs -/

variable {above above' : List Node} {source : List Char}

/-- A part whose parent declares nothing in its role. -/
theorem SameSlot.of_quiet {m m' : Node} {r : Role} (hspecifier : Node.isModuleSpecifier m.kind = false)
    (hcall : m'.kind ≠ .call)
    (hbinding : ∀ n : Node, n.role = r → (⟨n, m :: above⟩ : Node.Place).isBinding = false) :
    SameSlot r (m :: above) (m' :: above') where
  specifier h := by simp [hspecifier] at h
  call h := by simp [hcall] at h
  binding n n' hn _ h := by simp [hbinding n hn] at h

theorem isFunctionScope_expressionKind (k : Kind) : Node.isFunctionScope (expressionKind k) = true := by
  unfold expressionKind
  split <;> rfl

/-- A part of an assignment to a hook keeps its role. -/
theorem role_hookPart (d : Dialect) (pl : Plan) (root s e : Node) (name : String) (c : Node) :
    (d.hookPart pl root s e name c).role = c.role := by
  rw [hookPart]
  split
  · next hc =>
      rw [Bool.and_eq_true, beq_iff_eq, beq_iff_eq] at hc
      rw [hc.2]
      rfl
  · rw [role_image]

/-- A function expression has the parts of the function apart from its name. -/
theorem child?_functionImage (d : Dialect) (pl : Plan) (root s : Node) {r : Role} (hr : r ≠ .name) :
    (d.functionImage pl root s).child? r = (s.child? r).map (d.image pl [s, root]) := by
  have hboth : (fun c : Node => decide ((c.role != .name) = true ∧ (c.role == r) = true))
      = fun c => c.role == r := by
    funext c
    by_cases hc : c.role = r
    · simp [hc, hr]
    · simp [hc]
  rw [Node.child?, Node.child?, functionImage, Node.children_node,
    Node.find?_role_map (role_image d pl [s, root]), List.find?_filter, hboth]

/-- The words of a statement that assigns something to the instance are those of the value. -/
theorem settled_assignmentImage {name : String} {value : Node} (hd : d.IsApart)
    (h : ∀ e t, ∀ q ∈ value.places (e :: t :: above), IsSettled d pl q) :
    ∀ q ∈ (d.assignmentImage name value).places above, IsSettled d pl q := by
  refine settled_node rfl fun c hc => ?_
  obtain rfl := List.mem_singleton.1 hc
  refine settled_node rfl fun c hc => ?_
  rcases List.mem_cons.1 hc with rfl | hc
  · exact settled_accessNode hd _ _
  · obtain rfl := List.mem_singleton.1 hc
    exact h _ _

/-- The words of a hoisted function. -/
theorem settled_functionImage (hd : d.IsApart)
    (hrule : Renames.Follows (Renames.prefixed d.lead) pl.renames) (hs : s.WellFormed chars)
    (hkind : s.kind = .functionDeclaration ∨ s.kind = .generatorDeclaration)
    (hmirrors : Mirrors pl [root] above) :
    ∀ q ∈ (d.functionImage pl root s).places above, IsSettled d pl q := by
  have hscope : Node.isFunctionScope s.kind = true := by rcases hkind with hk | hk <;> rw [hk] <;> rfl
  have hmirrors' : Mirrors pl [s, root] (d.functionImage pl root s :: above) := by
    refine hmirrors.cons (fun hk => ?_) fun b hb howns => ?_
    · rw [hk] at hscope
      simp [Node.isFunctionScope] at hscope
    · rw [Node.localBindings, if_pos hscope] at hb
      have hscope' : Node.isFunctionScope (d.functionImage pl root s).kind = true :=
        isFunctionScope_expressionKind s.kind
      rw [Node.localBindings, if_pos hscope']
      exact exists_boundParameter_image hs hscope (fun r hr => child?_functionImage d pl root s hr) hb
        howns
  refine settled_node ?_ fun c hc => ?_
  · rcases hkind with hk | hk <;> rw [hk] <;> rfl
  obtain ⟨e, he, rfl⟩ := List.mem_map.1 hc
  obtain ⟨hchild, hrole⟩ := List.mem_filter.1 he
  rw [bne_iff_ne] at hrole
  refine settled_image hd hrule e _ _ (hs.fits_children hchild).wellFormed hmirrors'
    (.of_quiet ?_ ?_ fun m hm => ?_)
  · rcases hkind with hk | hk <;> rw [hk] <;> rfl
  · rcases hkind with hk | hk <;> rw [hk, Node.kind_node] <;> decide
  · rcases hkind with hk | hk <;>
      simp [Node.Place.isBinding, Node.Place.parent?, hk, hm, hrole, Node.isNamedDefinition]

/-- The words of the value of a hoisted declaration. -/
theorem settled_valueImage {declarator value : Node} (hd : d.IsApart)
    (hrule : Renames.Follows (Renames.prefixed d.lead) pl.renames) (hvalue : value.WellFormed chars)
    (hfunction : isFunctionValue value.kind = true) (hmirrors : Mirrors pl [declarator, s, root] above) :
    ∀ q ∈ ((d.image pl [declarator, s, root] value).withRole .right).places above,
      IsSettled d pl q := by
  have hword : isVariableName value.kind = false := by
    cases hk : value.kind <;> rw [hk] at hfunction <;> first | rfl | simp [isFunctionValue] at hfunction
  have hkept : d.image pl [declarator, s, root] value = d.keptImage pl value [declarator, s, root] := by
    refine image_of_kind hword fun hk => ?_
    rw [hk] at hfunction
    simp [isFunctionValue] at hfunction
  rw [hkept]
  refine settled_node hword fun c hc => ?_
  obtain ⟨e, he, rfl⟩ := List.mem_map.1 hc
  refine settled_image hd hrule e _ _ (hvalue.fits_children he).wellFormed
    (hmirrors.cons id fun b hb howns => ?_) (.of_same _ rfl ?_)
  · exact exists_localBinding_image (d := d) hvalue hb howns
  · exact declaresTarget_keptImage d _ value _

/-- A node that binds nothing, with another one of its kind in its place. -/
theorem Mirrors.cons_of_nil {above : List Node} {m m' : Node} (h : Mirrors pl above above')
    (hkind : m'.kind = m.kind) (hlocal : m.localBindings = []) : Mirrors pl (m :: above) (m' :: above') :=
  h.cons (fun hk => hkind.trans hk) fun b hb _ => by simp [hlocal] at hb

/-- The words of an assignment to a hook. -/
theorem settled_hookAssignment {e : Node} {rest : List Node} {name : String} (hd : d.IsApart)
    (hrule : Renames.Follows (Renames.prefixed d.lead) pl.renames) (hs : s.WellFormed chars)
    (hkind : s.kind = .expressionStatement) (hchildren : s.children = e :: rest)
    (hassignment : e.kind = .assignment) (hmirrors : Mirrors pl [root] above) :
    ∀ q ∈ (d.hookImage pl root s e rest name).places above, IsSettled d pl q := by
  have hlocal : s.localBindings = [] := by
    rw [Node.localBindings, hkind]
    rfl
  have hlocal' : e.localBindings = [] := by
    rw [Node.localBindings, hassignment]
    rfl
  have hpart : ∀ c ∈ s.children, c.WellFormed chars := fun c hc => (hs.fits_children hc).wellFormed
  rw [hchildren] at hpart
  have hstatement : ∀ t, t.kind = .expressionStatement → Mirrors pl [s, root] (t :: above) :=
    fun t ht => hmirrors.cons_of_nil (ht.trans hkind.symm) hlocal
  refine settled_node rfl fun c hc => ?_
  rcases List.mem_cons.1 hc with rfl | hc
  · refine settled_node rfl fun c hc => ?_
    obtain ⟨f, hf, rfl⟩ := List.mem_map.1 hc
    have hwf := ((hpart e List.mem_cons_self).fits_children hf).wellFormed
    rw [hookPart]
    split
    · exact settled_accessNode hd _ _
    · refine settled_image hd hrule f _ _ hwf ((hstatement _ rfl).cons_of_nil
        hassignment.symm hlocal') (.of_quiet ?_ ?_ fun m _ => ?_)
      · rw [hassignment]
        rfl
      · rw [Node.kind_node]
        decide
      · simp [Node.Place.isBinding, Node.Place.parent?, hassignment, Node.isNamedDefinition]
  · obtain ⟨f, hf, rfl⟩ := List.mem_map.1 hc
    refine settled_image hd hrule f _ _ (hpart f (List.mem_cons_of_mem _ hf))
      (hstatement _ rfl) (.of_quiet ?_ ?_ fun m _ => ?_)
    · rw [hkind]
      rfl
    · rw [Node.kind_node]
      decide
    · simp [Node.Place.isBinding, Node.Place.parent?, hkind, Node.isNamedDefinition]

/-- The words of what a hoisted statement becomes. -/
theorem settled_of_hoistsTo {n : Node} (hd : d.IsApart)
    (hrule : Renames.Follows (Renames.prefixed d.lead) pl.renames) (hs : s.WellFormed chars)
    (hmirrors : Mirrors pl [root] above) (h : HoistsTo d pl root s x n) :
    ∀ q ∈ n.places above, IsSettled d pl q := by
  cases h with
  | function hkind _ _ _ =>
      exact settled_assignmentImage hd fun e t =>
        settled_functionImage hd hrule hs hkind ((hmirrors.put t).put e)
  | @declaration declarator name value hkind hchildren hdeclarator _ hvalue _ hfunction _ =>
      have hstatement : s.localBindings = [] := by
        cases hk : s.kind <;> rw [hk] at hkind <;>
          first | (rw [Node.localBindings, hk]; rfl) | simp [Node.isVariableDeclaration] at hkind
      have hlocal : declarator.localBindings = [] := by
        rw [Node.localBindings, hdeclarator]
        rfl
      have himport : s.kind ≠ .importStatement := by
        intro hk
        rw [hk] at hkind
        simp [Node.isVariableDeclaration] at hkind
      have hwf : value.WellFormed chars :=
        ((hs.fits_children (c := declarator) (by simp [hchildren])).wellFormed.fits_children
          (Node.mem_children_of_child? hvalue)).wellFormed
      exact settled_assignmentImage hd fun e t => settled_valueImage hd hrule hwf hfunction
        ((((hmirrors.put t).put e).drop himport hstatement).drop (by simp [hdeclarator]) hlocal)
  | assignment hkind hchildren hassignment _ _ _ =>
      exact settled_hookAssignment hd hrule hs hkind hchildren hassignment hmirrors

/-- **All words of a converted program are left alone** by a conversion without hoists. -/
theorem settled_programImage (hd : d.IsApart) (hroot : root.WellFormed chars)
    (hprogram : root.kind = .program) :
    ∀ q ∈ (d.programImage chars root).places [], IsSettled d (d.plan chars root) q := by
  have hrule : Renames.Follows (Renames.prefixed d.lead) (d.plan chars root).renames :=
    Renames.follows_collect
  have hlocal : root.localBindings = [] := by
    rw [Node.localBindings, hprogram]
    rfl
  have hnothing : Mirrors (d.plan chars root) [] [] := ⟨by simp, by simp⟩
  have haround : Mirrors (d.plan chars root) [root] [d.programImage chars root] :=
    hnothing.cons_of_nil rfl hlocal
  refine settled_node (by rw [hprogram]; rfl) fun c hc => ?_
  obtain ⟨s, hs, rfl⟩ := List.mem_map.1 hc
  have hwf := (hroot.fits_children hs).wellFormed
  rw [statementImage]
  split
  · next x hx =>
      exact settled_of_hoistsTo hd hrule hwf haround (hoistsTo_of_hoist? _ root hwf hx)
  · refine settled_image hd hrule s _ _ hwf haround (.of_quiet ?_ ?_ fun m _ => ?_)
    · rw [hprogram]
      rfl
    · rw [Node.kind_node, hprogram]
      decide
    · simp [Node.Place.isBinding, Node.Place.parent?, hprogram, Node.isNamedDefinition]

end Dialect

end SketchHost
