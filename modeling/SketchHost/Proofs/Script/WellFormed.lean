/-
**Well-formed trees.**

What the grammar gives of a syntax tree.  The children of a node lie in its range, one after the
other; a node that is one word has no children and is spelled in the source where it stands; the name
of a function or a class is a plain one; a declaration of variables consists of declarators, each of
which begins with its target and has one value at most; and a target is put together from targets.

* `Script.isNamed` — the kinds of the nodes that are one word;
* `Script.isTargetKind` — the kinds of the targets of declarations and assignments, and of their parts;
* `Script.SpelledAt` — a word of the source;
* `Script.Node.WellFormed`, `Script.Node.Row` — well-formed trees, and rows of them in a range;
* `Script.Node.Fits` — a well-formed tree in a range;
* `Script.Node.Fits.of_mem_preorder` — every node of a well-formed tree is well-formed, in the range
  of the tree;
* `Script.Node.replaces_asTarget?` — an expression that is taken as a target stays where it is.
-/

import SketchHost.Proofs.Script.Cursor

set_option relaxedAutoImplicit false
set_option autoImplicit false

namespace SketchHost

namespace Script

/-! ### Words -/

/-- The kinds of the nodes that are one word, which stands in the source as it is. -/
def isNamed (k : Kind) : Bool :=
  match k with
  | .identifier | .undefinedName | .propertyName | .labelName | .shorthand | .shorthandPattern =>
      true
  | _ => false

/-- The kinds of the targets of declarations and assignments, and of the parts that these are put
together from. -/
def isTargetKind (k : Kind) : Bool :=
  match k with
  | .identifier | .undefinedName | .shorthandPattern | .member | .subscript => true
  | .objectPattern | .arrayPattern | .restPattern | .pairPattern => true
  | .assignmentPattern | .objectAssignmentPattern => true
  | _ => false

/-- A word stands in the source between two places. -/
def SpelledAt (source : List Char) (start stop : Nat) (text : String) : Prop :=
  ∃ c d : Cursor, c.In source ∧ c.Spells text d ∧ c.offset = start ∧ d.offset = stop

theorem SpelledAt.lt {source : List Char} {start stop : Nat} {text : String}
    (h : SpelledAt source start stop text) : start < stop := by
  obtain ⟨c, d, -, hspells, rfl, rfl⟩ := h
  have hpos := Text.byteLength_pos hspells.ne_nil
  have hoffset := hspells.offset
  omega

namespace Node

@[simp] theorem kind_withRole (r : Role) (n : Node) : (n.withRole r).kind = n.kind := by
  cases n; rfl

@[simp] theorem kind_withKind (k : Kind) (n : Node) : (n.withKind k).kind = k := by
  cases n; rfl

@[simp] theorem role_withRole (r : Role) (n : Node) : (n.withRole r).role = r := by
  cases n; rfl

@[simp] theorem start_withRole (r : Role) (n : Node) : (n.withRole r).start = n.start := by
  cases n; rfl

@[simp] theorem stop_withRole (r : Role) (n : Node) : (n.withRole r).stop = n.stop := by
  cases n; rfl

@[simp] theorem children_withRole (r : Role) (n : Node) :
    (n.withRole r).children = n.children := by
  cases n; rfl

/-- Induction over trees: a property holds of a node if it holds of its children. -/
@[elab_as_elim]
theorem induction {P : Node → Prop}
    (h : ∀ k r a b t cs, (∀ c ∈ cs, P c) → P (node k r a b t cs)) : ∀ n, P n
  | node k r a b t cs => h k r a b t cs (all cs)
where
  /-- The property holds of several trees. -/
  all : ∀ cs : List Node, ∀ c ∈ cs, P c
    | [], _, hc => absurd hc List.not_mem_nil
    | d :: rest, c, hc =>
        (List.mem_cons.1 hc).elim (fun heq => heq ▸ induction h d) (fun hmem => all rest c hmem)

/-! ### Targets and their parts -/

/-- A target in a role. -/
structure TargetIn (r : Role) (n : Node) : Prop where
  role : n.role = r
  kind : isTargetKind n.kind = true

/-- The only child in a role, if there is one, is a target. -/
def SoleTarget (r : Role) (cs : List Node) : Prop :=
  ∀ c ∈ cs, c.role = r → isTargetKind c.kind = true ∧ cs.find? (fun d => d.role == r) = some c

/-- Two children in two roles. -/
def Halves (r r' : Role) (cs : List Node) : Prop :=
  ∃ c d, cs = [c, d] ∧ c.role = r ∧ d.role = r'

theorem halves_pair {r r' : Role} {c d : Node} : Halves r r' [c, d] ↔ c.role = r ∧ d.role = r' := by
  constructor
  · rintro ⟨c', d', heq, hc, hd⟩
    cases heq
    exact ⟨hc, hd⟩
  · rintro ⟨hc, hd⟩
    exact ⟨c, d, rfl, hc, hd⟩

theorem SoleTarget.of_forall_ne {r : Role} {cs : List Node} (h : ∀ c ∈ cs, c.role ≠ r) :
    SoleTarget r cs :=
  fun c hc hrole => absurd hrole (h c hc)

theorem SoleTarget.cons {r : Role} {c : Node} {cs : List Node}
    (hc : c.role = r → isTargetKind c.kind = true) (hcs : ∀ d ∈ cs, d.role ≠ r) :
    SoleTarget r (c :: cs) := by
  intro d hd hrole
  rcases List.mem_cons.1 hd with rfl | hd
  · exact ⟨hc hrole, by rw [List.find?_cons, hrole, beq_self_eq_true]⟩
  · exact absurd hrole (hcs d hd)

/-- A child in another role changes nothing. -/
theorem SoleTarget.cons_of_ne {r : Role} {c : Node} {cs : List Node} (h : SoleTarget r cs)
    (hc : c.role ≠ r) : SoleTarget r (c :: cs) := by
  intro d hd hrole
  rcases List.mem_cons.1 hd with rfl | hd
  · exact absurd hrole hc
  · rw [List.find?_cons, beq_false_of_ne hc]
    exact h d hd hrole

theorem SoleTarget.append {r : Role} {cs ds : List Node} (h : SoleTarget r cs)
    (hds : ∀ d ∈ ds, d.role ≠ r) : SoleTarget r (cs ++ ds) := by
  intro c hc hrole
  rcases List.mem_append.1 hc with hc | hc
  · obtain ⟨hkind, hfirst⟩ := h c hc hrole
    exact ⟨hkind, by rw [List.find?_append, hfirst, Option.some_or]⟩
  · exact absurd hrole (hds c hc)

/-- The only child in the role of a name, if there is one, is a plain name. -/
def Named (cs : List Node) : Prop :=
  (∀ c ∈ cs, c.role = .name → c.kind = .identifier) ∧ SoleTarget .name cs

theorem Named.of_forall_ne {cs : List Node} (h : ∀ c ∈ cs, c.role ≠ .name) : Named cs :=
  ⟨fun c hc hrole => absurd hrole (h c hc), .of_forall_ne h⟩

theorem Named.cons {c : Node} {cs : List Node} (hc : c.kind = .identifier)
    (hcs : ∀ d ∈ cs, d.role ≠ .name) : Named (c :: cs) := by
  refine ⟨fun d hd hrole => ?_, .cons (fun _ => by rw [hc]; rfl) hcs⟩
  rcases List.mem_cons.1 hd with rfl | hd
  · exact hc
  · exact absurd hrole (hcs d hd)

/-! ### Well-formed trees -/

/-- What the kind of a node says about the kinds and roles of its children. -/
def Shape (k : Kind) (cs : List Node) : Prop :=
  match k with
  | .functionDeclaration | .generatorDeclaration | .classDeclaration => Named cs
  | .functionExpression | .generatorExpression | .classExpression => Named cs
  | .lexicalDeclaration | .variableDeclaration => ∀ c ∈ cs, c.kind = .variableDeclarator
  | .variableDeclarator =>
      ∃ target rest, cs = target :: rest ∧ target.role = .name ∧ rest.length ≤ 1 ∧
        (∀ c ∈ rest, c.role = .value) ∧ isTargetKind target.kind = true
  | .forInStatement => (∃ c ∈ cs, c.role = .declarationWord) → SoleTarget .left cs
  | .arrowFunction | .catchClause => SoleTarget .parameter cs
  | .formalParameters | .objectPattern | .arrayPattern | .restPattern =>
      ∀ c ∈ cs, isTargetKind c.kind = true
  | .pair => Halves .key .value cs
  | .pairPattern => Halves .key .value cs ∧ SoleTarget .value cs
  | .assignment => Halves .left .right cs
  | .coverInitializer | .assignmentPattern | .objectAssignmentPattern =>
      Halves .left .right cs ∧ SoleTarget .left cs
  | _ => True

/-- What holds of a node itself: a word is spelled where it stands, and the children of another node
have its shape. -/
def HasForm (source : List Char) (k : Kind) (start stop : Nat) (text : String) (cs : List Node) :
    Prop :=
  if isNamed k then cs = [] ∧ SpelledAt source start stop text else Shape k cs

/-- A well-formed tree: each node has its form, and its children lie in its range one after the
other. -/
def WellFormed (source : List Char) : Node → Prop
  | node k _ a b t cs => HasForm source k a b t cs ∧ row a b cs
where
  /-- Several well-formed trees lie in a range, one after the other. -/
  row (lo hi : Nat) : List Node → Prop
    | [] => lo ≤ hi
    | c :: rest => lo ≤ c.start ∧ WellFormed source c ∧ row c.stop hi rest

/-- Several well-formed trees lie in a range, one after the other. -/
abbrev Row (source : List Char) (lo hi : Nat) (ns : List Node) : Prop :=
  WellFormed.row source lo hi ns

/-- A well-formed tree in a range. -/
structure Fits (source : List Char) (lo hi : Nat) (n : Node) : Prop where
  wellFormed : n.WellFormed source
  lo_le : lo ≤ n.start
  le_hi : n.stop ≤ hi

variable {source : List Char}

theorem wellFormed_iff {n : Node} : n.WellFormed source ↔
    HasForm source n.kind n.start n.stop n.text n.children ∧ Row source n.start n.stop n.children := by
  cases n
  rfl

theorem row_nil {lo hi : Nat} : Row source lo hi [] ↔ lo ≤ hi := Iff.rfl

theorem HasForm.of_shape {k : Kind} {a b : Nat} {t : String} {cs : List Node}
    (hk : isNamed k = false) (h : Shape k cs) : HasForm source k a b t cs := by
  rwa [HasForm, if_neg (by simp [hk])]

theorem HasForm.shape {k : Kind} {a b : Nat} {t : String} {cs : List Node}
    (h : HasForm source k a b t cs) (hk : isNamed k = false) : Shape k cs := by
  rwa [HasForm, if_neg (by simp [hk])] at h

/-- A tree ends after it begins. -/
theorem WellFormed.start_le_stop : ∀ {n : Node}, n.WellFormed source → n.start ≤ n.stop
  | node _ _ _ _ _ cs, h => row_le cs h.2
where
  /-- A range in which trees lie ends after it begins. -/
  row_le : ∀ (cs : List Node) {lo hi : Nat}, Row source lo hi cs → lo ≤ hi
    | [], _, _, h => h
    | _ :: rest, _, _, h =>
        Nat.le_trans h.1 (Nat.le_trans (start_le_stop h.2.1) (row_le rest h.2.2))

/-! ### Rows -/

theorem Row.le {lo hi : Nat} {cs : List Node} (h : Row source lo hi cs) : lo ≤ hi :=
  WellFormed.start_le_stop.row_le cs h

/-- A row lies in every range around its own. -/
theorem Row.mono {lo lo' hi hi' : Nat} {cs : List Node} (h : Row source lo hi cs) (hlo : lo' ≤ lo)
    (hhi : hi ≤ hi') : Row source lo' hi' cs := by
  induction cs generalizing lo lo' with
  | nil => exact Nat.le_trans hlo (Nat.le_trans h hhi)
  | cons c rest ih => exact ⟨Nat.le_trans hlo h.1, h.2.1, ih h.2.2 (Nat.le_refl _)⟩

theorem Row.append {lo mid hi : Nat} {cs ds : List Node} (h : Row source lo mid cs)
    (h' : Row source mid hi ds) : Row source lo hi (cs ++ ds) := by
  induction cs generalizing lo with
  | nil => exact h'.mono h (Nat.le_refl _)
  | cons c rest ih => exact ⟨h.1, h.2.1, ih h.2.2⟩

theorem Fits.cons {lo mid hi : Nat} {c : Node} {rest : List Node} (h : Fits source lo mid c)
    (h' : Row source mid hi rest) : Row source lo hi (c :: rest) :=
  ⟨h.lo_le, h.wellFormed, h'.mono h.le_hi (Nat.le_refl _)⟩

theorem Fits.row {lo hi : Nat} {c : Node} (h : Fits source lo hi c) : Row source lo hi [c] :=
  h.cons (Nat.le_refl hi)

theorem Fits.mono {lo lo' hi hi' : Nat} {n : Node} (h : Fits source lo hi n) (hlo : lo' ≤ lo)
    (hhi : hi ≤ hi') : Fits source lo' hi' n :=
  ⟨h.wellFormed, Nat.le_trans hlo h.lo_le, Nat.le_trans h.le_hi hhi⟩

/-- A tree fits in a range that begins where it does. -/
theorem Fits.tight {lo hi : Nat} {n : Node} (h : Fits source lo hi n) :
    Fits source n.start hi n :=
  ⟨h.wellFormed, Nat.le_refl _, h.le_hi⟩

theorem Fits.start_le_stop {lo hi : Nat} {n : Node} (h : Fits source lo hi n) :
    n.start ≤ n.stop :=
  h.wellFormed.start_le_stop

/-- The trees of a row fit in its range. -/
theorem Row.fits {lo hi : Nat} {cs : List Node} (h : Row source lo hi cs) :
    ∀ c ∈ cs, Fits source lo hi c := by
  induction cs generalizing lo with
  | nil => simp
  | cons c rest ih =>
      intro d hd
      have hstop := h.2.1.start_le_stop
      rcases List.mem_cons.1 hd with rfl | hd
      · exact ⟨h.2.1, h.1, Row.le h.2.2⟩
      · exact (ih h.2.2 d hd).mono (Nat.le_trans h.1 hstop) (Nat.le_refl _)

/-- A row begins at its first tree and ends at its last one. -/
theorem Row.tight {lo hi : Nat} {c : Node} {rest : List Node}
    (h : Row source lo hi (c :: rest)) :
    Row source c.start (rest.getLast?.getD c).stop (c :: rest) ∧
      (rest.getLast?.getD c).stop ≤ hi := by
  induction rest generalizing lo c with
  | nil => exact ⟨⟨Nat.le_refl _, h.2.1, Nat.le_refl _⟩, h.2.2⟩
  | cons d rest ih =>
      obtain ⟨hrow, hle⟩ := ih h.2.2
      have hlast : ((d :: rest).getLast?.getD c).stop = (rest.getLast?.getD d).stop := by
        rw [List.getLast?_cons]
        rfl
      rw [hlast]
      exact ⟨⟨Nat.le_refl _, h.2.1, hrow.mono h.2.2.1 (Nat.le_refl _)⟩, hle⟩

/-! ### Nodes with parts changed -/

theorem WellFormed.withRole {n : Node} (h : n.WellFormed source) (r : Role) :
    (n.withRole r).WellFormed source := by
  cases n
  exact h

theorem Fits.withRole {lo hi : Nat} {n : Node} (h : Fits source lo hi n) (r : Role) :
    Fits source lo hi (n.withRole r) :=
  ⟨h.wellFormed.withRole r, by simpa using h.lo_le, by simpa using h.le_hi⟩

/-- A word stays a word when it is taken for one of another kind. -/
theorem Fits.withKind {lo hi : Nat} {n : Node} (h : Fits source lo hi n)
    (hn : isNamed n.kind = true) {k : Kind} (hk : isNamed k = true) :
    Fits source lo hi (n.withKind k) := by
  obtain ⟨kind, r, a, b, t, cs⟩ := n
  obtain ⟨⟨hform, hrow⟩, hlo, hhi⟩ := h
  rw [kind_node] at hn
  rw [HasForm, if_pos hn] at hform
  exact ⟨⟨by rwa [HasForm, if_pos hk], hrow⟩, hlo, hhi⟩

/-- A word that was read, as a node. -/
theorem fits_of_spells {c d : Cursor} {w : String} (hc : c.In source) (h : c.Spells w d) {k : Kind}
    (hk : isNamed k = true) (r : Role) {lo : Nat} (hlo : lo ≤ c.offset) :
    Fits source lo d.offset (node k r c.offset d.offset w []) := by
  refine ⟨⟨?_, h.leads.offset_le⟩, hlo, Nat.le_refl _⟩
  rw [HasForm, if_pos hk]
  exact ⟨rfl, c, d, hc, h, rfl, rfl⟩

/-- A node of a kind with a shape, over a row of children. -/
theorem fits_node {lo hi a : Nat} {k : Kind} {cs : List Node} (hk : isNamed k = false)
    (hshape : Shape k cs) (hrow : Row source a hi cs) (hlo : lo ≤ a) (r : Role) (t : String) :
    Fits source lo hi (node k r a hi t cs) :=
  ⟨⟨.of_shape hk hshape, hrow⟩, hlo, Nat.le_refl _⟩

/-! ### Targets -/

/-- A tree that stands in the place of another one: it has the range and the role of the other and is
well-formed if the other is. -/
structure Replaces (source : List Char) (p n : Node) : Prop where
  wellFormed : n.WellFormed source → p.WellFormed source
  start_eq : p.start = n.start
  stop_eq : p.stop = n.stop
  role_eq : p.role = n.role

theorem Replaces.fits {p n : Node} (h : Replaces source p n) {lo hi : Nat}
    (hn : Fits source lo hi n) : Fits source lo hi p :=
  ⟨h.wellFormed hn.wellFormed, h.start_eq ▸ hn.lo_le, h.stop_eq ▸ hn.le_hi⟩

theorem Replaces.row {p n : Node} (h : Replaces source p n) {lo hi : Nat} {rest : List Node}
    (hrow : Row source lo hi (n :: rest)) : Row source lo hi (p :: rest) := by
  refine ⟨h.start_eq ▸ hrow.1, h.wellFormed hrow.2.1, ?_⟩
  rw [h.stop_eq]
  exact hrow.2.2

/-- A node of another kind stands in the place of a node if its children have its shape and make a row
in its range. -/
theorem replaces_node {k k' : Kind} {r : Role} {a b : Nat} {t : String} {cs cs' : List Node}
    (hk : isNamed k = false) (hk' : isNamed k' = false) (hshape : Shape k cs → Shape k' cs')
    (hrow : Row source a b cs → Row source a b cs') :
    Replaces source (node k' r a b t cs') (node k r a b t cs) where
  wellFormed h := ⟨.of_shape hk' (hshape (h.1.shape hk)), hrow h.2⟩
  start_eq := rfl
  stop_eq := rfl
  role_eq := rfl

/-- Expressions that are taken as targets stay a row. -/
theorem row_targets? {slot : Slot} {cs ps : List Node}
    (hcs : ∀ c ∈ cs, ∀ p, asTarget? slot c = some p → Replaces source p c)
    (h : asTarget?.targets? slot cs = some ps) {lo hi : Nat} (hrow : Row source lo hi cs) :
    Row source lo hi ps := by
  induction cs generalizing lo ps with
  | nil =>
      obtain rfl := Option.some.inj h
      exact hrow
  | cons c rest ih =>
      rw [asTarget?.targets?] at h
      split at h
      · next p qs hp hqs =>
          obtain rfl := Option.some.inj h
          have hfirst := hcs c List.mem_cons_self p hp
          refine ⟨hfirst.start_eq ▸ hrow.1, hfirst.wellFormed hrow.2.1, ?_⟩
          rw [hfirst.stop_eq]
          exact ih (fun d hd => hcs d (List.mem_cons_of_mem _ hd)) hqs hrow.2.2
      · simp at h

theorem isTargetKind_of_isSimpleTarget {k : Kind} (h : isSimpleTarget k = true) :
    isTargetKind k = true := by
  cases k <;> first | rfl | simp [isSimpleTarget] at h

/-- What an expression is taken as is a target. -/
theorem isTargetKind_of_asTarget? {slot : Slot} {n p : Node} (h : asTarget? slot n = some p) :
    isTargetKind p.kind = true := by
  cases n
  unfold asTarget? at h
  split at h
  · obtain rfl := Option.some.inj h
    rfl
  · obtain rfl := Option.some.inj h
    rfl
  · obtain ⟨q, -, rfl⟩ := Option.map_eq_some_iff.1 h
    rfl
  · obtain ⟨q, -, rfl⟩ := Option.map_eq_some_iff.1 h
    rfl
  · obtain ⟨q, -, rfl⟩ := Option.map_eq_some_iff.1 h
    rfl
  · simp at h
  · split at h
    · obtain rfl := Option.some.inj h
      rfl
    · simp at h
  · obtain ⟨qs, -, rfl⟩ := Option.map_eq_some_iff.1 h
    rfl
  · obtain ⟨qs, -, rfl⟩ := Option.map_eq_some_iff.1 h
    rfl
  · split at h
    · next hsimple =>
        obtain rfl := Option.some.inj h
        exact isTargetKind_of_isSimpleTarget hsimple
    · simp at h

theorem isTargetKind_of_targets? {slot : Slot} {cs ps : List Node}
    (h : asTarget?.targets? slot cs = some ps) : ∀ p ∈ ps, isTargetKind p.kind = true := by
  induction cs generalizing ps with
  | nil =>
      obtain rfl := Option.some.inj h
      simp
  | cons c rest ih =>
      rw [asTarget?.targets?] at h
      split at h
      · next p qs hp hqs =>
          obtain rfl := Option.some.inj h
          exact List.forall_mem_cons.2 ⟨isTargetKind_of_asTarget? hp, ih hqs⟩
      · simp at h

/-- A pair whose value is taken as a target. -/
theorem shape_pairPattern {key value q : Node} (hq : isTargetKind q.kind = true)
    (hrole : q.role = value.role) (h : Shape .pair [key, value]) : Shape .pairPattern [key, q] := by
  obtain ⟨hkey, hvalue⟩ := halves_pair.1 h
  refine ⟨halves_pair.2 ⟨hkey, hrole.trans hvalue⟩, ?_⟩
  refine SoleTarget.cons_of_ne (.cons (fun _ => hq) (by simp)) ?_
  simp [hkey]

/-- An assignment to a target, as a target with a default value. -/
theorem shape_assignmentPattern {left right : Node} (hleft : isTargetKind left.kind = true)
    (h : Shape .assignment [left, right]) : Shape .assignmentPattern [left, right] := by
  obtain ⟨-, hright⟩ := halves_pair.1 h
  exact ⟨h, .cons (fun _ => hleft) (by simp [hright])⟩

/-- An expression that is taken as a target stays where it is. -/
theorem replaces_asTarget? (n : Node) :
    ∀ slot p, asTarget? slot n = some p → Replaces source p n := by
  induction n using Node.induction with
  | h k r a b t cs ih =>
      intro slot p hp
      unfold asTarget? at hp
      split at hp
      · obtain rfl := Option.some.inj hp
        exact ⟨id, rfl, rfl, rfl⟩
      · obtain rfl := Option.some.inj hp
        exact replaces_node rfl rfl id id
      · next key value =>
          obtain ⟨q, hq, rfl⟩ := Option.map_eq_some_iff.1 hp
          have hvalue := ih value (by simp) _ q hq
          exact replaces_node rfl rfl (shape_pairPattern (isTargetKind_of_asTarget? hq) hvalue.role_eq)
            fun hrow => ⟨hrow.1, hrow.2.1, hvalue.row hrow.2.2⟩
      · next rest =>
          obtain ⟨q, hq, rfl⟩ := Option.map_eq_some_iff.1 hp
          exact replaces_node rfl rfl (fun _ => by simpa [Shape] using isTargetKind_of_asTarget? hq)
            (ih rest (by simp) _ q hq).row
      · next rest =>
          obtain ⟨q, hq, rfl⟩ := Option.map_eq_some_iff.1 hp
          exact replaces_node rfl rfl (fun _ => by simpa [Shape] using isTargetKind_of_asTarget? hq)
            (ih rest (by simp) _ q hq).row
      · simp at hp
      · split at hp
        · next hsimple =>
            obtain rfl := Option.some.inj hp
            exact replaces_node rfl rfl
              (shape_assignmentPattern (isTargetKind_of_isSimpleTarget hsimple)) id
        · simp at hp
      · obtain ⟨qs, hqs, rfl⟩ := Option.map_eq_some_iff.1 hp
        exact replaces_node rfl rfl (fun _ => isTargetKind_of_targets? hqs)
          (row_targets? (fun c hc => ih c hc _) hqs)
      · obtain ⟨qs, hqs, rfl⟩ := Option.map_eq_some_iff.1 hp
        exact replaces_node rfl rfl (fun _ => isTargetKind_of_targets? hqs)
          (row_targets? (fun c hc => ih c hc _) hqs)
      · split at hp
        · obtain rfl := Option.some.inj hp
          exact ⟨id, rfl, rfl, rfl⟩
        · simp at hp

theorem Fits.asPattern? {lo hi : Nat} {n p : Node} (h : Fits source lo hi n)
    (hp : n.asPattern? = some p) : Fits source lo hi p :=
  (replaces_asTarget? n _ p hp).fits h

theorem Row.asParameters? {lo hi : Nat} {ns ps : List Node} (h : Row source lo hi ns)
    (hp : asParameters? ns = some ps) : Row source lo hi ps :=
  row_targets? (fun c _ => replaces_asTarget? c _) hp h

/-! ### Nodes of a tree -/

theorem preorder_node (k : Kind) (r : Role) (a b : Nat) (t : String) (cs : List Node) :
    (node k r a b t cs).preorder = node k r a b t cs :: cs.flatMap preorder := by
  have hall : ∀ ds : List Node, preorder.preorderAll ds = ds.flatMap preorder := by
    intro ds
    induction ds with
    | nil => rfl
    | cons d rest ih => rw [preorder.preorderAll, ih, List.flatMap_cons]
  rw [preorder, hall]

theorem mem_preorder_self (n : Node) : n ∈ n.preorder := by
  cases n
  rw [preorder_node]
  exact List.mem_cons_self

/-- Every node of a well-formed tree is well-formed, in the range of the tree. -/
theorem Fits.of_mem_preorder {lo hi : Nat} {n : Node} (h : Fits source lo hi n) :
    ∀ m ∈ n.preorder, Fits source lo hi m := by
  induction n using Node.induction generalizing lo hi with
  | h k r a b t cs ih =>
      intro m hm
      rw [preorder_node] at hm
      rcases List.mem_cons.1 hm with rfl | hm
      · exact h
      · obtain ⟨c, hc, hmem⟩ := List.mem_flatMap.1 hm
        have hchild : Fits source a b c := Row.fits h.wellFormed.2 c hc
        exact ih c hc (hchild.mono h.lo_le h.le_hi) m hmem

/-- Every node of a well-formed tree fits in the range of the tree. -/
theorem WellFormed.fits_of_mem {n m : Node} (h : n.WellFormed source) (hm : m ∈ n.preorder) :
    Fits source n.start n.stop m :=
  Fits.of_mem_preorder ⟨h, Nat.le_refl _, Nat.le_refl _⟩ m hm

end Node

end Script

end SketchHost
