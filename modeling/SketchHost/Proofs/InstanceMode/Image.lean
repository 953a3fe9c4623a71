/-
**The converted tree.**

A converted sketch is meant to be read as the tree of the sketch with its names replaced: accesses to
the instance where the library is used, new names for variables, and pairs in the place of shorthands
that change.  Here this tree is defined without positions.

* `Dialect.wordImage`, `Dialect.image` — what a word and a tree become;
* `Dialect.IsSplit` — a property with a default value whose name changes;
* `Dialect.image_cases` — a tree that is no word and no such property keeps its kind and its parts;
* `Dialect.not_isOnInstance_of_isBinding`, `Dialect.not_isOnInstance_of_mem` — the names that become no
  access;
* `Dialect.text_image` — a name that is not renamed stays.
-/

import SketchHost.Proofs.InstanceMode.Shadowing
import SketchHost.Proofs.Script.Bare

set_option relaxedAutoImplicit false
set_option autoImplicit false

namespace SketchHost

open Script

namespace Dialect

/-! ### Images -/

/-- A word without positions. -/
def bareWord (k : Kind) (r : Role) (t : String) : Node :=
  .node k r 0 0 t []

/-- An access to the instance. -/
def accessNode (d : Dialect) (r : Role) (name : String) : Node :=
  .node .member r 0 0 "" [bareWord .identifier .object d.namespaceName,
    bareWord .propertyName .property name]

/-- A key with what stands after it. -/
def keyedNode (k : Kind) (r : Role) (key : String) (value : Node) : Node :=
  .node k r 0 0 "" [bareWord .propertyName .key key, value]

/-- What a word becomes: an access, or a name; a shorthand that changes becomes a pair. -/
def wordImage (d : Dialect) (pl : Plan) (p : Node.Place) : Node :=
  let name := pl.nameOf p
  match p.node.kind with
  | .identifier =>
      if d.isOnInstance pl p then d.accessNode p.node.role p.node.text
      else bareWord .identifier p.node.role name
  | .shorthand =>
      if d.isOnInstance pl p then
        keyedNode .pair p.node.role p.node.text (d.accessNode .value p.node.text)
      else if name == p.node.text then bareWord .shorthand p.node.role name
      else keyedNode .pair p.node.role p.node.text (bareWord .identifier .value name)
  | _ =>
      if name == p.node.text then bareWord .shorthandPattern p.node.role name
      else keyedNode .pairPattern p.node.role p.node.text (bareWord .identifier .value name)

/-- The name of a property with a default value in a pattern, if it changes. -/
def changedName? (pl : Plan) (p : Node.Place) : Option Node :=
  match p.node.kind, p.node.role, p.node.children with
  | .objectAssignmentPattern, .plain, left :: _ =>
      if left.kind == .shorthandPattern && left.role == .left
          && pl.nameOf ⟨left, p.node :: p.above⟩ != left.text then some left
      else none
  | _, _, _ => none

/-- What a tree becomes, `above` being the nodes around it.  A property with a default value whose name
changes becomes a pair of its name and the new name with the default value. -/
def image (d : Dialect) (pl : Plan) (above : List Node) : Node → Node
  | .node k r a b t cs =>
      let here := Node.node k r a b t cs
      let parts := imageAll d pl (here :: above) cs
      if isVariableName k then d.wordImage pl ⟨here, above⟩
      else
        match changedName? pl ⟨here, above⟩ with
        | some left =>
            keyedNode .pairPattern r left.text (.node .assignmentPattern .value 0 0 ""
              (bareWord .identifier .left (pl.nameOf ⟨left, here :: above⟩) :: parts.tail))
        | none => .node k r 0 0 t parts
where
  /-- What several trees become. -/
  imageAll (d : Dialect) (pl : Plan) (above : List Node) : List Node → List Node
    | [] => []
    | c :: rest => image d pl above c :: imageAll d pl above rest

/-! ### The forms of images -/

variable {d : Dialect} {pl : Plan} {above : List Node} {n : Node} {p : Node.Place}

theorem imageAll_eq (d : Dialect) (pl : Plan) (above cs : List Node) :
    image.imageAll d pl above cs = cs.map (d.image pl above) := by
  induction cs with
  | nil => rfl
  | cons c rest ih => rw [image.imageAll, ih, List.map_cons]

theorem image_word (h : isVariableName n.kind = true) :
    d.image pl above n = d.wordImage pl ⟨n, above⟩ := by
  obtain ⟨k, r, a, b, t, cs⟩ := n
  rw [Node.kind_node] at h
  rw [image, if_pos h]

/-- A property with a default value whose name changes. -/
structure IsSplit (pl : Plan) (n left : Node) (above rest : List Node) : Prop where
  kind : n.kind = .objectAssignmentPattern
  role : n.role = .plain
  children : n.children = left :: rest
  leftKind : left.kind = .shorthandPattern
  leftRole : left.role = .left
  changes : pl.nameOf ⟨left, n :: above⟩ ≠ left.text

/-- The image of such a property. -/
def splitImage (d : Dialect) (pl : Plan) (n left : Node) (above rest : List Node) : Node :=
  keyedNode .pairPattern .plain left.text (.node .assignmentPattern .value 0 0 ""
    (bareWord .identifier .left (pl.nameOf ⟨left, n :: above⟩) :: rest.map (d.image pl (n :: above))))

/-- The image of a tree that keeps its kind and its parts. -/
def keptImage (d : Dialect) (pl : Plan) (n : Node) (above : List Node) : Node :=
  .node n.kind n.role 0 0 n.text (n.children.map (d.image pl (n :: above)))

theorem isSplit_of_changedName? {left : Node} (h : changedName? pl ⟨n, above⟩ = some left) :
    ∃ rest, IsSplit pl n left above rest := by
  unfold changedName? at h
  dsimp only at h
  split at h
  · next l rest hk hr hcs =>
      split at h
      · next hcond =>
          obtain rfl := Option.some.inj h
          simp only [Bool.and_eq_true, beq_iff_eq, bne_iff_ne, ne_eq] at hcond
          exact ⟨rest, hk, hr, hcs, hcond.1.1, hcond.1.2, hcond.2⟩
      · simp at h
  · simp at h

/-- A tree that is no word keeps its kind and its parts, or is a property with a default value whose
name changes. -/
theorem image_cases (d : Dialect) (pl : Plan) (above : List Node) (n : Node) :
    isVariableName n.kind = true ∨
    (∃ left rest, IsSplit pl n left above rest ∧ d.image pl above n = d.splitImage pl n left above rest)
      ∨ (isVariableName n.kind = false ∧ d.image pl above n = d.keptImage pl n above) := by
  obtain ⟨k, r, a, b, t, cs⟩ := n
  cases hk : isVariableName k with
  | true => exact Or.inl hk
  | false =>
      refine Or.inr ?_
      rw [image, if_neg (by simp [hk])]
      cases hchanged : changedName? pl ⟨.node k r a b t cs, above⟩ with
      | some left =>
          obtain ⟨rest, hsplit⟩ := isSplit_of_changedName? hchanged
          refine Or.inl ⟨left, rest, hsplit, ?_⟩
          obtain rfl : r = .plain := hsplit.role
          obtain rfl : cs = left :: rest := hsplit.children
          dsimp only
          rw [imageAll_eq, List.map_cons, List.tail_cons]
          rfl
      | none =>
          refine Or.inr ⟨hk, ?_⟩
          dsimp only
          rw [imageAll_eq]
          rfl

/-- A tree of any other kind keeps its kind and its parts. -/
theorem image_of_kind (hword : isVariableName n.kind = false) (hk : n.kind ≠ .objectAssignmentPattern) :
    d.image pl above n = d.keptImage pl n above := by
  rcases image_cases d pl above n with hname | ⟨left, rest, hsplit, -⟩ | ⟨-, himage⟩
  · rw [hword] at hname
    simp at hname
  · exact absurd hsplit.kind hk
  · exact himage

/-- A tree with a role of its own that is no word keeps its kind and its parts. -/
theorem image_of_role (hword : isVariableName n.kind = false) (hrole : n.role ≠ .plain) :
    d.image pl above n = d.keptImage pl n above := by
  rcases image_cases d pl above n with hname | ⟨left, rest, hsplit, -⟩ | ⟨-, himage⟩
  · rw [hword] at hname
    simp at hname
  · exact absurd hsplit.role hrole
  · exact himage

/-- The kinds of the images of words and of properties whose name changes. -/
def isWordForm (k : Kind) : Bool :=
  match k with
  | .identifier | .member | .shorthand | .pair | .shorthandPattern | .pairPattern => true
  | _ => false

theorem isWordForm_wordImage (d : Dialect) (pl : Plan) (p : Node.Place) :
    isWordForm (d.wordImage pl p).kind = true := by
  rw [wordImage]
  split
  · split <;> rfl
  · split
    · rfl
    · split <;> rfl
  · split <;> rfl

/-- A tree whose image is of any other kind keeps its kind and its parts. -/
theorem image_of_kind_image (h : isWordForm (d.image pl above n).kind = false) :
    d.image pl above n = d.keptImage pl n above := by
  rcases image_cases d pl above n with hword | ⟨left, rest, -, himage⟩ | ⟨-, himage⟩
  · rw [image_word hword, isWordForm_wordImage] at h
    simp at h
  · rw [himage] at h
    simp [splitImage, keyedNode, isWordForm] at h
  · exact himage

/-- A tree whose image is a name is a name, and the image has the name that it has afterwards. -/
theorem text_image_of_identifier (h : (d.image pl above n).kind = .identifier) :
    n.kind = .identifier ∧ (d.image pl above n).text = pl.nameOf ⟨n, above⟩ := by
  rcases image_cases d pl above n with hword | ⟨left, rest, -, himage⟩ | ⟨hword, himage⟩
  · rw [image_word hword, wordImage] at h ⊢
    dsimp only at h ⊢
    split at h
    · next hk =>
        refine ⟨hk, ?_⟩
        split at h
        · simp [accessNode] at h
        · next hname =>
            rw [if_neg hname]
            rfl
    · split at h
      · simp [keyedNode] at h
      · split at h <;> simp [keyedNode, bareWord] at h
    · split at h <;> simp [keyedNode, bareWord] at h
  · rw [himage] at h
    simp [splitImage, keyedNode] at h
  · rw [himage] at h
    rw [show n.kind = .identifier from h] at hword
    simp [isVariableName] at hword

@[simp] theorem role_wordImage (d : Dialect) (pl : Plan) (p : Node.Place) :
    (d.wordImage pl p).role = p.node.role := by
  rw [wordImage]
  split
  · split <;> rfl
  · split
    · rfl
    · split <;> rfl
  · split <;> rfl

/-- A tree keeps its role. -/
@[simp] theorem role_image (d : Dialect) (pl : Plan) (above : List Node) (n : Node) :
    (d.image pl above n).role = n.role := by
  rcases image_cases d pl above n with hword | ⟨left, rest, hsplit, himage⟩ | ⟨-, himage⟩
  · rw [image_word hword, role_wordImage]
  · rw [himage, hsplit.role]
    rfl
  · rw [himage]
    rfl

/-- The part in a role becomes the part in that role. -/
theorem child?_keptImage (d : Dialect) (pl : Plan) (n : Node) (above : List Node) (r : Role) :
    (d.keptImage pl n above).child? r = (n.child? r).map (d.image pl (n :: above)) := by
  rw [Node.child?, Node.child?, keptImage, Node.children_node,
    Node.find?_role_map (role_image d pl (n :: above))]

theorem declaresTarget_keptImage (d : Dialect) (pl : Plan) (n : Node) (above : List Node) :
    (d.keptImage pl n above).declaresTarget = n.declaresTarget := by
  rw [Node.declaresTarget, Node.declaresTarget, child?_keptImage, Option.isSome_map]

/-! ### Names that stay names -/

/-- A name that is declared where it stands becomes no access. -/
theorem not_isOnInstance_of_isBinding (hkind : p.node.kind = .identifier)
    (h : p.isBinding = true) : d.isOnInstance pl p = false := by
  have hcallee : isCallee p = false := by
    rw [isCallee]
    unfold Node.Place.isBinding at h
    split at h
    · simp at h
    · next parent hparent =>
        have hcall : parent.kind ≠ .call := by
          intro hk
          rw [hk] at h
          simp [Node.isNamedDefinition] at h
        simp [hparent, hcall]
  rw [isOnInstance_eq, refers, hkind]
  simp [hcallee, h]

/-- A name that a local declaration around it has becomes no access. -/
theorem not_isOnInstance_of_mem {m b : Node} (hm : m ∈ p.above) (hb : b ∈ m.localBindings)
    (htext : b.text = p.node.text) : d.isOnInstance pl p = false := by
  rw [isOnInstance_eq, Node.Place.isLocal_of_mem hm hb htext]
  simp

/-- A tree that becomes no access and whose name is not renamed keeps its name, unless it is a property
with a default value. -/
theorem text_image (hrole : n.role ≠ .plain) (howns : pl.renames.owns n.text = false)
    (hname : d.isOnInstance pl ⟨n, above⟩ = false) : (d.image pl above n).text = n.text := by
  rcases image_cases d pl above n with hword | ⟨left, rest, hsplit, -⟩ | ⟨-, himage⟩
  · have hnameOf : pl.nameOf ⟨n, above⟩ = n.text := nameOf_of_not_owns howns
    rw [image_word hword, wordImage]
    dsimp only
    rw [hnameOf, hname]
    split
    · rfl
    · simp [bareWord]
    · simp [bareWord]
  · exact absurd hsplit.role hrole
  · rw [himage]
    rfl

end Dialect

end SketchHost
