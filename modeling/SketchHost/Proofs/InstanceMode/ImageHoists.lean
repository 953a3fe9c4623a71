/-
**Nothing of a converted program is hoisted.**

Whether a statement is hoisted can be told without positions.  A statement that was hoisted assigns to
the instance and to no name, and any other one is not hoisted afterwards: its name is the one that it
had, or it has the prefix, and then it belongs to no library.

* `Dialect.isHoisted`, `Dialect.isSome_hoist?` — whether a statement is hoisted, positions apart;
* `Dialect.isHoisted_image` — the image of a statement is hoisted only if the statement is;
* `Dialect.isHoisted_of_mem_programImage` — **no statement of a converted program is hoisted**;
* `Dialect.isHoisted_bare` — positions do not count.
-/

import SketchHost.Proofs.InstanceMode.ImageProgram

set_option relaxedAutoImplicit false
set_option autoImplicit false

namespace SketchHost

open Script

namespace Dialect

variable {d : Dialect} {pl : Plan} {chars : List Char} {root s : Node} {x : Hoist}

/-! ### Hoists without positions -/

/-- Whether a named function is hoisted. -/
def isHoistedFunction (d : Dialect) (s : Node) : Bool :=
  (s.child? .name).any fun name => d.symbols.belongsToInstance name.text

/-- Whether a declarator is hoisted if it is the only one. -/
def isHoistedDeclarator (d : Dialect) (declarator : Node) : Bool :=
  ((declarator.child? .name).any fun name =>
      name.kind == .identifier && d.symbols.belongsToInstance name.text)
    && (declarator.child? .value).any fun value => isFunctionValue value.kind

/-- Whether a declaration of variables is hoisted. -/
def isHoistedDeclaration (d : Dialect) (s : Node) : Bool :=
  match s.children.filter fun c => c.kind == .variableDeclarator with
  | [declarator] => d.isHoistedDeclarator declarator
  | _ => false

/-- Whether an assignment is hoisted. -/
def isHoistedAssignment (d : Dialect) (e : Node) : Bool :=
  e.kind == .assignment
    && ((e.child? .left).any fun left => left.kind == .identifier && d.symbols.isHook left.text)
    && (e.child? .right).any fun right => isFunctionValue right.kind

/-- Whether a statement is hoisted, positions apart. -/
def isHoisted (d : Dialect) (s : Node) : Bool :=
  match s.kind with
  | .functionDeclaration | .generatorDeclaration => d.isHoistedFunction s
  | .lexicalDeclaration | .variableDeclaration => d.isHoistedDeclaration s
  | .expressionStatement => s.children.head?.any d.isHoistedAssignment
  | _ => false

theorem isSome_ofFunction? (d : Dialect) (chars : List Char) (s : Node) :
    (d.ofFunction? chars s).isSome = d.isHoistedFunction s := by
  rw [ofFunction?, isHoistedFunction]
  cases s.child? .name with
  | none => rfl
  | some name => cases hb : d.symbols.belongsToInstance name.text <;> simp [hb]

theorem isSome_ofVariable? (d : Dialect) (chars : List Char) (s : Node) :
    (d.ofVariable? chars s).isSome = d.isHoistedDeclaration s := by
  rw [ofVariable?, isHoistedDeclaration]
  generalize s.children.filter (fun c => c.kind == .variableDeclarator) = declarators
  rcases declarators with _ | ⟨declarator, _ | ⟨second, rest⟩⟩
  · rfl
  · dsimp only
    rw [isHoistedDeclarator]
    cases declarator.child? .name with
    | none => rfl
    | some name =>
        cases declarator.child? .value with
        | none => simp
        | some value =>
            simp only [Option.bind_eq_bind, Option.bind_some, Option.any_some]
            cases name.kind == .identifier <;> cases isFunctionValue value.kind <;>
              cases d.symbols.belongsToInstance name.text <;> rfl
  · rfl

theorem isSome_ofAssignment? (d : Dialect) (s : Node) :
    (d.ofAssignment? s).isSome = s.children.head?.any d.isHoistedAssignment := by
  rw [ofAssignment?]
  cases s.children.head? with
  | none => rfl
  | some e =>
      rw [Option.any_some, isHoistedAssignment]
      simp only [Option.bind_eq_bind, Option.bind_some]
      split
      · next hassignment =>
          cases e.child? .left with
          | none => simp
          | some left =>
              cases e.child? .right with
              | none => simp
              | some right =>
                  simp only [Option.bind_some, Option.any_some, hassignment]
                  cases left.kind == .identifier <;> cases isFunctionValue right.kind <;>
                    cases d.symbols.isHook left.text <;> rfl
      · next hassignment =>
          rw [Bool.not_eq_true] at hassignment
          rw [hassignment]
          rfl

theorem isSome_hoist? (d : Dialect) (chars : List Char) (s : Node) :
    (d.hoist? chars s).isSome = d.isHoisted s := by
  rw [hoist?, isHoisted]
  cases s.kind <;>
    first
    | exact isSome_ofFunction? d chars s
    | exact isSome_ofVariable? d chars s
    | exact isSome_ofAssignment? d s
    | rfl

theorem hoist?_eq_none_iff : d.hoist? chars s = none ↔ d.isHoisted s = false := by
  rw [← isSome_hoist? d chars s]
  simp

theorem isHoistedDeclarator_bare (d : Dialect) (n : Node) :
    d.isHoistedDeclarator n.bare = d.isHoistedDeclarator n := by
  rw [isHoistedDeclarator, isHoistedDeclarator, Node.child?_bare, Node.child?_bare, Option.any_map,
    Option.any_map]
  simp

theorem isHoistedAssignment_bare (d : Dialect) (n : Node) :
    d.isHoistedAssignment n.bare = d.isHoistedAssignment n := by
  rw [isHoistedAssignment, isHoistedAssignment, Node.child?_bare, Node.child?_bare, Option.any_map,
    Option.any_map]
  simp

theorem isHoistedDeclaration_bare (d : Dialect) (n : Node) :
    d.isHoistedDeclaration n.bare = d.isHoistedDeclaration n := by
  have hkind : (fun c : Node => c.kind == .variableDeclarator) ∘ Node.bare
      = fun c => c.kind == .variableDeclarator := by
    funext c
    simp
  rw [isHoistedDeclaration, isHoistedDeclaration, Node.children_bare, List.filter_map, hkind]
  generalize n.children.filter (fun c => c.kind == .variableDeclarator) = declarators
  rcases declarators with _ | ⟨declarator, _ | ⟨second, rest⟩⟩
  · rfl
  · exact isHoistedDeclarator_bare d declarator
  · rfl

/-- Whether a statement is hoisted does not depend on positions. -/
theorem isHoisted_bare (d : Dialect) (n : Node) : d.isHoisted n.bare = d.isHoisted n := by
  rw [isHoisted, isHoisted, Node.kind_bare]
  split
  · rw [isHoistedFunction, isHoistedFunction, Node.child?_bare, Option.any_map]
    simp
  · rw [isHoistedFunction, isHoistedFunction, Node.child?_bare, Option.any_map]
    simp
  · exact isHoistedDeclaration_bare d n
  · exact isHoistedDeclaration_bare d n
  · rw [Node.children_bare, List.head?_map, Option.any_map]
    congr 1
    funext e
    exact isHoistedAssignment_bare d e
  · rfl

/-! ### Hoists of converted programs -/

/-- A name that belongs to the instance was that name before. -/
theorem nameOf_of_belongs {p : Node.Place} (hd : d.IsApart)
    (hrule : Renames.Follows (Renames.prefixed d.lead) pl.renames)
    (h : d.symbols.belongsToInstance (pl.nameOf p) = true) : pl.nameOf p = p.node.text := by
  refine (nameOf_cases pl p).elim id fun hnew => ?_
  obtain ⟨-, -, hbelongs⟩ := hd.library _ (lead_of_target? hrule hnew)
  rw [hbelongs] at h
  simp at h

/-- An image is a function as a value if the tree is one. -/
theorem isFunctionValue_image {n : Node} {above : List Node}
    (h : isFunctionValue (d.image pl above n).kind = true) : isFunctionValue n.kind = true := by
  have hform : isWordForm (d.image pl above n).kind = false := by
    cases hk : (d.image pl above n).kind <;> rw [hk] at h <;>
      first | rfl | simp [isFunctionValue] at h
  rwa [image_of_kind_image hform] at h

/-- The image of a declarator is hoisted only if the declarator is. -/
theorem isHoistedDeclarator_image {n : Node} {above : List Node} (hd : d.IsApart)
    (hrule : Renames.Follows (Renames.prefixed d.lead) pl.renames)
    (h : d.isHoistedDeclarator (d.keptImage pl n above) = true) : d.isHoistedDeclarator n = true := by
  rw [isHoistedDeclarator, child?_keptImage, child?_keptImage, Bool.and_eq_true, Option.any_map,
    Option.any_map, Option.any_eq_true, Option.any_eq_true] at h
  obtain ⟨⟨name, hname, hbelongs⟩, value, hvalue, hfunction⟩ := h
  simp only [Bool.and_eq_true, beq_iff_eq] at hbelongs
  obtain ⟨hk, htext⟩ := text_image_of_identifier hbelongs.1
  have hsame : pl.nameOf ⟨name, n :: above⟩ = name.text :=
    nameOf_of_belongs hd hrule (by rw [← htext]; exact hbelongs.2)
  rw [htext, hsame] at hbelongs
  rw [isHoistedDeclarator, hname, hvalue, Option.any_some, Option.any_some, Bool.and_eq_true]
  exact ⟨by simp [hk, hbelongs.2], isFunctionValue_image hfunction⟩

/-- The image of an assignment is hoisted only if the assignment is. -/
theorem isHoistedAssignment_image {n : Node} {above : List Node} (hd : d.IsApart)
    (hrule : Renames.Follows (Renames.prefixed d.lead) pl.renames)
    (h : d.isHoistedAssignment (d.image pl above n) = true) : d.isHoistedAssignment n = true := by
  rw [isHoistedAssignment, Bool.and_eq_true, Bool.and_eq_true, beq_iff_eq] at h
  obtain ⟨⟨hassignment, hleft⟩, hright⟩ := h
  have hkept : d.image pl above n = d.keptImage pl n above :=
    image_of_kind_image (by rw [hassignment]; rfl)
  rw [hkept] at hassignment hleft hright
  rw [child?_keptImage, Option.any_map, Option.any_eq_true] at hleft hright
  obtain ⟨left, hleft, hhook⟩ := hleft
  obtain ⟨right, hright, hfunction⟩ := hright
  simp only [Bool.and_eq_true, beq_iff_eq] at hhook
  obtain ⟨hk, htext⟩ := text_image_of_identifier hhook.1
  have hsame : pl.nameOf ⟨left, n :: above⟩ = left.text := by
    refine nameOf_of_belongs hd hrule ?_
    rw [SymbolTable.belongsToInstance, ← htext, hhook.2]
    rfl
  rw [htext, hsame] at hhook
  have hkind : n.kind = .assignment := hassignment
  rw [isHoistedAssignment, hleft, hright, Option.any_some, Option.any_some, Bool.and_eq_true,
    Bool.and_eq_true]
  exact ⟨⟨by simp [hkind], by simp [hk, hhook.2]⟩, isFunctionValue_image hfunction⟩

/-- The image of a named function is hoisted only if the function is. -/
theorem isHoistedFunction_image {n : Node} {above : List Node} (hd : d.IsApart)
    (hrule : Renames.Follows (Renames.prefixed d.lead) pl.renames) (hwf : n.WellFormed chars)
    (hkind : n.kind = .functionDeclaration ∨ n.kind = .generatorDeclaration)
    (h : d.isHoistedFunction (d.keptImage pl n above) = true) : d.isHoistedFunction n = true := by
  rw [isHoistedFunction, child?_keptImage, Option.any_map, Option.any_eq_true] at h
  obtain ⟨name, hname, hbelongs⟩ := h
  have hrole := Node.role_of_child? hname
  have hidentifier : name.kind = .identifier := by
    have hform := (Node.wellFormed_iff.1 hwf).1
    have hmem := Node.mem_children_of_child? hname
    rcases hkind with hk | hk <;> rw [hk] at hform <;> exact hform.1 name hmem hrole
  have hbinding : (⟨name, n :: above⟩ : Node.Place).isBinding = true := by
    rcases hkind with hk | hk <;>
      simp [Node.Place.isBinding, Node.Place.parent?, hk, hrole, Node.isNamedDefinition]
  have hstays : d.isOnInstance pl ⟨name, n :: above⟩ = false :=
    not_isOnInstance_of_isBinding hidentifier hbinding
  have htext : (d.image pl (n :: above) name).text = pl.nameOf ⟨name, n :: above⟩ := by
    rw [image_word (by rw [hidentifier]; rfl), wordImage]
    dsimp only
    rw [hidentifier]
    dsimp only
    rw [hstays]
    rfl
  rw [htext] at hbelongs
  rw [nameOf_of_belongs hd hrule hbelongs] at hbelongs
  rw [isHoistedFunction, hname, Option.any_some]
  exact hbelongs

/-- The image of a declaration of variables is hoisted only if the declaration is. -/
theorem isHoistedDeclaration_image {n : Node} {above : List Node} (hd : d.IsApart)
    (hrule : Renames.Follows (Renames.prefixed d.lead) pl.renames) (hwf : n.WellFormed chars)
    (hkind : Node.isVariableDeclaration n.kind = true)
    (h : d.isHoistedDeclaration (d.keptImage pl n above) = true) : d.isHoistedDeclaration n = true := by
  have hdeclarators := filter_declarators hwf hkind
  have hkept : ∀ c ∈ n.children, c.kind = .variableDeclarator ∧
      d.image pl (n :: above) c = d.keptImage pl c (n :: above) := by
    intro c hc
    have hk : c.kind = .variableDeclarator := by
      simpa using List.filter_eq_self.1 hdeclarators c hc
    exact ⟨hk, image_of_kind (by rw [hk]; rfl) (by rw [hk]; decide)⟩
  have himages : ((d.keptImage pl n above).children.filter fun c => c.kind == .variableDeclarator)
      = n.children.map (d.image pl (n :: above)) := by
    refine List.filter_eq_self.2 fun c hc => ?_
    obtain ⟨e, he, rfl⟩ := List.mem_map.1 hc
    obtain ⟨hk, himage⟩ := hkept e he
    rw [himage, beq_iff_eq]
    exact hk
  rw [isHoistedDeclaration, himages] at h
  rw [isHoistedDeclaration, hdeclarators]
  rcases hcs : n.children with _ | ⟨declarator, _ | ⟨second, rest⟩⟩
  · simp [hcs] at h
  · obtain ⟨-, himage⟩ := hkept declarator (by simp [hcs])
    rw [hcs, List.map_cons, List.map_nil, himage] at h
    exact isHoistedDeclarator_image hd hrule h
  · simp [hcs] at h

/-- The image of a statement is hoisted only if the statement is. -/
theorem isHoisted_image (hd : d.IsApart)
    (hrule : Renames.Follows (Renames.prefixed d.lead) pl.renames) (hs : s.WellFormed chars)
    (h : d.isHoisted (d.image pl [root] s) = true) : d.isHoisted s = true := by
  have hform : isWordForm (d.image pl [root] s).kind = false := by
    cases hk : (d.image pl [root] s).kind <;> rw [isHoisted, hk] at h <;> first | rfl | simp at h
  rw [image_of_kind_image hform] at h
  have hkind : (d.keptImage pl s [root]).kind = s.kind := rfl
  rw [isHoisted, hkind] at h
  rw [isHoisted]
  split at h
  · next hk => exact isHoistedFunction_image hd hrule hs (Or.inl hk) h
  · next hk => exact isHoistedFunction_image hd hrule hs (Or.inr hk) h
  · next hk => exact isHoistedDeclaration_image hd hrule hs (by rw [hk]; rfl) h
  · next hk => exact isHoistedDeclaration_image hd hrule hs (by rw [hk]; rfl) h
  · next hk =>
      obtain ⟨e', he', he⟩ := (Option.any_eq_true _ _).1 h
      rw [keptImage, Node.children_node, List.head?_map] at he'
      obtain ⟨e, hhead, rfl⟩ := Option.map_eq_some_iff.1 he'
      rw [hhead]
      exact isHoistedAssignment_image hd hrule he
  · simp at h

/-- An assignment to the instance is no assignment to a name. -/
theorem isHoistedAssignment_of_access {e : Node} {name : String}
    (hleft : e.child? .left = some (d.accessNode .left name)) : d.isHoistedAssignment e = false := by
  rw [isHoistedAssignment, hleft]
  simp [accessNode]

theorem isHoisted_assignmentImage (name : String) (value : Node) :
    d.isHoisted (d.assignmentImage name value) = false := by
  have hleft : (Node.node .assignment .plain 0 0 "" [d.accessNode .left name, value]).child? .left
      = some (d.accessNode .left name) := rfl
  exact isHoistedAssignment_of_access hleft

/-- What a hoisted statement becomes is hoisted no more. -/
theorem isHoisted_of_hoistsTo {n : Node} (h : HoistsTo d pl root s x n) : d.isHoisted n = false := by
  cases h with
  | function _ _ _ _ => exact isHoisted_assignmentImage _ _
  | declaration _ _ _ _ _ _ _ _ => exact isHoisted_assignmentImage _ _
  | @assignment e left rest _ _ _ hleft hidentifier _ =>
      have haccess : (Node.node .assignment e.role 0 0 e.text
          (e.children.map (d.hookPart pl root s e x.name))).child? .left
            = some (d.accessNode .left x.name) := by
        rw [Node.child?, Node.children_node, Node.find?_role_map (role_hookPart d pl root s e x.name),
          ← Node.child?, hleft, Option.map_some, hookPart, if_pos (by simp [hidentifier, Node.role_of_child? hleft])]
      exact isHoistedAssignment_of_access haccess

/-- **Nothing of a converted program is hoisted.** -/
theorem isHoisted_of_mem_programImage (hd : d.IsApart) (hroot : root.WellFormed chars)
    (hs : s ∈ (d.programImage chars root).children) : d.isHoisted s = false := by
  obtain ⟨t, ht, rfl⟩ := List.mem_map.1 hs
  have hwf := (hroot.fits_children ht).wellFormed
  rw [statementImage]
  split
  · next x hx => exact isHoisted_of_hoistsTo (hoistsTo_of_hoist? _ root hwf hx)
  · next hx =>
      rw [← Bool.not_eq_true]
      intro himage
      have hhoisted := isHoisted_image hd Renames.follows_collect hwf himage
      rw [hoist?_eq_none_iff.1 hx] at hhoisted
      simp at hhoisted

end Dialect

end SketchHost
