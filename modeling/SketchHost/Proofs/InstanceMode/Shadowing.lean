/-
**Local names.**

A name that a local declaration binds is meant to stay a name, however the library is called.  It does,
unless it is taken for a reference to the instance while all declarations that bind it are overlooked:
a variable deep in the body of a function, the name of a function expression, a declaration in a switch,
or a function with a label.

* `Dialect.refers` — a name that is taken for a reference to the instance, local declarations apart;
* `Dialect.kept` — the text of a name that stays a name;
* `Dialect.KeepsLocal` — every name that a local declaration binds stays a name;
* `Dialect.keepsLocal_iff` — **when they do**;
* `Dialect.not_keepsLocal_switching` — a sketch in which a function of a switch is overlooked.
-/

import SketchHost.Proofs.InstanceMode.Names
import SketchHost.Proofs.Script.Scopes

set_option relaxedAutoImplicit false
set_option autoImplicit false

namespace SketchHost

open Script

namespace Dialect

variable {d : Dialect} {source : String} {root : Node} {c : Converted} {p : Node.Place}

/-! ### References to the instance -/

/-- Whether a place is the callee of a call. -/
def isCallee (p : Node.Place) : Bool :=
  p.parent?.any (fun n => n.kind == .call) && p.node.role == .callee

/-- A name that is taken for a reference to the instance, if no local declaration is met around it. -/
def refers (d : Dialect) (pl : Plan) (p : Node.Place) : Bool :=
  match p.node.kind with
  | .identifier =>
      !p.isKey && ((isCallee p && d.symbols.isFunction p.node.text)
        || (!pl.renames.owns p.node.text && !p.isBinding
          && d.isInstanceName pl.hoisted p.node.text))
  | .shorthand => !pl.renames.owns p.node.text && d.isInstanceName pl.hoisted p.node.text
  | _ => false

theorem isVariableName_of_refers {pl : Plan} (h : d.refers pl p = true) :
    isVariableName p.node.kind = true := by
  unfold refers at h
  split at h
  · next hk => rw [hk]; rfl
  · next hk => rw [hk]; rfl
  · simp at h

theorem isSome_calleeEdit? (d : Dialect) (p : Node.Place) : (d.calleeEdit? p).isSome
    = (isCallee p && d.symbols.isFunction p.node.text && !p.isLocal p.node.text) := by
  rw [calleeEdit?, isCallee]
  split <;> simp_all

theorem isSome_referenceEdit? (d : Dialect) (hoisted : List String) (p : Node.Place) :
    (d.referenceEdit? hoisted p).isSome
      = (d.isInstanceName hoisted p.node.text && !p.isLocal p.node.text) := by
  rw [referenceEdit?]
  split <;> simp_all

theorem isSome_shorthandEdit? (d : Dialect) (hoisted : List String) (p : Node.Place) :
    (d.shorthandEdit? hoisted p).isSome
      = (d.isInstanceName hoisted p.node.text && !p.isLocal p.node.text) := by
  rw [shorthandEdit?]
  split <;> simp_all

/-- A name becomes an access if it is taken for a reference and no local declaration is met. -/
theorem isOnInstance_eq (d : Dialect) (pl : Plan) (p : Node.Place) :
    d.isOnInstance pl p = (d.refers pl p && !p.isLocal p.node.text) := by
  rw [isOnInstance, refers]
  cases p.node.kind with
  | identifier =>
      dsimp only
      rw [isSome_calleeEdit?, isSome_referenceEdit?]
      cases p.isLocal p.node.text <;> simp
  | shorthand =>
      dsimp only
      rw [isSome_shorthandEdit?, Bool.and_assoc]
  | _ => rfl

/-- The text of a name that stays a name: a shorthand with a new name keeps its key. -/
def kept (pl : Plan) (p : Node.Place) : String :=
  if p.node.kind == .identifier || pl.nameOf p == p.node.text then pl.nameOf p
  else p.node.text ++ ": " ++ pl.nameOf p

/-- What is written for a name that becomes no access. -/
theorem written_of_not_isOnInstance {pl : Plan} (h : d.isOnInstance pl p = false) :
    d.written pl p = kept pl p := by
  rw [written, kept, meaning_of_not_isOnInstance h]

/-! ### Names that hoists use up -/

/-- A node of a kind that binds nothing locally. -/
theorem namesFor_eq_nil {chars : List Char} {n part : Node}
    (hk : n.kind ∈ [Script.Kind.program, .lexicalDeclaration, .variableDeclaration,
      .variableDeclarator, .expressionStatement, .assignment]) : n.namesFor chars part = [] := by
  simp only [List.mem_cons, List.not_mem_nil, or_false] at hk
  rcases hk with hk | hk | hk | hk | hk | hk <;>
    simp [Node.namesFor, Node.functionNames, Node.ownName, Node.heldNames, hk, Node.isFunctionScope]

/-- A named function binds nothing for its name. -/
theorem namesFor_name_eq_nil {chars : List Char} {n part : Node}
    (hk : n.kind = .functionDeclaration ∨ n.kind = .generatorDeclaration)
    (hpart : part.role = .name) : n.namesFor chars part = [] := by
  rcases hk with hk | hk <;>
    simp [Node.namesFor, Node.functionNames, Node.ownName, Node.heldNames, hk, hpart]

/-- The place of the name that a hoist uses up: it is no key, no local declaration binds anything there,
and the name is declared at the place or the access takes its place. -/
structure IsHoistPlace (d : Dialect) (chars : List Char) (root : Node) (x : Hoist) (q : Node.Place) :
    Prop where
  mem : q ∈ root.places []
  kind : q.node.kind = .identifier
  span : q.node.span = x.consumed
  isKey : q.isKey = false
  free : ∀ t ∈ q.scopes, t.1.namesFor chars t.2 = []
  isBinding_or : q.isBinding = true ∨ x.edits = [replaceNode q.node (d.onInstance q.node.text)]

variable {chars : List Char} {s : Node} {x : Hoist}

/-- The name of a named function of the program. -/
theorem exists_place_of_ofFunction? (hroot : root.WellFormed chars) (hprogram : root.kind = .program)
    (hs : s ∈ root.children) (hk : s.kind = .functionDeclaration ∨ s.kind = .generatorDeclaration)
    (h : d.ofFunction? chars s = some x) : ∃ q, IsHoistPlace d chars root x q := by
  have hplace := Node.mem_places_of_mem_children (Node.mem_places_self root []) hs
  obtain ⟨name, hname, -, rfl⟩ := exists_of_ofFunction? h
  have hidentifier := kind_of_functionName (hroot.fits_children hs).wellFormed hk hname
  have hrole := Node.role_of_child? hname
  refine ⟨⟨name, [s, root]⟩,
    Node.mem_places_of_mem_children hplace (Node.mem_children_of_child? hname), hidentifier, rfl, ?_, ?_,
    Or.inl ?_⟩
  · rcases hk with hk | hk <;>
      simp [Node.Place.isKey, Node.Place.parent?, hidentifier, hk, hprogram, Node.isModuleSpecifier]
  · intro t ht
    simp only [Node.Place.scopes, List.zip_cons_cons, List.zip_nil_left, List.mem_cons,
      List.not_mem_nil, or_false] at ht
    rcases ht with rfl | rfl
    · exact namesFor_name_eq_nil hk hrole
    · exact namesFor_eq_nil (by simp [hprogram])
  · rcases hk with hk | hk <;>
      simp [Node.Place.isBinding, Node.Place.parent?, hk, hrole, Node.isNamedDefinition]

/-- The name of a variable of the program. -/
theorem exists_place_of_ofVariable? (hprogram : root.kind = .program)
    (hs : s ∈ root.children) (hk : s.kind = .lexicalDeclaration ∨ s.kind = .variableDeclaration)
    (h : d.ofVariable? chars s = some x) : ∃ q, IsHoistPlace d chars root x q := by
  have hplace := Node.mem_places_of_mem_children (Node.mem_places_self root []) hs
  obtain ⟨declarator, name, value, hfilter, hname, -, hidentifier, -, -, rfl⟩ :=
    exists_of_ofVariable? h
  obtain ⟨hdeclarator, hkind⟩ := mem_of_filter_declarators hfilter
  have hplace' := Node.mem_places_of_mem_children hplace hdeclarator
  refine ⟨⟨name, [declarator, s, root]⟩,
    Node.mem_places_of_mem_children hplace' (Node.mem_children_of_child? hname), hidentifier, rfl, ?_, ?_,
    Or.inl ?_⟩
  · rcases hk with hk | hk <;> simp [Node.Place.isKey, Node.Place.parent?, hidentifier, hkind, hk,
      hprogram, Node.isModuleSpecifier]
  · intro t ht
    simp only [Node.Place.scopes, List.zip_cons_cons, List.zip_nil_left, List.mem_cons,
      List.not_mem_nil, or_false] at ht
    rcases ht with rfl | rfl | rfl
    · exact namesFor_eq_nil (by simp [hkind])
    · rcases hk with hk | hk <;> exact namesFor_eq_nil (by simp [hk])
    · exact namesFor_eq_nil (by simp [hprogram])
  · simp [Node.Place.isBinding, Node.Place.parent?, hkind, Node.role_of_child? hname]

/-- The target of an assignment of the program. -/
theorem exists_place_of_ofAssignment? (hprogram : root.kind = .program)
    (hs : s ∈ root.children) (hk : s.kind = .expressionStatement)
    (h : d.ofAssignment? s = some x) : ∃ q, IsHoistPlace d chars root x q := by
  have hplace := Node.mem_places_of_mem_children (Node.mem_places_self root []) hs
  obtain ⟨expression, left, right, hexpression, hassignment, hleft, -, hidentifier, -, -, rfl⟩ :=
    exists_of_ofAssignment? h
  have hplace' := Node.mem_places_of_mem_children hplace (List.mem_of_mem_head? hexpression)
  refine ⟨⟨left, [expression, s, root]⟩,
    Node.mem_places_of_mem_children hplace' (Node.mem_children_of_child? hleft), hidentifier, rfl, ?_, ?_,
    Or.inr rfl⟩
  · simp [Node.Place.isKey, Node.Place.parent?, hidentifier, hassignment, hk, hprogram,
      Node.isModuleSpecifier]
  · intro t ht
    simp only [Node.Place.scopes, List.zip_cons_cons, List.zip_nil_left, List.mem_cons,
      List.not_mem_nil, or_false] at ht
    rcases ht with rfl | rfl | rfl
    · exact namesFor_eq_nil (by simp [hassignment])
    · exact namesFor_eq_nil (by simp [hk])
    · exact namesFor_eq_nil (by simp [hprogram])

theorem exists_place_of_hoist? (hroot : root.WellFormed chars) (hprogram : root.kind = .program)
    (hs : s ∈ root.children) (h : d.hoist? chars s = some x) :
    ∃ q, IsHoistPlace d chars root x q := by
  rcases hoist?_cases h with ⟨hk, h⟩ | ⟨hk, h⟩ | ⟨hk, h⟩
  · exact exists_place_of_ofFunction? hroot hprogram hs hk h
  · exact exists_place_of_ofVariable? hprogram hs hk h
  · exact exists_place_of_ofAssignment? hprogram hs hk h

/-- A word whose span a hoist uses up stands at the place of the name of the hoist. -/
theorem isHoistPlace_of_consumed (hroot : root.WellFormed chars) (hprogram : root.kind = .program)
    (hp : p ∈ root.places []) (hkind : isVariableName p.node.kind = true)
    (hspan : p.node.span ∈ (d.plan chars root).consumed) :
    ∃ s ∈ root.children, ∃ x, d.hoist? chars s = some x ∧ IsHoistPlace d chars root x p := by
  obtain ⟨x, hx, hconsumed⟩ := List.mem_map.1 hspan
  obtain ⟨s, hs, hhoist⟩ := List.mem_filterMap.1 hx
  obtain ⟨q, hq⟩ := exists_place_of_hoist? hroot hprogram hs hhoist
  obtain rfl : p = q := hroot.eq_of_span hp hq.mem (isNamed_of_isVariableName hkind)
    (by rw [hq.kind]; rfl) (hconsumed.symm.trans hq.span.symm)
  exact ⟨s, hs, x, hhoist, hq⟩

/-- A name that a local declaration binds is used up by no hoist. -/
theorem not_mem_consumed_of_isBound (hroot : root.WellFormed chars) (hprogram : root.kind = .program)
    (hp : p ∈ root.places []) (hkind : isVariableName p.node.kind = true) {name : String}
    (hbound : p.IsBound chars name) : p.node.span ∉ (d.plan chars root).consumed := by
  intro hspan
  obtain ⟨s, -, x, -, hq⟩ := isHoistPlace_of_consumed hroot hprogram hp hkind hspan
  obtain ⟨t, ht, b, hb, -⟩ := hbound
  rw [hq.free t ht] at hb
  simp at hb

/-! ### Local names -/

/-- Every name that a local declaration binds stays a name in a converted sketch: it stands there as it
was or under its new name, and not as an access to the instance. -/
def KeepsLocal (d : Dialect) (source : String) (root : Node) (c : Converted) : Prop :=
  ∀ p ∈ root.places [], isVariableName p.node.kind = true → p.IsBound source.toList p.node.text →
    p.node.span ∉ (d.plan source.toList root).consumed ∧
    d.isOnInstance (d.plan source.toList root) p = false ∧
    ∃ head tail, Stands (bytesOf source) (d.plan source.toList root).edits p.node.start
      p.node.stop head (bytesOf (kept (d.plan source.toList root) p)) tail (bytesOf c.code)

theorem kind_of_parse (hroot : parse source = .ok root) : root.kind = .program := by
  obtain ⟨body, after, -, rfl⟩ := exists_run_of_parse? (parse_eq_ok_iff.1 hroot)
  rfl

/-- Local names stay names exactly if none that is taken for a reference to the instance is bound by
declarations that are all overlooked. -/
theorem keepsLocal_iff (hroot : parse source = .ok root) (hconvert : d.convert source = .ok c) :
    d.KeepsLocal source root c ↔ ∀ p ∈ root.places [],
      d.refers (d.plan source.toList root) p = true →
        p.IsBoundRemotely source.toList p.node.text → p.isLocal p.node.text = true := by
  have hwf : root.WellFormed source.toList := wellFormed_of_parse? (parse_eq_ok_iff.1 hroot)
  have hprogram := kind_of_parse hroot
  constructor
  · intro h p hp hrefers hremote
    obtain ⟨-, hname, -⟩ := h p hp (isVariableName_of_refers hrefers) hremote.isBound
    rw [isOnInstance_eq, hrefers] at hname
    simpa using hname
  · intro h p hp hkind hbound
    have hspan := not_mem_consumed_of_isBound (d := d) hwf hprogram hp hkind hbound
    have hname : d.isOnInstance (d.plan source.toList root) p = false := by
      rw [isOnInstance_eq]
      cases hrefers : d.refers (d.plan source.toList root) p with
      | false => rfl
      | true =>
          have hblock : p.node.kind ≠ .block := by
            intro hk
            rw [hk] at hkind
            simp [isVariableName] at hkind
          rcases Node.Place.isLocal_or_isBoundRemotely hblock hbound with hlocal | hremote
          · simp [hlocal]
          · simp [h p hp hrefers hremote]
    obtain ⟨head, tail, hstands⟩ := stands_written hroot hconvert hp hkind hspan
    rw [written_of_not_isOnInstance hname] at hstands
    exact ⟨hspan, hname, head, tail, hstands⟩

/-- A sketch whose hook has a parameter with the name of a constant of the library. -/
def sheltered : String :=
  "function draw(width) \x7b fill(width) \x7d"

/-- The rule at a sketch whose local names stay names. -/
theorem keepsLocal_iff_sheltered : ∃ root c, parse sheltered = .ok root ∧
    standard.convert sheltered = .ok c ∧
    c.code = "_p.draw = function (width) \x7b _p.fill(width) \x7d;" ∧
    standard.KeepsLocal sheltered root c := by
  have hread : standard.convertsTo sheltered
      ⟨"_p.draw = function (width) \x7b _p.fill(width) \x7d;", []⟩ (fun root => decide
      (∀ p ∈ root.places [], p.IsBoundRemotely sheltered.toList p.node.text →
        p.isLocal p.node.text = true)) = true := by
    decide +kernel
  obtain ⟨root, hroot, hconvert, hmet⟩ := exists_convert hread
  exact ⟨root, _, hroot, hconvert, rfl, (keepsLocal_iff hroot hconvert).2
    fun p hp _ => of_decide_eq_true hmet p hp⟩

/-- A sketch that calls a function which it declares in the same switch. -/
def switching : String :=
  "switch (n) \x7b case 1: function circle() \x7b\x7d circle(2); \x7d"

/-- The call goes to the library. -/
theorem not_keepsLocal_switching : ∃ root c, parse switching = .ok root ∧
    standard.convert switching = .ok c ∧
    c.code = "switch (n) \x7b case 1: function circle() \x7b\x7d _p.circle(2); \x7d" ∧
    ¬ standard.KeepsLocal switching root c := by
  have hread : standard.convertsTo switching
      ⟨"switch (n) \x7b case 1: function circle() \x7b\x7d _p.circle(2); \x7d", []⟩ (fun root => decide
      (∃ p ∈ root.places [], standard.refers (standard.plan switching.toList root) p = true ∧
        p.IsBoundRemotely switching.toList p.node.text ∧ p.isLocal p.node.text = false)) = true := by
    decide +kernel
  obtain ⟨root, hroot, hconvert, hmissed⟩ := exists_convert hread
  refine ⟨root, _, hroot, hconvert, rfl, fun h => ?_⟩
  obtain ⟨p, hp, hrefers, hremote, hlocal⟩ := of_decide_eq_true hmissed
  obtain ⟨-, hname, -⟩ := h p hp (isVariableName_of_refers hrefers) hremote.isBound
  rw [isOnInstance_eq, hrefers, hlocal] at hname
  simp at hname

end Dialect

end SketchHost
