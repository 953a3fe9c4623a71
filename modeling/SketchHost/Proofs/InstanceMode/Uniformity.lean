/-
**Uniform renaming.**

A name that the map of new names has is renamed wherever it occurs, with a single exception: the callee
of a call that the library takes.  A shorthand keeps its key.  And where a name is declared, it stays a
name: whichever way the declaration is put together from patterns, no access to the instance takes its
place.

* `Script.Node.declares`, `Script.Node.Place.isDeclared` — the places at which a name is declared, plain
  or within a pattern;
* `Script.Node.exists_isDeclared_of_mem_declaredNames` — the names that are collected stand at such places;
* `Dialect.IsLibraryCall` — the callee of a call that the library takes;
* `Dialect.standsAs_of_mem_renames`, `Dialect.standsAs_of_isDeclared` — what becomes of a name of the map,
  and of a declared name;
* `Dialect.renames_uniformly` — **renaming is uniform, and declared names stay names**.
-/

import SketchHost.Proofs.InstanceMode.Definitions
import SketchHost.Proofs.InstanceMode.Image

set_option relaxedAutoImplicit false
set_option autoImplicit false

namespace SketchHost

open Script

namespace Script

namespace Node

/-! ### Declared names -/

/-- The parts of a node in which names are declared: the name of a declarator, the variable of a loop
that declares it, a parameter, the single parameter of an arrow or of a catch clause, and the name of a
function or a class. -/
def declares (n : Node) (r : Role) : Bool :=
  match n.kind with
  | .variableDeclarator => r == .name
  | .forInStatement => n.declaresTarget && r == .left
  | .formalParameters => true
  | .arrowFunction | .catchClause => r == .parameter
  | k => isNamedDefinition k && r == .name

instance (k : Kind) (r : Role) : Decidable (bindsIn k r) :=
  decidable_of_bool
    (match k with
      | .objectPattern | .arrayPattern | .restPattern => true
      | .pairPattern => r == .value
      | .assignmentPattern | .objectAssignmentPattern => r == .left
      | _ => false)
    (by cases k <;> simp [bindsIn])

/-- Whether a node below others is declared, or a part of a pattern that is, however deep. -/
def isDeclaredBelow (n : Node) : List Node → Bool
  | [] => false
  | m :: above => m.declares n.role || (decide (bindsIn m.kind n.role) && m.isDeclaredBelow above)

/-- A place at which a name is declared, plain or within a pattern. -/
def Place.isDeclared (p : Place) : Bool :=
  p.node.isDeclaredBelow p.above

/-- A name is being declared wherever a declaration has it: the patterns around it need not be looked at
any further than the parent. -/
theorem Place.isBinding_of_isDeclared {p : Place} (h : p.isDeclared = true) : p.isBinding = true := by
  obtain ⟨n, above⟩ := p
  cases above with
  | nil => simp [Place.isDeclared, isDeclaredBelow] at h
  | cons m above =>
      rw [Place.isDeclared, isDeclaredBelow, Bool.or_eq_true, Bool.and_eq_true, decide_eq_true_iff] at h
      rw [Place.isBinding, Place.parent?, List.head?_cons]
      rcases h with htarget | ⟨hpart, -⟩
      · unfold declares at htarget
        cases hk : m.kind <;> simp_all [isNamedDefinition]
      · unfold bindsIn at hpart
        cases hk : m.kind <;> simp_all

variable {root : Node}

/-- The names that a declared target binds are declared, by induction on the target. -/
theorem exists_isDeclared_of_mem_bindings (n : Node) : ∀ {above : List Node},
    ⟨n, above⟩ ∈ root.places [] → n.isDeclaredBelow above = true → ∀ {b}, b ∈ n.bindings →
      ∃ p ∈ root.places [], p.isDeclared = true ∧ p.node = b := by
  induction n using Node.induction with
  | h k r a e t cs ih =>
      intro above hplace hdeclared b hb
      rcases mem_bindings_cases hb with ⟨rfl, -⟩ | ⟨c, hc, hmem, hpart⟩
      · exact ⟨_, hplace, hdeclared, rfl⟩
      · refine ih c hc (mem_places_of_mem_children hplace hc) ?_ hmem
        rw [isDeclaredBelow, hdeclared, decide_eq_true hpart, Bool.and_true, Bool.or_true]

/-- The names that are collected for renaming are declared where they stand. -/
theorem exists_isDeclared_of_mem_declaredNames {b : Node} (hb : b ∈ Renames.declaredNames root) :
    ∃ p ∈ root.places [], p.isDeclared = true ∧ p.node = b := by
  obtain ⟨n, hn, hb⟩ := List.mem_flatMap.1 hb
  obtain ⟨⟨n, above⟩, hplace, rfl⟩ := exists_place_of_mem_preorder hn
  cases htarget : Renames.declaredTarget? n with
  | none => simp [htarget, bindings?] at hb
  | some target =>
      rw [htarget] at hb
      have hdeclares : target ∈ n.children ∧ n.declares target.role = true := by
        unfold Renames.declaredTarget? at htarget
        split at htarget
        · next hk =>
            refine ⟨mem_children_of_child? htarget, ?_⟩
            rw [declares, hk, role_of_child? htarget]
            rfl
        · next hk =>
            split at htarget
            · next hword =>
                refine ⟨mem_children_of_child? htarget, ?_⟩
                rw [declares, hk, role_of_child? htarget]
                simpa using hword
            · simp at htarget
        · simp at htarget
      refine exists_isDeclared_of_mem_bindings target
        (mem_places_of_mem_children hplace hdeclares.1) ?_ hb
      rw [isDeclaredBelow, hdeclares.2, Bool.true_or]

end Node

end Script

namespace Dialect

variable {d : Dialect} {source : String} {root : Node} {c : Converted} {p : Node.Place}

/-! ### Names of the map -/

/-- The callee of a call that the library takes: the name of one of its functions, around which no local
declaration of the name is met. -/
structure IsLibraryCall (d : Dialect) (p : Node.Place) : Prop where
  callee : isCallee p = true
  function : d.symbols.isFunction p.node.text = true
  free : p.isLocal p.node.text = false

/-- A name of the map becomes an access exactly as the callee of a call that the library takes. -/
theorem isOnInstance_iff_isLibraryCall {pl : Plan} (howns : pl.renames.owns p.node.text = true)
    (hkind : p.node.kind = .identifier) (hkey : p.isKey = false) :
    d.isOnInstance pl p = true ↔ d.IsLibraryCall p := by
  rw [isOnInstance_eq, refers, hkind]
  constructor
  · intro h
    simp only [hkey, howns, Bool.not_false, Bool.not_true, Bool.true_and, Bool.false_and, Bool.or_false,
      Bool.and_eq_true, Bool.not_eq_true'] at h
    exact ⟨h.1.1, h.1.2, h.2⟩
  · rintro ⟨hcallee, hfunction, hfree⟩
    simp [hkey, hcallee, hfunction, hfree]

/-- A shorthand whose name is in the map becomes no access. -/
theorem not_isOnInstance_of_owns {pl : Plan} (howns : pl.renames.owns p.node.text = true)
    (hkind : p.node.kind = .shorthand ∨ p.node.kind = .shorthandPattern) :
    d.isOnInstance pl p = false := by
  rw [isOnInstance_eq, refers]
  rcases hkind with hk | hk <;> simp [hk, howns]

/-- No hoist uses up a shorthand. -/
theorem not_mem_consumed_of_shorthand (hroot : parse source = .ok root) (hp : p ∈ root.places [])
    (hkind : p.node.kind = .shorthand ∨ p.node.kind = .shorthandPattern) :
    p.node.span ∉ (d.plan source.toList root).consumed := by
  intro hspan
  have hname : isVariableName p.node.kind = true := by
    rcases hkind with hk | hk <;> rw [hk] <;> rfl
  obtain ⟨s, -, x, -, hplace⟩ :=
    isHoistPlace_of_consumed (wellFormed_of_parse hroot) (kind_of_parse hroot) hp hname hspan
  have hidentifier := hplace.kind
  rcases hkind with hk | hk <;> simp [hk] at hidentifier

/-- What becomes of a name of the map. -/
theorem standsAs_of_mem_renames (hroot : parse source = .ok root) (hconvert : d.convert source = .ok c)
    {new : String} (hnew : (p.node.text, new) ∈ c.renames) (hp : p ∈ root.places [])
    (hkind : isVariableName p.node.kind = true) (hkey : (p.node.kind == .identifier && p.isKey) = false)
    (hspan : p.node.span ∉ (d.plan source.toList root).consumed) :
    d.StandsAs source root c p
      (if d.isOnInstance (d.plan source.toList root) p then d.onInstance p.node.text else new) := by
  obtain ⟨rfl, hrenamed⟩ := (mem_renames_iff hroot hconvert).1 hnew
  rw [standsAs_iff hroot hconvert hp hkind hspan, meaning, nameOf_eq_prefixed hkey hrenamed]

/-! ### Declared names -/

/-- A declared name becomes no access, within patterns or not. -/
theorem not_isOnInstance_of_isDeclared (pl : Plan) (h : p.isDeclared = true)
    (hkind : Node.isDeclaredName p.node.kind) : d.isOnInstance pl p = false := by
  rcases hkind with hk | hk
  · exact not_isOnInstance_of_isBinding hk (Node.Place.isBinding_of_isDeclared h)
  · rw [isOnInstance, hk]

/-- A declared name that no hoist uses up stands as it is, or under the name that the map gives it. -/
theorem standsAs_of_isDeclared (hroot : parse source = .ok root) (hconvert : d.convert source = .ok c)
    (hp : p ∈ root.places []) (h : p.isDeclared = true) (hkind : Node.isDeclaredName p.node.kind)
    (hspan : p.node.span ∉ (d.plan source.toList root).consumed) :
    d.StandsAs source root c p p.node.text ∨
      ∃ new, (p.node.text, new) ∈ c.renames ∧ d.StandsAs source root c p new := by
  have hstands : ∀ {new : String}, d.StandsAs source root c p new ↔
      d.meaning (d.plan source.toList root) p = new :=
    standsAs_iff hroot hconvert hp (Node.isVariableName_of_isDeclaredName hkind) hspan
  rw [hstands, meaning_of_not_isOnInstance (not_isOnInstance_of_isDeclared _ h hkind)]
  rcases nameOf_cases (d.plan source.toList root) p with hown | hgiven
  · exact Or.inl hown
  · obtain ⟨hnew, -, hrenamed⟩ := Renames.target?_collect_iff.1 hgiven
    refine Or.inr ⟨_, (mem_renames_iff hroot hconvert).2 ⟨hnew, hrenamed⟩, ?_⟩
    rw [hstands, meaning_of_not_isOnInstance (not_isOnInstance_of_isDeclared _ h hkind)]

/-! ### Uniformity -/

/-- **Renaming is uniform, and declared names stay names.**  Every plain name of the map outside imports,
specifiers and the names of hoisted definitions gets its new name, but for the callee of a call that the
library takes, which becomes an access; every shorthand gets it as well and keeps its key.  A name that is
declared, plain or however deep in a pattern, stays or gets its new name unless a hoist uses it up, and
that is never an access: only a prefix that is the namespace with a dot would let it look like one.  The
names that are collected for the map are among the declared ones. -/
theorem renames_uniformly (hroot : parse source = .ok root) (hconvert : d.convert source = .ok c) :
    (∀ old new, (old, new) ∈ c.renames → ∀ p ∈ root.places [], p.node.text = old →
      (p.node.kind = .identifier → p.IsOutsideModules →
        p.node.span ∉ (d.plan source.toList root).consumed →
          (d.IsLibraryCall p → d.StandsAs source root c p (d.onInstance old)) ∧
          (¬ d.IsLibraryCall p → d.StandsAs source root c p new)) ∧
      (p.node.kind = .shorthand ∨ p.node.kind = .shorthandPattern → d.StandsAs source root c p new)) ∧
    (∀ p ∈ root.places [], p.isDeclared = true → Node.isDeclaredName p.node.kind →
      p.node.span ∉ (d.plan source.toList root).consumed →
        (d.StandsAs source root c p p.node.text ∨
          ∃ new, (p.node.text, new) ∈ c.renames ∧ d.StandsAs source root c p new) ∧
        (d.lead ≠ d.namespaceName ++ "." → ¬ d.StandsAs source root c p (d.onInstance p.node.text))) ∧
    ∀ b ∈ Renames.declaredNames root, ∃ p ∈ root.places [], p.isDeclared = true ∧ p.node = b := by
  refine ⟨?_, ?_, fun b hb => Node.exists_isDeclared_of_mem_declaredNames hb⟩
  · rintro old new hnew p hp rfl
    have howns : (d.plan source.toList root).renames.owns p.node.text = true :=
      owns_iff_renamed.2 ((mem_renames_iff hroot hconvert).1 hnew).2
    constructor
    · intro hkind houtside hspan
      have hkey := houtside.isKey_eq_false (by simp [hkind])
      have hstands := standsAs_of_mem_renames hroot hconvert hnew hp (by rw [hkind]; rfl)
        (by simp [hkey]) hspan
      have haccess := isOnInstance_iff_isLibraryCall (d := d) howns hkind hkey
      constructor
      · intro hcall
        rwa [if_pos (haccess.2 hcall)] at hstands
      · intro hcall
        rwa [if_neg fun h => hcall (haccess.1 h)] at hstands
    · intro hkind
      have hplain : p.node.kind ≠ .identifier := by
        rcases hkind with hk | hk <;> simp [hk]
      have hstands := standsAs_of_mem_renames hroot hconvert hnew hp
        (by rcases hkind with hk | hk <;> rw [hk] <;> rfl) (by simp [hplain])
        (not_mem_consumed_of_shorthand hroot hp hkind)
      rwa [not_isOnInstance_of_owns howns hkind, if_neg (by simp)] at hstands
  · intro p hp hdeclared hkind hspan
    refine ⟨standsAs_of_isDeclared hroot hconvert hp hdeclared hkind hspan, fun hd => ?_⟩
    rw [standsAs_iff hroot hconvert hp (Node.isVariableName_of_isDeclaredName hkind) hspan,
      meaning_of_not_isOnInstance (not_isOnInstance_of_isDeclared _ hdeclared hkind)]
    exact nameOf_ne_onInstance hd

/-- A sketch with a variable and a destructured parameter that have the name of a function of the
library, which is called inside and outside the scope of the parameter. -/
def arcs : String :=
  "let arc; function f(\x7b arc \x7d) \x7b arc(1); \x7d arc(2);"

/-- The rule at a sketch in which the parameter and the inner call are renamed, and the outer call goes
to the library. -/
theorem renames_uniformly_arcs : ∃ root c p q, parse arcs = .ok root ∧
    standard.convert arcs = .ok c ∧
    c.code = "let _arc; function f(\x7b arc: _arc \x7d) \x7b _arc(1); \x7d _p.arc(2);" ∧
    c.renames = [("arc", "_arc")] ∧ p ∈ root.places [] ∧ q ∈ root.places [] ∧
    standard.StandsAs arcs root c p (standard.onInstance "arc") ∧
    (standard.StandsAs arcs root c q "_arc" ∧
      ¬ standard.StandsAs arcs root c q (standard.onInstance q.node.text)) := by
  have hread : standard.convertsTo arcs
      ⟨"let _arc; function f(\x7b arc: _arc \x7d) \x7b _arc(1); \x7d _p.arc(2);",
        [("arc", "_arc")]⟩ (fun root => decide
      ((standard.plan arcs.toList root).consumed = [] ∧
        (∃ p ∈ root.places [], p.node.kind = .identifier ∧ p.node.text = "arc" ∧
          (∀ n ∈ p.above, n.kind ≠ .importStatement ∧ Node.isModuleSpecifier n.kind = false) ∧
          isCallee p = true ∧ p.isLocal "arc" = false) ∧
        ∃ q ∈ root.places [], q.node.kind = .shorthandPattern ∧ q.node.text = "arc" ∧
          q.isDeclared = true)) = true := by
    decide +kernel
  obtain ⟨root, hroot, hconvert, hmet⟩ := exists_convert hread
  obtain ⟨hconsumed, ⟨p, hp, hpkind, hptext, habove, hcallee, hlocal⟩, q, hq, hqkind, hqtext, hdeclared⟩ :=
    of_decide_eq_true hmet
  have hspan : ∀ r : Node.Place, r.node.span ∉ (standard.plan arcs.toList root).consumed := by
    intro r
    simp [hconsumed]
  have houtside : p.IsOutsideModules :=
    ⟨fun n hn => (habove n hn).1, fun n hn => (habove n (List.mem_of_mem_head? hn)).2⟩
  rw [← hptext] at hlocal
  have hcall : standard.IsLibraryCall p := ⟨hcallee, by rw [hptext]; decide +kernel, hlocal⟩
  obtain ⟨hnames, hbindings, -⟩ := renames_uniformly hroot hconvert
  refine ⟨root, _, p, q, hroot, hconvert, rfl, rfl, hp, hq, ?_, ?_, ?_⟩
  · exact ((hnames "arc" "_arc" (by simp) p hp hptext).1 hpkind houtside (hspan p)).1 hcall
  · exact (hnames "arc" "_arc" (by simp) q hq hqtext).2 (Or.inr hqkind)
  · exact (hbindings q hq hdeclared (Or.inr hqkind) (hspan q)).2 (by decide)

end Dialect

end SketchHost
