/-
**What a converted program declares.**

A hoisted declaration declares its name no more.  Every other variable of a sketch is declared by the
converted program, under the name that it has afterwards, and there are no others.

* `Dialect.remainingNames` — the variables that a statement still declares;
* `Dialect.mem_remaining_iff` — they are those that no hoist uses up;
* `Dialect.carries_programImage` — **they become the variables of the converted program**.
-/

import SketchHost.Proofs.InstanceMode.ImageProgram

set_option relaxedAutoImplicit false
set_option autoImplicit false

namespace SketchHost

open Script

namespace Dialect

variable {d : Dialect} {pl : Plan} {chars : List Char} {root s : Node} {x : Hoist}

/-! ### Declarations of converted programs -/

/-- The names of the variables that a statement still declares when it is converted: those of the value
of a hoisted declaration, and those of any other statement. -/
def remainingNames (d : Dialect) (chars : List Char) (s : Node) : List Node :=
  match d.hoistedValue? chars s with
  | some value => Renames.declaredNames value
  | none => Renames.declaredNames s

theorem declaredNames_withRole (r : Role) (n : Node) :
    Renames.declaredNames (n.withRole r) = Renames.declaredNames n := by
  rw [Renames.declaredNames_eq, Renames.declaredNames_eq n, Node.children_withRole]
  cases n
  rfl

theorem hoistedValue?_of_kind (h : Node.isVariableDeclaration s.kind = false) :
    d.hoistedValue? chars s = none := by
  rw [hoistedValue?, h]
  rfl

/-- A node that declares no variable itself declares those of its parts. -/
theorem declaredNames_of_kind {n : Node} (h : n.kind ≠ .variableDeclarator)
    (h' : n.kind ≠ .forInStatement) :
    Renames.declaredNames n = n.children.flatMap Renames.declaredNames := by
  have htarget : Renames.declaredTarget? n = none := by
    rw [Renames.declaredTarget?]
    split
    · next hk => exact absurd hk h
    · next hk => exact absurd hk h'
    · rfl
  rw [Renames.declaredNames_eq, htarget]
  rfl

theorem declaredNames_assignmentImage (d : Dialect) (name : String) (value : Node) :
    Renames.declaredNames (d.assignmentImage name value) = Renames.declaredNames value := by
  have haccess : Renames.declaredNames (d.accessNode .left name) = [] := rfl
  rw [assignmentImage, declaredNames_of_kind (by simp) (by simp), Node.children_node,
    List.flatMap_singleton, declaredNames_of_kind (by simp) (by simp), Node.children_node,
    List.flatMap_cons, List.flatMap_singleton, haccess, List.nil_append]

/-- Trees for which nothing is listed may be left out. -/
theorem flatMap_filter {f : Node → List Node} {keep : Node → Bool} {cs : List Node}
    (h : ∀ c ∈ cs, keep c = false → f c = []) : (cs.filter keep).flatMap f = cs.flatMap f := by
  induction cs with
  | nil => rfl
  | cons c rest ih =>
      have hrest := ih fun e he => h e (List.mem_cons_of_mem _ he)
      cases hc : keep c with
      | true => rw [List.filter_cons_of_pos hc, List.flatMap_cons, List.flatMap_cons, hrest]
      | false =>
          rw [List.filter_cons_of_neg (by simp [hc]), List.flatMap_cons, h c List.mem_cons_self hc, hrest,
            List.nil_append]

/-- What a hoisted function declares. -/
theorem carries_functionImage (hs : s.WellFormed chars)
    (hkind : s.kind = .functionDeclaration ∨ s.kind = .generatorDeclaration) :
    Carries pl (s.places [root]) (Renames.declaredNames s)
      (Renames.declaredNames (d.functionImage pl root s)) := by
  have hform := (Node.wellFormed_iff.1 hs).1
  have hname : ∀ c ∈ s.children, (c.role != .name) = false → Renames.declaredNames c = [] := by
    intro c hc hrole
    rw [bne_eq_false_iff_eq] at hrole
    have hidentifier : c.kind = .identifier := by
      rcases hkind with hk | hk <;> rw [hk] at hform <;> exact hform.1 c hc hrole
    exact declaredNames_word (hs.fits_children hc).wellFormed (by rw [hidentifier]; rfl)
  have hold : Renames.declaredNames s
      = (s.children.filter fun c => c.role != .name).flatMap Renames.declaredNames := by
    rw [flatMap_filter hname]
    rcases hkind with hk | hk <;> exact declaredNames_of_kind (by simp [hk]) (by simp [hk])
  have hnew : Renames.declaredNames (d.functionImage pl root s)
      = (s.children.filter fun c => c.role != .name).flatMap
          fun c => Renames.declaredNames (d.image pl [s, root] c) := by
    rw [declaredNames_of_kind, functionImage, Node.children_node, List.flatMap_map]
    · rcases hkind with hk | hk <;> simp [functionImage, hk, expressionKind]
    · rcases hkind with hk | hk <;> simp [functionImage, hk, expressionKind]
  rw [hold, hnew]
  refine .flatMap fun c hc => ?_
  have hchild := (List.mem_filter.1 hc).1
  exact (carries_declaredNames c [s, root] (hs.fits_children hchild).wellFormed).mono
    fun q hq => mem_places_of_part hchild hq

/-- What an assignment to a hook declares. -/
theorem carries_hookAssignment {e : Node} {rest : List Node} {name : String} (hs : s.WellFormed chars)
    (hkind : s.kind = .expressionStatement) (hchildren : s.children = e :: rest)
    (hassignment : e.kind = .assignment) :
    Carries pl (s.places [root]) (Renames.declaredNames s)
      (Renames.declaredNames (d.hookImage pl root s e rest name)) := by
  have he : e ∈ s.children := by simp [hchildren]
  have hwf := (hs.fits_children he).wellFormed
  rw [declaredNames_of_kind (n := s) (by simp [hkind]) (by simp [hkind]), hchildren, List.flatMap_cons,
    declaredNames_of_kind (n := e) (by simp [hassignment]) (by simp [hassignment]),
    hookImage, declaredNames_of_kind (by simp) (by simp), Node.children_node, List.flatMap_cons,
    declaredNames_of_kind (by simp) (by simp), Node.children_node, List.flatMap_map, List.flatMap_map]
  refine .append (.flatMap fun c hc => ?_) (.flatMap fun c hc => ?_)
  · have hc' := (hwf.fits_children hc).wellFormed
    rw [hookPart]
    split
    · next hleft =>
        rw [Bool.and_eq_true, beq_iff_eq] at hleft
        rw [declaredNames_word hc' (by rw [hleft.1]; rfl)]
        exact .nil
    · exact (carries_declaredNames c [e, s, root] hc').mono fun q hq =>
        mem_places_of_part he (mem_places_of_part hc hq)
  · have hc' : c ∈ s.children := by simp [hchildren, hc]
    exact (carries_declaredNames c [s, root] (hs.fits_children hc').wellFormed).mono
      fun q hq => mem_places_of_part hc' hq

/-- What a statement still declares becomes what its image declares. -/
theorem carries_statementImage (hs : s.WellFormed chars) :
    Carries (d.plan chars root) (s.places [root]) (d.remainingNames chars s)
      (Renames.declaredNames (d.statementImage chars root s)) := by
  rw [statementImage]
  split
  · next x hx =>
      have hto := hoistsTo_of_hoist? (d.plan chars root) root hs hx
      generalize d.hoistImage (d.plan chars root) root s x.name = n at hto
      cases hto with
      | function hkind _ _ _ =>
          have hvariable : Node.isVariableDeclaration s.kind = false := by
            rcases hkind with hk | hk <;> rw [hk] <;> rfl
          rw [remainingNames, hoistedValue?_of_kind hvariable, declaredNames_assignmentImage]
          exact carries_functionImage hs hkind
      | @declaration declarator name value hkind hchildren _ _ hvalue _ _ _ =>
          have hhoisted : d.hoistedValue? chars s = some value :=
            hoistedValue?_eq_some_iff.2 ⟨hkind, ⟨x, hx⟩, declarator, hchildren, hvalue⟩
          have hdeclarator : declarator ∈ s.children := by simp [hchildren]
          have hmem := Node.mem_children_of_child? hvalue
          have hwf := ((hs.fits_children hdeclarator).wellFormed.fits_children hmem).wellFormed
          rw [remainingNames, hhoisted, declaredNames_assignmentImage, declaredNames_withRole]
          exact (carries_declaredNames value [declarator, s, root] hwf).mono fun q hq =>
            mem_places_of_part hdeclarator (mem_places_of_part hmem hq)
      | assignment hkind hchildren hassignment _ _ _ =>
          rw [remainingNames, hoistedValue?_of_kind (by rw [hkind]; rfl)]
          exact carries_hookAssignment hs hkind hchildren hassignment
  · next hx =>
      have hnone : d.hoistedValue? chars s = none := by
        rw [hoistedValue?, hx, Option.isSome_none, Bool.and_false]
        rfl
      rw [remainingNames, hnone]
      exact carries_declaredNames s [root] hs

/-- **What a program still declares becomes what the converted program declares.** -/
theorem carries_programImage (hroot : root.WellFormed chars) (hprogram : root.kind = .program) :
    Carries (d.plan chars root) (root.places []) (root.children.flatMap (d.remainingNames chars))
      (Renames.declaredNames (d.programImage chars root)) := by
  have hkind : (d.programImage chars root).kind = root.kind := rfl
  rw [declaredNames_of_kind (by simp [hkind, hprogram]) (by simp [hkind, hprogram]), programImage,
    Node.children_node, List.flatMap_map]
  refine .flatMap fun s hs => ?_
  exact (carries_statementImage (hroot.fits_children hs).wellFormed).mono
    fun q hq => mem_places_of_part hs hq

/-! ### Names that are gone -/

/-- Two parts of a tree with words of the same range are one part, as no word is empty. -/
theorem eq_of_same_span {n c e m l : Node} (hn : n.WellFormed chars) (hc : c ∈ n.children)
    (he : e ∈ n.children) (hm : m ∈ c.preorder) (hl : l ∈ e.preorder) (hword : isNamed m.kind = true)
    (hspan : m.span = l.span) : c = e := by
  have hstart : m.start = l.start := congrArg Span.start hspan
  have hstop : m.stop = l.stop := congrArg Span.stop hspan
  have hmc := (hn.fits_children hc).wellFormed.fits_of_mem hm
  have hle := (hn.fits_children he).wellFormed.fits_of_mem hl
  have hlt := hmc.wellFormed.start_lt_stop hword
  have hmlo := hmc.lo_le
  have hmhi := hmc.le_hi
  have hllo := hle.lo_le
  have hlhi := hle.le_hi
  rcases hn.disjoint_children hc he with heq | hdisjoint | hdisjoint
  · exact heq
  · omega
  · omega

/-- A word of a statement that is used up is used up by the hoist of the statement. -/
theorem hoist_of_consumed {b : Node} (hroot : root.WellFormed chars) (hs : s ∈ root.children)
    (hb : b ∈ s.preorder) (hword : isNamed b.kind = true)
    (hspan : b.span ∈ (d.plan chars root).consumed) :
    ∃ x, d.hoist? chars s = some x ∧ b.span = x.consumed := by
  obtain ⟨x, hx, hconsumed⟩ := List.mem_map.1 hspan
  obtain ⟨t, ht, hhoist⟩ := List.mem_filterMap.1 hx
  have htwf := (hroot.fits_children ht).wellFormed
  obtain ⟨n, hn, -, -, hnspan⟩ := (hoists_of_hoist? htwf hhoist).consumed
  obtain rfl : s = t := eq_of_same_span hroot hs ht hb hn hword (hconsumed.symm.trans hnspan.symm)
  exact ⟨x, hhoist, hconsumed.symm⟩

/-- A name that a tree declares is a word of one of its parts, if the tree declares nothing itself. -/
theorem exists_part_of_declared {n b : Node} (h : n.kind ≠ .variableDeclarator)
    (h' : n.kind ≠ .forInStatement) (hb : b ∈ Renames.declaredNames n) :
    ∃ c ∈ n.children, b ∈ Renames.declaredNames c ∧ b ∈ c.preorder := by
  rw [declaredNames_of_kind h h'] at hb
  obtain ⟨c, hc, hmem⟩ := List.mem_flatMap.1 hb
  exact ⟨c, hc, hmem, (Renames.mem_declaredNames hmem).1⟩

/-- A word declares nothing, so a name that is declared is none of the words beside it. -/
theorem span_ne_of_declared {n b left : Node} (hn : n.WellFormed chars) (h : n.kind ≠ .variableDeclarator)
    (h' : n.kind ≠ .forInStatement) (hleft : left ∈ n.children) (hidentifier : left.kind = .identifier)
    (hb : b ∈ Renames.declaredNames n) : b.span ≠ left.span := by
  intro hspan
  have hword := isNamed_of_isVariableName (Renames.mem_declaredNames hb).2
  obtain ⟨c, hc, hmem, hpre⟩ := exists_part_of_declared h h' hb
  obtain rfl : c = left :=
    eq_of_same_span hn hc hleft hpre (Node.mem_preorder_self left) hword hspan
  rw [declaredNames_word (hn.fits_children hleft).wellFormed (by rw [hidentifier]; rfl)] at hmem
  simp at hmem

/-- The parts of a declarator with a value. -/
theorem children_eq_of_declarator {n name value : Node} (hn : n.WellFormed chars)
    (hkind : n.kind = .variableDeclarator) (hname : n.child? .name = some name)
    (hvalue : n.child? .value = some value) : n.children = [name, value] := by
  obtain ⟨rest, hchildren⟩ := children_declarator hn hkind hname hvalue
  have hform := (Node.wellFormed_iff.1 hn).1
  rw [hkind] at hform
  obtain ⟨target, others, hparts, -, hlength, -⟩ : Node.Shape .variableDeclarator n.children := hform
  rw [hchildren, List.cons.injEq] at hparts
  rw [← hparts.2, List.length_cons] at hlength
  rw [hchildren, List.length_eq_zero_iff.1 (show rest.length = 0 by omega)]

/-- A hoisted declaration declares the name that is used up, and what its value declares. -/
theorem declaredNames_of_hoistedValue? {value : Node} (hs : s.WellFormed chars)
    (hx : d.hoist? chars s = some x) (h : d.hoistedValue? chars s = some value) :
    ∃ name, name.span = x.consumed ∧ Renames.declaredNames s = name :: Renames.declaredNames value ∧
      ∀ b ∈ Renames.declaredNames value, b.span ≠ name.span := by
  obtain ⟨hvariable, -, declarator, hchildren, hvalue⟩ := hoistedValue?_eq_some_iff.1 h
  obtain ⟨n, hto⟩ : ∃ n, HoistsTo d (d.plan chars s) s s x n := ⟨_, hoistsTo_of_hoist? _ s hs hx⟩
  have hwf := (hs.fits_children (c := declarator) (by simp [hchildren])).wellFormed
  cases hto with
  | function hkind _ _ _ => rcases hkind with hk | hk <;> simp [hk, Node.isVariableDeclaration] at hvariable
  | assignment hkind _ _ _ _ _ => simp [hkind, Node.isVariableDeclaration] at hvariable
  | @declaration declarator' name value' _ hchildren' hdeclarator hname _ hidentifier _ hconsumed =>
      obtain rfl : declarator = declarator' := by simpa [hchildren] using hchildren'
      have hparts := children_eq_of_declarator hwf hdeclarator hname hvalue
      have hmem : name ∈ declarator.children := by simp [hparts]
      have hmem' : value ∈ declarator.children := by simp [hparts]
      have hname' : Renames.declaredNames name = [] :=
        declaredNames_word (hwf.fits_children hmem).wellFormed (by rw [hidentifier]; rfl)
      have htarget : Node.bindings? (Renames.declaredTarget? declarator) = [name] := by
        rw [Renames.declaredTarget?, hdeclarator]
        dsimp only
        rw [hname, Node.bindings?, bindings_word (by rw [hidentifier]; rfl), if_neg (by simp [hidentifier])]
      refine ⟨name, hconsumed.symm, ?_, fun b hb hspan => ?_⟩
      · rw [declaredNames_of_kind, hchildren, List.flatMap_singleton, Renames.declaredNames_eq, hparts, htarget,
          List.flatMap_cons, hname', List.flatMap_singleton]
        · rfl
        · intro hk
          simp [hk, Node.isVariableDeclaration] at hvariable
        · intro hk
          simp [hk, Node.isVariableDeclaration] at hvariable
      · -- the name is beside the value
        obtain ⟨hpre, hword⟩ := Renames.mem_declaredNames hb
        obtain rfl : value = name := eq_of_same_span hwf hmem' hmem hpre (Node.mem_preorder_self name)
          (isNamed_of_isVariableName hword) hspan
        rw [hname'] at hb
        simp at hb

/-- No name is used up that a statement declares when it is no declaration. -/
theorem span_ne_consumed {b : Node} (hs : s.WellFormed chars) (hx : d.hoist? chars s = some x)
    (hvariable : Node.isVariableDeclaration s.kind = false) (hb : b ∈ Renames.declaredNames s) :
    b.span ≠ x.consumed := by
  obtain ⟨n, hto⟩ : ∃ n, HoistsTo d (d.plan chars s) s s x n := ⟨_, hoistsTo_of_hoist? _ s hs hx⟩
  cases hto with
  | function hkind hname hidentifier hconsumed =>
      rw [hconsumed]
      refine span_ne_of_declared hs ?_ ?_ (Node.mem_children_of_child? hname) hidentifier hb
      · rcases hkind with hk | hk <;> simp [hk]
      · rcases hkind with hk | hk <;> simp [hk]
  | declaration hkind _ _ _ _ _ _ _ =>
      rw [hvariable] at hkind
      simp at hkind
  | @assignment e left rest hkind hchildren hassignment hleft hidentifier hconsumed =>
      intro hspan
      rw [hconsumed] at hspan
      have he : e ∈ s.children := by simp [hchildren]
      have hmem := Node.mem_children_of_child? hleft
      obtain ⟨c, hc, hb', hpre⟩ := exists_part_of_declared (by simp [hkind]) (by simp [hkind]) hb
      obtain rfl : c = e := eq_of_same_span hs hc he hpre (Node.mem_preorder_of_mem_children hmem)
        (isNamed_of_isVariableName (Renames.mem_declaredNames hb).2) hspan
      exact span_ne_of_declared (hs.fits_children he).wellFormed (by simp [hassignment])
        (by simp [hassignment]) hmem hidentifier hb' hspan

/-- What a statement still declares when it is converted are the names that it declares and that no
hoist uses up. -/
theorem mem_remainingNames_iff {b : Node} (hroot : root.WellFormed chars) (hs : s ∈ root.children) :
    b ∈ d.remainingNames chars s ↔
      b ∈ Renames.declaredNames s ∧ b.span ∉ (d.plan chars root).consumed := by
  have hwf := (hroot.fits_children hs).wellFormed
  have hof : ∀ {b : Node}, b ∈ Renames.declaredNames s → b.span ∈ (d.plan chars root).consumed →
      ∃ x, d.hoist? chars s = some x ∧ b.span = x.consumed := by
    intro b hb hspan
    obtain ⟨hpre, hword⟩ := Renames.mem_declaredNames hb
    exact hoist_of_consumed hroot hs hpre (isNamed_of_isVariableName hword) hspan
  rw [remainingNames]
  cases hvalue : d.hoistedValue? chars s with
  | none =>
      refine ⟨fun hb => ⟨hb, fun hspan => ?_⟩, fun h => h.1⟩
      obtain ⟨x, hx, hconsumed⟩ := hof hb hspan
      refine span_ne_consumed hwf hx ?_ hb hconsumed
      -- a hoisted declaration has a value
      rw [← Bool.not_eq_true]
      intro hvariable
      obtain ⟨n, hto⟩ : ∃ n, HoistsTo d (d.plan chars s) s s x n := ⟨_, hoistsTo_of_hoist? _ s hwf hx⟩
      cases hto with
      | function hkind _ _ _ => rcases hkind with hk | hk <;> simp [hk, Node.isVariableDeclaration] at hvariable
      | assignment hkind _ _ _ _ _ => simp [hkind, Node.isVariableDeclaration] at hvariable
      | declaration hkind hchildren _ _ hvalue' _ _ _ =>
          rw [hoistedValue?_eq_some_iff.2 ⟨hkind, ⟨x, hx⟩, _, hchildren, hvalue'⟩] at hvalue
          simp at hvalue
  | some value =>
      obtain ⟨-, ⟨x, hx⟩, -⟩ := hoistedValue?_eq_some_iff.1 hvalue
      obtain ⟨name, hname, hdeclared, hbeside⟩ := declaredNames_of_hoistedValue? hwf hx hvalue
      rw [hdeclared, List.mem_cons]
      constructor
      · intro hb
        refine ⟨Or.inr hb, fun hspan => ?_⟩
        obtain ⟨x', hx', hconsumed⟩ := hof (by rw [hdeclared]; exact List.mem_cons_of_mem _ hb) hspan
        obtain rfl : x = x' := Option.some.inj (hx.symm.trans hx')
        exact hbeside b hb (hconsumed.trans hname.symm)
      · rintro ⟨rfl | hb, hspan⟩
        · refine absurd ?_ hspan
          rw [hname]
          exact List.mem_map_of_mem (List.mem_filterMap.2 ⟨s, hs, hx⟩)
        · exact hb

/-- What a program still declares are the names that it declares and that no hoist uses up. -/
theorem mem_remaining_iff {b : Node} (hroot : root.WellFormed chars) (hprogram : root.kind = .program) :
    b ∈ root.children.flatMap (d.remainingNames chars) ↔
      b ∈ Renames.declaredNames root ∧ b.span ∉ (d.plan chars root).consumed := by
  rw [declaredNames_of_kind (by simp [hprogram]) (by simp [hprogram]), List.mem_flatMap, List.mem_flatMap]
  constructor
  · rintro ⟨s, hs, hb⟩
    obtain ⟨hdeclared, hspan⟩ := (mem_remainingNames_iff hroot hs).1 hb
    exact ⟨⟨s, hs, hdeclared⟩, hspan⟩
  · rintro ⟨⟨s, hs, hdeclared⟩, hspan⟩
    exact ⟨s, hs, (mem_remainingNames_iff hroot hs).2 ⟨hdeclared, hspan⟩⟩

end Dialect

end SketchHost
