/-
**What a hoist edits.**

A hoisted statement is a named function, a declaration of one variable, or an assignment.  Its edits
lie in its range, and they touch no word of it but the name that the hoist uses up.

* `Dialect.Hoists` — the three forms of a hoist;
* `Dialect.hoist?_cases` — which statements are hoisted at all, and `Dialect.exists_of_ofFunction?`,
  `Dialect.exists_of_ofVariable?`, `Dialect.exists_of_ofAssignment?` — when each of them is;
* `Dialect.hoists_of_hoist?` — every hoist has one of them;
* `Dialect.Hoists.consumed` — the name that is used up is a word of the statement;
* `Dialect.Hoists.within`, `Dialect.Hoists.clear` — where the edits are;
* `Dialect.Hoists.content_cases`, `Dialect.Hoists.range_cases` — what they put in and take away;
* `Dialect.hoistedValue?` — the value of a hoisted declaration, before which everything goes.
-/

import SketchHost.InstanceMode.Conversion
import SketchHost.Proofs.Script.Occurrences

set_option relaxedAutoImplicit false
set_option autoImplicit false

namespace SketchHost

open Script

namespace Dialect

/-! ### Forms of hoists -/

/-- The hoists of a statement. -/
inductive Hoists (d : Dialect) (source : List Char) (s : Node) : Hoist → Prop where
  /-- A named function: its name is taken out, and the access is put before it. -/
  | function {name : Node} (hvariable : Node.isVariableDeclaration s.kind = false)
      (hname : s.child? .name = some name) (hkind : name.kind = .identifier)
      (hbelongs : d.symbols.belongsToInstance name.text = true) :
      Hoists d source s ⟨name.text, name.span,
        [textEdit s.start s.start (d.onInstance name.text ++ " = "),
         textEdit name.start name.stop ""] ++ terminator source s⟩
  /-- A declaration of one variable: the access takes the place of everything before the value. -/
  | declaration {declarator name value : Node} (hvariable : Node.isVariableDeclaration s.kind = true)
      (hchildren : s.children = [declarator]) (hdeclarator : declarator.kind = .variableDeclarator)
      (hname : declarator.child? .name = some name) (hvalue : declarator.child? .value = some value)
      (hkind : name.kind = .identifier)
      (hbelongs : d.symbols.belongsToInstance name.text = true) :
      Hoists d source s ⟨name.text, name.span,
        textEdit s.start value.start (d.onInstance name.text ++ " = ") :: terminator source s⟩
  /-- An assignment to a hook: the access takes the place of the name. -/
  | assignment {expression left : Node} (hvariable : Node.isVariableDeclaration s.kind = false)
      (hexpression : s.children.head? = some expression) (hleft : expression.child? .left = some left)
      (hkind : left.kind = .identifier) (hhook : d.symbols.isHook left.text = true) :
      Hoists d source s
        ⟨left.text, left.span, [textEdit left.start left.stop (d.onInstance left.text)]⟩

variable {d : Dialect} {source : List Char} {text : String} {s : Node} {x : Hoist}

/-! ### When a statement is hoisted -/

/-- Which hoist is looked for in which statement. -/
theorem hoist?_cases (h : d.hoist? source s = some x) :
    ((s.kind = .functionDeclaration ∨ s.kind = .generatorDeclaration) ∧
      d.ofFunction? source s = some x) ∨
    ((s.kind = .lexicalDeclaration ∨ s.kind = .variableDeclaration) ∧
      d.ofVariable? source s = some x) ∨
    (s.kind = .expressionStatement ∧ d.ofAssignment? s = some x) := by
  unfold hoist? at h
  split at h
  · next hk => exact Or.inl ⟨Or.inl hk, h⟩
  · next hk => exact Or.inl ⟨Or.inr hk, h⟩
  · next hk => exact Or.inr (Or.inl ⟨Or.inl hk, h⟩)
  · next hk => exact Or.inr (Or.inl ⟨Or.inr hk, h⟩)
  · next hk => exact Or.inr (Or.inr ⟨hk, h⟩)
  · simp at h

/-- A named function is hoisted because of its name. -/
theorem exists_of_ofFunction? (h : d.ofFunction? source s = some x) :
    ∃ name, s.child? .name = some name ∧ d.symbols.belongsToInstance name.text = true ∧
      x = ⟨name.text, name.span,
        [textEdit s.start s.start (d.onInstance name.text ++ " = "),
         textEdit name.start name.stop ""] ++ terminator source s⟩ := by
  unfold ofFunction? at h
  obtain ⟨name, hname, h⟩ := Option.bind_eq_some_iff.1 h
  split at h
  · next hbelongs => exact ⟨name, hname, hbelongs, (Option.some.inj h).symm⟩
  · simp at h

/-- A declaration is hoisted because of its only variable, whose value is a function. -/
theorem exists_of_ofVariable? (h : d.ofVariable? source s = some x) :
    ∃ declarator name value,
      (s.children.filter fun c => c.kind == .variableDeclarator) = [declarator] ∧
      declarator.child? .name = some name ∧ declarator.child? .value = some value ∧
      name.kind = .identifier ∧ isFunctionValue value.kind = true ∧
      d.symbols.belongsToInstance name.text = true ∧
      x = ⟨name.text, name.span,
        textEdit s.start value.start (d.onInstance name.text ++ " = ") :: terminator source s⟩ := by
  unfold ofVariable? at h
  split at h
  · next declarator hfilter =>
      obtain ⟨name, hname, h⟩ := Option.bind_eq_some_iff.1 h
      obtain ⟨value, hvalue, h⟩ := Option.bind_eq_some_iff.1 h
      split at h
      · next hcond =>
          simp only [Bool.and_eq_true, beq_iff_eq] at hcond
          exact ⟨declarator, name, value, hfilter, hname, hvalue, hcond.1.1, hcond.1.2, hcond.2,
            (Option.some.inj h).symm⟩
      · simp at h
  · simp at h

/-- A statement is hoisted because of its first expression, which assigns a function to a hook. -/
theorem exists_of_ofAssignment? (h : d.ofAssignment? s = some x) :
    ∃ expression left right, s.children.head? = some expression ∧ expression.kind = .assignment ∧
      expression.child? .left = some left ∧ expression.child? .right = some right ∧
      left.kind = .identifier ∧ d.symbols.isHook left.text = true ∧
      isFunctionValue right.kind = true ∧
      x = ⟨left.text, left.span, [textEdit left.start left.stop (d.onInstance left.text)]⟩ := by
  unfold ofAssignment? at h
  obtain ⟨expression, hexpression, h⟩ := Option.bind_eq_some_iff.1 h
  split at h
  · next hassignment =>
      obtain ⟨left, hleft, h⟩ := Option.bind_eq_some_iff.1 h
      obtain ⟨right, hright, h⟩ := Option.bind_eq_some_iff.1 h
      split at h
      · next hcond =>
          simp only [Bool.and_eq_true, beq_iff_eq] at hcond
          exact ⟨expression, left, right, hexpression, beq_iff_eq.1 hassignment, hleft, hright,
            hcond.1.1, hcond.1.2, hcond.2, (Option.some.inj h).symm⟩
      · simp at h
  · simp at h

/-- The only declarator of a statement is one of its parts. -/
theorem mem_of_filter_declarators {declarator : Node}
    (h : (s.children.filter fun c => c.kind == .variableDeclarator) = [declarator]) :
    declarator ∈ s.children ∧ declarator.kind = .variableDeclarator := by
  have hmem : declarator ∈ s.children.filter fun c => c.kind == .variableDeclarator := by
    rw [h]
    exact List.mem_singleton_self _
  simpa using List.mem_filter.1 hmem

theorem filter_declarators (hs : s.WellFormed source) (hvariable : Node.isVariableDeclaration s.kind = true) :
    (s.children.filter fun c => c.kind == .variableDeclarator) = s.children := by
  rw [List.filter_eq_self]
  intro c hc
  have hform := (Node.wellFormed_iff.1 hs).1
  cases s with
  | node k r a b t cs =>
      unfold Node.isVariableDeclaration at hvariable
      split at hvariable
      · next hk =>
          obtain rfl : k = .lexicalDeclaration := hk
          simpa using hform c hc
      · next hk =>
          obtain rfl : k = .variableDeclaration := hk
          simpa using hform c hc
      · simp at hvariable

/-- The name of a named function is a word. -/
theorem kind_of_functionName {name : Node} (hs : s.WellFormed source)
    (hkind : s.kind = .functionDeclaration ∨ s.kind = .generatorDeclaration)
    (hname : s.child? .name = some name) : name.kind = .identifier := by
  have hform := (Node.wellFormed_iff.1 hs).1
  have hmem := Node.mem_children_of_child? hname
  have hrole := Node.role_of_child? hname
  rcases hkind with hk | hk
  · rw [hk] at hform
    exact hform.1 name hmem hrole
  · rw [hk] at hform
    exact hform.1 name hmem hrole

/-- A named function is hoisted in the first form. -/
theorem hoists_of_ofFunction? (hs : s.WellFormed source)
    (hkind : s.kind = .functionDeclaration ∨ s.kind = .generatorDeclaration)
    (h : d.ofFunction? source s = some x) : d.Hoists source s x := by
  obtain ⟨name, hname, hbelongs, rfl⟩ := exists_of_ofFunction? h
  refine .function ?_ hname (kind_of_functionName hs hkind hname) hbelongs
  rcases hkind with hk | hk
  · rw [hk]
    rfl
  · rw [hk]
    rfl

/-- A declaration of one variable is hoisted in the second form. -/
theorem hoists_of_ofVariable? (hs : s.WellFormed source)
    (hvariable : Node.isVariableDeclaration s.kind = true) (h : d.ofVariable? source s = some x) :
    d.Hoists source s x := by
  obtain ⟨declarator, name, value, hfilter, hname, hvalue, hkind, -, hbelongs, rfl⟩ :=
    exists_of_ofVariable? h
  have hdeclarator := (mem_of_filter_declarators hfilter).2
  rw [filter_declarators hs hvariable] at hfilter
  exact .declaration hvariable hfilter hdeclarator hname hvalue hkind hbelongs

/-- An assignment is hoisted in the third form. -/
theorem hoists_of_ofAssignment? (hkind : s.kind = .expressionStatement)
    (h : d.ofAssignment? s = some x) : d.Hoists source s x := by
  obtain ⟨expression, left, right, hexpression, -, hleft, -, hidentifier, hhook, -, rfl⟩ :=
    exists_of_ofAssignment? h
  exact .assignment (by rw [hkind]; rfl) hexpression hleft hidentifier hhook

/-- Every hoist has one of the forms. -/
theorem hoists_of_hoist? (hs : s.WellFormed source) (h : d.hoist? source s = some x) :
    d.Hoists source s x := by
  rcases hoist?_cases h with ⟨hk, h⟩ | ⟨hk, h⟩ | ⟨hk, h⟩
  · exact hoists_of_ofFunction? hs hk h
  · exact hoists_of_ofVariable? hs (by rcases hk with hk | hk <;> rw [hk] <;> rfl) h
  · exact hoists_of_ofAssignment? hk h

/-! ### The name that is used up -/

/-- The name that a hoist uses up is a word of the statement, with the name of the hoist. -/
theorem Hoists.consumed (h : d.Hoists source s x) :
    ∃ n ∈ s.preorder, n.kind = .identifier ∧ n.text = x.name ∧ n.span = x.consumed := by
  cases h with
  | function _ hname hkind _ =>
      exact ⟨_, Node.mem_preorder_of_mem_children (Node.mem_children_of_child? hname), hkind, rfl, rfl⟩
  | @declaration declarator name value _ hchildren _ hname _ hkind _ =>
      have hdeclarator : declarator ∈ s.preorder :=
        Node.mem_preorder_of_mem_children (by simp [hchildren])
      exact ⟨name, Node.mem_preorder_trans hdeclarator
        (Node.mem_preorder_of_mem_children (Node.mem_children_of_child? hname)), hkind, rfl, rfl⟩
  | @assignment expression left _ hexpression hleft hkind _ =>
      have hexpression : expression ∈ s.preorder :=
        Node.mem_preorder_of_mem_children (List.mem_of_mem_head? hexpression)
      exact ⟨left, Node.mem_preorder_trans hexpression
        (Node.mem_preorder_of_mem_children (Node.mem_children_of_child? hleft)), hkind, rfl, rfl⟩

/-- A hoisted name is a hook or a function of the library. -/
theorem Hoists.belongs (h : d.Hoists source s x) : d.symbols.belongsToInstance x.name = true := by
  cases h with
  | function _ _ _ hbelongs => exact hbelongs
  | declaration _ _ _ _ _ _ hbelongs => exact hbelongs
  | assignment _ _ _ _ hhook => simp [SymbolTable.belongsToInstance, hhook]

/-! ### Where the edits are -/

/-- The parts of a declarator: the target, then the value. -/
theorem children_declarator {n name value : Node} (h : n.WellFormed source)
    (hkind : n.kind = .variableDeclarator) (hname : n.child? .name = some name)
    (hvalue : n.child? .value = some value) :
    ∃ rest, n.children = name :: value :: rest := by
  have hform := (Node.wellFormed_iff.1 h).1
  rw [hkind] at hform
  obtain ⟨target, rest, hchildren, hrole, -, hrest, -⟩ :
      Node.Shape .variableDeclarator n.children := hform
  unfold Node.child? at hname hvalue
  rw [hchildren] at hname hvalue
  simp only [List.find?_cons, hrole, beq_self_eq_true, Option.some.injEq] at hname
  subst hname
  cases rest with
  | nil => simp [hrole] at hvalue
  | cons v others =>
      have hv : v.role = .value := hrest v List.mem_cons_self
      have htarget : (target.role == Role.value) = false := by
        rw [hrole]
        rfl
      simp only [List.find?_cons, htarget, hv, beq_self_eq_true, Option.some.injEq] at hvalue
      subst hvalue
      exact ⟨others, hchildren⟩

theorem mem_terminator {e : TextEdit} (h : e ∈ terminator source s) :
    e = textEdit s.stop s.stop ";" := by
  unfold terminator at h
  split at h
  · simp at h
  · simpa using h

/-- The parts of a declaration of one variable that has a value: before the value there is nothing but
the name, what lies in it, and what it lies in. -/
theorem head_parts {declarator name value : Node} (hs : s.WellFormed source)
    (hchildren : s.children = [declarator]) (hdeclarator : declarator.kind = .variableDeclarator)
    (hname : declarator.child? .name = some name) (hvalue : declarator.child? .value = some value) :
    (s.start ≤ declarator.start ∧ declarator.start ≤ name.start ∧ name.stop ≤ value.start ∧
      value.start ≤ s.stop) ∧
    ∀ m ∈ s.preorder, name ∈ m.preorder ∨ m ∈ name.preorder ∨ value.start ≤ m.start := by
  have hfits : Node.Fits source s.start s.stop declarator :=
    hs.fits_children (by simp [hchildren])
  obtain ⟨rest, hparts⟩ := children_declarator hfits.wellFormed hdeclarator hname hvalue
  have hrow := (Node.wellFormed_iff.1 hfits.wellFormed).2
  rw [hparts] at hrow
  obtain ⟨hnameLo, -, hvalueLo, hvalueWf, hrest⟩ := hrow
  have hvalueLe := hvalueWf.start_le_stop
  have hrestLe := Node.Row.le hrest
  have hhi := hfits.le_hi
  have hnamed : name ∈ declarator.preorder :=
    Node.mem_preorder_of_mem_children (Node.mem_children_of_child? hname)
  refine ⟨⟨hfits.lo_le, hnameLo, hvalueLo, by omega⟩, fun m hm => ?_⟩
  rcases Node.mem_preorder_cases hm with rfl | ⟨c, hc, hm⟩
  · exact Or.inl (Node.mem_preorder_trans
      (Node.mem_preorder_of_mem_children (by simp [hchildren])) hnamed)
  · obtain rfl : c = declarator := by simpa [hchildren] using hc
    rcases Node.mem_preorder_cases hm with rfl | ⟨c', hc', hm⟩
    · exact Or.inl hnamed
    · rw [hparts] at hc'
      rcases List.mem_cons.1 hc' with rfl | hc'
      · exact Or.inr (Or.inl hm)
      · -- the value and what comes after it
        have hlater : Node.Row source value.start c.stop (value :: rest) :=
          ⟨Nat.le_refl _, hvalueWf, hrest⟩
        exact Or.inr (Or.inr ((Node.Row.fits hlater c' hc').of_mem_preorder m hm).lo_le)

/-- The head of a hoisted declaration: it ends where the value begins, and no word lies in it but the
name. -/
theorem head_variable {declarator name value : Node} (hs : s.WellFormed source)
    (hchildren : s.children = [declarator]) (hdeclarator : declarator.kind = .variableDeclarator)
    (hname : declarator.child? .name = some name) (hvalue : declarator.child? .value = some value)
    (hkind : name.kind = .identifier) :
    s.start ≤ value.start ∧ value.start ≤ s.stop ∧
      ∀ m ∈ s.preorder, isNamed m.kind = true → m = name ∨ value.start ≤ m.start := by
  obtain ⟨⟨hlo, hnameLo, hvalueLo, hhi⟩, hnodes⟩ := head_parts hs hchildren hdeclarator hname hvalue
  have hnamed : isNamed name.kind = true := by
    rw [hkind]
    rfl
  have hfits := (hs.fits_children (c := declarator) (by simp [hchildren])).wellFormed
  have hnameWf := (hfits.fits_children (Node.mem_children_of_child? hname)).wellFormed
  have hnameLe := hnameWf.start_le_stop
  refine ⟨by omega, hhi, fun m hm hmn => ?_⟩
  -- a word lies in no other word
  rcases hnodes m hm with hmem | hmem | hle
  · exact Or.inl ((hs.fits_of_mem hm).wellFormed.eq_of_mem_preorder hmn hmem).symm
  · exact Or.inl (hnameWf.eq_of_mem_preorder hnamed hmem)
  · exact Or.inr hle

/-- The edits of a hoist lie in the statement, and they go forward. -/
theorem Hoists.within (hs : s.WellFormed source) (h : d.Hoists source s x) :
    ∀ e ∈ x.edits, s.start ≤ e.start ∧ e.start ≤ e.stop ∧ e.stop ≤ s.stop := by
  have hsle := hs.start_le_stop
  have hterminator : ∀ e ∈ terminator source s,
      s.start ≤ e.start ∧ e.start ≤ e.stop ∧ e.stop ≤ s.stop := by
    intro e he
    rw [mem_terminator he]
    exact ⟨hsle, Nat.le_refl _, Nat.le_refl _⟩
  intro e he
  cases h with
  | function _ hname _ _ =>
      have hfits := hs.fits_children (Node.mem_children_of_child? hname)
      simp only [List.cons_append, List.nil_append, List.mem_cons] at he
      rcases he with rfl | rfl | he
      · exact ⟨Nat.le_refl _, Nat.le_refl _, hsle⟩
      · exact ⟨hfits.lo_le, hfits.start_le_stop, hfits.le_hi⟩
      · exact hterminator e he
  | declaration _ hchildren hdeclarator hname hvalue hkind _ =>
      obtain ⟨hlo, hhi, -⟩ := head_variable hs hchildren hdeclarator hname hvalue hkind
      rcases List.mem_cons.1 he with rfl | he
      · exact ⟨Nat.le_refl _, hlo, hhi⟩
      · exact hterminator e he
  | assignment _ hexpression hleft _ _ =>
      have hfits := hs.fits_children (List.mem_of_mem_head? hexpression)
      have hleft := hfits.wellFormed.fits_children (Node.mem_children_of_child? hleft)
      have hlo := hfits.lo_le
      have hhi := hfits.le_hi
      have hlo' := hleft.lo_le
      have hhi' := hleft.le_hi
      obtain rfl := List.mem_singleton.1 he
      exact ⟨Nat.le_trans hlo hlo', hleft.start_le_stop, Nat.le_trans hhi' hhi⟩

/-- The edits of a hoist leave every word of the statement alone that is not used up. -/
theorem Hoists.clear (hs : s.WellFormed source) (h : d.Hoists source s x) {m : Node}
    (hm : m ∈ s.preorder) (hmn : isNamed m.kind = true) (hspan : m.span ≠ x.consumed) :
    ∀ e ∈ x.edits, e.Clear m.start m.stop := by
  have hmfits := hs.fits_of_mem hm
  have hterminator : ∀ e ∈ terminator source s, e.Clear m.start m.stop := by
    intro e he
    rw [mem_terminator he]
    exact Or.inr hmfits.le_hi
  have hword : ∀ n ∈ s.preorder, n.kind = .identifier → n.span = x.consumed →
      n.stop ≤ m.start ∨ m.stop ≤ n.start := by
    intro n hn hkind hconsumed
    have hnn : isNamed n.kind = true := by rw [hkind]; rfl
    rcases hs.disjoint_nodes hn hm hnn hmn with rfl | hle
    · exact absurd hconsumed hspan
    · exact hle
  intro e he
  obtain ⟨n, hn, hkind, -, hconsumed⟩ := h.consumed
  have hdisjoint := hword n hn hkind hconsumed
  have hstart : n.start = x.consumed.start := congrArg Span.start hconsumed
  have hstop : n.stop = x.consumed.stop := congrArg Span.stop hconsumed
  rw [hstart, hstop] at hdisjoint
  cases h with
  | function _ hname _ _ =>
      simp only [List.cons_append, List.nil_append, List.mem_cons] at he
      rcases he with rfl | rfl | he
      · exact Or.inl hmfits.lo_le
      · exact hdisjoint
      · exact hterminator e he
  | declaration _ hchildren hdeclarator hname hvalue hkind _ =>
      obtain ⟨-, -, hwords⟩ := head_variable hs hchildren hdeclarator hname hvalue hkind
      rcases List.mem_cons.1 he with rfl | he
      · rcases hwords m hm hmn with rfl | hle
        · exact absurd rfl hspan
        · exact Or.inl hle
      · exact hterminator e he
  | assignment _ _ _ _ _ =>
      obtain rfl := List.mem_singleton.1 he
      exact hdisjoint

/-! ### What the edits put in and take away -/

/-- An edit of a hoist puts in the access, as the target of an assignment or alone, a semicolon, or
nothing. -/
theorem Hoists.content_cases (h : d.Hoists source s x) : ∀ e ∈ x.edits,
    e.content = bytesOf (d.onInstance x.name ++ " = ") ∨ e.content = bytesOf (d.onInstance x.name) ∨
      e.content = bytesOf ";" ∨ e.content = bytesOf "" := by
  have hterminator : ∀ e ∈ terminator source s, e.content = bytesOf ";" := by
    intro e he
    rw [mem_terminator he, textEdit]
  intro e he
  cases h with
  | function _ _ _ _ =>
      simp only [List.cons_append, List.nil_append, List.mem_cons] at he
      rcases he with rfl | rfl | he
      · exact Or.inl rfl
      · exact Or.inr (Or.inr (Or.inr rfl))
      · exact Or.inr (Or.inr (Or.inl (hterminator e he)))
  | declaration _ _ _ _ _ _ _ =>
      rcases List.mem_cons.1 he with rfl | he
      · exact Or.inl rfl
      · exact Or.inr (Or.inr (Or.inl (hterminator e he)))
  | assignment _ _ _ _ _ =>
      obtain rfl := List.mem_singleton.1 he
      exact Or.inr (Or.inl rfl)

/-- The value of a hoisted declaration of a variable. -/
def hoistedValue? (d : Dialect) (source : List Char) (s : Node) : Option Node :=
  if Node.isVariableDeclaration s.kind && (d.hoist? source s).isSome then
    match s.children with
    | [declarator] => declarator.child? .value
    | _ => none
  else none

theorem hoistedValue?_eq_some_iff {value : Node} : d.hoistedValue? source s = some value ↔
    Node.isVariableDeclaration s.kind = true ∧ (∃ x, d.hoist? source s = some x) ∧
      ∃ declarator, s.children = [declarator] ∧ declarator.child? .value = some value := by
  rw [← Option.isSome_iff_exists]
  rw [hoistedValue?]
  constructor
  · intro h
    split at h
    · next hcond =>
        rw [Bool.and_eq_true] at hcond
        split at h
        · next declarator hchildren => exact ⟨hcond.1, hcond.2, declarator, hchildren, h⟩
        · simp at h
    · simp at h
  · rintro ⟨hvariable, hhoist, declarator, hchildren, hvalue⟩
    rw [if_pos (by simp [hvariable, hhoist]), hchildren]
    exact hvalue

/-- An edit of a hoist takes away nothing, a word, or what stands before the value of a
declaration. -/
theorem Hoists.range_cases (h : d.Hoists source s x) (hhoist : d.hoist? source s = some x) :
    ∀ e ∈ x.edits, e.start = e.stop ∨
      (∃ n ∈ s.preorder, n.kind = .identifier ∧ e.start = n.start ∧ e.stop = n.stop) ∨
      ∃ value, d.hoistedValue? source s = some value ∧ e.start = s.start ∧
        e.stop = value.start := by
  have hterminator : ∀ e ∈ terminator source s, e.start = e.stop := by
    intro e he
    rw [mem_terminator he, textEdit]
  intro e he
  obtain ⟨n, hn, hkind, -, hconsumed⟩ := h.consumed
  have hstart : n.start = x.consumed.start := congrArg Span.start hconsumed
  have hstop : n.stop = x.consumed.stop := congrArg Span.stop hconsumed
  cases h with
  | function _ _ _ _ =>
      simp only [List.cons_append, List.nil_append, List.mem_cons] at he
      rcases he with rfl | rfl | he
      · exact Or.inl rfl
      · exact Or.inr (Or.inl ⟨n, hn, hkind, hstart.symm, hstop.symm⟩)
      · exact Or.inl (hterminator e he)
  | @declaration declarator name value hvariable hchildren _ _ hvalue _ _ =>
      rcases List.mem_cons.1 he with rfl | he
      · have hhoisted : d.hoistedValue? source s = some value :=
          hoistedValue?_eq_some_iff.2 ⟨hvariable, ⟨_, hhoist⟩, declarator, hchildren, hvalue⟩
        exact Or.inr (Or.inr ⟨value, hhoisted, rfl, rfl⟩)
      · exact Or.inl (hterminator e he)
  | assignment _ _ _ _ _ =>
      obtain rfl := List.mem_singleton.1 he
      exact Or.inr (Or.inl ⟨n, hn, hkind, hstart.symm, hstop.symm⟩)

/-- A declaration whose value is hoisted has the form of such declarations, and what stands before the
value is taken away. -/
theorem exists_declarator_of_hoistedValue? {value : Node} (hs : s.WellFormed source)
    (h : d.hoistedValue? source s = some value) :
    ∃ x declarator name, d.hoist? source s = some x ∧ s.children = [declarator] ∧
      declarator.kind = .variableDeclarator ∧ declarator.child? .name = some name ∧
      declarator.child? .value = some value ∧ name.kind = .identifier ∧
      ∃ e ∈ x.edits, e.start = s.start ∧ e.stop = value.start := by
  obtain ⟨hvariable, ⟨x, hhoist⟩, declarator, hchildren, hvalue⟩ := hoistedValue?_eq_some_iff.1 h
  cases hoists_of_hoist? hs hhoist with
  | function hnot _ _ _ =>
      rw [hnot] at hvariable
      simp at hvariable
  | @declaration declarator' name value' _ hchildren' hdeclarator hname hvalue' hkind _ =>
      -- the form has the same declarator and value as the definition
      obtain rfl : declarator = declarator' := by simpa [hchildren] using hchildren'
      obtain rfl : value = value' := Option.some.inj (hvalue.symm.trans hvalue')
      exact ⟨_, declarator, name, hhoist, hchildren, hdeclarator, hname, hvalue, hkind, _,
        List.mem_cons_self, rfl, rfl⟩
  | assignment hnot _ _ _ _ =>
      rw [hnot] at hvariable
      simp at hvariable

/-- What stands before the value of a hoisted declaration is taken away. -/
theorem exists_edit_of_hoistedValue? {value : Node} (hs : s.WellFormed source)
    (h : d.hoistedValue? source s = some value) :
    ∃ x, d.hoist? source s = some x ∧ s.start ≤ value.start ∧
      ∃ e ∈ x.edits, e.start = s.start ∧ e.stop = value.start := by
  obtain ⟨x, declarator, name, hhoist, hchildren, hdeclarator, hname, hvalue, hkind, hedit⟩ :=
    exists_declarator_of_hoistedValue? hs h
  have hhead := head_variable hs hchildren hdeclarator hname hvalue hkind
  exact ⟨x, hhoist, hhead.1, hedit⟩

/-- The access to a name holds no line end if neither the namespace nor the name does. -/
theorem newline_not_mem_onInstance {name : String} (hspace : '\n' ∉ d.namespaceName.toList)
    (hname : '\n' ∉ name.toList) : '\n' ∉ (d.onInstance name).toList := by
  have hpoint : '\n' ∉ ".".toList := by decide
  simp only [onInstance, String.toList_append, List.mem_append, not_or]
  exact ⟨⟨hspace, hpoint⟩, hname⟩

/-- The edits of a hoist put in no line end if the namespace holds none. -/
theorem Hoists.newline_not_mem (hs : s.WellFormed source) (h : d.Hoists source s x)
    (hspace : '\n' ∉ d.namespaceName.toList) : ∀ e ∈ x.edits, newline ∉ e.content := by
  obtain ⟨n, hn, hkind, htext, -⟩ := h.consumed
  have hfits := hs.fits_of_mem hn
  have hword := (hfits.wellFormed.spelledAt (by rw [hkind]; rfl)).newline_not_mem
  rw [htext] at hword
  have haccess := newline_not_mem_onInstance hspace hword
  intro e he
  rcases h.content_cases e he with hcontent | hcontent | hcontent | hcontent
  · rw [hcontent, newline_mem_bytesOf, String.toList_append, List.mem_append, not_or]
    exact ⟨haccess, by decide⟩
  · rw [hcontent, newline_mem_bytesOf]
    exact haccess
  · rw [hcontent, newline_mem_bytesOf]
    decide
  · rw [hcontent, newline_mem_bytesOf]
    decide

end Dialect

end SketchHost
