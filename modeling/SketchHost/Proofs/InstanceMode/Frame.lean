/-
**What a conversion leaves alone.**

The edits of a conversion touch words that name a variable, the ends of hoisted statements, and what
stands before the value of a hoisted declaration.  No other byte of the source is touched: whatever
lies apart from all that goes over into the converted text as it is, and in the same order.

* `StandInOrder`, `standInOrder_of_splice` — stretches that no edit touches, in the result of edits;
* `Script.Node.WellFormed.nested` — of two nodes, one lies in the other, or they do not meet;
* `Script.start_lt_of_parse?` — a declaration begins before its first name;
* `Dialect.IsWordRange`, `Dialect.IsEndRange`, `Dialect.IsHeadRange` — the ranges of edits;
* `Dialect.touchesOne_of_mem_edits` — every edit has one of them, and only one;
* `Dialect.IsFrame` — a range that lies apart from them;
* `Dialect.isFrame_of_liesIn`, `Dialect.isFrame_of_wordless` — the stretches between such words, and the
  nodes that hold none, have such ranges;
* `Dialect.edits_frame` — **the edits of a plan touch nothing else**;
* `Dialect.not_keeps_parameters_shared` — the names of parameters are touched.
-/

import SketchHost.Proofs.InstanceMode.Applying
import SketchHost.Proofs.Script.Heads

set_option relaxedAutoImplicit false
set_option autoImplicit false

namespace SketchHost

open Script

/-! ### Stretches in order -/

section Stretches

variable {α : Type}

/-- Sequences stand in another one, each behind the one before it. -/
def StandInOrder : List (List α) → List α → Prop
  | [], _ => True
  | piece :: rest, out => ∃ before after, out = before ++ piece ++ after ∧ StandInOrder rest after

variable {data out : List α} {edits : List (Edit α)}

/-- Stretches that no edit touches stand in the result in their order, by induction on them: behind each
one the rest of the edits is applied to the rest of the sequence. -/
theorem standInOrder_of_spliceFrom {ranges : List Span} {cursor : Nat}
    (h : spliceFrom data cursor edits = .ok out)
    (hsorted : edits.Pairwise fun e f => Edit.before e f = true) (hforward : ∀ e ∈ edits, e.Forward)
    (hcursor : ∀ r ∈ ranges, cursor ≤ r.start)
    (hranges : ∀ r ∈ ranges, r.start < r.stop ∧ ∀ e ∈ edits, e.Clear r.start r.stop)
    (horder : ranges.Pairwise fun r t => r.stop ≤ t.start) :
    StandInOrder (ranges.map fun r => stretch data r.start r.stop) out := by
  induction ranges generalizing cursor edits out with
  | nil => trivial
  | cons r rest ih =>
      obtain ⟨hlt, hclear⟩ := hranges r List.mem_cons_self
      obtain ⟨hlater, horder⟩ := List.pairwise_cons.1 horder
      have hstart : ∀ e ∈ edits, e.Clear r.start r.start := by
        intro e he
        have hclear := hclear e he
        unfold Edit.Clear at hclear ⊢
        omega
      rw [← filter_append_filter hsorted hforward hstart] at h
      have hbehind : ∀ e ∈ edits.filter fun e => r.start < e.stop, r.stop ≤ e.start := by
        intro e he
        obtain ⟨hmem, hstop⟩ := List.mem_filter.1 he
        have hclear := hclear e hmem
        have hforward : e.start ≤ e.stop := hforward e hmem
        rw [decide_eq_true_iff] at hstop
        unfold Edit.Clear at hclear
        omega
      obtain ⟨head, tail, -, htail, rfl⟩ := spliceFrom_append h (hcursor r List.mem_cons_self)
        (fun e he => ⟨hforward e (List.mem_filter.1 he).1, by simpa using (List.mem_filter.1 he).2⟩)
        fun e he => Nat.le_trans (Nat.le_of_lt hlt) (hbehind e he)
      obtain ⟨rest', hrest', rfl⟩ := spliceFrom_of_le htail (Nat.le_of_lt hlt) hbehind
      refine ⟨head, rest', (List.append_assoc _ _ _).symm, ?_⟩
      refine ih hrest' (hsorted.filter _) (fun e he => hforward e (List.mem_filter.1 he).1) hlater ?_ horder
      intro t ht
      obtain ⟨htlt, htclear⟩ := hranges t (List.mem_cons_of_mem r ht)
      exact ⟨htlt, fun e he => htclear e (List.mem_filter.1 he).1⟩

theorem standInOrder_of_splice {ranges : List Span} (h : splice data edits = .ok out)
    (hforward : ∀ e ∈ edits, e.Forward)
    (hranges : ∀ r ∈ ranges, r.start < r.stop ∧ ∀ e ∈ edits, e.Clear r.start r.stop)
    (horder : ranges.Pairwise fun r t => r.stop ≤ t.start) :
    StandInOrder (ranges.map fun r => stretch data r.start r.stop) out :=
  standInOrder_of_spliceFrom h (pairwise_inOrder edits) (fun e he => hforward e (mem_inOrder.1 he))
    (fun _ _ => Nat.zero_le _)
    (fun r hr => ⟨(hranges r hr).1, fun e he => (hranges r hr).2 e (mem_inOrder.1 he)⟩) horder

theorem standInOrder_singleton {piece : List α} : StandInOrder [piece] out ↔ piece <:+: out := by
  constructor
  · rintro ⟨before, after, rfl, -⟩
    exact ⟨before, after, rfl⟩
  · rintro ⟨before, after, rfl⟩
    exact ⟨before, after, rfl, trivial⟩

end Stretches

namespace Script

variable {source : List Char} {root : Node}

/-! ### Nodes -/

/-- Of two nodes of a tree, one lies in the other, or they do not meet. -/
theorem Node.WellFormed.nested (h : root.WellFormed source) {m n : Node} (hm : m ∈ root.preorder)
    (hn : n ∈ root.preorder) :
    m ∈ n.preorder ∨ n ∈ m.preorder ∨ m.stop ≤ n.start ∨ n.stop ≤ m.start := by
  induction root using Node.induction with
  | h k r a b t cs ih =>
      rcases Node.mem_preorder_cases hm with rfl | ⟨c, hc, hmc⟩
      · exact Or.inr (Or.inl hn)
      · rcases Node.mem_preorder_cases hn with rfl | ⟨c', hc', hnc⟩
        · exact Or.inl hm
        · have hcwf := (h.fits_children hc).wellFormed
          have hcwf' := (h.fits_children hc').wellFormed
          rcases h.disjoint_children hc hc' with rfl | hdisjoint
          · exact ih c hc hcwf hmc hnc
          · have hmfits := hcwf.fits_of_mem hmc
            have hnfits := hcwf'.fits_of_mem hnc
            have hmlo := hmfits.lo_le
            have hmhi := hmfits.le_hi
            have hnlo := hnfits.lo_le
            have hnhi := hnfits.le_hi
            omega

/-! ### Declarations -/

variable {g : Parts} {c : Cursor}

/-- A declaration begins with a word, before its variables. -/
theorem start_lt_declaration (hg : g.Sound source) (w : String) :
    Reads source c (declaration g w) fun _ n => ∀ m, n.children = [m] → n.start < m.start := by
  have hkeyword : Reads source c (keyword w) fun d start => start < d.offset := by
    rw [keyword]
    refine Reads.here ?_
    split
    · next x after hword =>
        have hspells := Cursor.word?_spells hword
        have hpos := Text.byteLength_pos hspells.ne_nil
        refine Reads.ite (fun _ => ?_) fun _ => Reads.fail
        refine Reads.set ((Cursor.leads_skipTrivia c).trans hspells.leads) (Reads.pure ?_)
        rw [hspells.offset]
        omega
    · exact Reads.fail
  rw [declaration]
  refine Reads.bind hkeyword fun d start _ hstart => ?_
  refine Reads.bind (reads_declaredTarget hg .name) fun _ target _ htarget => ?_
  rw [declarationTail]
  refine Reads.bind (reads_declaratorTail hg htarget.1 htarget.2) fun _ first _ hfirst => ?_
  refine Reads.bind (reads_moreDeclarators hg g.bound) fun _ more _ _ => ?_
  refine Reads.bind (reads_semicolon g _) fun _ _ _ _ => ?_
  rw [branch]
  refine Reads.get (Reads.pure fun m hm => ?_)
  obtain ⟨rfl, -⟩ := List.cons.inj hm
  exact Nat.lt_of_lt_of_le hstart (Nat.le_trans (offset_le_token d) hfirst.1.lo_le)

/-- A declaration of one variable at the top of a program begins before the variable. -/
theorem start_lt_of_parse? (h : parse? source = some root) {s m : Node} (hs : s ∈ root.children)
    (hvariable : Node.isVariableDeclaration s.kind = true) (hm : s.children = [m]) :
    s.start < m.start := by
  obtain ⟨depth, c, e, hc, -, hform⟩ := beginsAtSeam_of_parse? h s hs
  cases hform with
  | declaration _ hrun => exact (start_lt_declaration (sound_readPart depth depth) _ hc.1 s e hrun).2 m hm
  | function hrun =>
      rcases (opens_functionDeclaration s e hrun).kind_cases with hk | hk <;>
        simp [hk, Node.isVariableDeclaration] at hvariable
  | expression hrun =>
      have hk := (opens_expressionStatement (assigning_expression depth depth) s e hrun).kind_eq
      simp [hk, Node.isVariableDeclaration] at hvariable
  | other hkind =>
      unfold Node.isVariableDeclaration at hvariable
      split at hvariable <;> simp_all [isDefinition]

end Script

namespace Dialect

variable {d : Dialect} {source : List Char} {root : Node} {r : Span}

/-! ### Ranges of edits -/

/-- The range of an edit. -/
def rangeOf (e : TextEdit) : Span :=
  ⟨e.start, e.stop⟩

/-- The range of a word that names a variable. -/
def IsWordRange (root : Node) (r : Span) : Prop :=
  ∃ p ∈ root.places [], isVariableName p.node.kind = true ∧ r = p.node.span

/-- The empty range at the beginning or the end of a hoisted statement. -/
def IsEndRange (d : Dialect) (source : List Char) (root : Node) (r : Span) : Prop :=
  ∃ s ∈ root.children, (d.hoist? source s).isSome = true ∧ (r = ⟨s.start, s.start⟩ ∨ r = ⟨s.stop, s.stop⟩)

/-- The range of what stands before the value of a hoisted declaration. -/
def IsHeadRange (d : Dialect) (source : List Char) (root : Node) (r : Span) : Prop :=
  ∃ s ∈ root.children, ∃ value, d.hoistedValue? source s = some value ∧ r = ⟨s.start, value.start⟩

/-- A range is of one of the three sorts, and of no other. -/
def TouchesOne (d : Dialect) (source : List Char) (root : Node) (r : Span) : Prop :=
  (IsWordRange root r ∧ ¬ d.IsEndRange source root r ∧ ¬ d.IsHeadRange source root r) ∨
    (¬ IsWordRange root r ∧ d.IsEndRange source root r ∧ ¬ d.IsHeadRange source root r) ∨
    (¬ IsWordRange root r ∧ ¬ d.IsEndRange source root r ∧ d.IsHeadRange source root r)

theorem IsWordRange.lt (hroot : root.WellFormed source) (h : IsWordRange root r) : r.start < r.stop := by
  obtain ⟨p, hp, hkind, rfl⟩ := h
  exact (hroot.fits_of_mem_places hp).wellFormed.start_lt_stop (isNamed_of_isVariableName hkind)

theorem IsEndRange.start_eq_stop (h : d.IsEndRange source root r) : r.start = r.stop := by
  obtain ⟨s, -, -, rfl | rfl⟩ := h <;> rfl

/-- What stands before the value of a hoisted declaration: a word, and behind it the name. -/
theorem exists_name_of_hoistedValue? (hparse : parse? source = some root) {s value : Node}
    (hs : s ∈ root.children) (h : d.hoistedValue? source s = some value) :
    ∃ name ∈ s.preorder, name.kind = .identifier ∧ s.start < name.start ∧ name.stop ≤ value.start ∧
      value.start ≤ s.stop ∧
      ∀ m ∈ s.preorder, name ∈ m.preorder ∨ m ∈ name.preorder ∨ value.start ≤ m.start := by
  have hwf := ((wellFormed_of_parse? hparse).fits_children hs).wellFormed
  obtain ⟨_, declarator, name, -, hchildren, hdeclarator, hname, hvalue, hkind, -⟩ :=
    exists_declarator_of_hoistedValue? hwf h
  have hbegin := start_lt_of_parse? hparse hs (hoistedValue?_eq_some_iff.1 h).1 hchildren
  obtain ⟨⟨-, hlo, hstop, hhi⟩, hparts⟩ := head_parts hwf hchildren hdeclarator hname hvalue
  refine ⟨name, ?_, hkind, Nat.lt_of_lt_of_le hbegin hlo, hstop, hhi, hparts⟩
  exact Node.mem_preorder_trans (Node.mem_preorder_of_mem_children (by simp [hchildren]))
    (Node.mem_preorder_of_mem_children (Node.mem_children_of_child? hname))

/-- The head of a hoisted declaration holds more than its name. -/
theorem IsHeadRange.exists_word (hparse : parse? source = some root) (h : d.IsHeadRange source root r) :
    ∃ t, IsWordRange root t ∧ r.start < t.start ∧ t.stop ≤ r.stop := by
  obtain ⟨s, hs, value, hvalue, rfl⟩ := h
  obtain ⟨name, hname, hkind, hlt, hle, -⟩ := exists_name_of_hoistedValue? hparse hs hvalue
  have hmem := Node.mem_preorder_trans (Node.mem_preorder_of_mem_children hs) hname
  obtain ⟨p, hp, rfl⟩ := Node.exists_place_of_mem_preorder hmem
  exact ⟨p.node.span, ⟨p, hp, by rw [hkind]; rfl, rfl⟩, hlt, hle⟩

theorem IsWordRange.disjoint {t : Span} (hroot : root.WellFormed source) (hr : IsWordRange root r)
    (ht : IsWordRange root t) : r = t ∨ r.stop ≤ t.start ∨ t.stop ≤ r.start := by
  obtain ⟨p, hp, hpkind, rfl⟩ := hr
  obtain ⟨q, hq, hqkind, rfl⟩ := ht
  rcases hroot.disjoint hp hq (isNamed_of_isVariableName hpkind) (isNamed_of_isVariableName hqkind)
    with rfl | hdisjoint
  · exact Or.inl rfl
  · exact Or.inr hdisjoint

/-- The range of a word is no head. -/
theorem IsWordRange.not_isHeadRange (hparse : parse? source = some root) (hr : IsWordRange root r) :
    ¬ d.IsHeadRange source root r := by
  intro hhead
  have hroot := wellFormed_of_parse? hparse
  obtain ⟨t, ht, hlt, hle⟩ := hhead.exists_word hparse
  have htlt := ht.lt hroot
  rcases hr.disjoint hroot ht with rfl | hdisjoint
  · exact absurd hlt (Nat.lt_irrefl _)
  · omega

theorem IsHeadRange.lt (hparse : parse? source = some root) (h : d.IsHeadRange source root r) :
    r.start < r.stop := by
  obtain ⟨t, ht, hlt, hle⟩ := h.exists_word hparse
  have htlt := ht.lt (wellFormed_of_parse? hparse)
  omega

/-- The edits of a hoist have ranges of the three sorts. -/
theorem range_of_hoist (hroot : root.WellFormed source) {s : Node} (hs : s ∈ root.children) {x : Hoist}
    (hhoist : d.hoist? source s = some x) : ∀ e ∈ x.edits, IsWordRange root (rangeOf e) ∨
      d.IsEndRange source root (rangeOf e) ∨ d.IsHeadRange source root (rangeOf e) := by
  have hform := hoists_of_hoist? (hroot.fits_children hs).wellFormed hhoist
  have hsome : (d.hoist? source s).isSome = true := by simp [hhoist]
  have hterminator : ∀ e ∈ terminator source s, d.IsEndRange source root (rangeOf e) := by
    intro e he
    rw [mem_terminator he]
    exact ⟨s, hs, hsome, Or.inr rfl⟩
  obtain ⟨n, hn, hkind, -, hspan⟩ := hform.consumed
  have hmem := Node.mem_preorder_trans (Node.mem_preorder_of_mem_children hs) hn
  obtain ⟨p, hp, rfl⟩ := Node.exists_place_of_mem_preorder hmem
  have hword : IsWordRange root x.consumed := ⟨p, hp, by rw [hkind]; rfl, hspan.symm⟩
  cases hform with
  | function _ _ _ _ =>
      refine List.forall_mem_cons.2 ⟨Or.inr (Or.inl ⟨s, hs, hsome, Or.inl rfl⟩), ?_⟩
      exact List.forall_mem_cons.2 ⟨Or.inl hword, fun e he => Or.inr (Or.inl (hterminator e he))⟩
  | @declaration declarator _ value hvariable hchildren _ _ hvalue _ _ =>
      have hhoisted : d.hoistedValue? source s = some value :=
        hoistedValue?_eq_some_iff.2 ⟨hvariable, ⟨_, hhoist⟩, declarator, hchildren, hvalue⟩
      exact List.forall_mem_cons.2 ⟨Or.inr (Or.inr ⟨s, hs, value, hhoisted, rfl⟩),
        fun e he => Or.inr (Or.inl (hterminator e he))⟩
  | assignment _ _ _ _ _ => exact List.forall_mem_singleton.2 (Or.inl hword)

theorem range_cases_of_mem_edits (hroot : root.WellFormed source) :
    ∀ e ∈ (d.plan source root).edits, IsWordRange root (rangeOf e) ∨
      d.IsEndRange source root (rangeOf e) ∨ d.IsHeadRange source root (rangeOf e) := by
  intro e he
  rcases mem_edits he with ⟨s, hs, x, hhoist, -, he⟩ | ⟨p, hp, -, hkind, rfl⟩
  · exact range_of_hoist hroot hs hhoist e he
  · exact Or.inl ⟨p, hp, hkind, rfl⟩

/-- Every edit of a plan has a range of one of the three sorts, and of no other. -/
theorem touchesOne_of_mem_edits (hparse : parse? source = some root) :
    ∀ e ∈ (d.plan source root).edits, d.TouchesOne source root (rangeOf e) := by
  intro e he
  have hroot := wellFormed_of_parse? hparse
  rcases range_cases_of_mem_edits hroot e he with hword | hend | hhead
  · have hlt := hword.lt hroot
    refine Or.inl ⟨hword, fun hend => ?_, hword.not_isHeadRange hparse⟩
    exact absurd hend.start_eq_stop (Nat.ne_of_lt hlt)
  · have heq := hend.start_eq_stop
    refine Or.inr (Or.inl ⟨fun hword => ?_, hend, fun hhead => ?_⟩)
    · exact absurd heq (Nat.ne_of_lt (hword.lt hroot))
    · exact absurd heq (Nat.ne_of_lt (hhead.lt hparse))
  · have hlt := hhead.lt hparse
    refine Or.inr (Or.inr ⟨fun hword => hword.not_isHeadRange hparse hhead, fun hend => ?_, hhead⟩)
    exact absurd hend.start_eq_stop (Nat.ne_of_lt hlt)

/-! ### The frame -/

/-- A range meets no word that names a variable. -/
def IsWordless (root : Node) (r : Span) : Prop :=
  ∀ p ∈ root.places [], isVariableName p.node.kind = true →
    p.node.stop ≤ r.start ∨ r.stop ≤ p.node.start

/-- A range lies in a statement, behind what a hoist removes of it. -/
def LiesIn (d : Dialect) (source : List Char) (s : Node) (r : Span) : Prop :=
  s.start ≤ r.start ∧ r.stop ≤ s.stop ∧ ∀ value ∈ d.hoistedValue? source s, value.start ≤ r.start

/-- A range of the source, be it of a token, a comment or a stretch of layout, that lies apart from all
that edits touch: it meets no word that names a variable, and every hoisted statement lies apart from it
or holds it behind what is removed. -/
structure IsFrame (d : Dialect) (source : List Char) (root : Node) (r : Span) : Prop where
  lt : r.start < r.stop
  wordless : IsWordless root r
  nested : ∀ s ∈ root.children, (d.hoist? source s).isSome = true →
    s.stop ≤ r.start ∨ r.stop ≤ s.start ∨ d.LiesIn source s r

instance (root : Node) (r : Span) : Decidable (IsWordless root r) :=
  inferInstanceAs (Decidable (∀ p ∈ root.places [], isVariableName p.node.kind = true →
    p.node.stop ≤ r.start ∨ r.stop ≤ p.node.start))

instance (d : Dialect) (source : List Char) (s : Node) (r : Span) : Decidable (d.LiesIn source s r) :=
  inferInstanceAs (Decidable (s.start ≤ r.start ∧ r.stop ≤ s.stop ∧
    ∀ value ∈ d.hoistedValue? source s, value.start ≤ r.start))

instance (d : Dialect) (source : List Char) (root : Node) (r : Span) :
    Decidable (d.IsFrame source root r) :=
  decidable_of_iff (r.start < r.stop ∧ IsWordless root r ∧
      ∀ s ∈ root.children, (d.hoist? source s).isSome = true →
        s.stop ≤ r.start ∨ r.stop ≤ s.start ∨ d.LiesIn source s r)
    ⟨fun ⟨hlt, hwordless, hnested⟩ => ⟨hlt, hwordless, hnested⟩,
      fun ⟨hlt, hwordless, hnested⟩ => ⟨hlt, hwordless, hnested⟩⟩

/-- No edit touches a range of the frame. -/
theorem IsFrame.clear (hparse : parse? source = some root) (h : d.IsFrame source root r) :
    ∀ e ∈ (d.plan source root).edits, e.Clear r.start r.stop := by
  intro e he
  have hroot := wellFormed_of_parse? hparse
  have hends : ∀ s ∈ root.children, s.start ≤ s.stop :=
    fun s hs => (hroot.fits_children hs).start_le_stop
  rcases range_cases_of_mem_edits hroot e he with ⟨p, hp, hkind, hrange⟩ | ⟨s, hs, hsome, hrange⟩ |
    ⟨s, hs, value, hvalue, hrange⟩
  · obtain ⟨hstart, hstop⟩ := Span.mk.inj hrange
    rw [Edit.Clear, hstart, hstop]
    exact h.wordless p hp hkind
  · have hle := hends s hs
    have hnested := h.nested s hs hsome
    unfold LiesIn at hnested
    rw [Edit.Clear]
    rcases hrange with hrange | hrange <;> obtain ⟨hstart, hstop⟩ := Span.mk.inj hrange <;> omega
  · obtain ⟨hstart, hstop⟩ := Span.mk.inj hrange
    obtain ⟨-, -, -, -, -, hhi, -⟩ := exists_name_of_hoistedValue? hparse hs hvalue
    have hsome : (d.hoist? source s).isSome = true := by
      obtain ⟨-, ⟨x, hx⟩, -⟩ := hoistedValue?_eq_some_iff.1 hvalue
      simp [hx]
    rw [Edit.Clear, hstart, hstop]
    rcases h.nested s hs hsome with hle | hle | ⟨-, -, hbehind⟩
    · exact Or.inl (Nat.le_trans hhi hle)
    · exact Or.inr hle
    · exact Or.inl (hbehind value hvalue)

/-- What lies in a statement behind what is removed of it belongs to the frame, if it meets no word that
names a variable. -/
theorem isFrame_of_liesIn (hroot : root.WellFormed source) {s : Node} (hs : s ∈ root.children)
    (hlt : r.start < r.stop) (hwordless : IsWordless root r) (h : d.LiesIn source s r) :
    d.IsFrame source root r := by
  refine ⟨hlt, hwordless, fun t ht _ => ?_⟩
  rcases hroot.disjoint_children hs ht with rfl | hdisjoint
  · exact Or.inr (Or.inr h)
  · obtain ⟨hstart, hstop, -⟩ := h
    omega

/-- A node that holds no word that names a variable lies in the frame: no head holds it, as a head holds
nothing but a name. -/
theorem isFrame_of_wordless (hparse : parse? source = some root) {n : Node} (hn : n ∈ root.preorder)
    (hlt : n.start < n.stop) (hwordless : ∀ m ∈ n.preorder, isVariableName m.kind = false) :
    d.IsFrame source root n.span := by
  have hroot := wellFormed_of_parse? hparse
  have hword : ∀ m, isVariableName m.kind = true → m ∉ n.preorder := by
    intro m hm hmem
    simp [hwordless m hmem] at hm
  refine ⟨hlt, fun p hp hkind => ?_, fun s hs hsome => ?_⟩
  · have hpmem := Node.mem_preorder_of_mem_places hp
    rcases hroot.nested hpmem hn with hmem | hmem | hdisjoint
    · exact absurd hmem (hword _ hkind)
    · have hpwf := (hroot.fits_of_mem_places hp).wellFormed
      have heq := hpwf.eq_of_mem_preorder (isNamed_of_isVariableName hkind) hmem
      rw [← heq] at hkind
      exact absurd (Node.mem_preorder_self n) (hword n hkind)
    · exact hdisjoint
  · have hsmem := Node.mem_preorder_of_mem_children hs
    have hswf := (hroot.fits_children hs).wellFormed
    rcases hroot.nested hsmem hn with hmem | hmem | hdisjoint
    · -- a hoisted statement holds a name
      obtain ⟨x, hhoist⟩ := Option.isSome_iff_exists.1 hsome
      obtain ⟨w, hw, hkind, -⟩ := (hoists_of_hoist? hswf hhoist).consumed
      exact absurd (Node.mem_preorder_trans hmem hw) (hword w (by rw [hkind]; rfl))
    · have hfits := hswf.fits_of_mem hmem
      refine Or.inr (Or.inr ⟨hfits.lo_le, hfits.le_hi, fun value hvalue => ?_⟩)
      obtain ⟨name, hname, hkind, -, -, -, hparts⟩ := exists_name_of_hoistedValue? hparse hs hvalue
      have hvariable : isVariableName name.kind = true := by
        rw [hkind]
        rfl
      rcases hparts n hmem with hin | hin | hle
      · exact absurd hin (hword name hvariable)
      · have hnwf := (hswf.fits_of_mem hname).wellFormed
        rw [hnwf.eq_of_mem_preorder (isNamed_of_isVariableName hvariable) hin] at hword
        exact absurd (Node.mem_preorder_self name) (hword name hvariable)
      · exact hle
    · exact hdisjoint.imp_right Or.inl

/-- **The edits of a plan touch words that name a variable, the ends of hoisted statements and the heads
of hoisted declarations, and nothing else.**  They do not overlap, and the range of each is one of the
three.  So the source is rewritten to a text in which all ranges of the frame stand as they are, in their
order.  The frame holds every node without a word that names a variable, whether it is a key, the name of
a member or a method, a string, a regular expression or a number, and of a hoisted function all that lies
between such words: the markers, the parameters and the body with its layout. -/
theorem edits_frame (d : Dialect) {source : String} (hroot : parse source = .ok root) :
    ((d.plan source.toList root).edits.Pairwise fun e f => e.Clear f.start f.stop) ∧
    (∀ e ∈ (d.plan source.toList root).edits,
      e.Forward ∧ d.TouchesOne source.toList root (rangeOf e)) ∧
    (∃ code, d.RewritesTo source root code ∧ ∀ ranges : List Span,
      (∀ r ∈ ranges, d.IsFrame source.toList root r) → (ranges.Pairwise fun r t => r.stop ≤ t.start) →
        StandInOrder (ranges.map fun r => stretch (bytesOf source) r.start r.stop) (bytesOf code)) ∧
    (∀ n ∈ root.preorder, n.start < n.stop → (∀ m ∈ n.preorder, isVariableName m.kind = false) →
      d.IsFrame source.toList root n.span) ∧
    ∀ s ∈ root.children, ∀ r : Span, r.start < r.stop → IsWordless root r →
      d.LiesIn source.toList s r → d.IsFrame source.toList root r := by
  have hwf := wellFormed_of_parse hroot
  have hparse := parse_eq_ok_iff.1 hroot
  have hforward := forward_edits (d := d) hwf
  refine ⟨pairwise_edits hwf, fun e he => ⟨hforward e he, touchesOne_of_mem_edits hparse e he⟩, ?_,
    fun n hn hlt hwordless => isFrame_of_wordless hparse hn hlt hwordless,
    fun s hs r hlt hwordless hin => isFrame_of_liesIn hwf hs hlt hwordless hin⟩
  obtain ⟨code, hcode⟩ := exists_rewritesTo d hroot
  refine ⟨code, hcode, fun ranges hframe horder => ?_⟩
  exact standInOrder_of_splice (splice_of_editText hcode.editText_eq) hforward
    (fun r hr => ⟨(hframe r hr).lt, (hframe r hr).clear hparse⟩) horder

/-- A sketch with a hook that has two markers and a comment, and assigns to a member of a variable. -/
def marked : String :=
  "let x; async function* draw() \x7b /* x */ x.x = 'x'; \x7d"

/-- The ranges around the name of the hook and the variable in its body. -/
def markedRanges : List Span :=
  [⟨7, 23⟩, ⟨27, 40⟩, ⟨41, 52⟩]

/-- The rule at this sketch: the markers, the comment and the member stand as they were. -/
theorem edits_frame_marked : ∃ root code, parse marked = .ok root ∧
    standard.RewritesTo marked root code ∧
    (∀ r ∈ markedRanges, standard.IsFrame marked.toList root r) ∧
    StandInOrder [bytesOf "async function* ", bytesOf "() \x7b /* x */ ", bytesOf ".x = 'x'; \x7d"]
      (bytesOf code) := by
  have hread : standard.convertsTo marked
      ⟨"let _x; _p.draw = async function* () \x7b /* x */ _x.x = 'x'; \x7d;", [("x", "_x")]⟩
      (fun root => decide (∀ r ∈ markedRanges, standard.IsFrame marked.toList root r)) = true := by
    decide +kernel
  have hpieces : markedRanges.map (fun r => stretch (bytesOf marked) r.start r.stop)
      = [bytesOf "async function* ", bytesOf "() \x7b /* x */ ", bytesOf ".x = 'x'; \x7d"] := by
    decide +kernel
  obtain ⟨root, hroot, -, hmet⟩ := exists_convert hread
  have hframe := of_decide_eq_true hmet
  obtain ⟨-, -, ⟨code, hcode, hstand⟩, -⟩ := edits_frame standard hroot
  refine ⟨root, code, hroot, hcode, hframe, ?_⟩
  rw [← hpieces]
  exact hstand _ hframe (by decide)

/-- A sketch with a hook whose parameter has the name of a variable. -/
def shared : String :=
  "let x; function draw(x) \x7b\x7d"

/-- The parameter is renamed with the variable, so the parameters of the hook do not stand in the converted
text as they were. -/
theorem not_keeps_parameters_shared : ∃ root c s parameters, parse shared = .ok root ∧
    standard.convert shared = .ok c ∧ s ∈ root.children ∧
    (standard.hoist? shared.toList s).isSome = true ∧ s.child? .parameters = some parameters ∧
    c.code = "let _x; _p.draw = function (_x) \x7b\x7d;" ∧
    ¬ StandInOrder [stretch (bytesOf shared) parameters.start parameters.stop] (bytesOf c.code) := by
  have hread : standard.convertsTo shared
      ⟨"let _x; _p.draw = function (_x) \x7b\x7d;", [("x", "_x")]⟩ (fun root => decide
      (∃ s ∈ root.children, (standard.hoist? shared.toList s).isSome = true ∧
        ∃ parameters ∈ s.child? .parameters, ¬ stretch (bytesOf shared) parameters.start parameters.stop
          <:+: bytesOf "let _x; _p.draw = function (_x) \x7b\x7d;")) = true := by
    decide +kernel
  obtain ⟨root, hroot, hconvert, hmet⟩ := exists_convert hread
  obtain ⟨s, hs, hhoist, parameters, hparameters, hnot⟩ := of_decide_eq_true hmet
  refine ⟨root, _, s, parameters, hroot, hconvert, hs, hhoist, hparameters, rfl, ?_⟩
  rwa [standInOrder_singleton]

end Dialect

end SketchHost
