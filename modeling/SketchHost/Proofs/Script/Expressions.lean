/-
**Expressions are well-formed.**

Each reader of the grammar of expressions, given sound readers for its parts, goes forward and gives
a well-formed tree from where it began up to where it ends.  There is one statement for each
production.

* `Script.reads_block`, `Script.reads_functionTail`, `Script.reads_expressions` — bodies and lists;
* `Script.reads_record`, `Script.reads_list`, `Script.reads_template`, `Script.reads_classTail` — what
  brackets enclose;
* `Script.reads_primary`, `Script.reads_leftHand`, `Script.reads_operand`,
  `Script.reads_expression` — expressions.
-/

import SketchHost.Proofs.Script.Reading

set_option relaxedAutoImplicit false
set_option autoImplicit false

namespace SketchHost

namespace Script

open Node (Fits Row Shape)

variable {source : List Char} {g : Parts} {c : Cursor}

/-! ### Lists and bodies -/

theorem reads_element (hg : g.Sound source) (c : Cursor) :
    Reads source c (element g) (Between source c) := by
  rw [element]
  refine Reads.here (Reads.ite (fun _ => ?_) fun _ => hg .expression c)
  refine Reads.bind (reads_mark "...") fun c₁ start h₁ hstart => ?_
  refine Reads.bind (hg .expression c₁) fun c₂ e h₂ he => ?_
  exact reads_branch rfl trivial (Nat.le_refl _)
    (he.fits.row.mono hstart.passed (Nat.le_refl _))

theorem reads_closeParenthesis (hg : g.Sound source) :
    Reads source c (closeParenthesis g) fun d items =>
      Row source c.offset d.offset (items.filterMap id) :=
  reads_elements (reads_element hg) ")" g.bound

theorem reads_argumentList (hg : g.Sound source) :
    Reads source c (argumentList g) (Between source c) := by
  rw [argumentList]
  refine Reads.bind (reads_mark "(") fun c₁ start h₁ hstart => ?_
  refine Reads.bind (reads_closeParenthesis hg) fun c₂ items h₂ hitems => ?_
  refine Reads.bind (reads_branch rfl trivial hstart.token_le
    (hitems.mono hstart.le (Nat.le_refl _))) fun c₃ n h₃ hn => ?_
  exact Reads.pure (hn.withRole _)

/-- Parameters from items that lie behind their parenthesis. -/
theorem reads_parametersOf {lo start : Nat} {items : List (Option Node)} (hlo : lo ≤ start)
    (hitems : Row source start c.offset (items.filterMap id)) :
    Reads source c (parametersOf start items) fun d n =>
      Fits source lo d.offset n ∧ n.role = .parameters := by
  rw [parametersOf]
  refine Reads.bind (reads_orFail _) fun c₁ exprs _ h₁ => ?_
  obtain ⟨rfl, hexprs⟩ := h₁
  refine Reads.bind (reads_orFail _) fun c₂ params _ h₂ => ?_
  obtain ⟨rfl, hparams⟩ := h₂
  rw [← withoutHoles_eq hexprs] at hitems
  refine Reads.bind (reads_branch rfl (Node.isTargetKind_of_targets? hparams) hlo
    (hitems.asParameters? hparams)) fun c₃ n _ hn => ?_
  exact Reads.pure ⟨hn.withRole _, Node.role_withRole _ _⟩

theorem reads_parameters (hg : g.Sound source) :
    Reads source c (parameters g) fun d n => Between source c d n ∧ n.role = .parameters := by
  rw [parameters]
  refine Reads.bind (reads_mark "(") fun c₁ start h₁ hstart => ?_
  refine Reads.bind (reads_closeParenthesis hg) fun c₂ items h₂ hitems => ?_
  exact reads_parametersOf hstart.token_le (hitems.mono hstart.le (Nat.le_refl _))

theorem reads_statementsToBrace (hg : g.Sound source) (fuel : Nat) :
    Reads source c (statementsToBrace g fuel) fun d ns => Row source c.offset d.offset ns := by
  induction fuel generalizing c with
  | zero => exact Reads.fail
  | succ fuel ih =>
      rw [statementsToBrace]
      refine Reads.bind (reads_tryMark _) fun c₁ b h₁ _ => Reads.ite (fun _ => Reads.pure h₁) fun _ => ?_
      refine Reads.bind (hg .statement c₁) fun c₂ s h₂ hs => ?_
      refine Reads.bind ih fun c₃ rest h₃ hrest => Reads.pure ?_
      exact (hs.fits.cons hrest).mono h₁ (Nat.le_refl _)

theorem reads_block (hg : g.Sound source) :
    Reads source c (block g) fun d n => Between source c d n ∧ n.role = .body := by
  rw [block]
  refine Reads.bind (reads_mark _) fun c₁ start h₁ hstart => ?_
  refine Reads.bind (reads_statementsToBrace hg g.bound) fun c₂ body h₂ hbody => ?_
  refine Reads.bind (reads_branch rfl trivial hstart.token_le
    (hbody.mono hstart.le (Nat.le_refl _))) fun c₃ n _ hn => ?_
  exact Reads.pure ⟨hn.withRole _, Node.role_withRole _ _⟩

/-- Parameters and a body make a row, in which no child has the role of a name. -/
theorem reads_functionTail (hg : g.Sound source) :
    Reads source c (functionTail g) fun d ns =>
      Row source c.offset d.offset ns ∧ ∀ n ∈ ns, n.role ≠ .name := by
  rw [functionTail]
  refine Reads.bind (reads_parameters hg) fun c₁ ps h₁ hps => ?_
  refine Reads.bind (reads_block hg) fun c₂ b h₂ hb => Reads.pure ?_
  refine ⟨hps.1.fits.cons hb.1.fits.row, fun n hn => ?_⟩
  simp only [List.mem_cons, List.not_mem_nil, or_false] at hn
  rcases hn with rfl | rfl
  · simp [hps.2]
  · simp [hb.2]

theorem reads_moreExpressions (hg : g.Sound source) (fuel : Nat) :
    Reads source c (moreExpressions g fuel) fun d ns => Row source c.offset d.offset ns := by
  induction fuel generalizing c with
  | zero => exact Reads.pure (Nat.le_refl _)
  | succ fuel ih =>
      rw [moreExpressions]
      refine Reads.bind (reads_tryMark _) fun c₁ b h₁ _ => Reads.ite (fun _ => ?_) fun _ => Reads.pure h₁
      refine Reads.bind (hg .expression c₁) fun c₂ e h₂ he => ?_
      refine Reads.bind ih fun c₃ rest h₃ hrest => Reads.pure ?_
      exact (he.fits.cons hrest).mono h₁ (Nat.le_refl _)

/-- A node over a first tree and further ones begins with the first one. -/
theorem reads_chain {c₁ : Cursor} {first : Node} {rest : List Node} {k : Kind} {lo : Nat}
    (hk : isNamed k = false) (hshape : Shape k (first :: rest))
    (hfirst : Fits source lo c₁.offset first) (hrest : Row source c₁.offset c.offset rest) :
    Reads source c (branch k first.start (first :: rest)) fun d n => Fits source lo d.offset n :=
  reads_branch hk hshape hfirst.lo_le (hfirst.tight.cons hrest)

theorem reads_expressions (hg : g.Sound source) :
    Reads source c (expressions g) (Between source c) := by
  rw [expressions]
  refine Reads.bind (hg .expression c) fun c₁ first h₁ hfirst => ?_
  refine Reads.bind (reads_moreExpressions hg g.bound) fun c₂ rest h₂ hrest => ?_
  split
  · exact Reads.pure (Fits.mono hfirst (Nat.le_refl _) h₂)
  · exact reads_chain rfl trivial hfirst hrest

theorem reads_parenthesized (hg : g.Sound source) :
    Reads source c (parenthesized g) (Between source c) := by
  rw [parenthesized]
  refine Reads.bind (reads_mark _) fun c₁ start h₁ hstart => ?_
  refine Reads.bind (reads_expressions hg) fun c₂ e h₂ he => ?_
  refine Reads.bind (reads_mark _) fun c₃ _ h₃ _ => ?_
  exact reads_branch rfl trivial hstart.token_le
    (he.fits.mono hstart.le h₃).row

/-! ### Arrow functions -/

/-- An arrow function behind its parameters. -/
theorem reads_arrowTail (hg : g.Sound source) {lo start : Nat} {params : Node} (hlo : lo ≤ start)
    (hparams : Fits source start c.offset params)
    (htarget : params.role = .parameter → isTargetKind params.kind = true) :
    Reads source c (arrowTail g start params) fun d n => Fits source lo d.offset n := by
  rw [arrowTail]
  refine Reads.bind (reads_mark _) fun c₁ _ h₁ _ => ?_
  refine Reads.bind (Reads.orElse ((reads_block hg).mono fun _ _ _ h => h.1) (hg .expression c₁))
    fun c₂ body h₂ hbody => ?_
  exact reads_branch (k := .arrowFunction) rfl (Node.SoleTarget.cons htarget (by simp)) hlo
    ((hparams.mono (Nat.le_refl _) h₁).cons (hbody.fits.withRole _).row)

theorem reads_parenthesis (hg : g.Sound source) :
    Reads source c (parenthesis g) (Between source c) := by
  rw [parenthesis]
  refine Reads.bind (reads_mark _) fun c₁ start h₁ hstart => ?_
  refine Reads.bind (reads_closeParenthesis hg) fun c₂ items h₂ hitems => ?_
  have hlo : c.skipTrivia.offset ≤ start := hstart.token_le
  have hinside := hitems.mono hstart.le (Nat.le_refl _)
  refine Reads.peekMark (Reads.ite (fun _ => ?_) fun _ => ?_)
  · refine Reads.bind (reads_parametersOf (Nat.le_refl _) hinside) fun c₃ ps h₃ hps => ?_
    exact reads_arrowTail hg hlo hps.1 (by simp [hps.2])
  · refine Reads.bind (reads_orFail _) fun c₃ exprs _ h₃ => ?_
    obtain ⟨rfl, hexprs⟩ := h₃
    rw [← mapM_id_eq hexprs] at hinside
    refine Reads.ite (fun _ => Reads.fail) fun _ => Reads.get ?_
    cases exprs with
    | nil => exact Reads.fail
    | cons e rest =>
        cases rest with
        | nil =>
            exact Reads.pure (Node.fits_node (k := .parenthesized) rfl trivial hinside hlo _ _)
        | cons e' rest' =>
            obtain ⟨hrow, hle⟩ := hinside.tight
            have hinner := Node.fits_node (k := .sequence) rfl trivial hrow hinside.1 .plain ""
            exact Reads.pure (Node.fits_node (k := .parenthesized) rfl trivial
              (hinner.mono (Nat.le_refl _) hle).row hlo _ _)

/-! ### Names of properties -/

theorem reads_propertyKey (hg : g.Sound source) (r : Role) :
    Reads source c (propertyKey g r) fun d n => Between source c d n ∧ n.role = r := by
  rw [propertyKey]
  refine Reads.of_in fun hc => Reads.here ?_
  split
  · split
    · next w after hword =>
        have hleads := (Cursor.leads_skip 1 c.skipTrivia).trans (Cursor.leads_word hword)
        exact reads_token (k := .privateName) hleads rfl trivial r w
    · exact Reads.fail
  · refine Reads.bind (reads_mark _) fun c₁ _ h₁ hstart => ?_
    refine Reads.bind (hg .expression c₁) fun c₂ e h₂ he => ?_
    refine Reads.bind (reads_mark _) fun c₃ _ h₃ _ => ?_
    refine Reads.bind (reads_branch rfl trivial (Nat.le_refl _)
      (he.fits.mono hstart.passed h₃).row) fun c₄ n _ hn => Reads.pure ?_
    exact ⟨hn.withRole r, Node.role_withRole r n⟩
  · split
    · next w after hword =>
        have htrivia := Cursor.leads_skipTrivia c
        have hspells := Cursor.word?_spells hword
        refine Reads.set (htrivia.trans hspells.leads) (Reads.pure ⟨?_, rfl⟩)
        exact Node.fits_of_spells (hc.trans htrivia) hspells rfl r (Nat.le_refl _)
    · split
      · next after hliteral =>
          exact reads_token (k := .literal) (Cursor.leads_literal hliteral) rfl trivial r ""
      · exact Reads.fail

/-- A word before the name of a property leaves the next token where it was or after it. -/
theorem reads_modifier (inClass : Bool) (among : List String) (orStar : Bool) :
    Reads source c (modifier inClass among orStar) fun d _ => Onward c d := by
  rw [modifier]
  refine Reads.here ?_
  split
  · next w after hword =>
      have hleads := Cursor.leads_word hword
      refine Reads.ite (fun _ => ?_) fun _ => Reads.pure (Onward.refl c)
      exact Reads.set ((Cursor.leads_skipTrivia c).trans hleads)
        (Reads.pure (Onward.of_le hleads.offset_le))
  · exact Reads.pure (Onward.refl c)

theorem reads_modifiers (inClass : Bool) :
    Reads source c (modifiers inClass) fun d _ => Onward c d := by
  rw [modifiers]
  refine Reads.bind (reads_modifier inClass _ _) fun c₁ isStatic _ h₁ => ?_
  refine Reads.bind (reads_modifier inClass _ _) fun c₂ isAsync _ h₂ => ?_
  refine Reads.bind (reads_modifier inClass _ _) fun c₃ isAccessor _ h₃ => ?_
  have honward : Onward c c₃ := Nat.le_trans h₁ (Nat.le_trans h₂ h₃)
  refine Reads.ite (fun _ => Reads.pure honward) fun _ => ?_
  exact Reads.bind (reads_tryMark _) fun c₄ _ _ h₄ => Reads.pure (Nat.le_trans honward h₄)

/-- A method behind its name. -/
theorem reads_methodTail (hg : g.Sound source) {lo start : Nat} {key : Node} (hlo : lo ≤ start)
    (hkey : Fits source start c.offset key) :
    Reads source c (methodTail g start key) fun d n => Fits source lo d.offset n := by
  rw [methodTail]
  refine Reads.bind (reads_functionTail hg) fun c₁ parts h₁ hparts => ?_
  exact reads_branch rfl trivial hlo ((hkey.withRole _).cons hparts.1)

/-! ### Records and lists -/

theorem reads_property (hg : g.Sound source) (c : Cursor) :
    Reads source c (property g) (Between source c) := by
  rw [property]
  refine Reads.here (Reads.ite (fun _ => reads_element hg c) fun _ => ?_)
  refine Reads.bind (reads_modifiers _) fun c₁ marked _ h₁ => ?_
  obtain ⟨isStatic, isMethod⟩ := marked
  refine Reads.bind (reads_propertyKey hg .key) fun c₂ key h₂ hkey => Reads.peekMark ?_
  have hfits : Fits source c.skipTrivia.offset c₂.offset key :=
    hkey.1.mono h₁ (Nat.le_refl _)
  have hlo := Nat.le_refl c.skipTrivia.offset
  refine Reads.ite (fun _ => reads_methodTail hg hlo hfits) fun _ => ?_
  refine Reads.ite (fun _ => Reads.fail) fun _ => Reads.ite (fun _ => ?_) fun _ => ?_
  · refine Reads.bind (reads_mark _) fun c₃ _ h₃ _ => ?_
    refine Reads.bind (hg .expression c₃) fun c₄ value h₄ hvalue => ?_
    exact reads_branch (k := .pair) rfl (Node.halves_pair.2 ⟨hkey.2, Node.role_withRole _ _⟩) hlo
      ((hfits.mono hlo h₃).cons (hvalue.fits.withRole _).row)
  · refine Reads.ite (fun hplain => ?_) fun _ => Reads.fail
    have hkind : isNamed key.kind = true := by
      simp only [Bool.and_eq_true, beq_iff_eq] at hplain
      rw [hplain.1.2]
      rfl
    refine Reads.ite (fun _ => ?_) fun _ => Reads.pure ((hfits.withKind hkind rfl).withRole _)
    refine Reads.bind (reads_mark _) fun c₃ _ h₃ _ => ?_
    refine Reads.bind (hg .expression c₃) fun c₄ value h₄ hvalue => ?_
    refine reads_branch (k := .coverInitializer) rfl ⟨?_, ?_⟩ hlo
      ((((hfits.withKind hkind rfl).withRole _).mono hlo h₃).cons (hvalue.fits.withRole _).row)
    · exact Node.halves_pair.2 ⟨Node.role_withRole _ _, Node.role_withRole _ _⟩
    · exact Node.SoleTarget.cons (fun _ => by simp [isTargetKind]) (by simp)

theorem reads_record (hg : g.Sound source) :
    Reads source c (record g) (Between source c) := by
  rw [record]
  refine Reads.bind (reads_mark _) fun c₁ start h₁ hstart => ?_
  refine Reads.bind (reads_elements (reads_property hg) _ g.bound) fun c₂ items h₂ hitems => ?_
  exact reads_branch rfl trivial hstart.token_le
    (hitems.mono hstart.le (Nat.le_refl _))

theorem reads_list (hg : g.Sound source) :
    Reads source c (list g) (Between source c) := by
  rw [list]
  refine Reads.bind (reads_mark _) fun c₁ start h₁ hstart => ?_
  refine Reads.bind (reads_elements (reads_element hg) _ g.bound) fun c₂ items h₂ hitems => ?_
  exact reads_branch rfl trivial hstart.token_le
    (hitems.mono hstart.le (Nat.le_refl _))

/-! ### Templates -/

theorem reads_substitutions (hg : g.Sound source) (fuel : Nat) :
    Reads source c (substitutions g fuel) fun d ns => Row source c.offset d.offset ns := by
  induction fuel generalizing c with
  | zero => exact Reads.fail
  | succ fuel ih =>
      rw [substitutions]
      refine Reads.get ?_
      split
      · exact Reads.fail
      · next after hafter =>
          have hleads := Cursor.leads_templateText hafter
          exact Reads.set hleads (Reads.pure hleads.offset_le)
      · next after hafter =>
          refine Reads.set (Cursor.leads_templateText hafter) ?_
          refine Reads.bind (reads_expressions hg) fun c₁ e h₁ he => ?_
          refine Reads.bind (reads_mark _) fun c₂ _ h₂ _ => ?_
          refine Reads.bind (reads_branch rfl trivial (Cursor.le_substitution hafter)
            (he.fits.mono (Nat.sub_le _ 2) h₂).row) fun c₃ s h₃ hs => ?_
          exact Reads.bind ih fun c₄ rest h₄ hrest => Reads.pure (hs.cons hrest)

theorem reads_template (hg : g.Sound source) :
    Reads source c (template g) (Between source c) := by
  rw [template]
  refine Reads.bind (reads_mark _) fun c₁ start h₁ hstart => ?_
  refine Reads.bind (reads_substitutions hg g.bound) fun c₂ parts h₂ hparts => ?_
  exact reads_branch rfl trivial hstart.token_le
    (hparts.mono hstart.le (Nat.le_refl _))

/-! ### Classes -/

theorem reads_member (hg : g.Sound source) :
    Reads source c (member g) (Between source c) := by
  rw [member]
  refine Reads.here ?_
  have hlo := Nat.le_refl c.skipTrivia.offset
  refine Reads.ite (fun _ => ?_) fun _ => ?_
  · refine Reads.bind (reads_keyword _) fun c₁ start h₁ hstart => ?_
    refine Reads.bind (reads_block hg) fun c₂ b h₂ hb => ?_
    exact reads_branch rfl trivial hlo (hb.1.fits.mono hstart.passed (Nat.le_refl _)).row
  · refine Reads.bind (reads_modifiers _) fun c₁ marked _ h₁ => ?_
    obtain ⟨isStatic, isMethod⟩ := marked
    refine Reads.bind (reads_propertyKey hg .property) fun c₂ key h₂ hkey => Reads.peekMark ?_
    have hfits : Fits source c.skipTrivia.offset c₂.offset key :=
      hkey.1.mono h₁ (Nat.le_refl _)
    refine Reads.ite (fun _ => reads_methodTail hg hlo hfits) fun _ => ?_
    refine Reads.ite (fun _ => Reads.fail) fun _ => ?_
    refine Reads.bind (reads_tryMark _) fun c₃ _ h₃ _ => ?_
    -- what follows the value is the same with and without one
    extract_lets next
    have hnext : ∀ d value, Row source c₂.offset d.offset value →
        Reads source d (next value) (Between source c) := by
      intro d value hvalue
      refine Reads.bind (reads_branch rfl trivial hlo (hfits.cons hvalue)) fun d₁ n hd₁ hn => ?_
      refine Reads.bind (reads_semicolon g _) fun d₂ _ hd₂ _ => Reads.pure ?_
      exact hn.mono (Nat.le_refl _) hd₂
    refine Reads.ite (fun _ => ?_) fun _ => hnext c₃ [] h₃
    refine Reads.bind (hg .expression c₃) fun c₄ v h₄ hv => ?_
    exact hnext c₄ [v.withRole .value] ((hv.fits.withRole _).row.mono h₃ (Nat.le_refl _))

theorem reads_members (hg : g.Sound source) (fuel : Nat) :
    Reads source c (members g fuel) fun d ns => Row source c.offset d.offset ns := by
  induction fuel generalizing c with
  | zero => exact Reads.fail
  | succ fuel ih =>
      rw [members]
      refine Reads.bind (reads_tryMark _) fun c₁ _ h₁ _ =>
        Reads.ite (fun _ => Reads.pure h₁) fun _ => ?_
      refine Reads.bind (reads_tryMark _) fun c₂ _ h₂ _ =>
        Reads.ite (fun _ => ?_) fun _ => ?_
      · exact ih.mono fun d ns _ h => Row.mono h (Nat.le_trans h₁ h₂) (Nat.le_refl _)
      · refine Reads.bind (reads_member hg) fun c₃ m h₃ hm => ?_
        refine Reads.bind ih fun c₄ rest h₄ hrest => Reads.pure ?_
        exact (hm.fits.cons hrest).mono (Nat.le_trans h₁ h₂) (Nat.le_refl _)

/-- The parts of a class make a row, in which no child has the role of a name. -/
theorem reads_classTail (hg : g.Sound source) :
    Reads source c (classTail g) fun d ns =>
      Row source c.offset d.offset ns ∧ ∀ n ∈ ns, n.role ≠ .name := by
  rw [classTail]
  refine Reads.peekWord ?_
  extract_lets next
  have hnext : ∀ d heritage, Row source c.offset d.offset heritage → (∀ n ∈ heritage, n.role = .plain) →
      Reads source d (next heritage) fun d' ns =>
        Row source c.offset d'.offset ns ∧ ∀ n ∈ ns, n.role ≠ .name := by
    intro d heritage hheritage hplain
    refine Reads.bind (reads_mark _) fun d₁ start hd₁ hstart => ?_
    refine Reads.bind (reads_members hg g.bound) fun d₂ ms hd₂ hms => ?_
    refine Reads.bind (reads_branch rfl trivial hstart.offset_le
      (hms.mono hstart.le (Nat.le_refl _))) fun d₃ body hd₃ hbody => Reads.pure ?_
    refine ⟨hheritage.append (hbody.withRole _).row, fun n hn => ?_⟩
    rcases List.mem_append.1 hn with hn | hn
    · simp [hplain n hn]
    · simp [List.mem_singleton.1 hn]
  refine Reads.ite (fun _ => ?_) fun _ => hnext c [] (Nat.le_refl _) (by simp)
  refine Reads.bind (reads_keyword _) fun c₁ start h₁ hstart => ?_
  refine Reads.bind (hg .expression c₁) fun c₂ e h₂ he => ?_
  refine Reads.bind (reads_branch_plain rfl trivial hstart.offset_le
    (he.fits.mono hstart.le (Nat.le_refl _)).row) fun c₃ n h₃ hn => ?_
  exact hnext c₃ [n] hn.1.row (by simp [hn.2])

/-- A name that may be missing, in front of what has no further name. -/
theorem reads_optionalName :
    Reads source c optionalName fun d ns => Row source c.offset d.offset ns ∧
      ∀ rest : List Node, (∀ n ∈ rest, n.role ≠ .name) → Node.Named (ns ++ rest) := by
  rw [optionalName]
  refine Reads.peekWord ?_
  have hnone : Row source c.offset c.offset [] ∧
      ∀ rest : List Node, (∀ n ∈ rest, n.role ≠ .name) → Node.Named ([] ++ rest) :=
    ⟨Nat.le_refl _, fun _ => Node.Named.of_forall_ne⟩
  split
  · refine Reads.ite (fun _ => Reads.pure hnone) fun _ => ?_
    refine Reads.bind (reads_declaredName _) fun c₁ n _ hn => Reads.pure ?_
    exact ⟨hn.1.fits.row, fun _ => Node.Named.cons hn.2.1⟩
  · exact Reads.pure hnone

theorem reads_classExpression (hg : g.Sound source) :
    Reads source c (classExpression g) (Between source c) := by
  rw [classExpression]
  refine Reads.bind (reads_keyword _) fun c₁ start h₁ hstart => ?_
  refine Reads.bind reads_optionalName fun c₂ name h₂ hname => ?_
  refine Reads.bind (reads_classTail hg) fun c₃ rest h₃ hrest => ?_
  exact reads_branch (k := .classExpression) rfl (hname.2 rest hrest.2) hstart.token_le
    ((Row.append hname.1 hrest.1).mono hstart.le (Nat.le_refl _))

/-! ### Functions -/

/-- A function behind the place that it begins at. -/
theorem reads_functionExpression (hg : g.Sound source) {lo start : Nat} (hlo : lo ≤ start)
    (hstart : start ≤ c.skipTrivia.offset) :
    Reads source c (functionExpression g start) fun d n => Fits source lo d.offset n := by
  rw [functionExpression]
  refine Reads.bind (reads_keyword _) fun c₁ _ h₁ hword => ?_
  refine Reads.bind (reads_tryMark _) fun c₂ isGenerator h₂ _ => ?_
  refine Reads.bind reads_optionalName fun c₃ name h₃ hname => ?_
  refine Reads.bind (reads_functionTail hg) fun c₄ rest h₄ hrest => ?_
  have hrow := (Row.append hname.1 hrest.1).mono (Nat.le_trans hstart (Nat.le_trans hword.passed h₂))
    (Nat.le_refl _)
  have hnamed := hname.2 rest hrest.2
  cases isGenerator
  · exact reads_branch (k := .functionExpression) rfl hnamed hlo hrow
  · exact reads_branch (k := .generatorExpression) rfl hnamed hlo hrow

theorem reads_asyncForm (hg : g.Sound source) :
    Reads source c (asyncForm g) (Between source c) := by
  rw [asyncForm]
  refine Reads.here ?_
  refine Reads.bind (reads_wordNode false rfl .plain) fun c₁ name h₁ hname => ?_
  have hlo := Nat.le_refl c.skipTrivia.offset
  have hstart : c.skipTrivia.offset ≤ c₁.offset :=
    Nat.le_trans hname.1.lo_le (Nat.le_trans hname.1.start_le_stop hname.1.le_hi)
  refine Reads.get (Reads.peekMark (Reads.ite (fun _ => ?_) fun _ => Reads.peekMark
    (Reads.ite (fun _ => ?_) fun _ => Reads.ite (fun _ => Reads.pure hname.1) fun _ => ?_)))
  · exact reads_arrowTail hg hlo (hname.1.withRole _) (by simp [hname.2.1, isTargetKind])
  · refine Reads.bind (reads_mark _) fun c₂ start h₂ hmark => ?_
    refine Reads.bind (reads_closeParenthesis hg) fun c₃ items h₃ hitems => ?_
    have hinside := hitems.mono hmark.le (Nat.le_refl _)
    refine Reads.peekMark (Reads.ite (fun _ => ?_) fun _ => ?_)
    · refine Reads.bind (reads_parametersOf (Nat.le_trans hstart hmark.offset_le) hinside)
        fun c₄ params h₄ hparams => ?_
      exact reads_arrowTail hg hlo hparams.1 (by simp [hparams.2])
    · refine Reads.bind (reads_branch rfl trivial hmark.offset_le hinside) fun c₄ args h₄ hargs => ?_
      exact reads_branch rfl trivial hlo ((hname.1.withRole _).cons (hargs.withRole _).row)
  · refine Reads.peekWord ?_
    split
    · exact reads_functionExpression hg hlo (Nat.le_trans hstart (offset_le_token c₁))
    · refine Reads.ite (fun _ => Reads.pure hname.1) fun _ =>
        Reads.orElse ?_ (Reads.pure hname.1)
      refine Reads.bind (reads_wordNode false rfl .parameter) fun c₂ param h₂ hparam => ?_
      exact reads_arrowTail hg hlo (hparam.1.fits.mono hstart (Nat.le_refl _))
        (by simp [hparam.2.1, isTargetKind])
    · exact Reads.pure hname.1

/-! ### Primary expressions -/

theorem reads_importForm : Reads source c importForm (Between source c) := by
  rw [importForm]
  refine Reads.bind (reads_keyword _) fun c₁ start h₁ hstart => Reads.peekMark ?_
  have hlo : c.skipTrivia.offset ≤ start := hstart.token_le
  refine Reads.ite (fun _ => ?_) fun _ => Reads.ite (fun _ => ?_) fun _ => Reads.fail
  · refine Reads.bind (reads_mark _) fun c₂ _ h₂ _ => ?_
    refine Reads.bind (reads_keyword _) fun c₃ _ h₃ _ => ?_
    exact reads_branch rfl trivial hlo (Nat.le_trans hstart.le (Nat.le_trans h₂ h₃))
  · exact reads_branch rfl trivial hlo hstart.le

/-- A token that was passed over, up to the cursor. -/
theorem reads_passed {after : Cursor} (hleads : c.skipTrivia.Leads after) {k : Kind}
    (hk : isNamed k = false) (hshape : Shape k []) :
    Reads source c (do set after; branch k c.skipTrivia.offset []) (Between source c) :=
  Reads.set ((Cursor.leads_skipTrivia c).trans hleads)
    (reads_branch hk hshape (Nat.le_refl _) hleads.offset_le)

theorem reads_primary (hg : g.Sound source) :
    Reads source c (primary g) (Between source c) := by
  rw [primary]
  refine Reads.of_in fun hc => Reads.here ?_
  have htrivia := Cursor.leads_skipTrivia c
  have hlo := Nat.le_refl c.skipTrivia.offset
  split
  · next w after hword =>
      have hspells := Cursor.word?_spells hword
      refine Reads.ite (fun _ => ?_) fun _ => Reads.ite (fun _ => reads_asyncForm hg) fun _ =>
        Reads.ite (fun _ => reads_classExpression hg) fun _ =>
        Reads.ite (fun _ => reads_importForm) fun _ => Reads.ite (fun _ => ?_) fun _ =>
        Reads.ite (fun _ => ?_) fun _ => ?_
      · exact reads_functionExpression hg hlo hlo
      · exact reads_passed hspells.leads rfl trivial
      · refine Reads.set (htrivia.trans hspells.leads) (Reads.pure ?_)
        exact Node.fits_of_spells (hc.trans htrivia) hspells rfl _ hlo
      · refine Reads.bind (reads_wordNode false rfl .plain) fun c₁ name h₁ hname => ?_
        refine Reads.peekMark (Reads.ite (fun _ => ?_) fun _ => Reads.pure hname.1)
        exact reads_arrowTail hg hlo (hname.1.withRole _) (by simp [hname.2.1, isTargetKind])
  · split
    · next after hliteral => exact reads_passed (Cursor.leads_literal hliteral) rfl trivial
    · split
      · exact reads_parenthesis hg
      · exact reads_list hg
      · exact reads_record hg
      · exact reads_template hg
      · split
        · next after hregex => exact reads_passed (Cursor.leads_regex hregex) rfl trivial
        · exact Reads.fail
      · exact Reads.fail

/-! ### Accesses and calls -/

/-- A node that begins where its first child does, which was read before. -/
theorem reads_onto {lo : Nat} {left : Node} {k : Kind} {rest : List Node} (hk : isNamed k = false)
    (r : Role) (hshape : Shape k (left.withRole r :: rest)) {c₀ : Cursor}
    (hleft : Fits source lo c₀.offset left) (hrest : Row source c₀.offset c.offset rest) :
    Reads source c (branch k left.start (left.withRole r :: rest))
      fun d n => Fits source lo d.offset n :=
  reads_branch hk hshape hleft.lo_le ((hleft.tight.withRole r).cons hrest)

/-- A property behind a point. -/
theorem reads_accessed {lo : Nat} {left : Node} (hleft : Fits source lo c.offset left) :
    Reads source c (accessed left.start left) fun d n => Fits source lo d.offset n := by
  rw [accessed]
  refine Reads.of_in fun hc => Reads.here ?_
  have htrivia := Cursor.leads_skipTrivia c
  split
  next kind d heq =>
  split
  · next w after hword =>
      have hspells := Cursor.word?_spells hword
      refine Reads.here ?_
      split at heq
      · obtain ⟨rfl, rfl⟩ := Prod.mk.inj heq
        have hleads := (Cursor.leads_skip 1 c.skipTrivia).trans hspells.leads
        refine Reads.set (htrivia.trans hleads) (reads_onto rfl .object trivial hleft ?_)
        have hrow : Row source c.skipTrivia.offset after.offset [] := hleads.offset_le
        exact (Node.fits_node (k := .privateName) rfl trivial hrow htrivia.offset_le _ w).row
      · obtain ⟨rfl, rfl⟩ := Prod.mk.inj heq
        refine Reads.set (htrivia.trans hspells.leads) (reads_onto rfl .object trivial hleft ?_)
        exact (Node.fits_of_spells (hc.trans htrivia) hspells rfl .property htrivia.offset_le).row
  · exact Reads.fail

/-- Accesses and calls behind an expression. -/
theorem reads_accesses (hg : g.Sound source) (calls : Bool) {lo : Nat} (fuel : Nat) {left : Node}
    (hleft : Fits source lo c.offset left) :
    Reads source c (accesses g calls fuel left) fun d n => Fits source lo d.offset n := by
  induction fuel generalizing c left with
  | zero => exact Reads.pure hleft
  | succ fuel ih =>
      rw [accesses]
      refine Reads.here ?_
      extract_lets m index call
      have hindex : ∀ d : Cursor, c.offset ≤ d.offset →
          Reads source d index fun e n => Fits source lo e.offset n := by
        intro d hd
        refine Reads.bind (reads_mark _) fun d₁ _ h₁ _ => ?_
        refine Reads.bind (reads_expressions hg) fun d₂ e h₂ he => ?_
        refine Reads.bind (reads_mark _) fun d₃ _ h₃ _ => ?_
        exact reads_onto rfl .object trivial hleft
          ((he.fits.withRole _).mono (Nat.le_trans hd h₁) h₃).row
      have hcall : ∀ d : Cursor, c.offset ≤ d.offset →
          Reads source d call fun e n => Fits source lo e.offset n := by
        intro d hd
        refine Reads.bind (reads_argumentList hg) fun d₁ args h₁ hargs => ?_
        exact reads_onto rfl .callee trivial hleft (hargs.fits.mono hd (Nat.le_refl _)).row
      have hmember : ∀ d : Cursor, c.offset ≤ d.offset →
          Reads source d (accessed left.start left) fun e n => Fits source lo e.offset n :=
        fun d hd => reads_accessed (hleft.mono (Nat.le_refl _) hd)
      clear_value m index call
      have hc := Nat.le_refl c.offset
      refine Reads.ite (fun _ => ?_) fun _ => Reads.ite (fun _ => ?_) fun _ =>
        Reads.ite (fun _ => ?_) fun _ => Reads.ite (fun _ => ?_) fun _ =>
        Reads.ite (fun _ => ?_) fun _ => Reads.pure hleft
      · refine Reads.bind (reads_mark _) fun c₁ _ h₁ _ => ?_
        exact Reads.bind (hmember c₁ h₁) fun c₂ n _ hn => ih hn
      · refine Reads.bind (reads_mark _) fun c₁ _ h₁ _ => Reads.peekMark ?_
        refine Reads.ite (fun _ => ?_) fun _ => Reads.ite (fun _ => ?_) fun _ => ?_
        · exact Reads.bind (hcall c₁ h₁) fun c₂ n _ hn => ih hn
        · exact Reads.bind (hindex c₁ h₁) fun c₂ n _ hn => ih hn
        · exact Reads.bind (hmember c₁ h₁) fun c₂ n _ hn => ih hn
      · exact Reads.bind (hindex c hc) fun c₁ n _ hn => ih hn
      · exact Reads.bind (hcall c hc) fun c₁ n _ hn => ih hn
      · refine Reads.bind (reads_template hg) fun c₁ t h₁ ht => ?_
        refine Reads.bind (reads_onto rfl .callee trivial hleft (ht.fits.withRole _).row)
          fun c₂ n _ hn => ih hn

/-- An object creation, given one inside it: the expression that is created from. -/
theorem reads_creation (hg : g.Sound source) (fuel : Nat) :
    Reads source c (creation g fuel) (Between source c) := by
  induction fuel generalizing c with
  | zero => exact Reads.fail
  | succ fuel ih =>
      rw [creation]
      refine Reads.bind (reads_keyword _) fun c₁ start h₁ hstart => ?_
      have hlo := hstart.token_le
      refine Reads.bind (reads_tryMark _) fun c₂ _ h₂ _ => Reads.ite (fun _ => ?_) fun _ => ?_
      · refine Reads.bind (reads_keyword _) fun c₃ _ h₃ _ => ?_
        exact reads_branch rfl trivial hlo (Nat.le_trans hstart.le (Nat.le_trans h₂ h₃))
      · refine Reads.peekWord ?_
        extract_lets next
        have hnext : ∀ d base, Fits source start d.offset base →
            Reads source d (next base) (Between source c) := by
          intro d base hbase
          refine Reads.bind (reads_accesses hg false g.bound hbase) fun d₁ n _ hn => ?_
          refine Reads.peekMark (Reads.ite (fun _ => ?_) fun _ => ?_)
          · refine Reads.bind (reads_argumentList hg) fun d₂ args _ hargs => ?_
            exact reads_branch rfl trivial hlo (hn.cons hargs.fits.row)
          · exact reads_branch rfl trivial hlo hn.row
        have hbegin := Nat.le_trans hstart.le h₂
        refine Reads.ite (fun _ => ?_) fun _ => ?_
        · exact Reads.bind ih fun c₃ base _ hbase =>
            hnext c₃ base (hbase.fits.mono hbegin (Nat.le_refl _))
        · exact Reads.bind (reads_primary hg) fun c₃ base _ hbase =>
            hnext c₃ base (hbase.fits.mono hbegin (Nat.le_refl _))

theorem reads_leftHand (hg : g.Sound source) :
    Reads source c (leftHand g) (Between source c) := by
  rw [leftHand]
  refine Reads.peekWord ?_
  extract_lets next
  have hnext : ∀ d base, Between source c d base →
      Reads source d (next base) (Between source c) :=
    fun d base hbase => reads_accesses hg true g.bound hbase
  refine Reads.ite (fun _ => ?_) fun _ => ?_
  · exact Reads.bind (reads_creation hg g.bound) fun c₁ base _ hbase => hnext c₁ base hbase
  · exact Reads.bind (reads_primary hg) fun c₁ base _ hbase => hnext c₁ base hbase

/-! ### Operands -/

/-- What follows an expression that may be assigned to. -/
theorem reads_assignmentTail (hg : g.Sound source) {lo : Nat} {left : Node}
    (hleft : Fits source lo c.offset left) :
    Reads source c (assignmentTail g left) fun d n => Fits source lo d.offset n := by
  rw [assignmentTail]
  refine Reads.peekMark (Reads.ite (fun _ => ?_) fun _ => Reads.ite (fun _ => ?_) fun _ => ?_)
  · refine Reads.bind (reads_orFail _) fun c₁ target _ h₁ => ?_
    obtain ⟨rfl, htarget⟩ := h₁
    refine Reads.bind (reads_mark _) fun c₂ _ h₂ _ => ?_
    refine Reads.bind (hg .expression c₂) fun c₃ right h₃ hright => ?_
    have hreplaces : Node.Replaces source target left := by
      split at htarget
      · obtain rfl := Option.some.inj htarget
        exact ⟨id, rfl, rfl, rfl⟩
      · exact Node.replaces_asTarget? left _ target htarget
    rw [← hreplaces.start_eq]
    refine reads_onto (k := .assignment) rfl .left ?_ (hreplaces.fits hleft)
      ((hright.fits.withRole _).mono h₂ (Nat.le_refl _)).row
    exact Node.halves_pair.2 ⟨Node.role_withRole _ _, Node.role_withRole _ _⟩
  · refine Reads.bind (reads_mark _) fun c₁ _ h₁ _ => ?_
    refine Reads.bind (hg .expression c₁) fun c₂ right h₂ hright => ?_
    exact reads_onto rfl .left trivial hleft
      ((hright.fits.withRole _).mono h₁ (Nat.le_refl _)).row
  · refine Reads.get (Reads.ite (fun _ => ?_) fun _ => Reads.pure hleft)
    refine Reads.bind (reads_mark _) fun c₁ _ h₁ _ => ?_
    exact reads_branch rfl trivial hleft.lo_le (hleft.tight.mono (Nat.le_refl _) h₁).row

theorem reads_unaryTail (hg : g.Sound source) {k : Kind} (hk : isNamed k = false)
    (hshape : ∀ n, Shape k [n]) {lo start : Nat} (hlo : lo ≤ start) (hstart : start ≤ c.offset) :
    Reads source c (unaryTail g k start) fun d n => Fits source lo d.offset n := by
  rw [unaryTail]
  refine Reads.bind (hg .operand c) fun c₁ e _ he => ?_
  exact reads_branch hk (hshape e) hlo (he.fits.mono hstart (Nat.le_refl _)).row

theorem reads_yieldForm (hg : g.Sound source) :
    Reads source c (yieldForm g) (Between source c) := by
  rw [yieldForm]
  refine Reads.bind (reads_keyword _) fun c₁ start h₁ hstart => ?_
  refine Reads.bind (reads_tryMark _) fun c₂ _ h₂ _ => Reads.ite (fun _ => ?_) fun _ => ?_
  · refine Reads.bind (hg .expression c₂) fun c₃ e h₃ he => ?_
    exact reads_branch rfl trivial hstart.token_le
      (he.fits.mono (Nat.le_trans hstart.le h₂) (Nat.le_refl _)).row
  · have hbare : Reads source c₂ (branch .yield start []) (Between source c) :=
      reads_branch rfl trivial hstart.token_le (Nat.le_trans hstart.le h₂)
    refine Reads.get (Reads.ite (fun _ => hbare) fun _ => Reads.orElse ?_ hbare)
    refine Reads.bind (hg .expression c₂) fun c₃ e h₃ he => ?_
    exact reads_branch rfl trivial hstart.token_le
      (he.fits.mono (Nat.le_trans hstart.le h₂) (Nat.le_refl _)).row

theorem reads_operand (hg : g.Sound source) :
    Reads source c (operand g) (Between source c) := by
  rw [operand]
  refine Reads.here ?_
  have htrivia := Cursor.leads_skipTrivia c
  have hlo := Nat.le_refl c.skipTrivia.offset
  have hassigned : Reads source c (do assignmentTail g (← leftHand g)) (Between source c) :=
    Reads.bind (reads_leftHand hg) fun d n _ hn => reads_assignmentTail hg hn
  split
  · next w after hword =>
      have hleads := Cursor.leads_word hword
      refine Reads.ite (fun _ => ?_) fun _ => Reads.ite (fun _ => ?_) fun _ =>
        Reads.ite (fun _ => reads_yieldForm hg) fun _ => hassigned
      · refine Reads.set (htrivia.trans hleads) ?_
        exact reads_unaryTail (k := .unary) hg rfl (fun _ => trivial) hlo hleads.offset_le
      · refine Reads.set (htrivia.trans hleads) ?_
        exact reads_unaryTail (k := .await) hg rfl (fun _ => trivial) hlo hleads.offset_le
  · refine Reads.ite (fun _ => ?_) fun _ => Reads.ite (fun _ => ?_) fun _ =>
      Reads.ite (fun _ => ?_) fun _ => hassigned
    · refine Reads.bind (reads_mark _) fun c₁ _ _ hmark => ?_
      exact reads_unaryTail (k := .unary) hg rfl (fun _ => trivial) hlo hmark.passed
    · refine Reads.bind (reads_mark _) fun c₁ _ _ hmark => ?_
      exact reads_unaryTail (k := .update) hg rfl (fun _ => trivial) hlo hmark.passed
    · refine Reads.bind (reads_propertyKey hg .plain) fun c₁ name _ hname => ?_
      exact Reads.peekWord (Reads.ite (fun _ => Reads.pure hname.1) fun _ => Reads.fail)

/-! ### Expressions -/

theorem reads_moreOperands (hg : g.Sound source) (fuel : Nat) :
    Reads source c (moreOperands g fuel) fun d ns => Row source c.offset d.offset ns := by
  induction fuel generalizing c with
  | zero => exact Reads.pure (Nat.le_refl _)
  | succ fuel ih =>
      rw [moreOperands]
      refine Reads.here ?_
      dsimp only
      split
      · exact Reads.pure (Nat.le_refl _)
      · next after hafter =>
          have hleads : c.Leads after := by
            refine (Cursor.leads_skipTrivia c).trans ?_
            split at hafter
            · next w d hword =>
                split at hafter
                · obtain rfl := Option.some.inj hafter
                  exact Cursor.leads_word hword
                · simp at hafter
            · split at hafter
              · obtain rfl := Option.some.inj hafter
                exact Cursor.leads_skip _ _
              · simp at hafter
          refine Reads.set hleads ?_
          refine Reads.bind (hg .operand after) fun c₁ e h₁ he => ?_
          refine Reads.bind ih fun c₂ rest h₂ hrest => Reads.pure ?_
          exact (he.fits.cons hrest).mono hleads.offset_le (Nat.le_refl _)

theorem reads_expression (hg : g.Sound source) :
    Reads source c (expression g) (Between source c) := by
  rw [expression]
  refine Reads.bind (hg .operand c) fun c₁ first h₁ hfirst => ?_
  refine Reads.bind (reads_moreOperands hg g.bound) fun c₂ more h₂ hmore => ?_
  extract_lets next
  have hnext : ∀ d chain, Between source c d chain →
      Reads source d (next chain) (Between source c) := by
    intro d chain hchain
    refine Reads.bind (reads_tryMark _) fun d₁ _ hd₁ _ =>
      Reads.ite (fun _ => ?_) fun _ => Reads.pure (hchain.mono (Nat.le_refl _) hd₁)
    refine Reads.bind (hg .expression d₁) fun d₂ yes hd₂ hyes => ?_
    refine Reads.bind (reads_mark _) fun d₃ _ hd₃ _ => ?_
    refine Reads.bind (hg .expression d₃) fun d₄ no hd₄ hno => ?_
    exact reads_onto rfl .condition trivial hchain
      (((hyes.fits.withRole _).mono hd₁ hd₃).cons (hno.fits.withRole _).row)
  split
  · exact hnext c₂ first (hfirst.mono (Nat.le_refl _) h₂)
  · exact Reads.bind (reads_chain rfl trivial hfirst hmore) fun c₃ n _ hn => hnext c₃ n hn

end Script

end SketchHost
