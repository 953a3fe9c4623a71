/-
**Statements are well-formed.**

The readers of the grammar of statements, one after the other, and from them the tree that reading a
source gives.

* `Script.reads_declaration`, `Script.reads_functionDeclaration` — what declares a name;
* `Script.reads_forLoop`, `Script.reads_importStatement`, `Script.reads_exportStatement` — the
  statements with heads of their own;
* `Script.reads_statement` — any statement;
* `Script.sound_readPart` — the readers for the parts are sound at every depth;
* `Script.exists_run_of_parse?` — the tree of a source holds the statements that are read;
* `Script.wellFormed_of_parse?` — the tree of a source is well-formed.
-/

import SketchHost.Proofs.Script.Expressions
import SketchHost.Script.Parse

set_option relaxedAutoImplicit false
set_option autoImplicit false

namespace SketchHost

namespace Script

open Node (Fits Row Shape)

variable {source : List Char} {g : Parts} {c : Cursor}

/-! ### Variables -/

theorem reads_declaredTarget (hg : g.Sound source) (r : Role) :
    Reads source c (declaredTarget g r) fun d n => Between source c d n ∧ n.TargetIn r := by
  rw [declaredTarget]
  have hpattern : ∀ (d : Cursor) (n : Node), Between source c d n →
      Reads source d (do return (← orFail n.asPattern?).withRole r)
        fun e p => Between source c e p ∧ p.TargetIn r := by
    intro d n hn
    refine Reads.bind (reads_orFail _) fun d₁ p _ hp => Reads.pure ?_
    obtain ⟨rfl, hp⟩ := hp
    refine ⟨(Fits.asPattern? hn hp).withRole r, Node.role_withRole r p, ?_⟩
    rw [Node.kind_withRole]
    exact Node.isTargetKind_of_asTarget? hp
  refine Reads.peekMark (Reads.ite (fun _ => ?_) fun _ => Reads.ite (fun _ => ?_) fun _ => ?_)
  · exact Reads.bind (reads_list hg) fun d n _ hn => hpattern d n hn
  · exact Reads.bind (reads_record hg) fun d n _ hn => hpattern d n hn
  · exact (reads_declaredName r).mono fun d n _ h => ⟨h.1, h.2.2, by rw [h.2.1]; rfl⟩

/-- A declarator behind its target, with the value that it may have. -/
theorem reads_declaratorTail (hg : g.Sound source) {lo : Nat} {target : Node}
    (hfits : Fits source lo c.offset target) (htarget : target.TargetIn .name) :
    Reads source c (declaratorTail g target) fun d n =>
      Fits source lo d.offset n ∧ n.kind = .variableDeclarator := by
  rw [declaratorTail]
  refine Reads.bind (reads_tryMark _) fun c₁ _ h₁ _ => Reads.ite (fun _ => ?_) fun _ => ?_
  · refine Reads.bind (hg .expression c₁) fun c₂ value h₂ hvalue => ?_
    have hshape : Shape .variableDeclarator [target, value.withRole .value] :=
      ⟨target, [value.withRole .value], rfl, htarget.role, by simp, by simp, htarget.kind⟩
    exact reads_branch_of_kind rfl hshape hfits.lo_le
      ((hfits.tight.mono (Nat.le_refl _) h₁).cons (hvalue.fits.withRole _).row)
  · have hshape : Shape .variableDeclarator [target] :=
      ⟨target, [], rfl, htarget.role, by simp, by simp, htarget.kind⟩
    exact reads_branch_of_kind rfl hshape hfits.lo_le
      (hfits.tight.mono (Nat.le_refl _) h₁).row

theorem reads_moreDeclarators (hg : g.Sound source) (fuel : Nat) :
    Reads source c (moreDeclarators g fuel) fun d ns =>
      Row source c.offset d.offset ns ∧ ∀ n ∈ ns, n.kind = .variableDeclarator := by
  induction fuel generalizing c with
  | zero => exact Reads.pure ⟨Nat.le_refl _, by simp⟩
  | succ fuel ih =>
      rw [moreDeclarators]
      refine Reads.bind (reads_tryMark _) fun c₁ _ h₁ _ =>
        Reads.ite (fun _ => ?_) fun _ => Reads.pure ⟨h₁, by simp⟩
      refine Reads.bind (reads_declaredTarget hg .name) fun c₂ target h₂ htarget => ?_
      refine Reads.bind (reads_declaratorTail hg htarget.1.fits htarget.2) fun c₃ n h₃ hn => ?_
      refine Reads.bind ih fun c₄ rest h₄ hrest => Reads.pure ⟨?_, ?_⟩
      · exact (hn.1.cons hrest.1).mono h₁ (Nat.le_refl _)
      · intro m hm
        rcases List.mem_cons.1 hm with rfl | hm
        · exact hn.2
        · exact hrest.2 m hm

/-- A declaration of variables behind its first target. -/
theorem reads_declarationTail (hg : g.Sound source) (w : String) {lo start : Nat} {target : Node}
    (hlo : lo ≤ start) (hfits : Fits source start c.offset target) (htarget : target.TargetIn .name) :
    Reads source c (declarationTail g (declarationKind w) start target)
      fun d n => Fits source lo d.offset n := by
  rw [declarationTail]
  refine Reads.bind (reads_declaratorTail hg hfits htarget) fun c₁ first h₁ hfirst => ?_
  refine Reads.bind (reads_moreDeclarators hg g.bound) fun c₂ more h₂ hmore => ?_
  refine Reads.bind (reads_semicolon g _) fun c₃ _ h₃ _ => ?_
  have hrow : Row source start c₃.offset (first :: more) :=
    (hfirst.1.cons hmore.1).mono (Nat.le_refl _) h₃
  have hall : ∀ n ∈ first :: more, n.kind = .variableDeclarator := by
    intro n hn
    rcases List.mem_cons.1 hn with rfl | hn
    · exact hfirst.2
    · exact hmore.2 n hn
  rw [declarationKind]
  split
  · exact reads_branch rfl hall hlo hrow
  · exact reads_branch rfl hall hlo hrow

theorem reads_declaration (hg : g.Sound source) (w : String) :
    Reads source c (declaration g w) (Between source c) := by
  rw [declaration]
  refine Reads.bind (reads_keyword _) fun c₁ start h₁ hstart => ?_
  refine Reads.bind (reads_declaredTarget hg .name) fun c₂ target h₂ htarget => ?_
  exact reads_declarationTail hg w hstart.token_le
    (htarget.1.fits.mono hstart.le (Nat.le_refl _)) htarget.2

/-! ### Functions and classes -/

theorem reads_functionDeclaration (hg : g.Sound source) :
    Reads source c (functionDeclaration g) (Between source c) := by
  rw [functionDeclaration]
  refine Reads.here (Reads.peekWord ?_)
  have hlo := Nat.le_refl c.skipTrivia.offset
  extract_lets next
  have hnext : ∀ d, Onward c d → Reads source d (next ⟨⟩) (Between source c) := by
    intro d hd
    refine Reads.bind (reads_keyword _) fun d₁ _ _ hword => ?_
    refine Reads.bind (reads_tryMark _) fun d₂ isGenerator h₂ _ => ?_
    refine Reads.bind (reads_declaredName _) fun d₃ name h₃ hname => ?_
    refine Reads.bind (reads_functionTail hg) fun d₄ rest h₄ hrest => Reads.get ?_
    have hbegin : c.skipTrivia.offset ≤ d₂.offset :=
      Nat.le_trans hd (Nat.le_trans hword.passed h₂)
    have hrow : Row source c.skipTrivia.offset d₄.offset (name :: rest) :=
      (hname.1.fits.cons hrest.1).mono hbegin (Nat.le_refl _)
    have hnamed : Node.Named (name :: rest) := .cons hname.2.1 hrest.2
    extract_lets close
    have hclose : ∀ e, d₄.offset ≤ e.offset →
        Reads source e (close ⟨⟩) (Between source c) := by
      intro e he
      cases isGenerator
      · exact reads_branch (k := .functionDeclaration) rfl hnamed hlo (hrow.mono hlo he)
      · exact reads_branch (k := .generatorDeclaration) rfl hnamed hlo (hrow.mono hlo he)
    split
    · next e he =>
        have hleads := Cursor.leads_understoodEnd he
        exact Reads.set hleads (hclose e hleads.offset_le)
    · refine Reads.ite (fun _ => ?_) fun _ => hclose d₄ (Nat.le_refl _)
      exact Reads.bind (Reads.fail (Q := fun _ _ => True)) fun e _ he _ => hclose e he
  refine Reads.ite (fun _ => ?_) fun _ => hnext c (Onward.refl c)
  exact Reads.bind (reads_keyword _) fun c₁ _ _ hword => hnext c₁ (Onward.of_le hword.passed)

theorem reads_classDeclaration (hg : g.Sound source) :
    Reads source c (classDeclaration g) (Between source c) := by
  rw [classDeclaration]
  refine Reads.bind (reads_keyword _) fun c₁ start h₁ hstart => ?_
  refine Reads.bind (reads_declaredName _) fun c₂ name h₂ hname => ?_
  refine Reads.bind (reads_classTail hg) fun c₃ rest h₃ hrest => ?_
  exact reads_branch (k := .classDeclaration) rfl (Node.Named.cons hname.2.1 hrest.2) hstart.token_le
    ((hname.1.fits.cons hrest.1).mono hstart.le (Nat.le_refl _))

/-! ### Plain statements -/

theorem reads_expressionStatement (hg : g.Sound source) :
    Reads source c (expressionStatement g) (Between source c) := by
  rw [expressionStatement]
  refine Reads.bind (reads_expressions hg) fun c₁ e h₁ he => ?_
  refine Reads.bind (reads_semicolon g _) fun c₂ _ h₂ _ => ?_
  exact reads_branch rfl trivial he.lo_le (he.tight.mono (Nat.le_refl _) h₂).row

theorem reads_ifStatement (hg : g.Sound source) :
    Reads source c (ifStatement g) (Between source c) := by
  rw [ifStatement]
  refine Reads.bind (reads_keyword _) fun c₁ start h₁ hstart => ?_
  refine Reads.bind (reads_parenthesized hg) fun c₂ test h₂ htest => ?_
  refine Reads.bind (hg .statement c₂) fun c₃ yes h₃ hyes => ?_
  have hlo := hstart.token_le
  have hhead : ∀ {d : Nat} {rest : List Node}, Row source c₃.offset d rest →
      Row source start d (test.withRole .condition :: yes.withRole .consequence :: rest) :=
    fun hrest => ((htest.fits.withRole _).cons ((hyes.fits.withRole _).cons hrest)).mono hstart.le
      (Nat.le_refl _)
  refine Reads.peekWord (Reads.ite (fun _ => ?_) fun _ => ?_)
  · refine Reads.bind (reads_keyword _) fun c₄ word h₄ hword => ?_
    refine Reads.bind (hg .statement c₄) fun c₅ no h₅ hno => ?_
    refine Reads.bind (reads_branch rfl trivial hword.offset_le
      (hno.fits.mono hword.le (Nat.le_refl _)).row) fun c₆ clause h₆ hclause => ?_
    exact reads_branch rfl trivial hlo (hhead (hclause.withRole _).row)
  · exact reads_branch rfl trivial hlo (hhead (Nat.le_refl _))

theorem reads_atCase : Reads source c atCase fun _ _ => True := by
  rw [atCase]
  exact Reads.peekWord (Reads.peekMark (Reads.pure trivial))

theorem reads_caseBody (hg : g.Sound source) (fuel : Nat) :
    Reads source c (caseBody g fuel) fun d ns => Row source c.offset d.offset ns := by
  induction fuel generalizing c with
  | zero => exact Reads.fail
  | succ fuel ih =>
      rw [caseBody]
      refine Reads.bind reads_atCase fun c₁ _ h₁ _ =>
        Reads.ite (fun _ => Reads.pure h₁) fun _ => ?_
      refine Reads.bind (hg .statement c₁) fun c₂ s h₂ hs => ?_
      refine Reads.bind ih fun c₃ rest h₃ hrest => Reads.pure ?_
      exact (hs.fits.cons hrest).mono h₁ (Nat.le_refl _)

theorem reads_cases (hg : g.Sound source) (fuel : Nat) :
    Reads source c (cases g fuel) fun d ns => Row source c.offset d.offset ns := by
  induction fuel generalizing c with
  | zero => exact Reads.fail
  | succ fuel ih =>
      rw [cases]
      refine Reads.bind (reads_tryMark _) fun c₁ _ h₁ _ =>
        Reads.ite (fun _ => Reads.pure h₁) fun _ => Reads.peekWord (Reads.ite (fun _ => ?_) fun _ => ?_)
      · refine Reads.bind (reads_keyword _) fun c₂ start h₂ hstart => ?_
        refine Reads.bind (reads_mark _) fun c₃ _ h₃ _ => ?_
        refine Reads.bind (reads_caseBody hg g.bound) fun c₄ body h₄ hbody => ?_
        refine Reads.bind (reads_branch rfl trivial hstart.offset_le
          (hbody.mono (Nat.le_trans hstart.le h₃) (Nat.le_refl _))) fun c₅ n h₅ hn => ?_
        refine Reads.bind ih fun c₆ rest h₆ hrest => Reads.pure ?_
        exact (hn.cons hrest).mono h₁ (Nat.le_refl _)
      · refine Reads.bind (reads_keyword _) fun c₂ start h₂ hstart => ?_
        refine Reads.bind (reads_expressions hg) fun c₃ value h₃ hvalue => ?_
        refine Reads.bind (reads_mark _) fun c₄ _ h₄ _ => ?_
        refine Reads.bind (reads_caseBody hg g.bound) fun c₅ body h₅ hbody => ?_
        refine Reads.bind (reads_branch rfl trivial hstart.offset_le
          (((hvalue.fits.withRole _).mono hstart.le h₄).cons hbody)) fun c₆ n h₆ hn => ?_
        refine Reads.bind ih fun c₇ rest h₇ hrest => Reads.pure ?_
        exact (hn.cons hrest).mono h₁ (Nat.le_refl _)

theorem reads_switchStatement (hg : g.Sound source) :
    Reads source c (switchStatement g) (Between source c) := by
  rw [switchStatement]
  refine Reads.bind (reads_keyword _) fun c₁ start h₁ hstart => ?_
  refine Reads.bind (reads_parenthesized hg) fun c₂ value h₂ hvalue => ?_
  refine Reads.bind (reads_mark _) fun c₃ brace h₃ hbrace => ?_
  refine Reads.bind (reads_cases hg g.bound) fun c₄ cs h₄ hcs => ?_
  refine Reads.bind (reads_branch rfl trivial hbrace.offset_le
    (hcs.mono hbrace.le (Nat.le_refl _))) fun c₅ body h₅ hbody => ?_
  exact reads_branch rfl trivial hstart.token_le
    (((hvalue.fits.withRole _).mono hstart.le (Nat.le_refl _)).cons (hbody.withRole _).row)

theorem reads_tryStatement (hg : g.Sound source) :
    Reads source c (tryStatement g) (Between source c) := by
  rw [tryStatement]
  refine Reads.bind (reads_keyword _) fun c₁ start h₁ hstart => ?_
  refine Reads.bind (reads_block hg) fun c₂ body h₂ hbody => Reads.peekWord ?_
  extract_lets next
  have hnext : ∀ d handler, Row source c₂.offset d.offset handler →
      Reads source d (next handler) (Between source c) := by
    intro d handler hhandler
    refine Reads.peekWord ?_
    extract_lets close
    have hclose : ∀ e finalizer, Row source d.offset e.offset finalizer →
        Reads source e (close finalizer) (Between source c) := by
      intro e finalizer hfinalizer
      have hrow := (hbody.1.fits.cons hhandler).append hfinalizer
      exact reads_branch rfl trivial hstart.token_le (hrow.mono hstart.le (Nat.le_refl _))
    refine Reads.ite (fun _ => ?_) fun _ => hclose d [] (Nat.le_refl _)
    refine Reads.bind (reads_keyword _) fun d₁ word hd₁ hword => ?_
    refine Reads.bind (reads_block hg) fun d₂ b hd₂ hb => ?_
    refine Reads.bind (reads_branch rfl trivial hword.offset_le
      (hb.1.fits.mono hword.le (Nat.le_refl _)).row) fun d₃ n hd₃ hn => ?_
    exact hclose d₃ [n] hn.row
  refine Reads.ite (fun _ => ?_) fun _ => hnext c₂ [] (Nat.le_refl _)
  refine Reads.bind (reads_keyword _) fun c₃ word h₃ hword => ?_
  refine Reads.bind (reads_tryMark _) fun c₄ _ h₄ _ => ?_
  extract_lets close
  have hclose : ∀ e parameter, Row source word e.offset parameter →
      Node.SoleTarget .parameter parameter →
      Reads source e (close parameter) (Between source c) := by
    intro e parameter hparameter htarget
    refine Reads.bind (reads_block hg) fun e₁ b he₁ hb => ?_
    refine Reads.bind (reads_branch (k := .catchClause) rfl (htarget.append (by simp [hb.2]))
      hword.offset_le (hparameter.append hb.1.fits.row)) fun e₂ n he₂ hn => ?_
    exact hnext e₂ [n] hn.row
  have hbegin := Nat.le_trans hword.le h₄
  refine Reads.ite (fun _ => ?_) fun _ => hclose c₄ [] hbegin (.of_forall_ne (by simp))
  refine Reads.bind (reads_declaredTarget hg .parameter) fun c₅ p h₅ hp => ?_
  refine Reads.bind (reads_mark _) fun c₆ _ h₆ _ => ?_
  exact hclose c₆ [p] (hp.1.fits.mono hbegin h₆).row (.cons (fun _ => hp.2.kind) (by simp))

theorem reads_guarded (hg : g.Sound source) (w : String) {k : Kind} (hk : isNamed k = false)
    (hshape : ∀ ns, Shape k ns) :
    Reads source c (guarded g w k) (Between source c) := by
  rw [guarded]
  refine Reads.bind (reads_keyword _) fun c₁ start h₁ hstart => ?_
  refine Reads.bind (reads_parenthesized hg) fun c₂ test h₂ htest => ?_
  refine Reads.bind (hg .statement c₂) fun c₃ body h₃ hbody => ?_
  exact reads_branch hk (hshape _) hstart.token_le
    (((htest.fits.withRole _).mono hstart.le (Nat.le_refl _)).cons (hbody.fits.withRole _).row)

theorem reads_doStatement (hg : g.Sound source) :
    Reads source c (doStatement g) (Between source c) := by
  rw [doStatement]
  refine Reads.bind (reads_keyword _) fun c₁ start h₁ hstart => ?_
  refine Reads.bind (hg .statement c₁) fun c₂ body h₂ hbody => ?_
  refine Reads.bind (reads_keyword _) fun c₃ _ h₃ _ => ?_
  refine Reads.bind (reads_parenthesized hg) fun c₄ test h₄ htest => Reads.get ?_
  have hrow : Row source start c₄.offset [body.withRole .body, test.withRole .condition] :=
    ((hbody.fits.withRole _).mono hstart.le h₃).cons (htest.fits.withRole _).row
  extract_lets next
  have hnext : ∀ d, c₄.offset ≤ d.offset → Reads source d (next ⟨⟩) (Between source c) :=
    fun d hd => reads_branch rfl trivial hstart.token_le (hrow.mono (Nat.le_refl _) hd)
  split
  · next d hd =>
      have hleads := Cursor.leads_understoodEnd hd
      exact Reads.set hleads (hnext d hleads.offset_le)
  · exact Reads.bind (reads_tryMark _) fun c₅ _ h₅ _ => hnext c₅ h₅

theorem reads_jump (w : String) {k : Kind} (hk : isNamed k = false) (hshape : ∀ ns, Shape k ns) :
    Reads source c (jump g w k) (Between source c) := by
  rw [jump]
  refine Reads.bind (reads_keyword _) fun c₁ start h₁ hstart => Reads.get ?_
  extract_lets next
  have hnext : ∀ d label, Row source c₁.offset d.offset label →
      Reads source d (next label) (Between source c) := by
    intro d label hlabel
    refine Reads.bind (reads_semicolon g _) fun d₁ _ hd₁ _ => ?_
    exact reads_branch hk (hshape _) hstart.token_le (hlabel.mono hstart.le hd₁)
  split
  · exact hnext c₁ [] (Nat.le_refl _)
  · refine Reads.peekMark (Reads.ite (fun _ => hnext c₁ [] (Nat.le_refl _)) fun _ => ?_)
    exact Reads.bind (reads_wordNode false rfl .label) fun c₂ n h₂ hn => hnext c₂ [n] hn.1.fits.row

theorem reads_returnStatement (hg : g.Sound source) :
    Reads source c (returnStatement g) (Between source c) := by
  rw [returnStatement]
  refine Reads.bind (reads_keyword _) fun c₁ start h₁ hstart => Reads.get ?_
  have hlo := hstart.token_le
  split
  · next d hd =>
      have hleads := Cursor.leads_understoodEnd hd
      exact Reads.set hleads
        (reads_branch rfl trivial hlo (Nat.le_trans hstart.le hleads.offset_le))
  · refine Reads.bind (reads_tryMark _) fun c₂ _ h₂ _ => Reads.ite (fun _ => ?_) fun _ => ?_
    · exact reads_branch rfl trivial hlo (Nat.le_trans hstart.le h₂)
    · refine Reads.bind (reads_expressions hg) fun c₃ e h₃ he => ?_
      refine Reads.bind (reads_semicolon g _) fun c₄ _ h₄ _ => ?_
      exact reads_branch rfl trivial hlo (he.fits.mono (Nat.le_trans hstart.le h₂) h₄).row

/-! ### Loops -/

theorem reads_loopWord : Reads source c loopWord fun _ _ => True := by
  rw [loopWord]
  refine Reads.peekWord (Reads.ite (fun _ => ?_) fun _ => Reads.fail)
  exact Reads.bind (reads_keyword _) fun _ _ _ _ => Reads.pure trivial

/-- The rest of a loop over a collection. -/
theorem reads_overTail (hg : g.Sound source) {lo start : Nat} {head : List Node} (hlo : lo ≤ start)
    (hhead : Row source start c.offset head)
    (htarget : (∃ n ∈ head, n.role = .declarationWord) → Node.SoleTarget .left head) :
    Reads source c (overTail g start head) fun d n => Fits source lo d.offset n := by
  rw [overTail]
  refine Reads.bind reads_loopWord fun c₁ _ h₁ _ => ?_
  refine Reads.bind (reads_expressions hg) fun c₂ right h₂ hright => ?_
  refine Reads.bind (reads_mark _) fun c₃ _ h₃ _ => ?_
  refine Reads.bind (hg .statement c₃) fun c₄ body h₄ hbody => ?_
  have htail := ((hright.fits.withRole .right).mono h₁ h₃).cons (hbody.fits.withRole .body).row
  refine reads_branch (k := .forInStatement) rfl ?_ hlo (hhead.append htail)
  rintro ⟨n, hn, hrole⟩
  refine (htarget ⟨n, ?_, hrole⟩).append (by simp)
  rcases List.mem_append.1 hn with hn | hn
  · exact hn
  · simp only [List.mem_cons, List.not_mem_nil, or_false] at hn
    rcases hn with rfl | rfl <;> simp at hrole

/-- The rest of a counting loop. -/
theorem reads_countTail (hg : g.Sound source) {lo start : Nat} {initializer : List Node}
    (hlo : lo ≤ start) (hinitializer : Row source start c.offset initializer) :
    Reads source c (countTail g start initializer) fun d n => Fits source lo d.offset n := by
  rw [countTail]
  refine Reads.bind (reads_tryMark _) fun c₁ _ h₁ _ => ?_
  extract_lets next
  have hnext : ∀ d condition, Row source c.offset d.offset condition →
      Reads source d (next condition) fun d' n => Fits source lo d'.offset n := by
    intro d condition hcondition
    refine Reads.peekMark ?_
    extract_lets close
    have hclose : ∀ e increment, Row source d.offset e.offset increment →
        Reads source e (close increment) fun d' n => Fits source lo d'.offset n := by
      intro e increment hincrement
      refine Reads.bind (reads_mark _) fun e₁ _ he₁ _ => ?_
      refine Reads.bind (hg .statement e₁) fun e₂ body he₂ hbody => ?_
      have hhead := (hinitializer.append hcondition).append hincrement
      exact reads_branch rfl trivial hlo
        (hhead.append ((hbody.fits.withRole .body).mono he₁ (Nat.le_refl _)).row)
    refine Reads.ite (fun _ => hclose d [] (Nat.le_refl _)) fun _ => ?_
    exact Reads.bind (reads_expressions hg) fun d₁ e _ he =>
      hclose d₁ [e.withRole .increment] (he.fits.withRole _).row
  refine Reads.ite (fun _ => hnext c₁ [] h₁) fun _ => ?_
  refine Reads.bind (reads_expressions hg) fun c₂ e h₂ he => ?_
  refine Reads.bind (reads_mark _) fun c₃ _ h₃ _ => ?_
  exact hnext c₃ [e.withRole .condition] ((he.fits.withRole _).mono h₁ h₃).row

theorem reads_headWord : Reads source c headWord fun _ _ => True := by
  rw [headWord]
  refine Reads.here ?_
  split
  · refine Reads.ite (fun _ => Reads.pure trivial) fun _ =>
      Reads.ite (fun _ => ?_) fun _ => Reads.pure trivial
    split
    · exact Reads.pure trivial
    · exact Reads.pure trivial
  · exact Reads.pure trivial

theorem reads_declaringLoop (hg : g.Sound source) (awaits : Bool) (w : String) {lo start : Nat}
    (hlo : lo ≤ start) (hstart : start ≤ c.offset) :
    Reads source c (declaringLoop g start awaits w) fun d n => Fits source lo d.offset n := by
  rw [declaringLoop]
  refine Reads.bind (reads_keyword _) fun c₁ word h₁ hword => ?_
  have hbegin := Nat.le_trans hstart hword.offset_le
  refine Reads.bind (reads_branch rfl trivial hbegin hword.le) fun c₂ n h₂ hn => ?_
  refine Reads.bind (reads_declaredTarget hg .left) fun c₃ target h₃ htarget => ?_
  refine Reads.peekWord (Reads.get (Reads.ite (fun _ => ?_) fun _ =>
    Reads.ite (fun _ => Reads.fail) fun _ => ?_))
  · refine reads_overTail hg hlo ((hn.withRole _).cons htarget.1.fits.row) fun _ => ?_
    exact Node.SoleTarget.cons_of_ne (.cons (fun _ => htarget.2.kind) (by simp)) (by simp)
  · have hfits : Fits source word c₃.offset (target.withRole .name) :=
      (htarget.1.fits.withRole _).mono (Nat.le_trans hword.le h₂) (Nat.le_refl _)
    have hname : (target.withRole .name).TargetIn .name :=
      ⟨Node.role_withRole _ _, by rw [Node.kind_withRole]; exact htarget.2.kind⟩
    refine Reads.bind (reads_declarationTail hg w hbegin hfits hname) fun c₄ d h₄ hd => ?_
    exact reads_countTail hg hlo (hd.withRole _).row

theorem reads_assigningLoop (hg : g.Sound source) {lo start : Nat} (hlo : lo ≤ start)
    (hstart : start ≤ c.offset) :
    Reads source c (assigningLoop g start) fun d n => Fits source lo d.offset n := by
  rw [assigningLoop]
  refine Reads.bind (reads_leftHand hg) fun c₁ left h₁ hleft => ?_
  refine Reads.bind (reads_orFail _) fun c₂ target _ h₂ => ?_
  obtain ⟨rfl, htarget⟩ := h₂
  have hfits : Fits source c.offset c₂.offset target := by
    split at htarget
    · obtain rfl := Option.some.inj htarget
      exact hleft.fits
    · exact hleft.fits.asPattern? htarget
  exact reads_overTail hg hlo ((hfits.withRole _).mono hstart (Nat.le_refl _)).row (by simp)

theorem reads_countingLoop (hg : g.Sound source) {lo start : Nat} (hlo : lo ≤ start)
    (hstart : start ≤ c.offset) :
    Reads source c (countingLoop g start) fun d n => Fits source lo d.offset n := by
  rw [countingLoop]
  refine Reads.bind (reads_tryMark _) fun c₁ _ h₁ _ => Reads.ite (fun _ => ?_) fun _ => ?_
  · exact reads_countTail hg hlo (Nat.le_trans hstart h₁)
  · refine Reads.bind (reads_expressions hg) fun c₂ e h₂ he => ?_
    refine Reads.bind (reads_mark _) fun c₃ _ h₃ _ => ?_
    exact reads_countTail hg hlo
      ((he.fits.withRole _).mono (Nat.le_trans hstart h₁) h₃).row

theorem reads_forLoop (hg : g.Sound source) :
    Reads source c (forLoop g) (Between source c) := by
  rw [forLoop]
  refine Reads.bind (reads_keyword _) fun c₁ start h₁ hstart => Reads.peekWord ?_
  have hlo := hstart.token_le
  extract_lets awaits next
  have hnext : ∀ d, c₁.offset ≤ d.offset → Reads source d (next ⟨⟩) (Between source c) := by
    intro d hd
    refine Reads.bind (reads_mark _) fun d₁ _ hd₁ _ => ?_
    refine Reads.bind reads_headWord fun d₂ w hd₂ _ => ?_
    have hbegin := Nat.le_trans hstart.le (Nat.le_trans hd (Nat.le_trans hd₁ hd₂))
    split
    · exact reads_declaringLoop hg awaits _ hlo hbegin
    · refine Reads.ite (fun _ => reads_assigningLoop hg hlo hbegin) fun _ => ?_
      exact Reads.orElse (reads_assigningLoop hg hlo hbegin) (reads_countingLoop hg hlo hbegin)
  refine Reads.ite (fun _ => ?_) fun _ => hnext c₁ (Nat.le_refl _)
  exact Reads.bind (reads_keyword _) fun c₂ _ h₂ _ => hnext c₂ h₂

/-! ### Modules -/

theorem reads_moduleSource : Reads source c moduleSource (Between source c) := by
  rw [moduleSource]
  refine Reads.here ?_
  split
  · next after hstring =>
      exact (reads_token (k := .literal) (Cursor.leads_string hstring) rfl trivial _ "").mono
        fun _ _ _ h => h.1
  · exact Reads.fail

theorem reads_externalName (r : Role) : Reads source c (externalName r) (Between source c) := by
  rw [externalName]
  refine Reads.here ?_
  split
  · next after hstring =>
      exact (reads_token (k := .literal) (Cursor.leads_string hstring) rfl trivial r "").mono
        fun _ _ _ h => h.1
  · exact (reads_wordNode true rfl r).mono fun _ _ _ h => h.1

theorem reads_specifier {k : Kind} (hk : isNamed k = false) (hshape : ∀ ns, Shape k ns)
    (c : Cursor) : Reads source c (specifier k) (Between source c) := by
  rw [specifier]
  refine Reads.bind (reads_externalName _) fun c₁ name h₁ hname => Reads.peekWord ?_
  refine Reads.ite (fun _ => ?_) fun _ => reads_branch hk (hshape _) hname.lo_le hname.tight.row
  refine Reads.bind (reads_keyword _) fun c₂ _ h₂ _ => ?_
  refine Reads.bind (reads_externalName _) fun c₃ other h₃ hother => ?_
  exact reads_branch hk (hshape _) hname.lo_le
    ((hname.tight.mono (Nat.le_refl _) h₂).cons hother.fits.row)

theorem reads_specifiers {k k' : Kind} (hk : isNamed k = false) (hshape : ∀ ns, Shape k ns)
    (hk' : isNamed k' = false) (hshape' : ∀ ns, Shape k' ns) :
    Reads source c (specifiers g k k') (Between source c) := by
  rw [specifiers]
  refine Reads.bind (reads_mark _) fun c₁ start h₁ hstart => ?_
  refine Reads.bind (reads_elements (reads_specifier hk' hshape') _ g.bound)
    fun c₂ items h₂ hitems => ?_
  refine Reads.bind (reads_orFail _) fun c₃ ns _ h₃ => ?_
  obtain ⟨rfl, hns⟩ := h₃
  rw [← withoutHoles_eq hns] at hitems
  exact reads_branch hk (hshape _) hstart.token_le (hitems.mono hstart.le (Nat.le_refl _))

theorem reads_namespaceName {k : Kind} (hk : isNamed k = false) (hshape : ∀ ns, Shape k ns)
    {name : Parse Node} (hname : ∀ c, Reads source c name (Between source c)) :
    Reads source c (namespaceName k name) (Between source c) := by
  rw [namespaceName]
  refine Reads.bind (reads_mark _) fun c₁ start h₁ hstart => ?_
  refine Reads.bind (reads_keyword _) fun c₂ _ h₂ _ => ?_
  refine Reads.bind (hname c₂) fun c₃ n h₃ hn => ?_
  exact reads_branch hk (hshape _) hstart.token_le
    (hn.fits.mono (Nat.le_trans hstart.le h₂) (Nat.le_refl _)).row

theorem reads_importedNames : Reads source c (importedNames g) (Between source c) := by
  rw [importedNames]
  refine Reads.peekMark (Reads.ite (fun _ => ?_) fun _ => ?_)
  · exact reads_namespaceName (k := .namespaceImport) rfl (fun _ => trivial)
      fun c => (reads_declaredName _).mono fun _ _ _ h => h.1
  · exact reads_specifiers rfl (fun _ => trivial) rfl (fun _ => trivial)

theorem reads_importClause : Reads source c (importClause g) (Between source c) := by
  rw [importClause]
  refine Reads.here (Reads.ite (fun _ => ?_) fun _ => ?_)
  · refine Reads.bind (reads_declaredName _) fun c₁ name h₁ hname => ?_
    refine Reads.bind (reads_tryMark _) fun c₂ _ h₂ _ => Reads.ite (fun _ => ?_) fun _ => ?_
    · refine Reads.bind reads_importedNames fun c₃ more h₃ hmore => ?_
      exact reads_branch rfl trivial (Nat.le_refl _)
        ((hname.1.mono (Nat.le_refl _) h₂).cons hmore.fits.row)
    · exact reads_branch rfl trivial (Nat.le_refl _) (hname.1.mono (Nat.le_refl _) h₂).row
  · refine Reads.bind reads_importedNames fun c₁ names h₁ hnames => ?_
    exact reads_branch rfl trivial (Nat.le_refl _) (Fits.row hnames)

theorem reads_importStatement (hg : g.Sound source) :
    Reads source c (importStatement g) (Between source c) := by
  rw [importStatement]
  refine Reads.bind (reads_keyword _) fun c₁ start h₁ hstart => ?_
  have hparts : Reads source c₁
      ((do return [← moduleSource])
        <|> (do let clause ← importClause g
                let _ ← keyword "from"
                return [clause, ← moduleSource]))
      fun d ns => Row source c₁.offset d.offset ns := by
    refine Reads.orElse ?_ ?_
    · exact Reads.bind reads_moduleSource fun d n _ hn => Reads.pure hn.fits.row
    · refine Reads.bind reads_importClause fun d clause _ hclause => ?_
      refine Reads.bind (reads_keyword _) fun d₁ _ hd₁ _ => ?_
      refine Reads.bind reads_moduleSource fun d₂ n _ hn => Reads.pure ?_
      exact (hclause.fits.mono (Nat.le_refl _) hd₁).cons hn.fits.row
  refine Reads.bind hparts fun c₂ parts h₂ hrow => Reads.peekWord ?_
  extract_lets next
  have hnext : ∀ d options, Row source c₂.offset d.offset options →
      Reads source d (next options) (Between source c) := by
    intro d options hoptions
    refine Reads.bind (reads_semicolon g _) fun d₁ _ hd₁ _ => ?_
    exact reads_branch rfl trivial hstart.token_le ((hrow.append hoptions).mono hstart.le hd₁)
  refine Reads.ite (fun _ => ?_) fun _ => hnext c₂ [] (Nat.le_refl _)
  refine Reads.bind (reads_keyword _) fun c₃ word h₃ hword => ?_
  refine Reads.bind (reads_record hg) fun c₄ o h₄ ho => ?_
  refine Reads.bind (reads_branch rfl trivial hword.offset_le
    (ho.fits.mono hword.le (Nat.le_refl _)).row) fun c₅ n h₅ hn => ?_
  exact hnext c₅ [n] hn.row

theorem reads_exportedDeclaration (hg : g.Sound source) :
    Reads source c (exportedDeclaration g) (Between source c) := by
  rw [exportedDeclaration]
  refine Reads.peekWord ?_
  split
  · exact Reads.ite (fun _ => reads_declaration hg _) fun _ =>
      Reads.ite (fun _ => reads_classDeclaration hg) fun _ => reads_functionDeclaration hg
  · exact Reads.fail

theorem reads_exportedNames :
    Reads source c (exportedNames g) fun d ns => Row source c.offset d.offset ns := by
  rw [exportedNames]
  refine Reads.peekMark (Reads.ite (fun _ => ?_) fun _ => ?_)
  · have hall : Reads source c
        ((do return [← namespaceName .namespaceExport (externalName .plain)])
          <|> (do let _ ← mark "*"
                  return []))
        fun d ns => Row source c.offset d.offset ns := by
      refine Reads.orElse ?_ ?_
      · refine Reads.bind (reads_namespaceName (k := .namespaceExport) rfl (fun _ => trivial)
          fun c => reads_externalName _) fun d n _ hn => Reads.pure hn.fits.row
      · exact Reads.bind (reads_mark _) fun d _ hd _ => Reads.pure hd
    refine Reads.bind hall fun c₁ all h₁ hrow => ?_
    refine Reads.bind (reads_keyword _) fun c₂ _ h₂ _ => ?_
    refine Reads.bind reads_moduleSource fun c₃ n _ hn => Reads.pure ?_
    exact (hrow.mono (Nat.le_refl _) h₂).append hn.fits.row
  · refine Reads.bind (reads_specifiers rfl (fun _ => trivial) rfl fun _ => trivial)
      fun c₁ clause h₁ hclause => Reads.peekWord ?_
    refine Reads.ite (fun _ => ?_) fun _ => Reads.pure hclause.fits.row
    refine Reads.bind (reads_keyword _) fun c₂ _ h₂ _ => ?_
    refine Reads.bind reads_moduleSource fun c₃ n _ hn => Reads.pure ?_
    exact (hclause.fits.mono (Nat.le_refl _) h₂).cons hn.fits.row

theorem reads_exportStatement (hg : g.Sound source) :
    Reads source c (exportStatement g) (Between source c) := by
  rw [exportStatement]
  refine Reads.bind (reads_keyword _) fun c₁ start h₁ hstart => Reads.peekMark ?_
  have hlo := hstart.token_le
  refine Reads.ite (fun _ => ?_) fun _ => Reads.peekWord (Reads.ite (fun _ => ?_) fun _ => ?_)
  · refine Reads.bind reads_exportedNames fun c₂ parts h₂ hparts => ?_
    refine Reads.bind (reads_semicolon g _) fun c₃ _ h₃ _ => ?_
    exact reads_branch rfl trivial hlo (hparts.mono hstart.le h₃)
  · refine Reads.bind (reads_keyword _) fun c₂ _ h₂ _ => Reads.orElse ?_ ?_
    · refine Reads.bind (Reads.orElse (reads_functionDeclaration hg) (reads_classDeclaration hg))
        fun c₃ d h₃ hd => ?_
      exact reads_branch rfl trivial hlo
        ((hd.fits.withRole _).mono (Nat.le_trans hstart.le h₂) (Nat.le_refl _)).row
    · refine Reads.bind (hg .expression c₂) fun c₃ e h₃ he => ?_
      refine Reads.bind (reads_semicolon g _) fun c₄ _ h₄ _ => ?_
      exact reads_branch rfl trivial hlo
        ((he.fits.withRole _).mono (Nat.le_trans hstart.le h₂) h₄).row
  · refine Reads.bind (reads_exportedDeclaration hg) fun c₂ d h₂ hd => ?_
    exact reads_branch rfl trivial hlo ((hd.fits.withRole _).mono hstart.le (Nat.le_refl _)).row

/-! ### Statements -/

theorem reads_wordStatement (hg : g.Sound source) (w : String) (after : Cursor) :
    Reads source c (wordStatement g w after) (Between source c) := by
  unfold wordStatement
  extract_lets next followedBy
  have hexpression := reads_expressionStatement (c := c) hg
  have hfunction := Reads.orElse (reads_functionDeclaration (c := c) hg) hexpression
  split
  · exact reads_declaration hg _
  · exact reads_declaration hg _
  · exact Reads.ite (fun _ => reads_declaration hg _) fun _ => hexpression
  · exact hfunction
  · exact Reads.ite (fun _ => hfunction) fun _ => hexpression
  · exact Reads.orElse (reads_classDeclaration hg) hexpression
  · exact reads_ifStatement hg
  · exact reads_forLoop hg
  · exact reads_guarded hg _ rfl fun _ => trivial
  · exact reads_guarded hg _ rfl fun _ => trivial
  · exact reads_doStatement hg
  · exact reads_switchStatement hg
  · exact reads_tryStatement hg
  · exact reads_jump _ rfl fun _ => trivial
  · exact reads_jump _ rfl fun _ => trivial
  · refine Reads.bind (reads_keyword _) fun c₁ start h₁ hstart => ?_
    refine Reads.bind (reads_semicolon g _) fun c₂ _ h₂ _ => ?_
    exact reads_branch rfl trivial hstart.token_le (Nat.le_trans hstart.le h₂)
  · exact reads_returnStatement hg
  · refine Reads.bind (reads_keyword _) fun c₁ start h₁ hstart => ?_
    refine Reads.bind (reads_expressions hg) fun c₂ e h₂ he => ?_
    refine Reads.bind (reads_semicolon g _) fun c₃ _ h₃ _ => ?_
    exact reads_branch rfl trivial hstart.token_le (he.fits.mono hstart.le h₃).row
  · exact Reads.ite (fun _ => hexpression) fun _ => reads_importStatement hg
  · exact reads_exportStatement hg
  · exact hexpression

theorem reads_labeledStatement (hg : g.Sound source) :
    Reads source c (labeledStatement g) (Between source c) := by
  rw [labeledStatement]
  refine Reads.bind (reads_wordNode false rfl .label) fun c₁ label h₁ hlabel => ?_
  refine Reads.bind (reads_mark _) fun c₂ _ h₂ _ => ?_
  refine Reads.bind (hg .statement c₂) fun c₃ body h₃ hbody => ?_
  exact reads_branch rfl trivial hlabel.1.lo_le
    ((hlabel.1.tight.mono (Nat.le_refl _) h₂).cons (hbody.fits.withRole _).row)

theorem reads_statement (hg : g.Sound source) :
    Reads source c (statement g) (Between source c) := by
  rw [statement]
  refine Reads.here ?_
  split
  · exact Reads.ite (fun _ => reads_labeledStatement hg) fun _ => reads_wordStatement hg _ _
  · refine Reads.ite (fun _ => ?_) fun _ =>
      Reads.ite (fun _ => ?_) fun _ => reads_expressionStatement hg
    · refine Reads.bind (reads_mark _) fun c₁ start h₁ hstart => ?_
      exact reads_branch rfl trivial hstart.token_le hstart.le
    · refine Reads.orElse ?_ (reads_expressionStatement hg)
      exact Reads.bind (reads_block hg) fun c₁ n _ hn => Reads.pure (hn.1.withRole _)

/-! ### Sources -/

/-- The readers for the parts are sound at every depth. -/
theorem sound_readPart (depth : Nat) (bound : Nat) : Parts.Sound source ⟨bound, readPart depth⟩ := by
  induction depth generalizing bound with
  | zero => exact fun goal c => Reads.fail
  | succ depth ih =>
      intro goal c
      cases goal with
      | operand => exact reads_operand (ih depth)
      | expression => exact reads_expression (ih depth)
      | statement => exact reads_statement (ih depth)

theorem reads_statementsToEnd (hg : g.Sound source) (fuel : Nat) :
    Reads source c (statementsToEnd g fuel) fun d ns => Row source c.offset d.offset ns := by
  induction fuel generalizing c with
  | zero => exact Reads.fail
  | succ fuel ih =>
      rw [statementsToEnd]
      refine Reads.here (Reads.ite (fun _ => Reads.pure (Nat.le_refl _)) fun _ => ?_)
      refine Reads.bind (hg .statement c) fun c₁ s _ hs => ?_
      exact Reads.bind ih fun c₂ rest _ hrest => Reads.pure (hs.fits.cons hrest)

theorem leads_skipInterpreterLine (c : Cursor) : c.Leads (skipInterpreterLine c) := by
  unfold skipInterpreterLine
  dsimp only
  split
  · exact (Cursor.leads_skipTrivia c).trans (Cursor.leads_takeWhile _ _)
  · exact Cursor.Leads.refl c

/-- Behind an interpreter line the source goes on. -/
theorem in_skipInterpreterLine : (skipInterpreterLine (Cursor.start source)).In source :=
  leads_skipInterpreterLine (Cursor.start source)

/-- The tree of a source is a program of the statements that are read up to its end. -/
theorem exists_run_of_parse? {root : Node} (h : parse? source = some root) :
    ∃ body after, (statementsToEnd (partsOf source) (partsOf source).bound).run
        (skipInterpreterLine (Cursor.start source)) = some (body, after) ∧
      root = .node .program .plain 0 after.offset "" body := by
  unfold parse? at h
  dsimp only at h
  split at h
  · next body after hrun =>
      split at h
      · exact ⟨body, after, hrun, (Option.some.inj h).symm⟩
      · simp at h
  · simp at h

/-- The tree of a source is well-formed. -/
theorem wellFormed_of_parse? {root : Node} (h : parse? source = some root) :
    root.WellFormed source := by
  obtain ⟨body, after, hrun, rfl⟩ := exists_run_of_parse? h
  have hsound : Parts.Sound source (partsOf source) := sound_readPart _ _
  obtain ⟨-, hrow⟩ := reads_statementsToEnd hsound _ in_skipInterpreterLine body after hrun
  exact ⟨Node.HasForm.of_shape rfl trivial, hrow.mono (Nat.zero_le _) (Nat.le_refl _)⟩

end Script

end SketchHost
