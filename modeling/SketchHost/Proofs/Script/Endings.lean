/-
**Where statements end.**

Whatever a statement is, no word of it runs on behind its end: its last token is a brace, a
parenthesis or a semicolon, or a semicolon is understood there.  So every statement of a program is
read from a seam on.  On the way through the productions it is noted which readers gave the
statements that define something, because no other production gives nodes of their kinds.

* `Script.Form` — the reader of a statement, as far as it tells what is defined;
* `Script.Ends` — a statement ends at a seam, and has one of the forms;
* `Script.ends_statement` — every statement does;
* `Script.BeginsAtSeam` — a statement of a program, with the place that it is read from;
* `Script.beginsAtSeam_of_parse?` — the statements of a program are read from seams on.
-/

import SketchHost.Proofs.Script.Extents
import SketchHost.Proofs.Script.Seams

set_option relaxedAutoImplicit false
set_option autoImplicit false

namespace SketchHost

namespace Script

variable {α : Type} {source : List Char} {g : Parts} {c : Cursor}

/-! ### Readers that go forward -/

/-- Nothing but that a reader goes forward. -/
theorem Reads.onward {p : Parse α} {Q : Cursor → α → Prop} (h : Reads source c p Q) :
    Reads source c p fun _ _ => True :=
  h.mono fun _ _ _ _ => trivial

/-- What a reader gives it gives by a run. -/
theorem Reads.of_run {p : Parse α} {Q R : Cursor → α → Prop} (h : Reads source c p Q)
    (hR : ∀ d a, Q d a → p.run c = some (a, d) → R d a) : Reads source c p R := by
  intro hc a d hrun
  obtain ⟨hd, ha⟩ := h hc a d hrun
  exact ⟨hd, hR d a ha hrun⟩

theorem reads_branch_here (k : Kind) (s : Nat) (ns : List Node) :
    Reads source c (branch k s ns) fun d n => d = c ∧ n.kind = k := by
  rw [branch]
  exact Reads.get (Reads.pure ⟨rfl, rfl⟩)

theorem onward_declaratorTail (hg : g.Sound source) (target : Node) :
    Reads source c (declaratorTail g target) fun _ _ => True := by
  rw [declaratorTail]
  refine Reads.bind (reads_tryMark _) fun _ _ _ _ => Reads.ite (fun _ => ?_) fun _ => ?_
  · exact Reads.bind (hg .expression _) fun _ _ _ _ => (reads_branch_here _ _ _).onward
  · exact (reads_branch_here _ _ _).onward

/-! ### Bodies -/

/-- A statement that is a part ends at a seam. -/
def Parts.Seamly (source : List Char) (g : Parts) : Prop :=
  ∀ c, Reads source c (g.read .statement) fun d _ => Seam source d.rest

theorem seams_branch (h : Seam source c.rest) (k : Kind) (s : Nat) (ns : List Node) :
    Reads source c (branch k s ns) fun d _ => Seam source d.rest := by
  refine (reads_branch_here k s ns).mono fun d n _ hd => ?_
  rw [hd.1]
  exact h

theorem seams_statementsToBrace (hg : g.Sound source) (fuel : Nat) :
    Reads source c (statementsToBrace g fuel) fun d _ => Seam source d.rest := by
  induction fuel generalizing c with
  | zero => exact Reads.fail
  | succ fuel ih =>
      rw [statementsToBrace]
      refine Reads.bind (seams_tryMark endsWords_brace) fun _ _ _ hclosed =>
        Reads.ite (fun hb => Reads.pure (hclosed hb)) fun _ => ?_
      exact Reads.bind (hg .statement _) fun _ _ _ _ =>
        Reads.bind ih fun _ _ _ hseam => Reads.pure hseam

theorem seams_block (hg : g.Sound source) :
    Reads source c (block g) fun d _ => Seam source d.rest := by
  rw [block]
  refine Reads.bind (reads_mark _) fun _ _ _ _ =>
    Reads.bind (seams_statementsToBrace hg g.bound) fun _ _ _ hseam => ?_
  exact Reads.bind (seams_branch hseam _ _ _) fun _ _ _ hseam => Reads.pure hseam

theorem seams_functionTail (hg : g.Sound source) :
    Reads source c (functionTail g) fun d _ => Seam source d.rest := by
  rw [functionTail]
  exact Reads.bind (reads_parameters hg) fun _ _ _ _ =>
    Reads.bind (seams_block hg) fun _ _ _ hseam => Reads.pure hseam

theorem seams_members (hg : g.Sound source) (fuel : Nat) :
    Reads source c (members g fuel) fun d _ => Seam source d.rest := by
  induction fuel generalizing c with
  | zero => exact Reads.fail
  | succ fuel ih =>
      rw [members]
      refine Reads.bind (seams_tryMark endsWords_brace) fun _ _ _ hclosed =>
        Reads.ite (fun hb => Reads.pure (hclosed hb)) fun _ => ?_
      refine Reads.bind (reads_tryMark _) fun _ _ _ _ => Reads.ite (fun _ => ih) fun _ => ?_
      exact Reads.bind (reads_member hg) fun _ _ _ _ =>
        Reads.bind ih fun _ _ _ hseam => Reads.pure hseam

theorem seams_classTail (hg : g.Sound source) :
    Reads source c (classTail g) fun d _ => Seam source d.rest := by
  rw [classTail]
  refine Reads.peekWord ?_
  extract_lets next
  have hnext : ∀ d heritage, Reads source d (next heritage) fun d _ => Seam source d.rest := by
    intro d heritage
    refine Reads.bind (reads_mark _) fun _ _ _ _ =>
      Reads.bind (seams_members hg g.bound) fun _ _ _ hseam => ?_
    exact Reads.bind (seams_branch hseam _ _ _) fun _ _ _ hseam => Reads.pure hseam
  refine Reads.ite (fun _ => ?_) fun _ => hnext c []
  refine Reads.bind (reads_keyword _) fun _ _ _ _ => Reads.bind (hg .expression _) fun _ _ _ _ => ?_
  exact Reads.bind (reads_branch_here _ _ _) fun d n _ _ => hnext d [n]

theorem seams_cases (hg : g.Sound source) (fuel : Nat) :
    Reads source c (cases g fuel) fun d _ => Seam source d.rest := by
  induction fuel generalizing c with
  | zero => exact Reads.fail
  | succ fuel ih =>
      rw [cases]
      refine Reads.bind (seams_tryMark endsWords_brace) fun _ _ _ hclosed =>
        Reads.ite (fun hb => Reads.pure (hclosed hb)) fun _ => Reads.peekWord ?_
      have hnext : ∀ d n, Reads source d (do return n :: (← cases g fuel))
          fun d _ => Seam source d.rest :=
        fun _ _ => Reads.bind ih fun _ _ _ hseam => Reads.pure hseam
      refine Reads.ite (fun _ => ?_) fun _ => ?_
      · refine Reads.bind (reads_keyword _) fun _ _ _ _ => Reads.bind (reads_mark _) fun _ _ _ _ => ?_
        exact Reads.bind (reads_caseBody hg g.bound) fun _ _ _ _ =>
          Reads.bind (reads_branch_here _ _ _) fun d n _ _ => hnext d n
      · refine Reads.bind (reads_keyword _) fun _ _ _ _ =>
          Reads.bind (reads_expressions hg) fun _ _ _ _ => Reads.bind (reads_mark _) fun _ _ _ _ => ?_
        exact Reads.bind (reads_caseBody hg g.bound) fun _ _ _ _ =>
          Reads.bind (reads_branch_here _ _ _) fun d n _ _ => hnext d n

/-! ### Statements that define something -/

theorem seams_declarationTail (hg : g.Sound source) (k : Kind) (s : Nat) (target : Node) :
    Reads source c (declarationTail g k s target) fun d _ => Seam source d.rest := by
  rw [declarationTail]
  refine Reads.bind (onward_declaratorTail hg target) fun _ _ _ _ =>
    Reads.bind (reads_moreDeclarators hg g.bound) fun _ _ _ _ => ?_
  exact Reads.bind (seams_semicolon g _) fun _ _ _ hseam => seams_branch hseam _ _ _

theorem seams_declaration (hg : g.Sound source) (w : String) :
    Reads source c (declaration g w) fun d _ => Seam source d.rest := by
  rw [declaration]
  exact Reads.bind (reads_keyword _) fun _ _ _ _ =>
    Reads.bind (reads_declaredTarget hg .name) fun _ _ _ _ => seams_declarationTail hg _ _ _

theorem seams_functionDeclaration (hg : g.Sound source) :
    Reads source c (functionDeclaration g) fun d _ => Seam source d.rest := by
  rw [functionDeclaration]
  refine Reads.here (Reads.peekWord ?_)
  extract_lets next
  have hnext : ∀ d, Reads source d (next ⟨⟩) fun d _ => Seam source d.rest := by
    intro d
    refine Reads.bind (reads_keyword _) fun _ _ _ _ => Reads.bind (reads_tryMark _) fun _ _ _ _ => ?_
    refine Reads.bind (reads_declaredName _) fun _ _ _ _ =>
      Reads.bind (seams_functionTail hg) fun e _ _ hseam => Reads.get ?_
    extract_lets close
    have hclose : ∀ e, Seam source e.rest → Reads source e (close ⟨⟩) fun d _ => Seam source d.rest :=
      fun _ h => seams_branch h _ _ _
    clear_value close
    split
    · next e' he' =>
        exact Reads.set (Cursor.leads_understoodEnd he') (hclose e' (seam_understoodEnd he'))
    · refine Reads.ite (fun _ => ?_) fun _ => hclose e hseam
      exact Reads.bind (Reads.fail (Q := fun e _ => Seam source e.rest)) fun e _ _ h => hclose e h
  refine Reads.ite (fun _ => ?_) fun _ => hnext c
  exact Reads.bind (reads_keyword _) fun d _ _ _ => hnext d

theorem seams_expressionStatement (hg : g.Sound source) :
    Reads source c (expressionStatement g) fun d _ => Seam source d.rest := by
  rw [expressionStatement]
  exact Reads.bind (reads_expressions hg) fun _ _ _ _ =>
    Reads.bind (seams_semicolon g _) fun _ _ _ hseam => seams_branch hseam _ _ _

/-! ### Other statements -/

/-- The kinds of the statements that may define something. -/
def isDefinition (k : Kind) : Bool :=
  match k with
  | .functionDeclaration | .generatorDeclaration | .lexicalDeclaration | .variableDeclaration
  | .expressionStatement => true
  | _ => false

/-- A statement that defines nothing, ended at a seam. -/
structure Closes (source : List Char) (d : Cursor) (n : Node) : Prop where
  seam : Seam source d.rest
  kind_eq : isDefinition n.kind = false

theorem Reads.seams {p : Parse Node} (h : Reads source c p (Closes source)) :
    Reads source c p fun d _ => Seam source d.rest :=
  h.mono fun _ _ _ hn => hn.seam

theorem closes_branch (h : Seam source c.rest) {k : Kind} (hk : isDefinition k = false) (s : Nat)
    (ns : List Node) : Reads source c (branch k s ns) (Closes source) := by
  refine (reads_branch_here k s ns).mono fun d n _ hd => ⟨?_, ?_⟩
  · rw [hd.1]
    exact h
  · rw [hd.2]
    exact hk

/-- A statement whose last part is a statement. -/
theorem closes_body (hs : g.Seamly source) {k : Kind} (hk : isDefinition k = false) (s : Nat)
    (f : Node → List Node) :
    Reads source c (do let body ← g.read .statement; branch k s (f body)) (Closes source) :=
  Reads.bind (hs c) fun _ _ _ hseam => closes_branch hseam hk _ _

theorem closes_classDeclaration (hg : g.Sound source) :
    Reads source c (classDeclaration g) (Closes source) := by
  rw [classDeclaration]
  exact Reads.bind (reads_keyword _) fun _ _ _ _ => Reads.bind (reads_declaredName _) fun _ _ _ _ =>
    Reads.bind (seams_classTail hg) fun _ _ _ hseam => closes_branch hseam rfl _ _

theorem closes_ifStatement (hg : g.Sound source) (hs : g.Seamly source) :
    Reads source c (ifStatement g) (Closes source) := by
  rw [ifStatement]
  refine Reads.bind (reads_keyword _) fun _ _ _ _ => Reads.bind (reads_parenthesized hg) fun _ _ _ _ =>
    Reads.bind (hs _) fun _ _ _ hseam => Reads.peekWord (Reads.ite (fun _ => ?_) fun _ => ?_)
  · refine Reads.bind (reads_keyword _) fun _ _ _ _ => Reads.bind (hs _) fun _ _ _ hseam => ?_
    exact Reads.bind (seams_branch hseam _ _ _) fun _ _ _ hseam => closes_branch hseam rfl _ _
  · exact closes_branch hseam rfl _ _

theorem closes_switchStatement (hg : g.Sound source) :
    Reads source c (switchStatement g) (Closes source) := by
  rw [switchStatement]
  refine Reads.bind (reads_keyword _) fun _ _ _ _ => Reads.bind (reads_parenthesized hg) fun _ _ _ _ =>
    Reads.bind (reads_mark _) fun _ _ _ _ => Reads.bind (seams_cases hg g.bound) fun _ _ _ hseam => ?_
  exact Reads.bind (seams_branch hseam _ _ _) fun _ _ _ hseam => closes_branch hseam rfl _ _

theorem closes_tryStatement (hg : g.Sound source) :
    Reads source c (tryStatement g) (Closes source) := by
  rw [tryStatement]
  refine Reads.bind (reads_keyword _) fun _ _ _ _ =>
    Reads.bind (seams_block hg) fun c₂ _ _ hseam => Reads.peekWord ?_
  extract_lets next
  have hnext : ∀ d handler, Seam source d.rest →
      Reads source d (next handler) (Closes source) := by
    intro d handler hd
    refine Reads.peekWord ?_
    extract_lets close
    have hclose : ∀ e finalizer, Seam source e.rest →
        Reads source e (close finalizer) (Closes source) :=
      fun _ _ he => closes_branch he rfl _ _
    refine Reads.ite (fun _ => ?_) fun _ => hclose d [] hd
    refine Reads.bind (reads_keyword _) fun _ _ _ _ => Reads.bind (seams_block hg) fun _ _ _ hseam => ?_
    exact Reads.bind (seams_branch hseam _ _ _) fun e n _ he => hclose e [n] he
  refine Reads.ite (fun _ => ?_) fun _ => hnext c₂ [] hseam
  refine Reads.bind (reads_keyword _) fun _ _ _ _ => Reads.bind (reads_tryMark _) fun c₄ _ _ _ => ?_
  extract_lets close
  have hclose : ∀ e parameter, Reads source e (close parameter) (Closes source) := by
    intro e parameter
    refine Reads.bind (seams_block hg) fun _ _ _ hseam => ?_
    exact Reads.bind (seams_branch hseam _ _ _) fun d n _ hd => hnext d [n] hd
  refine Reads.ite (fun _ => ?_) fun _ => hclose c₄ []
  exact Reads.bind (reads_declaredTarget hg .parameter) fun _ p _ _ =>
    Reads.bind (reads_mark _) fun e _ _ _ => hclose e [p]

theorem closes_guarded (hg : g.Sound source) (hs : g.Seamly source) (w : String) {k : Kind}
    (hk : isDefinition k = false) : Reads source c (guarded g w k) (Closes source) := by
  rw [guarded]
  exact Reads.bind (reads_keyword _) fun _ _ _ _ =>
    Reads.bind (reads_parenthesized hg) fun _ _ _ _ => closes_body hs hk _ _

theorem seams_parenthesized (hg : g.Sound source) :
    Reads source c (parenthesized g) fun d _ => Seam source d.rest := by
  rw [parenthesized]
  exact Reads.bind (reads_mark _) fun _ _ _ _ => Reads.bind (reads_expressions hg) fun _ _ _ _ =>
    Reads.bind (seams_mark endsWords_parenthesis) fun _ _ _ hseam => seams_branch hseam _ _ _

theorem closes_doStatement (hg : g.Sound source) :
    Reads source c (doStatement g) (Closes source) := by
  rw [doStatement]
  refine Reads.bind (reads_keyword _) fun _ _ _ _ => Reads.bind (hg .statement _) fun _ _ _ _ =>
    Reads.bind (reads_keyword _) fun _ _ _ _ =>
      Reads.bind (seams_parenthesized hg) fun c₄ _ _ hseam => Reads.get ?_
  extract_lets next
  have hnext : ∀ d, Seam source d.rest → Reads source d (next ⟨⟩) (Closes source) :=
    fun _ hd => closes_branch hd rfl _ _
  clear_value next
  split
  · next d hd => exact Reads.set (Cursor.leads_understoodEnd hd) (hnext d (seam_understoodEnd hd))
  · -- a semicolon that is not there leaves the cursor behind the parenthesis
    have hmark : Reads source c₄ (tryMark ";") fun d _ => Seam source d.rest := by
      rw [tryMark]
      refine Reads.peekMark (Reads.ite (fun _ => ?_) fun _ => Reads.pure hseam)
      exact Reads.bind (seams_mark endsWords_semicolon) fun _ _ _ hd => Reads.pure hd
    exact Reads.bind hmark fun d _ _ hd => hnext d hd

theorem closes_jump (w : String) {k : Kind} (hk : isDefinition k = false) :
    Reads source c (jump g w k) (Closes source) := by
  rw [jump]
  refine Reads.bind (reads_keyword _) fun c₁ _ _ _ => Reads.get ?_
  extract_lets next
  have hnext : ∀ d label, Reads source d (next label) (Closes source) :=
    fun _ _ => Reads.bind (seams_semicolon g _) fun _ _ _ hseam => closes_branch hseam hk _ _
  split
  · exact hnext c₁ []
  · refine Reads.peekMark (Reads.ite (fun _ => hnext c₁ []) fun _ => ?_)
    exact Reads.bind (reads_wordNode false rfl .label) fun d n _ _ => hnext d [n]

theorem closes_returnStatement (hg : g.Sound source) :
    Reads source c (returnStatement g) (Closes source) := by
  rw [returnStatement]
  refine Reads.bind (reads_keyword _) fun _ _ _ _ => Reads.get ?_
  split
  · next d hd =>
      exact Reads.set (Cursor.leads_understoodEnd hd)
        (closes_branch (seam_understoodEnd hd) rfl _ _)
  · refine Reads.bind (seams_tryMark endsWords_semicolon) fun _ _ _ hclosed =>
      Reads.ite (fun hb => closes_branch (hclosed hb) rfl _ _) fun _ => ?_
    exact Reads.bind (reads_expressions hg) fun _ _ _ _ =>
      Reads.bind (seams_semicolon g _) fun _ _ _ hseam => closes_branch hseam rfl _ _

/-! ### Loops -/

theorem closes_overTail (hg : g.Sound source) (hs : g.Seamly source) (s : Nat) (head : List Node) :
    Reads source c (overTail g s head) (Closes source) := by
  rw [overTail]
  exact Reads.bind reads_loopWord fun _ _ _ _ => Reads.bind (reads_expressions hg) fun _ _ _ _ =>
    Reads.bind (reads_mark _) fun _ _ _ _ => closes_body hs rfl _ _

theorem closes_countTail (hg : g.Sound source) (hs : g.Seamly source) (s : Nat)
    (initializer : List Node) : Reads source c (countTail g s initializer) (Closes source) := by
  rw [countTail]
  refine Reads.bind (reads_tryMark _) fun c₁ _ _ _ => ?_
  extract_lets next
  have hnext : ∀ d condition, Reads source d (next condition) (Closes source) := by
    intro d condition
    refine Reads.peekMark ?_
    extract_lets close
    have hclose : ∀ e increment, Reads source e (close increment) (Closes source) :=
      fun _ _ => Reads.bind (reads_mark _) fun _ _ _ _ => closes_body hs rfl _ _
    refine Reads.ite (fun _ => hclose d []) fun _ => ?_
    exact Reads.bind (reads_expressions hg) fun e n _ _ => hclose e [n.withRole .increment]
  refine Reads.ite (fun _ => hnext c₁ []) fun _ => ?_
  exact Reads.bind (reads_expressions hg) fun _ n _ _ =>
    Reads.bind (reads_mark _) fun e _ _ _ => hnext e [n.withRole .condition]

theorem closes_declaringLoop (hg : g.Sound source) (hs : g.Seamly source) (s : Nat) (awaits : Bool)
    (w : String) : Reads source c (declaringLoop g s awaits w) (Closes source) := by
  rw [declaringLoop]
  refine Reads.bind (reads_keyword _) fun _ _ _ _ => Reads.bind (reads_branch_here _ _ _) fun _ _ _ _ =>
    Reads.bind (reads_declaredTarget hg .left) fun _ _ _ _ => Reads.peekWord (Reads.get
      (Reads.ite (fun _ => closes_overTail hg hs _ _) fun _ =>
        Reads.ite (fun _ => Reads.fail) fun _ => ?_))
  exact Reads.bind (seams_declarationTail hg _ _ _) fun _ _ _ _ => closes_countTail hg hs _ _

theorem closes_assigningLoop (hg : g.Sound source) (hs : g.Seamly source) (s : Nat) :
    Reads source c (assigningLoop g s) (Closes source) := by
  rw [assigningLoop]
  exact Reads.bind (reads_leftHand hg) fun _ _ _ _ =>
    Reads.bind (reads_orFail _) fun _ _ _ _ => closes_overTail hg hs _ _

theorem closes_countingLoop (hg : g.Sound source) (hs : g.Seamly source) (s : Nat) :
    Reads source c (countingLoop g s) (Closes source) := by
  rw [countingLoop]
  refine Reads.bind (reads_tryMark _) fun _ _ _ _ =>
    Reads.ite (fun _ => closes_countTail hg hs _ _) fun _ => ?_
  exact Reads.bind (reads_expressions hg) fun _ _ _ _ =>
    Reads.bind (reads_mark _) fun _ _ _ _ => closes_countTail hg hs _ _

theorem closes_forLoop (hg : g.Sound source) (hs : g.Seamly source) :
    Reads source c (forLoop g) (Closes source) := by
  rw [forLoop]
  refine Reads.bind (reads_keyword _) fun c₁ _ _ _ => Reads.peekWord ?_
  extract_lets awaits next
  have hnext : ∀ d, Reads source d (next ⟨⟩) (Closes source) := by
    intro d
    refine Reads.bind (reads_mark _) fun _ _ _ _ => Reads.bind reads_headWord fun _ _ _ _ => ?_
    split
    · exact closes_declaringLoop hg hs _ _ _
    · refine Reads.ite (fun _ => closes_assigningLoop hg hs _) fun _ => ?_
      exact Reads.orElse (closes_assigningLoop hg hs _) (closes_countingLoop hg hs _)
  refine Reads.ite (fun _ => ?_) fun _ => hnext c₁
  exact Reads.bind (reads_keyword _) fun d _ _ _ => hnext d

/-! ### Modules -/

theorem closes_importStatement (hg : g.Sound source) :
    Reads source c (importStatement g) (Closes source) := by
  rw [importStatement]
  have hparts : ∀ d, Reads source d
      ((do return [← moduleSource])
        <|> (do let clause ← importClause g
                let _ ← keyword "from"
                return [clause, ← moduleSource])) fun _ _ => True := by
    refine fun d => Reads.orElse ?_ ?_
    · exact Reads.bind reads_moduleSource fun _ _ _ _ => Reads.pure trivial
    · exact Reads.bind reads_importClause fun _ _ _ _ => Reads.bind (reads_keyword _) fun _ _ _ _ =>
        Reads.bind reads_moduleSource fun _ _ _ _ => Reads.pure trivial
  refine Reads.bind (reads_keyword _) fun _ _ _ _ =>
    Reads.bind (hparts _) fun c₂ _ _ _ => Reads.peekWord ?_
  extract_lets next
  have hnext : ∀ d options, Reads source d (next options) (Closes source) :=
    fun _ _ => Reads.bind (seams_semicolon g _) fun _ _ _ hseam => closes_branch hseam rfl _ _
  refine Reads.ite (fun _ => ?_) fun _ => hnext c₂ []
  exact Reads.bind (reads_keyword _) fun _ _ _ _ => Reads.bind (reads_record hg) fun _ _ _ _ =>
    Reads.bind (reads_branch_here _ _ _) fun d n _ _ => hnext d [n]

theorem seams_exportedDeclaration (hg : g.Sound source) :
    Reads source c (exportedDeclaration g) fun d _ => Seam source d.rest := by
  rw [exportedDeclaration]
  refine Reads.peekWord ?_
  split
  · exact Reads.ite (fun _ => seams_declaration hg _) fun _ =>
      Reads.ite (fun _ => (closes_classDeclaration hg).seams) fun _ => seams_functionDeclaration hg
  · exact Reads.fail

theorem closes_exportStatement (hg : g.Sound source) :
    Reads source c (exportStatement g) (Closes source) := by
  rw [exportStatement]
  refine Reads.bind (reads_keyword _) fun _ _ _ _ => Reads.peekMark (Reads.ite (fun _ => ?_) fun _ =>
    Reads.peekWord (Reads.ite (fun _ => ?_) fun _ => ?_))
  · exact Reads.bind reads_exportedNames fun _ _ _ _ =>
      Reads.bind (seams_semicolon g _) fun _ _ _ hseam => closes_branch hseam rfl _ _
  · refine Reads.bind (reads_keyword _) fun _ _ _ _ => Reads.orElse ?_ ?_
    · exact Reads.bind (Reads.orElse (seams_functionDeclaration hg) (closes_classDeclaration hg).seams)
        fun _ _ _ hseam => closes_branch hseam rfl _ _
    · exact Reads.bind (hg .expression _) fun _ _ _ _ =>
        Reads.bind (seams_semicolon g _) fun _ _ _ hseam => closes_branch hseam rfl _ _
  · exact Reads.bind (seams_exportedDeclaration hg) fun _ _ _ hseam => closes_branch hseam rfl _ _

/-! ### Statements -/

/-- The reader that gave a statement, if the statement may define something. -/
inductive Form (g : Parts) (c d : Cursor) (n : Node) : Prop where
  | declaration {w : String} (hword : w ∈ ["var", "const", "let"])
      (hrun : (declaration g w).run c = some (n, d))
  | function (hrun : (functionDeclaration g).run c = some (n, d))
  | expression (hrun : (expressionStatement g).run c = some (n, d))
  | other (hkind : isDefinition n.kind = false)

/-- A statement ends at a seam, and it has one of the forms. -/
structure Ends (source : List Char) (g : Parts) (c d : Cursor) (n : Node) : Prop where
  seam : Seam source d.rest
  form : Form g c d n

theorem Reads.ends {p : Parse Node} (h : Reads source c p (Closes source)) :
    Reads source c p (Ends source g c) :=
  h.mono fun _ _ _ hn => ⟨hn.seam, .other hn.kind_eq⟩

theorem ends_declaration (hg : g.Sound source) {w : String} (hword : w ∈ ["var", "const", "let"]) :
    Reads source c (declaration g w) (Ends source g c) :=
  (seams_declaration hg w).of_run fun _ _ hseam hrun => ⟨hseam, .declaration hword hrun⟩

theorem ends_functionDeclaration (hg : g.Sound source) :
    Reads source c (functionDeclaration g) (Ends source g c) :=
  (seams_functionDeclaration hg).of_run fun _ _ hseam hrun => ⟨hseam, .function hrun⟩

theorem ends_expressionStatement (hg : g.Sound source) :
    Reads source c (expressionStatement g) (Ends source g c) :=
  (seams_expressionStatement hg).of_run fun _ _ hseam hrun => ⟨hseam, .expression hrun⟩

theorem ends_wordStatement (hg : g.Sound source) (hs : g.Seamly source) (w : String)
    (after : Cursor) : Reads source c (wordStatement g w after) (Ends source g c) := by
  unfold wordStatement
  extract_lets next followedBy
  have hexpression := ends_expressionStatement (c := c) hg
  have hfunction := Reads.orElse (ends_functionDeclaration (c := c) hg) hexpression
  split
  · exact ends_declaration hg (by simp)
  · exact ends_declaration hg (by simp)
  · exact Reads.ite (fun _ => ends_declaration hg (by simp)) fun _ => hexpression
  · exact hfunction
  · exact Reads.ite (fun _ => hfunction) fun _ => hexpression
  · exact Reads.orElse (closes_classDeclaration hg).ends hexpression
  · exact (closes_ifStatement hg hs).ends
  · exact (closes_forLoop hg hs).ends
  · exact (closes_guarded hg hs _ rfl).ends
  · exact (closes_guarded hg hs _ rfl).ends
  · exact (closes_doStatement hg).ends
  · exact (closes_switchStatement hg).ends
  · exact (closes_tryStatement hg).ends
  · exact (closes_jump _ rfl).ends
  · exact (closes_jump _ rfl).ends
  · refine Reads.ends (Reads.bind (reads_keyword _) fun _ _ _ _ => ?_)
    exact Reads.bind (seams_semicolon g _) fun _ _ _ hseam => closes_branch hseam rfl _ _
  · exact (closes_returnStatement hg).ends
  · refine Reads.ends (Reads.bind (reads_keyword _) fun _ _ _ _ =>
      Reads.bind (reads_expressions hg) fun _ _ _ _ => ?_)
    exact Reads.bind (seams_semicolon g _) fun _ _ _ hseam => closes_branch hseam rfl _ _
  · exact Reads.ite (fun _ => hexpression) fun _ => (closes_importStatement hg).ends
  · exact (closes_exportStatement hg).ends
  · exact hexpression

theorem closes_labeledStatement (hs : g.Seamly source) :
    Reads source c (labeledStatement g) (Closes source) := by
  rw [labeledStatement]
  exact Reads.bind (reads_wordNode false rfl .label) fun _ _ _ _ =>
    Reads.bind (reads_mark _) fun _ _ _ _ => closes_body hs rfl _ _

theorem closes_block (hg : g.Sound source) :
    Reads source c (do return (← block g).withRole .plain) (Closes source) := by
  rw [block]
  simp only [bind_assoc, pure_bind]
  refine Reads.bind (reads_mark _) fun _ _ _ _ =>
    Reads.bind (seams_statementsToBrace hg g.bound) fun _ _ _ hseam => ?_
  refine Reads.bind (closes_branch hseam rfl _ _) fun _ n _ hn => Reads.pure ⟨hn.seam, ?_⟩
  simpa using hn.kind_eq

/-- **Every statement ends where no word runs on.** -/
theorem ends_statement (hg : g.Sound source) (hs : g.Seamly source) :
    Reads source c (statement g) (Ends source g c) := by
  rw [statement]
  refine Reads.here ?_
  split
  · exact Reads.ite (fun _ => (closes_labeledStatement hs).ends) fun _ =>
      ends_wordStatement hg hs _ _
  · refine Reads.ite (fun _ => ?_) fun _ => Reads.ite (fun _ => ?_) fun _ =>
      ends_expressionStatement hg
    · refine Reads.ends (Reads.bind (seams_mark endsWords_semicolon) fun _ _ _ hseam => ?_)
      exact closes_branch hseam rfl _ _
    · exact Reads.orElse (closes_block hg).ends (ends_expressionStatement hg)

/-! ### Sources -/

/-- A statement ends at a seam, to whatever depth it is read. -/
theorem seamly_readPart (depth bound : Nat) : Parts.Seamly source ⟨bound, readPart depth⟩ := by
  induction depth generalizing bound with
  | zero => exact fun _ => Reads.fail
  | succ depth ih =>
      intro c
      exact (ends_statement (sound_readPart depth depth) (ih depth)).mono fun _ _ _ h => h.seam

/-- A statement of a source, read from a place at a seam. -/
def BeginsAtSeam (source : List Char) (n : Node) : Prop :=
  ∃ depth, ∃ c d : Cursor, c.AtSeam source ∧ n.start = c.skipTrivia.offset ∧
    Form ⟨depth, readPart depth⟩ c d n

theorem beginsAtSeam_readPart (depth : Nat) (hseam : Seam source c.rest) :
    Reads source c (readPart depth .statement) fun d n => Seam source d.rest ∧ BeginsAtSeam source n := by
  cases depth with
  | zero => exact Reads.fail
  | succ depth =>
      have hsound : Parts.Sound source ⟨depth, readPart depth⟩ := sound_readPart depth depth
      refine Reads.of_in fun hc => ?_
      refine (ends_statement hsound (seamly_readPart depth depth)).of_run fun d n hn hrun => ?_
      have hstart : n.start = c.skipTrivia.offset :=
        (stated_statement (prompt_readPart depth depth) n d hrun).start_eq
      exact ⟨hn.seam, depth, c, d, ⟨hc, hseam⟩, hstart, hn.form⟩

theorem beginsAtSeam_statementsToEnd (depth bound fuel : Nat) (hseam : Seam source c.rest) :
    Reads source c (statementsToEnd ⟨bound, readPart depth⟩ fuel) fun _ ns =>
      ∀ n ∈ ns, BeginsAtSeam source n := by
  induction fuel generalizing c with
  | zero => exact Reads.fail
  | succ fuel ih =>
      rw [statementsToEnd]
      refine Reads.here (Reads.ite (fun _ => Reads.pure (by simp)) fun _ => ?_)
      refine Reads.bind (beginsAtSeam_readPart depth hseam) fun _ _ _ hn => ?_
      exact Reads.bind (ih hn.1) fun _ _ _ hrest => Reads.pure (List.forall_mem_cons.2 ⟨hn.2, hrest⟩)

/-- A run of characters is followed by what `dropWhile` leaves. -/
theorem Cursor.rest_takeWhile (p : Char → Bool) (c : Cursor) :
    (c.takeWhile p).2.rest = c.rest.dropWhile p := by
  have hrun := List.prefix_iff_eq_append.1 (List.takeWhile_prefix p (l := c.rest))
  have hsplit := List.takeWhile_append_dropWhile (p := p) (l := c.rest)
  rw [Cursor.takeWhile, Cursor.skip_eq]
  exact List.append_cancel_left (hrun.trans hsplit.symm)

/-- Behind an interpreter line there is a line end or nothing. -/
theorem seam_skipInterpreterLine (h : Seam source c.rest) :
    Seam source (skipInterpreterLine c).rest := by
  unfold skipInterpreterLine
  dsimp only
  split
  · refine seam_of_head ?_
    rw [Cursor.rest_takeWhile]
    have hline := List.head?_dropWhile_not (fun x => x != '\n') c.skipTrivia.rest
    cases hhead : (c.skipTrivia.rest.dropWhile fun x => x != '\n').head? with
    | none => rfl
    | some x =>
        rw [hhead] at hline
        rw [show x = '\n' by simpa using hline]
        decide
  · exact h

/-- **The statements of a program are read from seams on.** -/
theorem beginsAtSeam_of_parse? {root : Node} (h : parse? source = some root) :
    ∀ n ∈ root.children, BeginsAtSeam source n := by
  obtain ⟨body, after, hrun, rfl⟩ := exists_run_of_parse? h
  have hself : Seam source (Cursor.start source).rest := seam_self
  have hseam := seam_skipInterpreterLine hself
  exact (beginsAtSeam_statementsToEnd _ _ _ hseam in_skipInterpreterLine body after hrun).2

end Script

end SketchHost
