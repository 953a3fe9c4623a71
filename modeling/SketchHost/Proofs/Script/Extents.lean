/-
**Where trees begin and end.**

A tree lies somewhere in the range that its reader went over (`Script.Between`).  Expressions and
statements do more: they begin at the first token of that range, and a statement ends where its reader
did.  So the statements of a program, and the values of its declarations, begin and end between
characters of the source.

* `Script.Gives` — what a reader gives at a cursor, whether or not the cursor stands in a source;
* `Script.begins_operand`, `Script.begins_expressions` — an expression begins at the token that its
  reader began at;
* `Script.stated_statement` — a statement covers the range of its reader;
* `Script.Node.Divides` — a statement that begins and ends between characters, as do the values that
  it declares;
* `Script.divides_of_parse?` — the statements of a program do.
-/

import SketchHost.InstanceMode.Binding
import SketchHost.Proofs.Script.Statements
import SketchHost.Proofs.Text.Boundaries

set_option relaxedAutoImplicit false
set_option autoImplicit false

namespace SketchHost

namespace Script

variable {α β : Type}

/-! ### What a reader gives -/

/-- Run at a cursor, a reader gives a result of which `Q` holds at the cursor after it. -/
def Gives (c : Cursor) (p : Parse α) (Q : Cursor → α → Prop) : Prop :=
  ∀ a d, p.run c = some (a, d) → Q d a

namespace Gives

variable {c : Cursor} {p q : Parse α} {f : α → Parse β} {Q : Cursor → α → Prop}
  {R : Cursor → β → Prop}

theorem mono {Q' : Cursor → α → Prop} (h : Gives c p Q) (hQ : ∀ d a, Q d a → Q' d a) :
    Gives c p Q' :=
  fun a d hrun => hQ d a (h a d hrun)

theorem pure {a : α} (h : Q c a) : Gives c (pure a) Q := by
  intro a' d hrun
  obtain ⟨rfl, rfl⟩ := Prod.mk.inj (Option.some.inj hrun)
  exact h

theorem fail : Gives c failure Q := by
  intro a d hrun
  exact absurd hrun (by simp [failure, StateT.run, StateT.failure])

theorem bind (h : Gives c p Q) (hf : ∀ d a, Q d a → Gives d (f a) R) : Gives c (p >>= f) R := by
  intro b e hrun
  rw [StateT.run_bind] at hrun
  obtain ⟨⟨a, d⟩, hp, hfa⟩ := Option.bind_eq_some_iff.1 hrun
  exact hf d a (h a d hp) b e hfa

/-- Of the first of two readers nothing need be known. -/
theorem after (hf : ∀ d a, Gives d (f a) R) : Gives c (p >>= f) R :=
  bind (Q := fun _ _ => True) (fun _ _ _ => trivial) fun d a _ => hf d a

theorem orElse (h : Gives c p Q) (h' : Gives c q Q) : Gives c (p <|> q) Q := by
  intro a d hrun
  change (p c <|> q c) = some (a, d) at hrun
  cases hp : p c with
  | none =>
      rw [hp] at hrun
      exact h' a d hrun
  | some r =>
      rw [hp] at hrun
      exact h a d (hp.trans hrun)

theorem ite {b : Prop} [Decidable b] (h : Gives c p Q) (h' : Gives c q Q) :
    Gives c (if b then p else q) Q := by
  split
  · exact h
  · exact h'

theorem here {g : Cursor → Parse β} (h : Gives c (g c.skipTrivia) R) : Gives c (here >>= g) R := h

theorem get {g : Cursor → Parse β} (h : Gives c (g c) R) : Gives c (get >>= g) R := h

theorem peekMark {g : String → Parse β} (h : Gives c (g c.skipTrivia.mark) R) :
    Gives c (peekMark >>= g) R := h

theorem peekWord {g : Option String → Parse β}
    (h : Gives c (g (c.skipTrivia.word?.map (·.1))) R) : Gives c (peekWord >>= g) R := h

end Gives

variable {g : Parts} {c : Cursor} {s : Nat}

theorem gives_mark (m : String) : Gives c (mark m) fun _ start => start = c.skipTrivia.offset := by
  rw [mark]
  exact Gives.here (Gives.ite (Gives.after fun _ _ => Gives.pure rfl) Gives.fail)

theorem gives_keyword (w : String) :
    Gives c (keyword w) fun _ start => start = c.skipTrivia.offset := by
  rw [keyword]
  refine Gives.here ?_
  split
  · exact Gives.ite (Gives.after fun _ _ => Gives.pure rfl) Gives.fail
  · exact Gives.fail

/-! ### Where expressions begin -/

/-- A tree begins at a place. -/
def Begins (s : Nat) (_ : Cursor) (n : Node) : Prop :=
  n.start = s

theorem begins_branch (k : Kind) (s : Nat) (ns : List Node) : Gives c (branch k s ns) (Begins s) := by
  rw [branch]
  exact Gives.get (Gives.pure rfl)

/-- A tree that is given another role begins where it did. -/
theorem Gives.withRole {p : Parse Node} (h : Gives c p (Begins s)) (r : Role) :
    Gives c (do return (← p).withRole r) (Begins s) := by
  refine Gives.bind h fun d n hn => Gives.pure ?_
  rw [Begins, Node.start_withRole]
  exact hn

/-- The readers for the parts give trees that begin at the token that they began at. -/
def Parts.Prompt (g : Parts) : Prop :=
  ∀ goal c, Gives c (g.read goal) (Begins c.skipTrivia.offset)

theorem begins_wordNode (anyWord : Bool) (k : Kind) (r : Role) :
    Gives c (wordNode anyWord k r) (Begins c.skipTrivia.offset) := by
  rw [wordNode]
  refine Gives.here ?_
  split
  · exact Gives.ite (Gives.after fun _ _ => Gives.pure rfl) Gives.fail
  · exact Gives.fail

theorem begins_expressions (hg : g.Prompt) :
    Gives c (expressions g) (Begins c.skipTrivia.offset) := by
  rw [expressions]
  refine Gives.bind (hg .expression c) fun _ first hfirst => Gives.after fun _ rest => ?_
  unfold Begins at hfirst
  split
  · exact Gives.pure hfirst
  · rw [← hfirst]
    exact begins_branch _ _ _

theorem begins_arrowTail (s : Nat) (params : Node) : Gives c (arrowTail g s params) (Begins s) := by
  rw [arrowTail]
  exact Gives.after fun _ _ => Gives.after fun _ _ => begins_branch _ _ _

theorem begins_parenthesis : Gives c (parenthesis g) (Begins c.skipTrivia.offset) := by
  rw [parenthesis]
  refine Gives.bind (gives_mark _) fun _ start hstart => Gives.after fun _ items => ?_
  subst hstart
  refine Gives.peekMark (Gives.ite ?_ ?_)
  · exact Gives.after fun _ _ => begins_arrowTail _ _
  · refine Gives.after fun _ exprs => Gives.ite Gives.fail (Gives.get ?_)
    cases exprs with
    | nil => exact Gives.fail
    | cons e rest =>
        cases rest with
        | nil => exact Gives.pure rfl
        | cons e' rest' => exact Gives.pure rfl

theorem begins_propertyKey (r : Role) :
    Gives c (propertyKey g r) (Begins c.skipTrivia.offset) := by
  rw [propertyKey]
  refine Gives.here ?_
  split
  · split
    · exact Gives.after fun _ _ => Gives.pure rfl
    · exact Gives.fail
  · refine Gives.after fun _ _ => Gives.after fun _ _ => Gives.after fun _ _ => ?_
    exact Gives.withRole (begins_branch _ _ _) _
  · split
    · exact Gives.after fun _ _ => Gives.pure rfl
    · split
      · exact Gives.after fun _ _ => Gives.pure rfl
      · exact Gives.fail

theorem begins_record : Gives c (record g) (Begins c.skipTrivia.offset) := by
  rw [record]
  refine Gives.bind (gives_mark _) fun _ start hstart => Gives.after fun _ _ => ?_
  subst hstart
  exact begins_branch _ _ _

theorem begins_list : Gives c (list g) (Begins c.skipTrivia.offset) := by
  rw [list]
  refine Gives.bind (gives_mark _) fun _ start hstart => Gives.after fun _ _ => ?_
  subst hstart
  exact begins_branch _ _ _

theorem begins_template : Gives c (template g) (Begins c.skipTrivia.offset) := by
  rw [template]
  refine Gives.bind (gives_mark _) fun _ start hstart => Gives.after fun _ _ => ?_
  subst hstart
  exact begins_branch _ _ _

theorem begins_classExpression : Gives c (classExpression g) (Begins c.skipTrivia.offset) := by
  rw [classExpression]
  refine Gives.bind (gives_keyword _) fun _ start hstart => ?_
  subst hstart
  exact Gives.after fun _ _ => Gives.after fun _ _ => begins_branch _ _ _

theorem begins_functionExpression (s : Nat) : Gives c (functionExpression g s) (Begins s) := by
  rw [functionExpression]
  exact Gives.after fun _ _ => Gives.after fun _ _ => Gives.after fun _ _ => Gives.after fun _ _ =>
    begins_branch _ _ _

theorem begins_asyncForm : Gives c (asyncForm g) (Begins c.skipTrivia.offset) := by
  rw [asyncForm]
  refine Gives.here (Gives.bind (begins_wordNode _ _ _) fun d name hname => ?_)
  refine Gives.get (Gives.peekMark (Gives.ite (begins_arrowTail _ _) (Gives.peekMark
    (Gives.ite ?_ (Gives.ite (Gives.pure hname) (Gives.peekWord ?_))))))
  · refine Gives.after fun _ _ => Gives.after fun _ _ => Gives.peekMark (Gives.ite ?_ ?_)
    · exact Gives.after fun _ _ => begins_arrowTail _ _
    · exact Gives.after fun _ _ => begins_branch _ _ _
  · split
    · exact begins_functionExpression _
    · refine Gives.ite (Gives.pure hname) (Gives.orElse ?_ (Gives.pure hname))
      exact Gives.after fun _ _ => begins_arrowTail _ _
    · exact Gives.pure hname

theorem begins_importForm : Gives c importForm (Begins c.skipTrivia.offset) := by
  rw [importForm]
  refine Gives.bind (gives_keyword _) fun _ start hstart => Gives.peekMark ?_
  subst hstart
  refine Gives.ite ?_ (Gives.ite (begins_branch _ _ _) Gives.fail)
  exact Gives.after fun _ _ => Gives.after fun _ _ => begins_branch _ _ _

theorem begins_primary : Gives c (primary g) (Begins c.skipTrivia.offset) := by
  rw [primary]
  refine Gives.here ?_
  split
  · refine Gives.ite (begins_functionExpression _) (Gives.ite begins_asyncForm
      (Gives.ite begins_classExpression (Gives.ite begins_importForm (Gives.ite ?_ (Gives.ite ?_ ?_)))))
    · exact Gives.after fun _ _ => begins_branch _ _ _
    · exact Gives.after fun _ _ => Gives.pure rfl
    · refine Gives.bind (begins_wordNode _ _ _) fun _ name hname => Gives.peekMark ?_
      exact Gives.ite (begins_arrowTail _ _) (Gives.pure hname)
  · split
    · exact Gives.after fun _ _ => begins_branch _ _ _
    · split
      · exact begins_parenthesis
      · exact begins_list
      · exact begins_record
      · exact begins_template
      · split
        · exact Gives.after fun _ _ => begins_branch _ _ _
        · exact Gives.fail
      · exact Gives.fail

theorem begins_accessed (s : Nat) (object : Node) : Gives c (accessed s object) (Begins s) := by
  rw [accessed]
  refine Gives.here ?_
  split
  split
  · exact Gives.here (Gives.after fun _ _ => begins_branch _ _ _)
  · exact Gives.fail

/-- Accesses and calls begin where the expression before them does. -/
theorem begins_accesses (calls : Bool) (fuel : Nat) {left : Node} (hleft : left.start = s) :
    Gives c (accesses g calls fuel left) (Begins s) := by
  induction fuel generalizing c left with
  | zero => exact Gives.pure hleft
  | succ fuel ih =>
      rw [accesses]
      refine Gives.here ?_
      extract_lets m index call
      have hindex : ∀ d, Gives d index (Begins s) := by
        intro d
        rw [← hleft]
        exact Gives.after fun _ _ => Gives.after fun _ _ => Gives.after fun _ _ => begins_branch _ _ _
      have hcall : ∀ d, Gives d call (Begins s) := by
        intro d
        rw [← hleft]
        exact Gives.after fun _ _ => begins_branch _ _ _
      have hmember : ∀ d, Gives d (accessed left.start left) (Begins s) := by
        intro d
        rw [hleft]
        exact begins_accessed s left
      clear_value m index call
      refine Gives.ite ?_ (Gives.ite ?_ (Gives.ite ?_ (Gives.ite ?_ (Gives.ite ?_ (Gives.pure hleft)))))
      · exact Gives.after fun d _ => Gives.bind (hmember d) fun _ _ hn => ih hn
      · refine Gives.after fun d _ => Gives.peekMark (Gives.ite ?_ (Gives.ite ?_ ?_))
        · exact Gives.bind (hcall d) fun _ _ hn => ih hn
        · exact Gives.bind (hindex d) fun _ _ hn => ih hn
        · exact Gives.bind (hmember d) fun _ _ hn => ih hn
      · exact Gives.bind (hindex c) fun _ _ hn => ih hn
      · exact Gives.bind (hcall c) fun _ _ hn => ih hn
      · refine Gives.after fun _ _ => Gives.bind (begins_branch _ _ _) fun _ _ hn => ih ?_
        exact Eq.trans hn hleft

theorem begins_creation (fuel : Nat) : Gives c (creation g fuel) (Begins c.skipTrivia.offset) := by
  cases fuel with
  | zero => exact Gives.fail
  | succ fuel =>
      rw [creation]
      refine Gives.bind (gives_keyword _) fun _ start hstart => Gives.after fun _ _ => ?_
      subst hstart
      refine Gives.ite (Gives.after fun _ _ => begins_branch _ _ _) (Gives.peekWord ?_)
      extract_lets next
      have hnext : ∀ d base, Gives d (next base) (Begins c.skipTrivia.offset) := by
        intro d base
        refine Gives.after fun _ _ => Gives.peekMark (Gives.ite ?_ (begins_branch _ _ _))
        exact Gives.after fun _ _ => begins_branch _ _ _
      exact Gives.ite (Gives.after hnext) (Gives.after hnext)

theorem begins_leftHand : Gives c (leftHand g) (Begins c.skipTrivia.offset) := by
  rw [leftHand]
  refine Gives.peekWord ?_
  extract_lets next
  have hnext : ∀ d base, Begins c.skipTrivia.offset d base →
      Gives d (next base) (Begins c.skipTrivia.offset) :=
    fun _ _ hbase => begins_accesses true g.bound hbase
  exact Gives.ite (Gives.bind (begins_creation _) hnext) (Gives.bind begins_primary hnext)

theorem begins_assignmentTail {left : Node} (hleft : left.start = s) :
    Gives c (assignmentTail g left) (Begins s) := by
  rw [assignmentTail, hleft]
  refine Gives.peekMark (Gives.ite ?_ (Gives.ite ?_ ?_))
  · exact Gives.after fun _ _ => Gives.after fun _ _ => Gives.after fun _ _ => begins_branch _ _ _
  · exact Gives.after fun _ _ => Gives.after fun _ _ => begins_branch _ _ _
  · exact Gives.get (Gives.ite (Gives.after fun _ _ => begins_branch _ _ _) (Gives.pure hleft))

theorem begins_unaryTail (k : Kind) (s : Nat) : Gives c (unaryTail g k s) (Begins s) := by
  rw [unaryTail]
  exact Gives.after fun _ _ => begins_branch _ _ _

theorem begins_yieldForm : Gives c (yieldForm g) (Begins c.skipTrivia.offset) := by
  rw [yieldForm]
  refine Gives.bind (gives_keyword _) fun _ start hstart => Gives.after fun _ _ => ?_
  subst hstart
  refine Gives.ite (Gives.after fun _ _ => begins_branch _ _ _)
    (Gives.get (Gives.ite (begins_branch _ _ _) (Gives.orElse ?_ (begins_branch _ _ _))))
  exact Gives.after fun _ _ => begins_branch _ _ _

theorem begins_operand : Gives c (operand g) (Begins c.skipTrivia.offset) := by
  rw [operand]
  have hassigned : Gives c (do assignmentTail g (← leftHand g)) (Begins c.skipTrivia.offset) :=
    Gives.bind begins_leftHand fun _ _ hn => begins_assignmentTail hn
  refine Gives.here ?_
  split
  · refine Gives.ite (Gives.after fun _ _ => begins_unaryTail _ _) (Gives.ite ?_
      (Gives.ite begins_yieldForm hassigned))
    exact Gives.after fun _ _ => begins_unaryTail _ _
  · refine Gives.ite (Gives.after fun _ _ => begins_unaryTail _ _) (Gives.ite ?_
      (Gives.ite ?_ hassigned))
    · exact Gives.after fun _ _ => begins_unaryTail _ _
    · refine Gives.bind (begins_propertyKey _) fun _ name hname => ?_
      exact Gives.peekWord (Gives.ite (Gives.pure hname) Gives.fail)

theorem begins_expression (hg : g.Prompt) : Gives c (expression g) (Begins c.skipTrivia.offset) := by
  rw [expression]
  refine Gives.bind (hg .operand c) fun _ first hfirst => Gives.after fun _ rest => ?_
  extract_lets next
  have hnext : ∀ d chain, Begins c.skipTrivia.offset d chain →
      Gives d (next chain) (Begins c.skipTrivia.offset) := by
    intro d chain hchain
    refine Gives.after fun _ _ => Gives.ite ?_ (Gives.pure hchain)
    refine Gives.after fun _ _ => Gives.after fun _ _ => Gives.after fun _ _ => ?_
    rw [← hchain]
    exact begins_branch _ _ _
  split
  · exact hnext _ first hfirst
  · refine Gives.bind (begins_branch _ _ _) fun _ n hn => hnext _ n ?_
    exact Eq.trans hn hfirst

/-! ### What statements cover -/

/-- A tree covers the range from a place to the cursor. -/
structure Covers (s : Nat) (d : Cursor) (n : Node) : Prop where
  start_eq : n.start = s
  stop_eq : n.stop = d.offset

/-- A tree that covers a range and declares no variables there. -/
structure Plain (s : Nat) (d : Cursor) (n : Node) : Prop extends Covers s d n where
  kind_eq : Node.isVariableDeclaration n.kind = false

theorem covers_branch (k : Kind) (s : Nat) (ns : List Node) : Gives c (branch k s ns) (Covers s) := by
  rw [branch]
  exact Gives.get (Gives.pure ⟨rfl, rfl⟩)

theorem plain_branch {k : Kind} (hk : Node.isVariableDeclaration k = false) (s : Nat)
    (ns : List Node) : Gives c (branch k s ns) (Plain s) := by
  rw [branch]
  exact Gives.get (Gives.pure ⟨⟨rfl, rfl⟩, hk⟩)

theorem covers_declaration (w : String) :
    Gives c (declaration g w) (Covers c.skipTrivia.offset) := by
  rw [declaration]
  refine Gives.bind (gives_keyword _) fun _ start hstart => Gives.after fun _ _ => ?_
  subst hstart
  rw [declarationTail]
  exact Gives.after fun _ _ => Gives.after fun _ _ => Gives.after fun _ _ => covers_branch _ _ _

theorem plain_functionDeclaration :
    Gives c (functionDeclaration g) (Plain c.skipTrivia.offset) := by
  rw [functionDeclaration]
  refine Gives.here (Gives.peekWord ?_)
  extract_lets next
  have hnext : ∀ d, Gives d (next ⟨⟩) (Plain c.skipTrivia.offset) := by
    intro d
    refine Gives.after fun _ _ => Gives.after fun _ isGenerator => Gives.after fun _ _ =>
      Gives.after fun _ _ => Gives.get ?_
    extract_lets close
    have hclose : ∀ e, Gives e (close ⟨⟩) (Plain c.skipTrivia.offset) := by
      intro e
      cases isGenerator
      · exact plain_branch rfl _ _
      · exact plain_branch rfl _ _
    split
    · exact Gives.after fun e _ => hclose e
    · exact Gives.ite (Gives.after fun e _ => hclose e) (hclose _)
  exact Gives.ite (Gives.after fun d _ => hnext d) (hnext c)

theorem plain_classDeclaration : Gives c (classDeclaration g) (Plain c.skipTrivia.offset) := by
  rw [classDeclaration]
  refine Gives.bind (gives_keyword _) fun _ start hstart => ?_
  subst hstart
  exact Gives.after fun _ _ => Gives.after fun _ _ => plain_branch rfl _ _

theorem plain_expressionStatement (hg : g.Prompt) :
    Gives c (expressionStatement g) (Plain c.skipTrivia.offset) := by
  rw [expressionStatement]
  refine Gives.bind (begins_expressions hg) fun _ e he => Gives.after fun _ _ => ?_
  rw [← he]
  exact plain_branch rfl _ _

theorem plain_ifStatement : Gives c (ifStatement g) (Plain c.skipTrivia.offset) := by
  rw [ifStatement]
  refine Gives.bind (gives_keyword _) fun _ start hstart => ?_
  subst hstart
  refine Gives.after fun _ _ => Gives.after fun _ _ => Gives.peekWord
    (Gives.ite ?_ (plain_branch rfl _ _))
  exact Gives.after fun _ _ => Gives.after fun _ _ => Gives.after fun _ _ => plain_branch rfl _ _

theorem plain_switchStatement : Gives c (switchStatement g) (Plain c.skipTrivia.offset) := by
  rw [switchStatement]
  refine Gives.bind (gives_keyword _) fun _ start hstart => ?_
  subst hstart
  exact Gives.after fun _ _ => Gives.after fun _ _ => Gives.after fun _ _ => Gives.after fun _ _ =>
    plain_branch rfl _ _

theorem plain_tryStatement : Gives c (tryStatement g) (Plain c.skipTrivia.offset) := by
  rw [tryStatement]
  refine Gives.bind (gives_keyword _) fun _ start hstart => Gives.after fun d _ => Gives.peekWord ?_
  subst hstart
  extract_lets next
  have hnext : ∀ e handler, Gives e (next handler) (Plain c.skipTrivia.offset) := by
    intro e handler
    refine Gives.peekWord (Gives.ite ?_ (plain_branch rfl _ _))
    exact Gives.after fun _ _ => Gives.after fun _ _ => Gives.after fun _ _ => plain_branch rfl _ _
  refine Gives.ite (Gives.after fun _ _ => Gives.after fun _ _ => Gives.ite ?_ ?_) (hnext d [])
  · refine Gives.after fun _ _ => Gives.after fun _ _ => Gives.after fun _ _ => ?_
    exact Gives.after fun e _ => hnext e _
  · exact Gives.after fun _ _ => Gives.after fun e _ => hnext e _

theorem plain_guarded (w : String) {k : Kind} (hk : Node.isVariableDeclaration k = false) :
    Gives c (guarded g w k) (Plain c.skipTrivia.offset) := by
  rw [guarded]
  refine Gives.bind (gives_keyword _) fun _ start hstart => ?_
  subst hstart
  exact Gives.after fun _ _ => Gives.after fun _ _ => plain_branch hk _ _

theorem plain_doStatement : Gives c (doStatement g) (Plain c.skipTrivia.offset) := by
  rw [doStatement]
  refine Gives.bind (gives_keyword _) fun _ start hstart => ?_
  subst hstart
  refine Gives.after fun _ _ => Gives.after fun _ _ => Gives.after fun _ _ => Gives.get ?_
  split
  · exact Gives.after fun _ _ => plain_branch rfl _ _
  · exact Gives.after fun _ _ => plain_branch rfl _ _

theorem plain_jump (w : String) {k : Kind} (hk : Node.isVariableDeclaration k = false) :
    Gives c (jump g w k) (Plain c.skipTrivia.offset) := by
  rw [jump]
  refine Gives.bind (gives_keyword _) fun d start hstart => Gives.get ?_
  subst hstart
  extract_lets next
  have hnext : ∀ e label, Gives e (next label) (Plain c.skipTrivia.offset) :=
    fun e label => Gives.after fun _ _ => plain_branch hk _ _
  split
  · exact hnext d []
  · exact Gives.peekMark (Gives.ite (hnext d []) (Gives.after fun e _ => hnext e _))

theorem plain_returnStatement : Gives c (returnStatement g) (Plain c.skipTrivia.offset) := by
  rw [returnStatement]
  refine Gives.bind (gives_keyword _) fun _ start hstart => Gives.get ?_
  subst hstart
  split
  · exact Gives.after fun _ _ => plain_branch rfl _ _
  · refine Gives.after fun _ _ => Gives.ite (plain_branch rfl _ _) ?_
    exact Gives.after fun _ _ => Gives.after fun _ _ => plain_branch rfl _ _

theorem plain_overTail (s : Nat) (head : List Node) : Gives c (overTail g s head) (Plain s) := by
  rw [overTail]
  exact Gives.after fun _ _ => Gives.after fun _ _ => Gives.after fun _ _ => Gives.after fun _ _ =>
    plain_branch rfl _ _

theorem plain_countTail (s : Nat) (initializer : List Node) :
    Gives c (countTail g s initializer) (Plain s) := by
  rw [countTail]
  refine Gives.after fun d _ => ?_
  extract_lets next
  have hnext : ∀ e condition, Gives e (next condition) (Plain s) := by
    intro e condition
    refine Gives.peekMark ?_
    extract_lets close
    have hclose : ∀ e' increment, Gives e' (close increment) (Plain s) :=
      fun _ _ => Gives.after fun _ _ => Gives.after fun _ _ => plain_branch rfl _ _
    exact Gives.ite (hclose e []) (Gives.after fun e' _ => hclose e' _)
  exact Gives.ite (hnext d []) (Gives.after fun _ _ => Gives.after fun e _ => hnext e _)

theorem plain_assigningLoop (s : Nat) : Gives c (assigningLoop g s) (Plain s) := by
  rw [assigningLoop]
  exact Gives.after fun _ _ => Gives.after fun _ _ => plain_overTail _ _

theorem plain_countingLoop (s : Nat) : Gives c (countingLoop g s) (Plain s) := by
  rw [countingLoop]
  refine Gives.after fun _ _ => Gives.ite (plain_countTail _ _) ?_
  exact Gives.after fun _ _ => Gives.after fun _ _ => plain_countTail _ _

theorem plain_declaringLoop (s : Nat) (awaits : Bool) (w : String) :
    Gives c (declaringLoop g s awaits w) (Plain s) := by
  rw [declaringLoop]
  refine Gives.after fun _ _ => Gives.after fun _ _ => Gives.after fun _ _ => Gives.peekWord
    (Gives.get (Gives.ite (plain_overTail _ _) (Gives.ite Gives.fail ?_)))
  exact Gives.after fun _ _ => plain_countTail _ _

theorem plain_forLoop : Gives c (forLoop g) (Plain c.skipTrivia.offset) := by
  rw [forLoop]
  refine Gives.bind (gives_keyword _) fun d start hstart => Gives.peekWord ?_
  subst hstart
  extract_lets awaits next
  have hnext : ∀ e, Gives e (next ⟨⟩) (Plain c.skipTrivia.offset) := by
    intro e
    refine Gives.after fun _ _ => Gives.after fun _ w => ?_
    split
    · exact plain_declaringLoop _ _ _
    · exact Gives.ite (plain_assigningLoop _)
        (Gives.orElse (plain_assigningLoop _) (plain_countingLoop _))
  exact Gives.ite (Gives.after fun e _ => hnext e) (hnext d)

theorem plain_importStatement : Gives c (importStatement g) (Plain c.skipTrivia.offset) := by
  rw [importStatement]
  refine Gives.bind (gives_keyword _) fun _ start hstart => Gives.after fun d parts =>
    Gives.peekWord ?_
  subst hstart
  extract_lets next
  have hnext : ∀ e options, Gives e (next options) (Plain c.skipTrivia.offset) :=
    fun _ _ => Gives.after fun _ _ => plain_branch rfl _ _
  refine Gives.ite ?_ (hnext d [])
  exact Gives.after fun _ _ => Gives.after fun _ _ => Gives.after fun e _ => hnext e _

theorem plain_exportStatement : Gives c (exportStatement g) (Plain c.skipTrivia.offset) := by
  rw [exportStatement]
  refine Gives.bind (gives_keyword _) fun _ start hstart => Gives.peekMark ?_
  subst hstart
  refine Gives.ite ?_ (Gives.peekWord (Gives.ite ?_ ?_))
  · exact Gives.after fun _ _ => Gives.after fun _ _ => plain_branch rfl _ _
  · refine Gives.after fun _ _ => Gives.orElse ?_ ?_
    · exact Gives.after fun _ _ => plain_branch rfl _ _
    · exact Gives.after fun _ _ => Gives.after fun _ _ => plain_branch rfl _ _
  · exact Gives.after fun _ _ => plain_branch rfl _ _

theorem plain_labeledStatement : Gives c (labeledStatement g) (Plain c.skipTrivia.offset) := by
  rw [labeledStatement]
  refine Gives.bind (begins_wordNode _ _ _) fun _ label hlabel => ?_
  refine Gives.after fun _ _ => Gives.after fun _ body => ?_
  rw [← hlabel]
  exact plain_branch rfl _ _

/-- A statement covers its range; if it declares variables, the reader for declarations gives it. -/
structure Stated (g : Parts) (c : Cursor) (d : Cursor) (n : Node) : Prop
    extends Covers c.skipTrivia.offset d n where
  declares : Node.isVariableDeclaration n.kind = true → ∃ w, (declaration g w).run c = some (n, d)

theorem Gives.stated {p : Parse Node} (h : Gives c p (Plain c.skipTrivia.offset)) :
    Gives c p (Stated g c) := by
  refine h.mono fun d n hn => ⟨hn.toCovers, fun hvariable => ?_⟩
  rw [hn.kind_eq] at hvariable
  simp at hvariable

theorem stated_declaration (w : String) : Gives c (declaration g w) (Stated g c) :=
  fun n d hrun => ⟨covers_declaration w n d hrun, fun _ => ⟨w, hrun⟩⟩

theorem stated_wordStatement (hg : g.Prompt) (w : String) (after : Cursor) :
    Gives c (wordStatement g w after) (Stated g c) := by
  unfold wordStatement
  extract_lets next followedBy
  have hexpression : Gives c (expressionStatement g) (Stated g c) :=
    (plain_expressionStatement hg).stated
  have hfunction := Gives.orElse (plain_functionDeclaration (g := g)).stated hexpression
  split
  · exact stated_declaration _
  · exact stated_declaration _
  · exact Gives.ite (stated_declaration _) hexpression
  · exact hfunction
  · exact Gives.ite hfunction hexpression
  · exact Gives.orElse plain_classDeclaration.stated hexpression
  · exact plain_ifStatement.stated
  · exact plain_forLoop.stated
  · exact (plain_guarded _ rfl).stated
  · exact (plain_guarded _ rfl).stated
  · exact plain_doStatement.stated
  · exact plain_switchStatement.stated
  · exact plain_tryStatement.stated
  · exact (plain_jump _ rfl).stated
  · exact (plain_jump _ rfl).stated
  · refine Gives.stated (Gives.bind (gives_keyword _) fun _ start hstart => ?_)
    subst hstart
    exact Gives.after fun _ _ => plain_branch rfl _ _
  · exact plain_returnStatement.stated
  · refine Gives.stated (Gives.bind (gives_keyword _) fun _ start hstart => ?_)
    subst hstart
    exact Gives.after fun _ _ => Gives.after fun _ _ => plain_branch rfl _ _
  · exact Gives.ite hexpression plain_importStatement.stated
  · exact plain_exportStatement.stated
  · exact hexpression

theorem plain_block : Gives c (do return (← block g).withRole .plain) (Plain c.skipTrivia.offset) := by
  rw [block]
  simp only [bind_assoc, pure_bind]
  refine Gives.bind (gives_mark _) fun _ start hstart => Gives.after fun _ body => ?_
  subst hstart
  refine Gives.bind (plain_branch rfl _ _) fun d n hn => Gives.pure ?_
  exact ⟨⟨by simpa using hn.start_eq, by simpa using hn.stop_eq⟩, by simpa using hn.kind_eq⟩

/-- A statement covers the range of its reader. -/
theorem stated_statement (hg : g.Prompt) : Gives c (statement g) (Stated g c) := by
  rw [statement]
  refine Gives.here ?_
  split
  · exact Gives.ite plain_labeledStatement.stated (stated_wordStatement hg _ _)
  · refine Gives.ite ?_ (Gives.ite ?_ (plain_expressionStatement hg).stated)
    · refine Gives.stated (Gives.bind (gives_mark _) fun _ start hstart => ?_)
      subst hstart
      exact plain_branch rfl _ _
    · exact Gives.orElse plain_block.stated (plain_expressionStatement hg).stated

/-- The readers for the parts are prompt at every depth. -/
theorem prompt_readPart (depth bound : Nat) : Parts.Prompt ⟨bound, readPart depth⟩ := by
  induction depth generalizing bound with
  | zero => exact fun goal c => Gives.fail
  | succ depth ih =>
      intro goal c
      cases goal with
      | operand => exact begins_operand
      | expression => exact begins_expression (ih depth)
      | statement => exact (stated_statement (ih depth)).mono fun d n hn => hn.start_eq

/-! ### Between characters -/

open Text (Divides)

variable {source : List Char}

/-- A cursor that stands in a source stands between two of its characters. -/
theorem Cursor.In.divides (h : c.In source) : Divides source c.offset := by
  obtain ⟨run, hrest, hoffset⟩ := h
  refine ⟨run, ⟨c.rest, hrest.symm⟩, ?_⟩
  rw [hoffset]
  exact (Nat.zero_add _).symm

/-- A word begins and ends between characters. -/
theorem SpelledAt.divides {start stop : Nat} {text : String} (h : SpelledAt source start stop text) :
    Divides source start ∧ Divides source stop := by
  obtain ⟨c, d, hc, hspells, rfl, rfl⟩ := h
  exact ⟨hc.divides, (hc.trans hspells.leads).divides⟩

/-- An expression begins between characters. -/
theorem reads_divides (hsound : g.Sound source) (hprompt : g.Prompt) (goal : Goal) :
    Reads source c (g.read goal) fun _ n => Divides source n.start := by
  intro hc n d hrun
  have hstart : n.start = c.skipTrivia.offset := hprompt goal c n d hrun
  refine ⟨(hsound goal c hc n d hrun).1, ?_⟩
  simp only [hstart]
  exact (hc.trans (Cursor.leads_skipTrivia c)).divides

/-- The value of a declarator, if it has one, begins between characters. -/
def Node.ValueDivides (source : List Char) (declarator : Node) : Prop :=
  ∀ v, declarator.child? .value = some v → Divides source v.start

theorem valueDivides_declaratorTail (hsound : g.Sound source) (hprompt : g.Prompt) {target : Node}
    (hrole : target.role = .name) :
    Reads source c (declaratorTail g target) fun _ n => n.ValueDivides source := by
  have htarget : (target.role == Role.value) = false := by
    rw [hrole]
    rfl
  rw [declaratorTail]
  refine Reads.bind (reads_tryMark _) fun _ _ _ _ => Reads.ite (fun _ => ?_) fun _ => ?_
  · refine Reads.bind (reads_divides hsound hprompt .expression) fun _ value _ hvalue => ?_
    rw [branch]
    refine Reads.get (Reads.pure fun v hv => ?_)
    simp only [Node.child?, Node.children_node, List.find?_cons, htarget, Node.role_withRole,
      beq_self_eq_true, Option.some.injEq] at hv
    rw [← hv, Node.start_withRole]
    exact hvalue
  · rw [branch]
    refine Reads.get (Reads.pure fun v hv => ?_)
    simp [Node.child?, htarget] at hv

theorem valueDivides_moreDeclarators (hsound : g.Sound source) (hprompt : g.Prompt) (fuel : Nat) :
    Reads source c (moreDeclarators g fuel) fun _ ns => ∀ n ∈ ns, n.ValueDivides source := by
  induction fuel generalizing c with
  | zero => exact Reads.pure (by simp)
  | succ fuel ih =>
      rw [moreDeclarators]
      refine Reads.bind (reads_tryMark _) fun _ _ _ _ =>
        Reads.ite (fun _ => ?_) fun _ => Reads.pure (by simp)
      refine Reads.bind (reads_declaredTarget hsound .name) fun _ target _ htarget => ?_
      refine Reads.bind (valueDivides_declaratorTail hsound hprompt htarget.2.role) fun _ n _ hn => ?_
      exact Reads.bind ih fun _ rest _ hrest => Reads.pure (List.forall_mem_cons.2 ⟨hn, hrest⟩)

/-- The values that a declaration gives begin between characters. -/
theorem valueDivides_declaration (hsound : g.Sound source) (hprompt : g.Prompt) (w : String) :
    Reads source c (declaration g w) fun _ n => ∀ m ∈ n.children, m.ValueDivides source := by
  rw [declaration]
  refine Reads.bind (reads_keyword _) fun _ start _ _ => ?_
  refine Reads.bind (reads_declaredTarget hsound .name) fun _ target _ htarget => ?_
  rw [declarationTail]
  refine Reads.bind (valueDivides_declaratorTail hsound hprompt htarget.2.role) fun _ first _ hfirst => ?_
  refine Reads.bind (valueDivides_moreDeclarators hsound hprompt g.bound) fun _ more _ hmore => ?_
  refine Reads.bind (reads_semicolon g _) fun _ _ _ _ => ?_
  rw [branch]
  exact Reads.get (Reads.pure (List.forall_mem_cons.2 ⟨hfirst, hmore⟩))

/-- A statement begins and ends between characters of the source, and so do the values that it
declares begin. -/
structure Node.Divides (source : List Char) (s : Node) : Prop where
  start : Text.Divides source s.start
  stop : Text.Divides source s.stop
  value : Node.isVariableDeclaration s.kind = true → ∀ m ∈ s.children, m.ValueDivides source

theorem divides_readPart (depth : Nat) :
    Reads source c (readPart depth .statement) fun _ s => s.Divides source := by
  cases depth with
  | zero => exact Reads.fail
  | succ depth =>
      have hsound : Parts.Sound source ⟨depth, readPart depth⟩ := sound_readPart depth depth
      have hprompt : Parts.Prompt ⟨depth, readPart depth⟩ := prompt_readPart depth depth
      intro hc s d hrun
      obtain ⟨hleads, -⟩ := reads_statement hsound hc s d hrun
      obtain ⟨⟨hstart, hstop⟩, hdeclares⟩ := stated_statement hprompt s d hrun
      refine ⟨hleads, ?_, ?_, fun hvariable => ?_⟩
      · rw [hstart]
        exact (hc.trans (Cursor.leads_skipTrivia c)).divides
      · rw [hstop]
        exact (hc.trans hleads).divides
      · obtain ⟨w, hdeclared⟩ := hdeclares hvariable
        exact (valueDivides_declaration hsound hprompt w hc s d hdeclared).2

theorem divides_statementsToEnd (depth bound fuel : Nat) :
    Reads source c (statementsToEnd ⟨bound, readPart depth⟩ fuel) fun _ ns =>
      ∀ s ∈ ns, s.Divides source := by
  induction fuel generalizing c with
  | zero => exact Reads.fail
  | succ fuel ih =>
      rw [statementsToEnd]
      refine Reads.here (Reads.ite (fun _ => Reads.pure (by simp)) fun _ => ?_)
      refine Reads.bind (divides_readPart depth) fun _ s _ hs => ?_
      exact Reads.bind ih fun _ rest _ hrest => Reads.pure (List.forall_mem_cons.2 ⟨hs, hrest⟩)

/-- The statements of a program begin and end between characters of the source. -/
theorem divides_of_parse? {root : Node} (h : parse? source = some root) :
    ∀ s ∈ root.children, s.Divides source := by
  obtain ⟨body, after, hrun, rfl⟩ := exists_run_of_parse? h
  exact (divides_statementsToEnd _ _ _ in_skipInterpreterLine body after hrun).2

end Script

end SketchHost
