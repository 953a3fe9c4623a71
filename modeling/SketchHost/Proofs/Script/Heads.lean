/-
**The heads of definitions.**

A statement that defines a name has a head: the name, before it perhaps a word that introduces it, and
behind it the mark that the rest of the definition begins with.  The head can be read off the text
where the statement begins.  That this reading agrees with the grammar is shown for the three forms of
statements that may be moved to the instance.

* `Script.Head`, `Script.headAt` — the head of a definition, read off a place in the text;
* `Script.Opens` — how a head of each form reads, token by token;
* `Script.headAt_of_opens` — a head is found by its tokens;
* `Script.opens_functionDeclaration`, `Script.opens_declaration`, `Script.opens_expressionStatement` —
  the productions begin with heads;
* `Dialect.opens_of_hoist?` — every statement that is moved to the instance begins with a head.
-/

import SketchHost.Proofs.InstanceMode.Hoists
import SketchHost.Proofs.Script.Endings

set_option relaxedAutoImplicit false
set_option autoImplicit false

namespace SketchHost

namespace Script

variable {g : Parts} {c d : Cursor} {text : String} {s : Nat}

/-! ### Heads -/

/-- The head of a definition: the place of the word that introduces the name, if one does, and the
place of the name. -/
structure Head where
  word? : Option Cursor
  name : Cursor
deriving DecidableEq, Repr

/-- Past the word at a place. -/
def Cursor.pastWord (c : Cursor) : Cursor :=
  (c.word?.map (·.2)).getD c

/-- The words that introduce the name of a definition. -/
def introductions : List String :=
  ["function", "const", "let", "var"]

theorem mem_introductions :
    ∀ w ∈ ["var", "const", "let"], w ≠ "async" ∧ w ∈ introductions := by
  decide

/-- The head of the definition that begins at a place. -/
def headAt (c : Cursor) : Head :=
  let a := if c.word?.map (·.1) == some "async" then c.pastWord.skipTrivia else c
  if (a.word?.map (·.1)).any introductions.contains then
    let b := a.pastWord.skipTrivia
    ⟨some a, if b.mark == "*" then (b.skip 1).skipTrivia else b⟩
  else ⟨none, a⟩

/-- The place at a byte offset of a source, or the first one after it. -/
def placeFrom (offset : Nat) : List Char → Nat → Cursor
  | [], k => ⟨[], k⟩
  | x :: rest, k => if k < offset then placeFrom offset rest (k + x.utf8Size) else ⟨x :: rest, k⟩

/-- The head of the definition that a statement is. -/
def headOf (source : List Char) (s : Node) : Head :=
  headAt (placeFrom s.start source 0)

theorem placeFrom_append (run rest : List Char) (k : Nat) :
    placeFrom (k + Text.byteLength run) (run ++ rest) k = ⟨rest, k + Text.byteLength run⟩ := by
  induction run generalizing k with
  | nil => cases rest <;> simp [placeFrom]
  | cons x run ih =>
      have hpos := Char.utf8Size_pos x
      rw [List.cons_append, placeFrom, if_pos (by rw [Text.byteLength_cons]; omega),
        Text.byteLength_cons, ← Nat.add_assoc]
      exact ih _

theorem placeFrom_of_in {source : List Char} (h : c.In source) : placeFrom c.offset source 0 = c := by
  obtain ⟨run, hrest, hoffset⟩ := h
  have hplace := placeFrom_append run c.rest 0
  rw [← hrest] at hplace
  rw [hoffset]
  refine hplace.trans ?_
  cases c
  cases hoffset
  rfl

/-- How the head of a definition of a name reads from a place on. -/
inductive Opens (c : Cursor) (text : String) : Head → Prop where
  /-- A function, with a star if it is a generator. -/
  | function {a b e f : Cursor}
      (hasync : a = c ∨ ∃ d, c.word? = some ("async", d) ∧ a = d.skipTrivia)
      (hword : a.word? = some ("function", b))
      (hstar : e = b.skipTrivia ∨ b.skipTrivia.mark = "*" ∧ e = (b.skipTrivia.skip 1).skipTrivia)
      (hname : e.word? = some (text, f)) (hnext : f.skipTrivia.mark = "(") :
      Opens c text ⟨some a, e⟩
  /-- A declaration with a value. -/
  | declaration {w : String} {b f : Cursor} (hmem : w ∈ ["var", "const", "let"])
      (hword : c.word? = some (w, b)) (hname : b.skipTrivia.word? = some (text, f))
      (hnext : f.skipTrivia.mark = "=") : Opens c text ⟨some c, b.skipTrivia⟩
  /-- An assignment. -/
  | assignment {f : Cursor} (hname : c.word? = some (text, f)) (hnext : f.skipTrivia.mark = "=") :
      Opens c text ⟨none, c⟩

/-! ### Tokens -/

theorem text_withRole (r : Role) (n : Node) : (n.withRole r).text = n.text := by
  cases n
  rfl

/-- A reader that goes by a condition. -/
theorem Gives.cond {α : Type} {b : Prop} [Decidable b] {p q : Parse α} {Q : Cursor → α → Prop}
    (h : b → Gives c p Q) (h' : ¬ b → Gives c q Q) : Gives c (if b then p else q) Q := by
  split
  · next hb => exact h hb
  · next hb => exact h' hb

/-- A reader that goes on at another place. -/
theorem Gives.set {α : Type} {f : PUnit → Parse α} {Q : Cursor → α → Prop}
    (h : Gives d (f ⟨⟩) Q) : Gives c (set d >>= f) Q :=
  h

theorem spells_keyword (w : String) :
    Gives c (keyword w) fun d _ => c.skipTrivia.word? = some (w, d) := by
  rw [keyword]
  refine Gives.here ?_
  split
  · next x after hword =>
      refine Gives.cond (fun hx => Gives.set (Gives.pure ?_)) fun _ => Gives.fail
      rw [hword, beq_iff_eq.1 hx]
  · exact Gives.fail

theorem spells_wordNode (anyWord : Bool) (k : Kind) (r : Role) :
    Gives c (wordNode anyWord k r) fun d n => c.skipTrivia.word? = some (n.text, d) ∧
      n.kind = k ∧ n.role = r := by
  rw [wordNode]
  refine Gives.here ?_
  split
  · next x after hword =>
      exact Gives.ite (Gives.set (Gives.pure ⟨hword, rfl, rfl⟩)) Gives.fail
  · exact Gives.fail

theorem spells_mark (m : String) :
    Gives c (mark m) fun d _ => c.skipTrivia.mark = m ∧ d = c.skipTrivia.skip m.length := by
  rw [mark]
  refine Gives.here (Gives.cond (fun hm => Gives.set (Gives.pure ?_)) fun _ => Gives.fail)
  exact ⟨beq_iff_eq.1 hm, rfl⟩

/-- A mark that may be missing either is read or leaves the place as it is. -/
theorem spells_tryMark (m : String) : Gives c (tryMark m) fun d b =>
    if b then c.skipTrivia.mark = m ∧ d = c.skipTrivia.skip m.length else d = c := by
  rw [tryMark]
  refine Gives.peekMark (Gives.ite ?_ (Gives.pure rfl))
  exact Gives.bind (spells_mark m) fun d _ hm => Gives.pure hm

theorem kind_branch (k : Kind) (s : Nat) (ns : List Node) :
    Gives c (branch k s ns) fun _ n => n.kind = k ∧ n.role = .plain ∧ n.children = ns := by
  rw [branch]
  exact Gives.get (Gives.pure ⟨rfl, rfl, rfl⟩)

theorem pastWord_of_word? {w : String} (h : c.word? = some (w, d)) : c.pastWord = d := by
  rw [Cursor.pastWord, h]
  rfl

/-- Where a star stands no word begins. -/
theorem word?_of_star (h : c.mark = "*") : c.word? = none := by
  have hrest : c.rest = '*' :: (c.skip 1).rest := rest_of_mark h
  rw [Cursor.word?, hrest]
  exact if_neg (by simp [show isWordStart '*' = false by decide])

/-- A head is found by its tokens. -/
theorem headAt_of_opens {h : Head} (hopens : Opens c text h) (hintroduction : text ∉ introductions)
    (hasync : text ≠ "async") : headAt c = h := by
  cases hopens with
  | @function a b e f ha hword hstar hname hnext =>
      have hplace : (if c.word?.map (·.1) == some "async" then c.pastWord.skipTrivia else c) = a := by
        rcases ha with rfl | ⟨d, hd, rfl⟩
        · rw [hword]
          rfl
        · rw [hd, pastWord_of_word? hd]
          rfl
      have hname' : (if b.skipTrivia.mark == "*" then (b.skipTrivia.skip 1).skipTrivia
          else b.skipTrivia) = e := by
        rcases hstar with rfl | ⟨hm, rfl⟩
        · refine if_neg fun hm => ?_
          rw [word?_of_star (beq_iff_eq.1 hm)] at hname
          contradiction
        · rw [hm]
          rfl
      simp only [headAt, hplace, hword, pastWord_of_word? hword, hname']
      rfl
  | @declaration w b f hmem hword hname hnext =>
      have hne : b.skipTrivia.mark ≠ "*" := by
        intro hm
        rw [word?_of_star hm] at hname
        contradiction
      have hw := mem_introductions w hmem
      simp [headAt, hword, pastWord_of_word? hword, hw, hne]
  | @assignment f hname hnext => simp [headAt, hname, hintroduction, hasync]

/-! ### Functions -/

theorem opens_functionTail : Gives c (functionTail g) fun _ _ => c.skipTrivia.mark = "(" := by
  rw [functionTail, parameters]
  simp only [bind_assoc]
  refine Gives.bind (spells_mark "(") fun _ _ hm => ?_
  exact Gives.after fun _ _ => Gives.after fun _ _ => Gives.after fun _ _ => Gives.pure hm.1

/-- A named function: its head, and its name as the first child. -/
structure Named (c : Cursor) (n : Node) : Prop where
  kind_cases : n.kind = .functionDeclaration ∨ n.kind = .generatorDeclaration
  opens : ∀ name, n.child? .name = some name → ∃ h, Opens c name.text h

theorem opens_functionDeclaration :
    Gives c (functionDeclaration g) fun _ n => Named c.skipTrivia n := by
  rw [functionDeclaration]
  refine Gives.here (Gives.peekWord ?_)
  extract_lets next
  have hnext : ∀ d, (d.skipTrivia = c.skipTrivia ∨
      ∃ d', c.skipTrivia.word? = some ("async", d') ∧ d.skipTrivia = d'.skipTrivia) →
      Gives d (next ⟨⟩) fun _ n => Named c.skipTrivia n := by
    intro d hasync
    refine Gives.bind (spells_keyword _) fun b _ hword => ?_
    refine Gives.bind (spells_tryMark _) fun b' isGenerator hstar => ?_
    refine Gives.bind (spells_wordNode false .identifier .name) fun f name hname => ?_
    refine Gives.bind opens_functionTail fun e _ hmark => Gives.get ?_
    obtain ⟨hname, -, hrole⟩ := hname
    have hopens : ∃ h, Opens c.skipTrivia name.text h := by
      refine ⟨_, .function hasync hword ?_ hname hmark⟩
      cases isGenerator
      · exact Or.inl (by rw [show b' = b from hstar])
      · obtain ⟨hm, rfl⟩ := hstar
        exact Or.inr ⟨hm, rfl⟩
    extract_lets close
    have hclose : ∀ e, Gives e (close ⟨⟩) fun _ n => Named c.skipTrivia n := by
      refine fun e => (kind_branch _ _ _).mono fun _ n hn => ⟨?_, fun name' hname' => ?_⟩
      · rw [hn.1]
        cases isGenerator
        · exact Or.inl rfl
        · exact Or.inr rfl
      · rw [Node.child?, hn.2.2, List.find?_cons, hrole] at hname'
        obtain rfl := Option.some.inj hname'
        exact hopens
    clear_value close
    split
    · exact Gives.after fun e _ => hclose e
    · exact Gives.ite (Gives.after fun e _ => hclose e) (hclose e)
  refine Gives.ite ?_ (hnext c (Or.inl rfl))
  exact Gives.bind (spells_keyword _) fun d _ hword => hnext d (Or.inr ⟨d, hword, rfl⟩)

/-! ### Declarations -/

theorem gives_orFail {α : Type} (o : Option α) :
    Gives c (orFail o) fun d a => d = c ∧ o = some a := by
  cases o with
  | none => exact Gives.fail
  | some a => exact Gives.pure ⟨rfl, rfl⟩

/-- A pattern that is a name is what it was read as. -/
theorem eq_of_asPattern? {n p : Node} (h : n.asPattern? = some p) (hp : p.kind = .identifier) :
    n = p := by
  cases n with
  | node k r a b t cs =>
      unfold Node.asPattern? Node.asTarget? at h
      -- the rules for elements and properties do not apply to a target on its own
      split at h <;> try contradiction
      · obtain ⟨q, -, rfl⟩ := Option.map_eq_some_iff.1 h
        contradiction
      · obtain ⟨q, -, rfl⟩ := Option.map_eq_some_iff.1 h
        contradiction
      · split at h
        · exact Option.some.inj h
        · contradiction

/-- A target that is a name is a word that was read. -/
theorem spells_declaredTarget (r : Role) :
    Gives c (declaredTarget g r) fun d n => n.role = r ∧
      (n.kind = .identifier → c.skipTrivia.word? = some (n.text, d)) := by
  rw [declaredTarget]
  have hpattern : ∀ {d : Cursor} {n : Node}, n.kind ≠ .identifier →
      Gives d (do return (← orFail n.asPattern?).withRole r)
        fun d n => n.role = r ∧ (n.kind = .identifier → c.skipTrivia.word? = some (n.text, d)) := by
    intro d n hn
    refine Gives.bind (gives_orFail _) fun _ p hp => Gives.pure ⟨Node.role_withRole r p, fun hk => ?_⟩
    rw [Node.kind_withRole] at hk
    rw [eq_of_asPattern? hp.2 hk] at hn
    contradiction
  refine Gives.peekMark (Gives.ite ?_ (Gives.ite ?_ ?_))
  · rw [list, bind_assoc]
    refine Gives.after fun _ _ => ?_
    rw [bind_assoc]
    refine Gives.after fun _ _ => Gives.bind (kind_branch _ _ _) fun _ n hn => hpattern ?_
    simp [hn.1]
  · rw [record, bind_assoc]
    refine Gives.after fun _ _ => ?_
    rw [bind_assoc]
    refine Gives.after fun _ _ => Gives.bind (kind_branch _ _ _) fun _ n hn => hpattern ?_
    simp [hn.1]
  · exact (spells_wordNode false .identifier r).mono fun d n hn => ⟨hn.2.2, fun _ => hn.1⟩

/-- A declarator that has a value has an assignment sign behind its target. -/
theorem spells_declaratorTail {target : Node} (hrole : target.role = .name) :
    Gives c (declaratorTail g target) fun _ n => n.child? .name = some target ∧
      (n.child? .value ≠ none → c.skipTrivia.mark = "=") := by
  rw [declaratorTail]
  refine Gives.bind (spells_tryMark _) fun d b hb => ?_
  cases b
  · refine (kind_branch _ _ _).mono fun _ n hn => ⟨?_, fun hvalue => ?_⟩
    · simp [Node.child?, hn.2.2, hrole]
    · simp [Node.child?, hn.2.2, hrole] at hvalue
  · refine Gives.after fun _ _ => (kind_branch _ _ _).mono fun _ n hn => ⟨?_, fun _ => hb.1⟩
    simp [Node.child?, hn.2.2, hrole]

/-- A declaration of one variable that has a value: its head. -/
structure Declares (c : Cursor) (n : Node) : Prop where
  kind_eq : Node.isVariableDeclaration n.kind = true
  opens : ∀ declarator name value, n.children = [declarator] → declarator.child? .name = some name →
    declarator.child? .value = some value → name.kind = .identifier → ∃ h, Opens c name.text h

theorem opens_declaration {w : String} (hmem : w ∈ ["var", "const", "let"]) :
    Gives c (declaration g w) fun _ n => Declares c.skipTrivia n := by
  rw [declaration]
  refine Gives.bind (spells_keyword _) fun b start hword => ?_
  refine Gives.bind (spells_declaredTarget _) fun f target htarget => ?_
  rw [declarationTail]
  refine Gives.bind (spells_declaratorTail htarget.1) fun _ first hfirst => Gives.after fun _ more =>
    Gives.after fun _ _ => (kind_branch _ _ _).mono fun _ n hn => ⟨?_, ?_⟩
  · rw [hn.1, declarationKind]
    split <;> rfl
  · intro declarator name value hchildren hname hvalue hkind
    rw [hn.2.2] at hchildren
    obtain ⟨rfl, -⟩ := List.cons.inj hchildren
    rw [hfirst.1] at hname
    obtain rfl := Option.some.inj hname
    exact ⟨_, .declaration hmem hword (htarget.2 hkind) (hfirst.2 (by simp [hvalue]))⟩

/-! ### Names as expressions -/

/-- The kinds of expressions other than names and assignments. -/
def isOther (k : Kind) : Bool :=
  match k with
  | .identifier | .assignment => false
  | _ => true

theorem other_branch {k : Kind} (hk : isOther k = true) (s : Nat) (ns : List Node) :
    Gives c (branch k s ns) fun _ n => isOther n.kind = true :=
  (kind_branch k s ns).mono fun _ n hn => by rw [hn.1, hk]

theorem other_arrowTail (s : Nat) (params : Node) :
    Gives c (arrowTail g s params) fun _ n => isOther n.kind = true := by
  rw [arrowTail]
  exact Gives.after fun _ _ => Gives.after fun _ _ => other_branch rfl _ _

theorem other_functionExpression (s : Nat) :
    Gives c (functionExpression g s) fun _ n => isOther n.kind = true := by
  rw [functionExpression]
  refine Gives.after fun _ _ => Gives.after fun _ isGenerator => Gives.after fun _ _ =>
    Gives.after fun _ _ => other_branch ?_ _ _
  cases isGenerator <;> rfl

theorem other_classExpression :
    Gives c (classExpression g) fun _ n => isOther n.kind = true := by
  rw [classExpression]
  exact Gives.after fun _ _ => Gives.after fun _ _ => Gives.after fun _ _ => other_branch rfl _ _

theorem other_importForm : Gives c importForm fun _ n => isOther n.kind = true := by
  rw [importForm]
  refine Gives.after fun _ _ => Gives.peekMark (Gives.ite ?_ (Gives.ite (other_branch rfl _ _) Gives.fail))
  exact Gives.after fun _ _ => Gives.after fun _ _ => other_branch rfl _ _

theorem other_parenthesis : Gives c (parenthesis g) fun _ n => isOther n.kind = true := by
  rw [parenthesis]
  refine Gives.after fun _ _ => Gives.after fun _ _ => Gives.peekMark (Gives.ite ?_ ?_)
  · exact Gives.after fun _ _ => other_arrowTail _ _
  · refine Gives.after fun _ exprs => Gives.ite Gives.fail (Gives.get ?_)
    cases exprs with
    | nil => exact Gives.fail
    | cons e rest =>
        cases rest with
        | nil => exact Gives.pure rfl
        | cons e' rest' => exact Gives.pure rfl

theorem other_list : Gives c (list g) fun _ n => isOther n.kind = true := by
  rw [list]
  exact Gives.after fun _ _ => Gives.after fun _ _ => other_branch rfl _ _

theorem other_record : Gives c (record g) fun _ n => isOther n.kind = true := by
  rw [record]
  exact Gives.after fun _ _ => Gives.after fun _ _ => other_branch rfl _ _

theorem other_template : Gives c (template g) fun _ n => isOther n.kind = true := by
  rw [template]
  exact Gives.after fun _ _ => Gives.after fun _ _ => other_branch rfl _ _

theorem other_creation (fuel : Nat) : Gives c (creation g fuel) fun _ n => isOther n.kind = true := by
  cases fuel with
  | zero => exact Gives.fail
  | succ fuel =>
      rw [creation]
      refine Gives.after fun _ _ => Gives.after fun d _ =>
        Gives.ite (Gives.after fun _ _ => other_branch rfl _ _) (Gives.peekWord ?_)
      extract_lets next
      have hnext : ∀ d base, Gives d (next base) fun _ n => isOther n.kind = true := by
        refine fun d base => Gives.after fun _ _ => Gives.peekMark (Gives.ite ?_ (other_branch rfl _ _))
        exact Gives.after fun _ _ => other_branch rfl _ _
      exact Gives.ite (Gives.after hnext) (Gives.after hnext)

/-- An expression that is no assignment; if it is a name, then it is the word that was read, or the
word `async`. -/
structure Names (c d : Cursor) (n : Node) : Prop where
  kind_ne : n.kind ≠ .assignment
  word : n.kind = .identifier → n.text = "async" ∨ c.word? = some (n.text, d)

theorem Names.of_other {n : Node} (h : isOther n.kind = true) : Names c d n := by
  refine ⟨?_, fun hk => ?_⟩
  · intro hk
    rw [hk] at h
    contradiction
  · rw [hk] at h
    contradiction

theorem Gives.names {p : Parse Node} {c₀ : Cursor}
    (h : Gives c p fun _ n => isOther n.kind = true) : Gives c p (Names c₀) :=
  h.mono fun _ _ hn => .of_other hn

/-- What the word `async` begins is a name only if it is that word. -/
theorem names_asyncForm (hword : c.skipTrivia.word?.map (·.1) = some "async") {c₀ : Cursor} :
    Gives c (asyncForm g) (Names c₀) := by
  rw [asyncForm]
  refine Gives.here (Gives.bind (spells_wordNode _ _ _) fun d name hname => ?_)
  have htext : name.text = "async" := by
    rw [hname.1] at hword
    exact Option.some.inj hword
  have hasync : ∀ e, Names c₀ e name := fun e => ⟨by simp [hname.2.1], fun _ => Or.inl htext⟩
  refine Gives.get (Gives.peekMark (Gives.ite (other_arrowTail _ _).names (Gives.peekMark
    (Gives.ite ?_ (Gives.ite (Gives.pure (hasync _)) (Gives.peekWord ?_))))))
  · refine Gives.after fun _ _ => Gives.after fun _ _ => Gives.peekMark (Gives.ite ?_ ?_)
    · exact Gives.after fun _ _ => (other_arrowTail _ _).names
    · exact Gives.after fun _ _ => (other_branch rfl _ _).names
  · split
    · exact (other_functionExpression _).names
    · refine Gives.ite (Gives.pure (hasync _)) (Gives.orElse ?_ (Gives.pure (hasync _)))
      exact Gives.after fun _ _ => (other_arrowTail _ _).names
    · exact Gives.pure (hasync _)

theorem names_primary : Gives c (primary g) (Names c.skipTrivia) := by
  rw [primary]
  refine Gives.here ?_
  split
  · next w after hword =>
      refine Gives.ite (other_functionExpression _).names ?_
      by_cases hasync : w = "async"
      · rw [if_pos (by simp [hasync])]
        exact names_asyncForm (by rw [hword, hasync]; rfl)
      · rw [if_neg (by simpa using hasync)]
        refine Gives.ite other_classExpression.names (Gives.ite other_importForm.names
          (Gives.ite ?_ (Gives.ite ?_ ?_)))
        · exact Gives.after fun _ _ => (other_branch rfl _ _).names
        · exact Gives.after fun _ _ => Gives.pure (.of_other rfl)
        · refine Gives.bind (spells_wordNode _ _ _) fun d name hname => Gives.peekMark ?_
          refine Gives.ite (other_arrowTail _ _).names (Gives.pure ⟨?_, fun _ => Or.inr hname.1⟩)
          simp [hname.2.1]
  · split
    · exact Gives.after fun _ _ => (other_branch rfl _ _).names
    · split
      · exact other_parenthesis.names
      · exact other_list.names
      · exact other_record.names
      · exact other_template.names
      · split
        · exact Gives.after fun _ _ => (other_branch rfl _ _).names
        · exact Gives.fail
      · exact Gives.fail

theorem other_accessed (s : Nat) (object : Node) :
    Gives c (accessed s object) fun _ n => isOther n.kind = true := by
  rw [accessed]
  refine Gives.here ?_
  split
  split
  · exact Gives.here (Gives.after fun _ _ => other_branch rfl _ _)
  · exact Gives.fail

/-- What accesses and calls are read onto stays as it is, or it becomes no name and no assignment. -/
theorem same_or_other_accesses (calls : Bool) (fuel : Nat) (left : Node) :
    Gives c (accesses g calls fuel left) fun d n => (n = left ∧ d = c) ∨ isOther n.kind = true := by
  induction fuel generalizing c left with
  | zero => exact Gives.pure (Or.inl ⟨rfl, rfl⟩)
  | succ fuel ih =>
      rw [accesses]
      refine Gives.here ?_
      extract_lets m index call
      have hmore : ∀ d left', isOther left'.kind = true → Gives d (accesses g calls fuel left')
          fun d n => (n = left ∧ d = c) ∨ isOther n.kind = true := by
        refine fun d left' hleft' => (ih left').mono fun _ n hn => Or.inr ?_
        rcases hn with ⟨rfl, -⟩ | hn
        · exact hleft'
        · exact hn
      have hindex : ∀ d, Gives d index fun _ n => isOther n.kind = true := fun _ =>
        Gives.after fun _ _ => Gives.after fun _ _ => Gives.after fun _ _ => other_branch rfl _ _
      have hcall : ∀ d, Gives d call fun _ n => isOther n.kind = true := fun _ =>
        Gives.after fun _ _ => other_branch rfl _ _
      clear_value m index call
      refine Gives.ite ?_ (Gives.ite ?_ (Gives.ite ?_ (Gives.ite ?_ (Gives.ite ?_
        (Gives.pure (Or.inl ⟨rfl, rfl⟩))))))
      · exact Gives.after fun _ _ => Gives.bind (other_accessed _ _) hmore
      · refine Gives.after fun _ _ => Gives.peekMark (Gives.ite ?_ (Gives.ite ?_ ?_))
        · exact Gives.bind (hcall _) hmore
        · exact Gives.bind (hindex _) hmore
        · exact Gives.bind (other_accessed _ _) hmore
      · exact Gives.bind (hindex _) hmore
      · exact Gives.bind (hcall _) hmore
      · exact Gives.after fun _ _ => Gives.bind (other_branch rfl _ _) hmore

theorem names_leftHand : Gives c (leftHand g) (Names c.skipTrivia) := by
  rw [leftHand]
  refine Gives.peekWord ?_
  extract_lets next
  have hnext : ∀ d base, Names c.skipTrivia d base → Gives d (next base) (Names c.skipTrivia) := by
    refine fun d base hbase => (same_or_other_accesses true g.bound base).mono fun d' n hn => ?_
    rcases hn with ⟨rfl, rfl⟩ | hn
    · exact hbase
    · exact .of_other hn
  exact Gives.ite (Gives.bind (other_creation _).names hnext) (Gives.bind names_primary hnext)

/-! ### Assignments -/

/-- If an expression assigns to a name, then it begins with that name and an assignment sign, or with
the word `async`. -/
def Assigns (c : Cursor) (n : Node) : Prop :=
  n.kind = .assignment → ∀ left, n.child? .left = some left → left.kind = .identifier →
    left.text = "async" ∨ ∃ f, c.word? = some (left.text, f) ∧ f.skipTrivia.mark = "="

theorem Assigns.of_ne {n : Node} (h : n.kind ≠ .assignment) : Assigns c n :=
  fun hk => absurd hk h

theorem assigns_branch {k : Kind} (hk : k ≠ .assignment) (s : Nat) (ns : List Node) {c₀ : Cursor} :
    Gives c (branch k s ns) fun _ n => Assigns c₀ n := by
  refine (kind_branch k s ns).mono fun _ n hn => .of_ne ?_
  rw [hn.1]
  exact hk

theorem assigns_assignmentTail {c₀ : Cursor} {left : Node} (hleft : Names c₀ c left) :
    Gives c (assignmentTail g left) fun _ n => Assigns c₀ n := by
  rw [assignmentTail]
  refine Gives.peekMark ?_
  by_cases hm : c.skipTrivia.mark = "="
  · rw [if_pos (by simp [hm])]
    refine Gives.bind (gives_orFail _) fun _ target htarget => Gives.after fun _ _ =>
      Gives.after fun _ _ => (kind_branch _ _ _).mono fun _ n hn _ l hl hk => ?_
    rw [Node.child?, hn.2.2, List.find?_cons, Node.role_withRole] at hl
    obtain rfl := Option.some.inj hl
    rw [Node.kind_withRole] at hk
    have htarget := htarget.2
    split at htarget
    · next hparenthesized =>
        obtain rfl := Option.some.inj htarget
        rw [hk] at hparenthesized
        contradiction
    · obtain rfl := eq_of_asPattern? htarget hk
      rw [text_withRole]
      exact (hleft.word hk).imp id fun hword => ⟨c, hword, hm⟩
  · rw [if_neg (by simpa using hm)]
    refine Gives.ite ?_ (Gives.get (Gives.ite ?_ (Gives.pure (.of_ne hleft.kind_ne))))
    · exact Gives.after fun _ _ => Gives.after fun _ _ => assigns_branch (by simp) _ _
    · exact Gives.after fun _ _ => assigns_branch (by simp) _ _

theorem assigns_unaryTail {k : Kind} (hk : k ≠ .assignment) (s : Nat) {c₀ : Cursor} :
    Gives c (unaryTail g k s) fun _ n => Assigns c₀ n := by
  rw [unaryTail]
  exact Gives.after fun _ _ => assigns_branch hk _ _

theorem assigns_yieldForm {c₀ : Cursor} : Gives c (yieldForm g) fun _ n => Assigns c₀ n := by
  rw [yieldForm]
  have hbranch : ∀ d s ns, Gives d (branch .yield s ns) fun _ n => Assigns c₀ n :=
    fun _ s ns => assigns_branch (by simp) s ns
  refine Gives.after fun _ _ => Gives.after fun _ _ => Gives.ite ?_
    (Gives.get (Gives.ite (hbranch _ _ _) (Gives.orElse ?_ (hbranch _ _ _))))
  · exact Gives.after fun _ _ => hbranch _ _ _
  · exact Gives.after fun _ _ => hbranch _ _ _

/-- A private name is no assignment. -/
theorem assigns_propertyKey (r : Role) (c₀ : Cursor) :
    Gives c (propertyKey g r) fun _ n => Assigns c₀ n := by
  rw [propertyKey]
  refine Gives.here ?_
  split
  · split
    · exact Gives.after fun _ _ => Gives.pure (.of_ne (by simp))
    · exact Gives.fail
  · refine Gives.after fun _ _ => Gives.after fun _ _ => Gives.after fun _ _ => ?_
    refine Gives.bind (kind_branch _ _ _) fun _ n hn => Gives.pure (.of_ne ?_)
    rw [Node.kind_withRole, hn.1]
    simp
  · split
    · exact Gives.after fun _ _ => Gives.pure (.of_ne (by simp))
    · split
      · exact Gives.after fun _ _ => Gives.pure (.of_ne (by simp))
      · exact Gives.fail

theorem assigns_operand : Gives c (operand g) fun _ n => Assigns c.skipTrivia n := by
  rw [operand]
  have hassigned : Gives c (do assignmentTail g (← leftHand g)) fun _ n => Assigns c.skipTrivia n :=
    Gives.bind names_leftHand fun _ _ hn => assigns_assignmentTail hn
  refine Gives.here ?_
  split
  · refine Gives.ite ?_ (Gives.ite ?_ (Gives.ite assigns_yieldForm hassigned))
    · exact Gives.after fun _ _ => assigns_unaryTail (by simp) _
    · exact Gives.after fun _ _ => assigns_unaryTail (by simp) _
  · refine Gives.ite ?_ (Gives.ite ?_ (Gives.ite ?_ hassigned))
    · exact Gives.after fun _ _ => assigns_unaryTail (by simp) _
    · exact Gives.after fun _ _ => assigns_unaryTail (by simp) _
    · refine Gives.bind (assigns_propertyKey _ c.skipTrivia) fun _ name hname => ?_
      exact Gives.peekWord (Gives.ite (Gives.pure hname) Gives.fail)

/-- The readers for operands give assignments that begin as such. -/
def Parts.Assigning (g : Parts) (goal : Goal) : Prop :=
  ∀ c, Gives c (g.read goal) fun _ n => Assigns c.skipTrivia n

theorem assigns_expression (hg : g.Assigning .operand) :
    Gives c (expression g) fun _ n => Assigns c.skipTrivia n := by
  rw [expression]
  refine Gives.bind (hg c) fun _ first hfirst => Gives.after fun _ rest => ?_
  extract_lets next
  have hnext : ∀ d chain, Assigns c.skipTrivia chain →
      Gives d (next chain) fun _ n => Assigns c.skipTrivia n := by
    refine fun d chain hchain => Gives.after fun _ _ => Gives.ite ?_ (Gives.pure hchain)
    exact Gives.after fun _ _ => Gives.after fun _ _ => Gives.after fun _ _ =>
      assigns_branch (by simp) _ _
  split
  · exact hnext _ first hfirst
  · exact Gives.bind (assigns_branch (by simp) _ _) hnext

theorem assigns_expressions (hg : g.Assigning .expression) :
    Gives c (expressions g) fun _ n => Assigns c.skipTrivia n := by
  rw [expressions]
  refine Gives.bind (hg c) fun _ first hfirst => Gives.after fun _ rest => ?_
  split
  · exact Gives.pure hfirst
  · exact assigns_branch (by simp) _ _

theorem assigning_operand (depth bound : Nat) :
    Parts.Assigning ⟨bound, readPart depth⟩ .operand := by
  cases depth with
  | zero => exact fun _ => Gives.fail
  | succ depth => exact fun _ => assigns_operand

theorem assigning_expression (depth bound : Nat) :
    Parts.Assigning ⟨bound, readPart depth⟩ .expression := by
  cases depth with
  | zero => exact fun _ => Gives.fail
  | succ depth => exact fun _ => assigns_expression (assigning_operand depth depth)

/-- An expression as a statement: what it assigns to. -/
structure Expresses (c : Cursor) (n : Node) : Prop where
  kind_eq : n.kind = .expressionStatement
  assigns : ∀ e, n.children.head? = some e → Assigns c e

theorem opens_expressionStatement (hg : g.Assigning .expression) :
    Gives c (expressionStatement g) fun _ n => Expresses c.skipTrivia n := by
  rw [expressionStatement]
  refine Gives.bind (assigns_expressions hg) fun _ e he => Gives.after fun _ _ =>
    (kind_branch _ _ _).mono fun _ n hn => ⟨hn.1, fun e' he' => ?_⟩
  rw [hn.2.2] at he'
  obtain rfl := Option.some.inj he'
  exact he

end Script

/-! ### Hoisted statements -/

open Script

namespace Dialect

variable {d : Dialect} {source : List Char} {s : Node} {x : Hoist}

/-- **A statement that is moved to the instance begins with a head**, read from a seam on. -/
theorem opens_of_hoist? (hs : BeginsAtSeam source s) (hwf : s.WellFormed source)
    (hx : d.hoist? source s = some x) (hname : x.name ≠ "async") :
    ∃ c h, c.AtSeam source ∧ c.offset = s.start ∧ Opens c x.name h := by
  obtain ⟨depth, c, e, hc, hstart, hform⟩ := hs
  suffices h : ∃ h, Opens c.skipTrivia x.name h by
    obtain ⟨h, hopens⟩ := h
    exact ⟨c.skipTrivia, h, hc.skipTrivia, hstart.symm, hopens⟩
  cases hform with
  | declaration hmem hrun =>
      have hdeclares := opens_declaration hmem s e hrun
      have hvariable := hdeclares.kind_eq
      cases hoists_of_hoist? hwf hx with
      | function hplain => simp [hvariable] at hplain
      | declaration _ hchildren _ hchild hvalue hkind =>
          exact hdeclares.opens _ _ _ hchildren hchild hvalue hkind
      | assignment hplain => simp [hvariable] at hplain
  | function hrun =>
      have hnamed := opens_functionDeclaration s e hrun
      have hx : d.ofFunction? source s = some x := by
        rcases hnamed.kind_cases with hk | hk <;> simpa [hoist?, hk] using hx
      obtain ⟨name, hchild, -, rfl⟩ := exists_of_ofFunction? hx
      exact hnamed.opens name hchild
  | expression hrun =>
      have hexpresses := opens_expressionStatement (assigning_expression depth depth) s e hrun
      have hx : d.ofAssignment? s = some x := by
        simpa [hoist?, hexpresses.kind_eq] using hx
      obtain ⟨expression, left, right, hchild, hassignment, hleft, -, hidentifier, -, -, rfl⟩ :=
        exists_of_ofAssignment? hx
      rcases hexpresses.assigns expression hchild hassignment left hleft hidentifier with
        htext | ⟨f, hword, hnext⟩
      · exact absurd htext hname
      · exact ⟨_, .assignment hword hnext⟩
  | other hkind =>
      unfold hoist? at hx
      split at hx <;> simp_all [isDefinition]

end Dialect

end SketchHost
