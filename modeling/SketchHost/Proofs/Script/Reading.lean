/-
**What a reader gives.**

A reader is a function from a cursor to a result and a later cursor.  `Reads source c p Q` says that
`p`, run at the cursor `c` of a source, goes forward and gives a result of which `Q` holds at the
cursor after it.  The rules of this module follow how readers are put together; the grammar is gone
through with them production by production.

* `Script.Reads` — what a reader gives at a cursor;
* `Script.Reads.bind`, `Script.Reads.orElse`, `Script.Reads.here`, … — the rules;
* `Script.Between` — a well-formed tree from a place to the cursor;
* `Script.Parts.Sound` — the readers for the parts give well-formed trees;
* `Script.reads_branch`, `Script.reads_wordNode`, `Script.reads_elements` — the readers that the
  productions are made of.
-/

import SketchHost.Proofs.Script.WellFormed

set_option relaxedAutoImplicit false
set_option autoImplicit false

namespace SketchHost

namespace Script

open Node (Fits Row Shape)

variable {source : List Char} {α β : Type}

/-- Run at a cursor of a source, a reader goes forward and gives a result of which `Q` holds at the
cursor after it. -/
def Reads (source : List Char) (c : Cursor) (p : Parse α) (Q : Cursor → α → Prop) : Prop :=
  c.In source → ∀ a d, p.run c = some (a, d) → c.Leads d ∧ Q d a

namespace Reads

variable {c : Cursor} {p q : Parse α} {f : α → Parse β} {Q : Cursor → α → Prop}
  {R : Cursor → β → Prop}

theorem mono {Q' : Cursor → α → Prop} (h : Reads source c p Q)
    (hQ : ∀ d a, c.offset ≤ d.offset → Q d a → Q' d a) : Reads source c p Q' := by
  intro hc a d hrun
  obtain ⟨hd, ha⟩ := h hc a d hrun
  exact ⟨hd, hQ d a hd.offset_le ha⟩

theorem pure {a : α} (h : Q c a) : Reads source c (pure a) Q := by
  intro _ a' d hrun
  obtain ⟨rfl, rfl⟩ := Prod.mk.inj (Option.some.inj hrun)
  exact ⟨.refl _, h⟩

/-- One reader after the other. -/
theorem bind (h : Reads source c p Q)
    (hf : ∀ d a, c.offset ≤ d.offset → Q d a → Reads source d (f a) R) :
    Reads source c (p >>= f) R := by
  intro hc b e hrun
  rw [StateT.run_bind] at hrun
  obtain ⟨⟨a, d⟩, hp, hfa⟩ := Option.bind_eq_some_iff.1 hrun
  obtain ⟨hd, ha⟩ := h hc a d hp
  obtain ⟨he, hb⟩ := hf d a hd.offset_le ha (hc.trans hd) b e hfa
  exact ⟨hd.trans he, hb⟩

theorem fail : Reads source c failure Q := by
  intro _ a d hrun
  exact absurd hrun (by simp [failure, StateT.run, StateT.failure])

theorem orElse (h : Reads source c p Q) (h' : Reads source c q Q) :
    Reads source c (p <|> q) Q := by
  intro hc a d hrun
  have hcases : p.run c = some (a, d) ∨ q.run c = some (a, d) := by
    change (p c <|> q c) = some (a, d) at hrun
    cases hp : p c with
    | none =>
        rw [hp] at hrun
        exact Or.inr hrun
    | some r =>
        rw [hp] at hrun
        exact Or.inl (hp.trans hrun)
  rcases hcases with hp | hq
  · exact h hc a d hp
  · exact h' hc a d hq

theorem ite {b : Prop} [Decidable b] (h : b → Reads source c p Q) (h' : ¬ b → Reads source c q Q) :
    Reads source c (if b then p else q) Q := by
  split
  · next hb => exact h hb
  · next hb => exact h' hb

/-- A reader that looks at the place of the next token. -/
theorem here {g : Cursor → Parse β} (h : Reads source c (g c.skipTrivia) R) :
    Reads source c (here >>= g) R := h

theorem get {g : Cursor → Parse β} (h : Reads source c (g c) R) :
    Reads source c (get >>= g) R := h

theorem peekMark {g : String → Parse β} (h : Reads source c (g c.skipTrivia.mark) R) :
    Reads source c (peekMark >>= g) R := h

theorem peekWord {g : Option String → Parse β}
    (h : Reads source c (g (c.skipTrivia.word?.map (·.1))) R) :
    Reads source c (peekWord >>= g) R := h

/-- A reader that moves to a later place. -/
theorem set {d : Cursor} {g : PUnit → Parse β} (hd : c.Leads d)
    (h : Reads source d (g ⟨⟩) R) : Reads source c (set d >>= g) R := by
  intro hc b e hrun
  obtain ⟨he, hb⟩ := h (hc.trans hd) b e hrun
  exact ⟨hd.trans he, hb⟩

/-- A reader that does nothing but move to a later place. -/
theorem move {d : Cursor} {R : Cursor → PUnit → Prop} (hd : c.Leads d) (h : R d ⟨⟩) :
    Reads source c (MonadStateOf.set d) R := by
  intro _ a e hrun
  obtain ⟨rfl, rfl⟩ := Prod.mk.inj (Option.some.inj hrun)
  exact ⟨hd, h⟩

/-- What is known of the source at a cursor may be used for a reader that runs there. -/
theorem of_in (h : c.In source → Reads source c p Q) : Reads source c p Q :=
  fun hc => h hc hc

end Reads

/-! ### Marks and words -/

/-- A well-formed tree from the next token at a cursor up to a later cursor. -/
def Between (source : List Char) (c d : Cursor) (n : Node) : Prop :=
  Fits source c.skipTrivia.offset d.offset n

/-- The place of the next token at a cursor, before a later cursor. -/
structure Token (c d : Cursor) (start : Nat) : Prop where
  eq : start = c.skipTrivia.offset
  le : start ≤ d.offset

/-- The next token at the second cursor is not before that at the first one. -/
def Onward (c d : Cursor) : Prop :=
  c.skipTrivia.offset ≤ d.skipTrivia.offset

variable {c : Cursor}

theorem offset_le_token (c : Cursor) : c.offset ≤ c.skipTrivia.offset :=
  (Cursor.leads_skipTrivia c).offset_le

theorem Onward.refl (c : Cursor) : Onward c c :=
  Nat.le_refl _

theorem Onward.of_le {c d : Cursor} (h : c.skipTrivia.offset ≤ d.offset) : Onward c d :=
  Nat.le_trans h (offset_le_token d)

/-- A tree between two cursors lies after everything before the first one. -/
theorem Between.fits {c d : Cursor} {n : Node} (h : Between source c d n) :
    Fits source c.offset d.offset n :=
  Fits.mono h (offset_le_token c) (Nat.le_refl _)

/-- The cursor behind a token is past the place of the token. -/
theorem Token.passed {c d : Cursor} {start : Nat} (h : Token c d start) :
    c.skipTrivia.offset ≤ d.offset :=
  h.eq ▸ h.le

theorem Token.token_le {c d : Cursor} {start : Nat} (h : Token c d start) :
    c.skipTrivia.offset ≤ start :=
  Nat.le_of_eq h.eq.symm

theorem Token.offset_le {c d : Cursor} {start : Nat} (h : Token c d start) : c.offset ≤ start :=
  h.eq ▸ offset_le_token c

theorem reads_mark (m : String) : Reads source c (mark m) (Token c) := by
  rw [mark]
  refine Reads.here (Reads.ite (fun _ => ?_) fun _ => Reads.fail)
  have hskip := Cursor.leads_skip m.length c.skipTrivia
  refine Reads.set ((Cursor.leads_skipTrivia c).trans hskip) (Reads.pure ?_)
  exact ⟨rfl, hskip.offset_le⟩

theorem reads_tryMark (m : String) : Reads source c (tryMark m) fun d _ => Onward c d := by
  rw [tryMark]
  refine Reads.peekMark (Reads.ite (fun _ => ?_) fun _ => Reads.pure (Onward.refl c))
  refine Reads.bind (reads_mark m) fun d start _ hstart => Reads.pure ?_
  exact Onward.of_le (hstart.passed)

theorem reads_keyword (w : String) : Reads source c (keyword w) (Token c) := by
  rw [keyword]
  refine Reads.here ?_
  split
  · next x after hword =>
      have hleads := Cursor.leads_word hword
      refine Reads.ite (fun _ => ?_) fun _ => Reads.fail
      refine Reads.set ((Cursor.leads_skipTrivia c).trans hleads) (Reads.pure ?_)
      exact ⟨rfl, hleads.offset_le⟩
  · exact Reads.fail

/-- A word that is read, as a node. -/
theorem reads_wordNode (anyWord : Bool) {k : Kind} (hk : isNamed k = true) (r : Role) :
    Reads source c (wordNode anyWord k r) fun d n =>
      Between source c d n ∧ n.kind = k ∧ n.role = r := by
  rw [wordNode]
  refine Reads.of_in fun hc => Reads.here ?_
  have htrivia := Cursor.leads_skipTrivia c
  split
  · next w after hword =>
      have hspells := Cursor.word?_spells hword
      refine Reads.ite (fun _ => ?_) fun _ => Reads.fail
      refine Reads.set (htrivia.trans hspells.leads) (Reads.pure ?_)
      exact ⟨Node.fits_of_spells (hc.trans htrivia) hspells hk r (Nat.le_refl _), rfl, rfl⟩
  · exact Reads.fail

theorem reads_declaredName (r : Role) : Reads source c (declaredName r) fun d n =>
    Between source c d n ∧ n.kind = .identifier ∧ n.role = r :=
  reads_wordNode false rfl r

theorem reads_orFail (o : Option α) : Reads source c (orFail o) fun d a => d = c ∧ o = some a := by
  cases o with
  | none => exact Reads.fail
  | some a => exact Reads.pure ⟨rfl, rfl⟩

/-! ### Nodes -/

/-- A node up to the cursor, over children that lie in its range. -/
theorem reads_branch_of_kind {lo start : Nat} {k : Kind} {ns : List Node}
    (hk : isNamed k = false) (hshape : Shape k ns) (hlo : lo ≤ start)
    (hrow : Row source start c.offset ns) :
    Reads source c (branch k start ns) fun d n => Fits source lo d.offset n ∧ n.kind = k := by
  rw [branch]
  exact Reads.get (Reads.pure ⟨Node.fits_node hk hshape hrow hlo _ _, rfl⟩)

theorem reads_branch {lo start : Nat} {k : Kind} {ns : List Node} (hk : isNamed k = false)
    (hshape : Shape k ns) (hlo : lo ≤ start) (hrow : Row source start c.offset ns) :
    Reads source c (branch k start ns) fun d n => Fits source lo d.offset n :=
  (reads_branch_of_kind hk hshape hlo hrow).mono fun _ _ _ h => h.1

/-- A node gets its role later, where it has one. -/
theorem reads_branch_plain {lo start : Nat} {k : Kind} {ns : List Node} (hk : isNamed k = false)
    (hshape : Shape k ns) (hlo : lo ≤ start) (hrow : Row source start c.offset ns) :
    Reads source c (branch k start ns) fun d n => Fits source lo d.offset n ∧ n.role = .plain := by
  rw [branch]
  exact Reads.get (Reads.pure ⟨Node.fits_node hk hshape hrow hlo _ _, rfl⟩)

/-- A token that was passed over, as a node. -/
theorem reads_token {after : Cursor} (hleads : c.skipTrivia.Leads after) {k : Kind}
    (hk : isNamed k = false) (hshape : Shape k []) (r : Role) (t : String) :
    Reads source c
      (do set after
          return .node k r c.skipTrivia.offset after.offset t [])
      fun d n => Between source c d n ∧ n.role = r := by
  refine Reads.set ((Cursor.leads_skipTrivia c).trans hleads) (Reads.pure ⟨?_, rfl⟩)
  exact Node.fits_node hk hshape (Node.row_nil.2 hleads.offset_le) (Nat.le_refl _) r t

/-! ### Lists -/

theorem withoutHoles_eq {items : List (Option Node)} {ns : List Node}
    (h : withoutHoles items = some ns) : ns = items.filterMap id := by
  induction items generalizing ns with
  | nil =>
      obtain rfl := Option.some.inj h
      rfl
  | cons item rest ih =>
      cases item with
      | none =>
          cases rest with
          | nil =>
              obtain rfl := Option.some.inj h
              rfl
          | cons => simp [withoutHoles] at h
      | some n =>
          obtain ⟨ms, hms, rfl⟩ := Option.map_eq_some_iff.1 h
          simp [ih hms]

theorem mapM_id_eq {items : List (Option Node)} {ns : List Node} (h : items.mapM id = some ns) :
    ns = items.filterMap id := by
  induction items generalizing ns with
  | nil =>
      obtain rfl := Option.some.inj h
      rfl
  | cons item rest ih =>
      cases item with
      | none => simp [List.mapM_cons] at h
      | some n =>
          simp only [List.mapM_cons, id_eq, Option.bind_eq_bind, Option.bind_some,
            Option.bind_eq_some_iff] at h
          obtain ⟨ms, hms, hns⟩ := h
          obtain rfl := Option.some.inj hns
          simp [ih hms]

/-- Items separated by commas make a row. -/
theorem reads_elements {item : Parse Node}
    (hitem : ∀ c, Reads source c item (Between source c)) (close : String) (fuel : Nat) :
    Reads source c (elements item close fuel) fun d items =>
      Row source c.offset d.offset (items.filterMap id) := by
  induction fuel generalizing c with
  | zero => exact Reads.fail
  | succ fuel ih =>
      rw [elements]
      refine Reads.peekMark (Reads.ite (fun _ => ?_) fun _ => Reads.ite (fun _ => ?_) fun _ => ?_)
      · exact Reads.bind (reads_mark close) fun _ _ h₁ _ => Reads.pure h₁
      · refine Reads.bind (reads_mark ",") fun c₁ _ h₁ _ => ?_
        refine Reads.bind ih fun c₂ items h₂ hitems => Reads.pure ?_
        exact Row.mono hitems h₁ (Nat.le_refl _)
      · refine Reads.bind (hitem c) fun c₁ n h₁ hn => ?_
        refine Reads.bind (reads_tryMark ",") fun c₂ b h₂ _ => Reads.ite (fun _ => ?_) fun _ => ?_
        · refine Reads.bind ih fun c₃ items h₃ hitems => Reads.pure ?_
          exact hn.fits.cons (Row.mono hitems h₂ (Nat.le_refl _))
        · refine Reads.bind (reads_mark close) fun c₃ _ h₃ _ => Reads.pure ?_
          exact (hn.fits.mono (Nat.le_refl _) (Nat.le_trans h₂ h₃)).row

/-! ### The ends of statements -/

/-- The readers for the parts give well-formed trees. -/
def Parts.Sound (source : List Char) (g : Parts) : Prop :=
  ∀ goal c, Reads source c (g.read goal) (Between source c)

theorem reads_semicolon (g : Parts) (comments : Bool) :
    Reads source c (semicolon g comments) fun _ _ => True := by
  rw [semicolon]
  refine Reads.get ?_
  split
  · next d hd =>
      exact Reads.move (Cursor.leads_understoodEnd hd) trivial
  · exact Reads.bind (reads_mark ";") fun _ _ _ _ => Reads.pure trivial

end Script

end SketchHost
