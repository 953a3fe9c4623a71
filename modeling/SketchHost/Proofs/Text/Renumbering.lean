/-
**Texts that differ in their numbers.**

Two texts are of one shape if they are the same but for their runs of digits: a run stands where a
run stands, and every other character is kept.  Edits that replace whole runs of digits by runs of
digits keep the shape of a text.

* `Text.Renumbered` — a text with its runs of digits replaced, each as a relation allows;
* `Text.Alike` — the same, whatever the runs become;
* `Text.Renumbered.of_append`, `Text.Renumbered.of_run` — what becomes of the parts of a text;
* `Text.IsWholeRun` — a run of digits at a place of a text, none of whose neighbours is a digit;
* `Text.renumbered_splice` — edits of whole runs renumber a text.
-/

import SketchHost.Proofs.Text.Digits
import SketchHost.Proofs.Text.Splice

set_option relaxedAutoImplicit false
set_option autoImplicit false

namespace SketchHost

namespace Text

/-- A text without a digit, a digit-free character ahead of a text, and a whole run ahead of one:
every text is put together of these. -/
@[elab_as_elim]
theorem runs_induction {motive : List Char → Prop} (nil : motive [])
    (keep : ∀ c cs, isDigit c = false → motive cs → motive (c :: cs))
    (run : ∀ ds cs, IsRun ds → EndsRun cs → motive cs → motive (ds ++ cs)) (cs : List Char) :
    motive cs := by
  induction hn : cs.length using Nat.strongRecOn generalizing cs with
  | ind n ih =>
      subst hn
      cases cs with
      | nil => exact nil
      | cons c cs =>
          cases hc : isDigit c with
          | false => exact keep c cs hc (ih cs.length (by simp) cs rfl)
          | true =>
              obtain ⟨hcs, hds, hrest⟩ := takeWhile_dropWhile_iff.1
                (⟨rfl, rfl⟩ : (c :: cs).takeWhile isDigit = _ ∧ (c :: cs).dropWhile isDigit = _)
              have hne : (c :: cs).takeWhile isDigit ≠ [] := by simp [hc]
              have hlength : ((c :: cs).dropWhile isDigit).length < (c :: cs).length := by
                have hsum := congrArg List.length hcs
                have hpos := List.length_pos_iff.2 hne
                rw [List.length_append] at hsum
                omega
              rw [hcs]
              exact run _ _ ⟨hne, hds⟩ hrest (ih _ hlength _ rfl)

/-! ### Renumbered texts -/

/-- A text, from the place `k` on, with its runs of digits replaced: `R` says which run may become
which one at which place.  All else is kept. -/
inductive Renumbered (R : Nat → List Char → List Char → Prop) :
    Nat → List Char → List Char → Prop where
  | nil {k : Nat} : Renumbered R k [] []
  | keep {k : Nat} {c : Char} {cs cs' : List Char} (hc : isDigit c = false)
      (rest : Renumbered R (k + 1) cs cs') : Renumbered R k (c :: cs) (c :: cs')
  | run {k : Nat} {ds es cs cs' : List Char} (hds : IsRun ds) (hcs : EndsRun cs) (hes : IsRun es)
      (hR : R k ds es) (rest : Renumbered R (k + ds.length) cs cs') :
      Renumbered R k (ds ++ cs) (es ++ cs')

/-- Two texts that differ in nothing but their runs of digits. -/
def Alike (cs cs' : List Char) : Prop :=
  Renumbered (fun _ _ _ => True) 0 cs cs'

section Renumbered

variable {R S : Nat → List Char → List Char → Prop} {k j : Nat} {cs out : List Char}

theorem head_run {ds : List Char} (h : IsRun ds) (cs : List Char) : ¬ EndsRun (ds ++ cs) := by
  obtain ⟨d, ds, rfl⟩ := List.exists_cons_of_ne_nil h.1
  simp [h.2 d List.mem_cons_self]

/-- A renumbered text begins with a digit exactly if the text does. -/
theorem Renumbered.endsRun_iff (h : Renumbered R k cs out) : EndsRun cs ↔ EndsRun out := by
  cases h with
  | nil => rfl
  | keep hc _ => simp [hc]
  | run hds _ hes _ _ => simp [head_run hds, head_run hes]

theorem Renumbered.alike (h : Renumbered R k cs out) :
    Renumbered (fun _ _ _ => True) j cs out := by
  induction h generalizing j with
  | nil => exact .nil
  | keep hc _ ih => exact .keep hc ih
  | run hds hcs hes _ _ ih => exact .run hds hcs hes trivial ih

/-- A renumbered text can be renumbered back. -/
theorem Renumbered.symm (h : Renumbered R k cs out) :
    Renumbered (fun _ _ _ => True) j out cs := by
  induction h generalizing j with
  | nil => exact .nil
  | keep hc _ ih => exact .keep hc ih
  | run hds hcs hes _ hrest ih => exact .run hes (hrest.endsRun_iff.1 hcs) hds trivial ih

theorem Renumbered.of_nil (h : Renumbered R k [] out) : out = [] := by
  generalize htext : [] = text at h
  cases h with
  | nil => rfl
  | keep _ _ => simp at htext
  | run hds _ _ _ _ => exact absurd (htext ▸ endsRun_nil) (head_run hds _)

/-- What is no digit stays at the head of a renumbered text. -/
theorem Renumbered.of_cons {c : Char} (hc : isDigit c = false) (h : Renumbered R k (c :: cs) out) :
    ∃ cs', out = c :: cs' ∧ Renumbered R (k + 1) cs cs' := by
  generalize htext : c :: cs = text at h
  cases h with
  | nil => simp at htext
  | keep _ hrest =>
      obtain ⟨rfl, rfl⟩ := List.cons.inj htext
      exact ⟨_, rfl, hrest⟩
  | run hds _ _ _ _ =>
      exact absurd (htext ▸ (endsRun_cons.2 hc : EndsRun (c :: cs))) (head_run hds _)

/-- What has no digits stays ahead of a renumbered text. -/
theorem Renumbered.of_append {lead : List Char} (hlead : ∀ c ∈ lead, isDigit c = false)
    (h : Renumbered R k (lead ++ cs) out) :
    ∃ cs', out = lead ++ cs' ∧ Renumbered R (k + lead.length) cs cs' := by
  induction lead generalizing k out with
  | nil => exact ⟨out, rfl, h⟩
  | cons c lead ih =>
      obtain ⟨out', rfl, hout'⟩ := h.of_cons (hlead c List.mem_cons_self)
      obtain ⟨cs', rfl, hcs'⟩ := ih (fun x hx => hlead x (List.mem_cons_of_mem c hx)) hout'
      refine ⟨cs', rfl, ?_⟩
      rwa [List.length_cons, Nat.add_comm lead.length, ← Nat.add_assoc]

/-- A run at the head of a text becomes a run. -/
theorem Renumbered.of_run {ds : List Char} (hds : IsRun ds) (hcs : EndsRun cs)
    (h : Renumbered R k (ds ++ cs) out) :
    ∃ es cs', out = es ++ cs' ∧ IsRun es ∧ EndsRun cs' ∧ R k ds es
      ∧ Renumbered R (k + ds.length) cs cs' := by
  generalize htext : ds ++ cs = text at h
  cases h with
  | nil => exact absurd (htext ▸ endsRun_nil) (head_run hds cs)
  | keep hc _ => exact absurd (htext ▸ endsRun_cons.2 hc) (head_run hds cs)
  | run hds' hcs' hes hR hrest =>
      obtain ⟨rfl, rfl⟩ := run_unique hds hcs hds' hcs' htext
      exact ⟨_, _, rfl, hes, hrest.endsRun_iff.1 hcs, hR, hrest⟩

theorem Alike.of_append {lead : List Char} (hlead : ∀ c ∈ lead, isDigit c = false)
    (h : Alike (lead ++ cs) out) : ∃ cs', out = lead ++ cs' ∧ Alike cs cs' := by
  obtain ⟨cs', rfl, hcs'⟩ := Renumbered.of_append hlead h
  exact ⟨cs', rfl, hcs'.alike⟩

theorem Alike.of_cons {c : Char} (hc : isDigit c = false) (h : Alike (c :: cs) out) :
    ∃ cs', out = c :: cs' ∧ Alike cs cs' := by
  obtain ⟨cs', rfl, hcs'⟩ := Renumbered.of_cons hc h
  exact ⟨cs', rfl, hcs'.alike⟩

theorem Alike.of_run {ds : List Char} (hds : IsRun ds) (hcs : EndsRun cs) (h : Alike (ds ++ cs) out) :
    ∃ es cs', out = es ++ cs' ∧ IsRun es ∧ EndsRun cs' ∧ Alike cs cs' := by
  obtain ⟨es, cs', rfl, hes, hcs', -, hrest⟩ := Renumbered.of_run hds hcs h
  exact ⟨es, cs', rfl, hes, hcs', hrest.alike⟩

/-- A text in which every run stays what it is stays what it is. -/
theorem Renumbered.eq_of_forall (h : Renumbered R k cs out) (hR : ∀ k ds es, R k ds es → es = ds) :
    out = cs := by
  induction h with
  | nil => rfl
  | keep _ _ ih => rw [ih]
  | run _ _ _ hstep _ ih => rw [ih, hR _ _ _ hstep]

end Renumbered

/-! ### Edits of whole runs -/

/-- A run of digits at a place of a text, none of whose neighbours is a digit. -/
def IsWholeRun (text : List Char) (start : Nat) (ds : List Char) : Prop :=
  ∃ before after, text = before ++ (ds ++ after) ∧ before.length = start ∧ IsRun ds
    ∧ (∀ c ∈ before.getLast?, isDigit c = false) ∧ EndsRun after

theorem isDigit_getLast {ds : List Char} (h : IsRun ds) :
    ∃ d, ds.getLast? = some d ∧ isDigit d = true :=
  ⟨ds.getLast h.1, List.getLast?_eq_some_getLast h.1, h.2 _ (List.getLast_mem h.1)⟩

theorem IsWholeRun.isRun {text ds : List Char} {k : Nat} (h : IsWholeRun text k ds) : IsRun ds := by
  obtain ⟨_, _, -, -, hrun, -, -⟩ := h
  exact hrun

/-- At a place of a text stands at most one whole run. -/
theorem IsWholeRun.eq {text ds es : List Char} {k : Nat} (hds : IsWholeRun text k ds)
    (hes : IsWholeRun text k es) : ds = es := by
  obtain ⟨before, after, rfl, rfl, hrun, -, hafter⟩ := hds
  obtain ⟨before', after', htext, hlength, hrun', -, hafter'⟩ := hes
  obtain ⟨-, hrest⟩ := List.append_inj htext hlength.symm
  exact (run_unique hrun hafter hrun' hafter' hrest).1

/-- A whole run that stands behind a part of a text stands at the head of the rest. -/
theorem IsWholeRun.of_append {before rest ds : List Char} (h : IsWholeRun (before ++ rest) before.length ds) :
    ∃ after, rest = ds ++ after ∧ IsRun ds := by
  obtain ⟨before', after, htext, hlength, hrun, -, -⟩ := h
  obtain ⟨-, hrest⟩ := List.append_inj htext hlength.symm
  exact ⟨after, hrest, hrun⟩

theorem IsWholeRun.lt_length {text ds : List Char} {k : Nat} (h : IsWholeRun text k ds) :
    k < text.length := by
  obtain ⟨before, after, rfl, rfl, hrun, -, -⟩ := h
  have hpos := List.length_pos_iff.2 hrun.1
  simp only [List.length_append]
  omega

/-- Two whole runs of a text are apart: at least one character stands between them. -/
theorem IsWholeRun.apart {text ds es : List Char} {k j : Nat} (hds : IsWholeRun text k ds)
    (hes : IsWholeRun text j es) (h : k < j) : k + ds.length < j := by
  obtain ⟨before, after, rfl, rfl, hrun, -, hafter⟩ := hds
  obtain ⟨before', after', htext, rfl, hrun', hbefore', hafter'⟩ := hes
  obtain ⟨between, rfl, hrest⟩ : ∃ between, before' = before ++ between
      ∧ ds ++ after = between ++ (es ++ after') := by
    rcases List.append_eq_append_iff.1 htext with ⟨between, hbefore', hrest⟩ | ⟨between, hbefore, -⟩
    · exact ⟨between, hbefore', hrest⟩
    · rw [hbefore, List.length_append] at h
      omega
  have hne : between ≠ [] := by
    rintro rfl
    simp at h
  -- what stands between ends with no digit, and so is no part of the first run
  have hlast : ∀ c ∈ between.getLast?, isDigit c = false := by
    intro c hc
    exact hbefore' c (by rw [List.getLast?_append, Option.mem_def.1 hc]; rfl)
  have hnot : ¬ ∃ rest, ds = between ++ rest := by
    rintro ⟨rest, rfl⟩
    obtain ⟨d, hd, hdigit⟩ := isDigit_getLast
      ⟨hne, fun c hc => hrun.2 c (List.mem_append_left rest hc)⟩
    simp [hlast d hd] at hdigit
  rcases List.append_eq_append_iff.1 hrest with ⟨rest, rfl, -⟩ | ⟨rest, hds, -⟩
  · have hrest : rest ≠ [] := by
      rintro rfl
      exact hnot ⟨[], by simp⟩
    have hpos := List.length_pos_iff.2 hrest
    simp only [List.length_append]
    omega
  · exact absurd ⟨rest, hds⟩ hnot

/-- An edit that puts a run of digits in the place of a whole run, as a relation allows. -/
def RenumbersBy (R : Nat → List Char → List Char → Prop) (text : List Char) (e : Edit Char) : Prop :=
  ∃ ds, IsWholeRun text e.start ds ∧ e.stop = e.start + ds.length ∧ IsRun e.content
    ∧ R e.start ds e.content

variable {R : Nat → List Char → List Char → Prop} {text out : List Char} {edits : List (Edit Char)}

theorem RenumbersBy.start_lt {e : Edit Char} (h : RenumbersBy R text e) : e.start < text.length := by
  obtain ⟨ds, hds, -⟩ := h
  exact hds.lt_length

/-- No edit begins at a character that is no digit. -/
theorem RenumbersBy.start_ne {e : Edit Char} {before cs : List Char} {c : Char}
    (h : RenumbersBy R (before ++ c :: cs) e) (hc : isDigit c = false) : before.length ≠ e.start := by
  intro hplace
  obtain ⟨ds, hds, -⟩ := h
  rw [← hplace] at hds
  obtain ⟨after, hrest, hrun⟩ := hds.of_append
  exact head_run hrun after (hrest ▸ endsRun_cons.2 hc)

/-- An edit that does not replace a whole run ahead of it begins behind the run. -/
theorem RenumbersBy.le_start {e : Edit Char} {ds : List Char} {k : Nat} (h : RenumbersBy R text e)
    (hds : IsWholeRun text k ds) (hle : k ≤ e.start) (hne : k ≠ e.start) :
    k + ds.length ≤ e.start := by
  obtain ⟨es, hes, -⟩ := h
  exact Nat.le_of_lt (hds.apart hes (Nat.lt_of_le_of_ne hle hne))

/-- What stands ahead of all edits is kept. -/
theorem exists_tail_of_spliceFrom {before xs rest : List Char} (htext : text = before ++ (xs ++ rest))
    (h : spliceFrom text before.length edits = .ok out)
    (hedits : ∀ e ∈ edits, before.length + xs.length ≤ e.start) :
    ∃ tail, spliceFrom text (before ++ xs).length edits = .ok tail ∧ out = xs ++ tail := by
  obtain ⟨tail, htail, hout⟩ := spliceFrom_of_le h (Nat.le_add_right _ _) hedits
  rw [htext, ← List.append_assoc, stretch_between] at hout
  exact ⟨tail, by rwa [List.length_append], hout⟩

/-- If an edit begins where all edits may begin at the earliest, then the first one does. -/
theorem exists_eq_cons_of_start {e : Edit Char} {k : Nat} (he : e ∈ edits) (hstart : e.start = k)
    (hle : ∀ f ∈ edits, k ≤ f.start) (hsorted : edits.Pairwise fun f g => Edit.before f g = true) :
    ∃ f others, edits = f :: others ∧ f.start = k := by
  cases edits with
  | nil => simp at he
  | cons f others =>
      refine ⟨f, others, rfl, ?_⟩
      rcases List.mem_cons.1 he with rfl | he
      · exact hstart
      · have hbefore := Edit.before_iff.1 ((List.pairwise_cons.1 hsorted).1 e he)
        have hf := hle f List.mem_cons_self
        omega

theorem renumbered_spliceFrom (rest : List Char) {before : List Char} (htext : text = before ++ rest)
    (hplace : (∀ c ∈ before.getLast?, isDigit c = false) ∨ EndsRun rest)
    (hedits : ∀ e ∈ edits, RenumbersBy R text e)
    (hsorted : edits.Pairwise fun e f => Edit.before e f = true)
    (hothers : ∀ k ds, before.length ≤ k → IsWholeRun text k ds → (∀ e ∈ edits, e.start ≠ k) → R k ds ds)
    (h : spliceFrom text before.length edits = .ok out) : Renumbered R before.length rest out := by
  have hle := le_start_of_spliceFrom h hsorted
  induction rest using runs_induction generalizing before out edits with
  | nil =>
      have hnone : edits = [] := by
        rw [List.eq_nil_iff_forall_not_mem]
        intro e he
        have hlt := (hedits e he).start_lt
        have hstart := hle e he
        rw [htext, List.append_nil] at hlt
        omega
      subst hnone
      obtain rfl := Except.ok.inj h
      simpa [htext] using Renumbered.nil
  | keep c cs hc ih =>
      have hstart : ∀ e ∈ edits, before.length + [c].length ≤ e.start := by
        intro e he
        have hedit := hedits e he
        rw [htext] at hedit
        exact Nat.lt_of_le_of_ne (hle e he) (hedit.start_ne hc)
      have htext' : text = before ++ ([c] ++ cs) := htext
      obtain ⟨tail, htail, rfl⟩ := exists_tail_of_spliceFrom htext' h hstart
      refine .keep hc ?_
      have hlast : ∀ x ∈ (before ++ [c]).getLast?, isDigit x = false := by simpa using hc
      have hrest := ih (by simp [htext]) (Or.inl hlast) hedits hsorted
        (fun k ds hk => hothers k ds (by simp at hk; omega)) htail (le_start_of_spliceFrom htail hsorted)
      simpa using hrest
  | run ds cs hds hcs ih =>
      have hwhole : IsWholeRun text before.length ds :=
        ⟨before, cs, htext, rfl, hds, hplace.resolve_right (head_run hds cs), hcs⟩
      have htext' : text = (before ++ ds) ++ cs := by rw [htext, List.append_assoc]
      by_cases hedit : ∃ e ∈ edits, e.start = before.length
      · -- the first edit replaces the run
        obtain ⟨_, he, hstart⟩ := hedit
        obtain ⟨e, others, rfl, hstart⟩ := exists_eq_cons_of_start he hstart hle hsorted
        obtain ⟨es, hes, hstop, hcontent, hR⟩ := hedits e List.mem_cons_self
        rw [hstart] at hes hstop hR
        obtain rfl := hwhole.eq hes
        have hsorted := (List.pairwise_cons.1 hsorted).2
        have hlater : ∀ k, (before ++ ds).length ≤ k → e.start ≠ k := by
          intro k hk
          have hpos := List.length_pos_iff.2 hds.1
          rw [List.length_append] at hk
          omega
        obtain ⟨-, tail, htail, rfl⟩ := spliceFrom_cons_iff.1 h
        rw [hstop, ← List.length_append] at htail
        have hrest := ih htext' (Or.inr hcs) (fun f hf => hedits f (List.mem_cons_of_mem e hf)) hsorted
          (fun k ds hk hds hk' => hothers k ds (by simp at hk; omega) hds
            (List.forall_mem_cons.2 ⟨hlater k hk, hk'⟩))
          htail (le_start_of_spliceFrom htail hsorted)
        rw [List.length_append] at hrest
        have hnone : stretch text before.length e.start = [] := by simp [stretch, hstart]
        rw [hnone, List.nil_append]
        exact .run hds hcs hcontent hR hrest
      · have hstart : ∀ e ∈ edits, before.length + ds.length ≤ e.start := fun e he =>
          (hedits e he).le_start hwhole (hle e he) fun heq => hedit ⟨e, he, heq.symm⟩
        obtain ⟨tail, htail, rfl⟩ := exists_tail_of_spliceFrom htext h hstart
        have hrest := ih htext' (Or.inr hcs) hedits hsorted
          (fun k ds hk => hothers k ds (by simp at hk; omega)) htail (le_start_of_spliceFrom htail hsorted)
        refine .run hds hcs hds (hothers _ _ (Nat.le_refl _) hwhole fun e he heq => hedit ⟨e, he, heq⟩) ?_
        rwa [List.length_append] at hrest

/-- **Edits of whole runs renumber a text.** -/
theorem renumbered_splice (hedits : ∀ e ∈ edits, RenumbersBy R text e)
    (hothers : ∀ k ds, IsWholeRun text k ds → (∀ e ∈ edits, e.start ≠ k) → R k ds ds)
    (h : splice text edits = .ok out) : Renumbered R 0 text out := by
  have hsplice : spliceFrom text ([] : List Char).length (inOrder edits) = .ok out := h
  refine renumbered_spliceFrom text (List.nil_append text).symm (Or.inl (by simp))
    (fun e he => hedits e (mem_inOrder.1 he)) (pairwise_inOrder edits) (fun k ds _ hds hk => ?_) hsplice
  exact hothers k ds hds fun e he => hk e (mem_inOrder.2 he)

end Text

end SketchHost
