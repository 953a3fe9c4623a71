/-
**What edits leave in place.**

A sequence with edits applied is made of what stands between the edits and of what they put in.  A
range that no edit cuts, and that is left alone or replaced as a whole, stands in the result behind
what becomes of the items before it and in front of what becomes of the items after it.

* `Edit.Forward`, `Edit.Clear` — an edit does not end before it begins; it leaves a range alone;
* `Edit.removed` — the items that an edit takes away;
* `mergeSort_eq_insertionSort` — the order of edits by insertion, which can be computed;
* `spliceUpTo`, `spliceOnward` — what becomes of the items before and after a place;
* `exists_splice` — edits that leave each other alone can be applied;
* `Stands` — what stands in the result for a range;
* `stands_of_clear`, `stands_of_mem` — a range that is left alone, and one that is replaced;
* `count_splice_iff`, `Stands.count_head` — when an item occurs as often as before.
-/

import SketchHost.Text.Edit
import Mathlib.Algebra.GroupWithZero.Nat
import Mathlib.Data.List.Sort

set_option relaxedAutoImplicit false
set_option autoImplicit false

namespace SketchHost

variable {α : Type}

/-! ### Stretches -/

/-- The items from one place of a sequence to another. -/
def stretch (data : List α) (a b : Nat) : List α :=
  (data.take b).drop a

theorem stretch_append_drop (data : List α) {a b : Nat} (h : a ≤ b) :
    stretch data a b ++ data.drop b = data.drop a := by
  have hb : a + (b - a) = b := by omega
  calc stretch data a b ++ data.drop b
      = (data.drop a).take (b - a) ++ (data.drop a).drop (b - a) := by
        rw [stretch, List.drop_take, List.drop_drop, hb]
    _ = data.drop a := List.take_append_drop _ _

theorem stretch_take (data : List α) {a b k : Nat} (h : b ≤ k) :
    stretch (data.take k) a b = stretch data a b := by
  rw [stretch, List.take_take, Nat.min_eq_left h, stretch]

theorem stretch_append (data : List α) {a b k : Nat} (h : a ≤ b) (h' : b ≤ k) :
    stretch data a b ++ stretch data b k = stretch data a k := by
  have hdrop := stretch_append_drop (data.take k) h
  rwa [stretch_take data h'] at hdrop

/-- What stands between two parts of a sequence. -/
theorem stretch_between (xs ys zs : List α) :
    stretch (xs ++ ys ++ zs) xs.length (xs.length + ys.length) = ys := by
  have htake : (xs ++ ys ++ zs).take (xs.length + ys.length) = xs ++ ys := by
    rw [← List.length_append]
    exact List.take_left
  rw [stretch, htake]
  exact List.drop_left

namespace Edit

/-- An edit does not end before it begins. -/
def Forward (e : Edit α) : Prop :=
  e.start ≤ e.stop

/-- An edit leaves the range from `a` to `b` alone. -/
def Clear (a b : Nat) (e : Edit α) : Prop :=
  e.stop ≤ a ∨ b ≤ e.start

/-- The items that an edit takes away. -/
def removed (data : List α) (e : Edit α) : List α :=
  stretch data e.start e.stop

theorem before_iff {e f : Edit α} :
    before e f = true ↔ e.start < f.start ∨ (e.start = f.start ∧ e.stop ≤ f.stop) := by
  simp [before]

theorem before_trans (e f g : Edit α) (h : before e f = true) (h' : before f g = true) :
    before e g = true := by
  rw [before_iff] at *
  omega

theorem before_total (e f : Edit α) : (before e f || before f e) = true := by
  rw [Bool.or_eq_true, before_iff, before_iff]
  omega

end Edit

/-! ### Edits in order -/

/-- Edits in the order in which they are applied. -/
def inOrder (edits : List (Edit α)) : List (Edit α) :=
  edits.mergeSort Edit.before

theorem mem_inOrder {e : Edit α} {edits : List (Edit α)} : e ∈ inOrder edits ↔ e ∈ edits :=
  List.mem_mergeSort

theorem pairwise_inOrder (edits : List (Edit α)) :
    (inOrder edits).Pairwise fun e f => Edit.before e f = true :=
  List.pairwise_mergeSort Edit.before_trans Edit.before_total edits

/-- An item is inserted behind those that it does not come before. -/
theorem orderedInsert_append (e : Edit α) {before after : List (Edit α)}
    (hbefore : ∀ f ∈ before, Edit.before e f = false)
    (hafter : ∀ f ∈ after, Edit.before e f = true) :
    (before ++ after).orderedInsert (fun f g => Edit.before f g = true) e = before ++ e :: after := by
  induction before with
  | nil =>
      cases after with
      | nil => rfl
      | cons f rest =>
          rw [List.nil_append, List.orderedInsert_cons, if_pos (hafter f List.mem_cons_self)]
          rfl
  | cons f rest ih =>
      have hf := hbefore f List.mem_cons_self
      rw [List.cons_append, List.orderedInsert_cons, if_neg (by simp [hf]),
        ih fun g hg => hbefore g (List.mem_cons_of_mem f hg)]
      rfl

/-- Edits are put in order by inserting one after the other. -/
theorem mergeSort_eq_insertionSort (edits : List (Edit α)) :
    edits.mergeSort Edit.before = edits.insertionSort fun e f => Edit.before e f = true := by
  induction edits with
  | nil => simp
  | cons e rest ih =>
      obtain ⟨first, last, hall, hrest, hfirst⟩ :=
        List.mergeSort_cons Edit.before_trans Edit.before_total e rest
      have hsorted := pairwise_inOrder (e :: rest)
      rw [inOrder, hall] at hsorted
      -- sorting puts the edit between those before it and those after it, as inserting does
      have hlast := (List.pairwise_cons.1 (List.pairwise_append.1 hsorted).2.1).1
      have hinsert := orderedInsert_append e (fun f hf => by simpa using hfirst f hf) hlast
      rw [List.insertionSort_cons, ← ih, hrest, hall]
      exact hinsert.symm

/-- What becomes of the items before a place: the edits that end there or before are applied. -/
def spliceUpTo (data : List α) (edits : List (Edit α)) (k : Nat) : Except Overlap (List α) :=
  spliceFrom (data.take k) 0 ((inOrder edits).filter fun e => e.stop ≤ k)

/-- What becomes of the items from a place on: the edits that begin there or after are applied. -/
def spliceOnward (data : List α) (edits : List (Edit α)) (k : Nat) : Except Overlap (List α) :=
  spliceFrom data k ((inOrder edits).filter fun e => k ≤ e.start)

/-- In the result of edits, `shown` stands for the range from `a` to `b`: between `head`, which the
items before the range become, and `tail`, which the items after it become. -/
structure Stands (data : List α) (edits : List (Edit α)) (a b : Nat) (head shown tail out : List α) :
    Prop where
  head_eq : spliceUpTo data edits a = .ok head
  tail_eq : spliceOnward data edits b = .ok tail
  out_eq : out = head ++ shown ++ tail

/-! ### Dividing a splice -/

theorem spliceFrom_cons_iff {data out : List α} {cursor : Nat} {e : Edit α} {rest : List (Edit α)} :
    spliceFrom data cursor (e :: rest) = .ok out ↔
      cursor ≤ e.start ∧ ∃ tail, spliceFrom data e.stop rest = .ok tail ∧
        out = stretch data cursor e.start ++ e.content ++ tail := by
  constructor
  · intro h
    rw [spliceFrom] at h
    split at h
    · simp at h
    · next hle =>
        have hcursor : cursor ≤ e.start := by omega
        split at h
        · simp at h
        · next tail htail => exact ⟨hcursor, tail, htail, (Except.ok.inj h).symm⟩
  · rintro ⟨hcursor, tail, htail, rfl⟩
    have hle : ¬ e.start < cursor := by omega
    rw [spliceFrom, if_neg hle, htail]
    rfl

/-- What lies before all edits stays as it is. -/
theorem spliceFrom_of_le {data out : List α} {cursor k : Nat} {edits : List (Edit α)}
    (h : spliceFrom data cursor edits = .ok out) (hcursor : cursor ≤ k)
    (hedits : ∀ e ∈ edits, k ≤ e.start) :
    ∃ tail, spliceFrom data k edits = .ok tail ∧ out = stretch data cursor k ++ tail := by
  cases edits with
  | nil =>
      obtain rfl := Except.ok.inj h
      exact ⟨data.drop k, rfl, (stretch_append_drop data hcursor).symm⟩
  | cons e rest =>
      obtain ⟨-, tail, htail, rfl⟩ := spliceFrom_cons_iff.1 h
      have hk : k ≤ e.start := hedits e List.mem_cons_self
      refine ⟨stretch data k e.start ++ e.content ++ tail,
        spliceFrom_cons_iff.2 ⟨hk, tail, htail, rfl⟩, ?_⟩
      rw [← stretch_append data hcursor hk]
      simp only [List.append_assoc]

/-- A place that no edit covers divides a splice. -/
theorem spliceFrom_append {data out : List α} {before after : List (Edit α)} {cursor k : Nat}
    (h : spliceFrom data cursor (before ++ after) = .ok out) (hcursor : cursor ≤ k)
    (hbefore : ∀ e ∈ before, e.Forward ∧ e.stop ≤ k) (hafter : ∀ e ∈ after, k ≤ e.start) :
    ∃ head tail, spliceFrom (data.take k) cursor before = .ok head ∧
      spliceFrom data k after = .ok tail ∧ out = head ++ tail := by
  induction before generalizing cursor out with
  | nil =>
      obtain ⟨tail, htail, rfl⟩ := spliceFrom_of_le h hcursor hafter
      exact ⟨stretch data cursor k, tail, rfl, htail, rfl⟩
  | cons e rest ih =>
      obtain ⟨hstart, out', hout', rfl⟩ := spliceFrom_cons_iff.1 h
      obtain ⟨hforward, hstop⟩ := hbefore e List.mem_cons_self
      obtain ⟨head, tail, hhead, htail, rfl⟩ :=
        ih hout' hstop fun f hf => hbefore f (List.mem_cons_of_mem e hf)
      have hk : e.start ≤ k := Nat.le_trans hforward hstop
      refine ⟨stretch data cursor e.start ++ e.content ++ head, tail, ?_, htail, ?_⟩
      · rw [spliceFrom_cons_iff]
        exact ⟨hstart, head, hhead, by rw [stretch_take data hk]⟩
      · simp only [List.append_assoc]

/-- Edits in order, of which none covers a place, are those that end there or before and then those
that end after it. -/
theorem filter_append_filter {edits : List (Edit α)} {k : Nat}
    (hsorted : edits.Pairwise fun e f => Edit.before e f = true)
    (hforward : ∀ e ∈ edits, e.Forward) (hk : ∀ e ∈ edits, e.Clear k k) :
    (edits.filter fun e => e.stop ≤ k) ++ (edits.filter fun e => k < e.stop) = edits := by
  induction edits with
  | nil => rfl
  | cons e rest ih =>
      obtain ⟨hfirst, hrest⟩ := List.pairwise_cons.1 hsorted
      have ih := ih hrest (fun f hf => hforward f (List.mem_cons_of_mem e hf))
        fun f hf => hk f (List.mem_cons_of_mem e hf)
      by_cases hstop : e.stop ≤ k
      · have hnot : ¬ k < e.stop := by omega
        simp only [List.filter_cons, hstop, hnot, decide_true, decide_false, if_true,
          List.cons_append]
        simp [ih]
      · -- every later edit begins no earlier, so none of them ends at the place or before
        have hlater : ∀ f ∈ rest, k < f.stop := by
          intro f hf
          have hbefore := Edit.before_iff.1 (hfirst f hf)
          have hclear : e.Clear k k := hk e List.mem_cons_self
          have hf' : f.Forward := hforward f (List.mem_cons_of_mem e hf)
          unfold Edit.Clear at hclear
          unfold Edit.Forward at hf'
          omega
        have hnone : (rest.filter fun f => f.stop ≤ k) = [] := by
          rw [List.filter_eq_nil_iff]
          intro f hf
          have hf' := hlater f hf
          simpa using hf'
        have hall : (rest.filter fun f => k < f.stop) = rest := by
          rw [List.filter_eq_self]
          intro f hf
          simpa using hlater f hf
        have hlt : k < e.stop := by omega
        simp only [List.filter_cons, hstop, hlt, decide_true, decide_false, if_true,
          hnone, hall]
        simp

/-! ### Edits that can be applied -/

/-- Edits, each of which begins where the one before it ends or after, can be applied. -/
theorem exists_spliceFrom (data : List α) {cursor : Nat} {edits : List (Edit α)}
    (hcursor : ∀ e ∈ edits, cursor ≤ e.start) (h : edits.Pairwise fun e f => e.stop ≤ f.start) :
    ∃ out, spliceFrom data cursor edits = .ok out := by
  induction edits generalizing cursor with
  | nil => exact ⟨_, rfl⟩
  | cons e rest ih =>
      obtain ⟨hfirst, hrest⟩ := List.pairwise_cons.1 h
      obtain ⟨tail, htail⟩ := ih hfirst hrest
      exact ⟨_, spliceFrom_cons_iff.2 ⟨hcursor e List.mem_cons_self, tail, htail, rfl⟩⟩

/-- Edits that leave each other alone can be applied. -/
theorem exists_splice (data : List α) {edits : List (Edit α)} (hforward : ∀ e ∈ edits, e.Forward)
    (hclear : edits.Pairwise fun e f => e.Clear f.start f.stop) :
    ∃ out, splice data edits = .ok out := by
  have hordered : (inOrder edits).Pairwise fun e f => e.Clear f.start f.stop :=
    ((List.mergeSort_perm edits Edit.before).pairwise_iff fun h => by
      unfold Edit.Clear at h ⊢
      omega).2 hclear
  refine exists_spliceFrom data (fun e _ => Nat.zero_le _) ?_
  -- of two edits that leave each other alone, the one that comes first ends first
  refine ((pairwise_inOrder edits).and hordered).imp_of_mem fun {e f} he hf ⟨hbefore, hclear⟩ => ?_
  have hbefore := Edit.before_iff.1 hbefore
  have hforward' : f.Forward := hforward f (mem_inOrder.1 hf)
  unfold Edit.Forward at hforward'
  unfold Edit.Clear at hclear
  omega

/-! ### Ranges that no edit cuts -/

/-- Edits that were applied from a place on begin there or after. -/
theorem le_start_of_spliceFrom {data out : List α} {cursor : Nat} {edits : List (Edit α)}
    (h : spliceFrom data cursor edits = .ok out)
    (hsorted : edits.Pairwise fun e f => Edit.before e f = true) :
    ∀ e ∈ edits, cursor ≤ e.start := by
  cases edits with
  | nil => simp
  | cons f rest =>
      obtain ⟨hcursor, -⟩ := spliceFrom_cons_iff.1 h
      intro e he
      rcases List.mem_cons.1 he with rfl | he
      · exact hcursor
      · have hbefore := Edit.before_iff.1 ((List.pairwise_cons.1 hsorted).1 e he)
        omega

variable {data out : List α} {edits : List (Edit α)} {a b : Nat}

/-- The beginning of a range that no edit cuts divides a splice. -/
theorem exists_head (h : splice data edits = .ok out) (hforward : ∀ e ∈ edits, e.Forward)
    (hclear : ∀ e ∈ edits, e.Clear a a) :
    ∃ head rest, spliceUpTo data edits a = .ok head ∧
      spliceFrom data a ((inOrder edits).filter fun e => a < e.stop) = .ok rest ∧
      out = head ++ rest := by
  have hdivided := filter_append_filter (pairwise_inOrder edits)
    (fun e he => hforward e (mem_inOrder.1 he)) fun e he => hclear e (mem_inOrder.1 he)
  have hsplice : spliceFrom data 0 (inOrder edits) = .ok out := h
  rw [← hdivided] at hsplice
  refine spliceFrom_append hsplice (Nat.zero_le a) (fun e he => ?_) fun e he => ?_
  · obtain ⟨hmem, hstop⟩ := List.mem_filter.1 he
    exact ⟨hforward e (mem_inOrder.1 hmem), by simpa using hstop⟩
  · obtain ⟨hmem, hstop⟩ := List.mem_filter.1 he
    have hstop : a < e.stop := by simpa using hstop
    rcases hclear e (mem_inOrder.1 hmem) with hle | hle
    · omega
    · exact hle

/-- A range that all edits leave alone stands in the result as it is. -/
theorem stands_of_clear (h : splice data edits = .ok out) (hforward : ∀ e ∈ edits, e.Forward)
    (hab : a < b) (hclear : ∀ e ∈ edits, e.Clear a b) :
    ∃ head tail, Stands data edits a b head (stretch data a b) tail out := by
  have hstart : ∀ e ∈ edits, e.Clear a a := by
    intro e he
    rcases hclear e he with hle | hle
    · exact Or.inl hle
    · exact Or.inr (by omega)
  obtain ⟨head, rest, hhead, hrest, rfl⟩ := exists_head h hforward hstart
  have hafter : ((inOrder edits).filter fun e => a < e.stop)
      = (inOrder edits).filter fun e => b ≤ e.start := by
    apply List.filter_congr
    intro e he
    have hforward' : e.start ≤ e.stop := hforward e (mem_inOrder.1 he)
    have hclear' := hclear e (mem_inOrder.1 he)
    unfold Edit.Clear at hclear'
    rw [decide_eq_decide]
    omega
  rw [hafter] at hrest
  obtain ⟨tail, htail, rfl⟩ := spliceFrom_of_le hrest (Nat.le_of_lt hab) (by simp)
  exact ⟨head, tail, hhead, htail, (List.append_assoc _ _ _).symm⟩

/-- In order, an edit comes first if all others begin where it ends or after. -/
theorem exists_eq_cons {e : Edit α} (hsorted : edits.Pairwise fun f g => Edit.before f g = true)
    (he : e ∈ edits) (hlt : e.start < e.stop) (hothers : ∀ f ∈ edits, f = e ∨ e.stop ≤ f.start) :
    ∃ others, edits = e :: others := by
  cases edits with
  | nil => simp at he
  | cons f others =>
      rcases List.mem_cons.1 he with rfl | he
      · exact ⟨others, rfl⟩
      · have hbefore := Edit.before_iff.1 ((List.pairwise_cons.1 hsorted).1 e he)
        rcases hothers f List.mem_cons_self with rfl | hle
        · exact ⟨others, rfl⟩
        · omega

/-- What an edit puts in stands in the result for its range, if the other edits leave the range
alone. -/
theorem stands_of_mem {e : Edit α} (h : splice data edits = .ok out)
    (hforward : ∀ f ∈ edits, f.Forward) (he : e ∈ edits) (hlt : e.start < e.stop)
    (hothers : ∀ f ∈ edits, f = e ∨ f.Clear e.start e.stop) :
    ∃ head tail, Stands data edits e.start e.stop head e.content tail out := by
  have hstart : ∀ f ∈ edits, f.Clear e.start e.start := by
    intro f hf
    rcases hothers f hf with rfl | hle | hle
    · exact Or.inr (Nat.le_refl _)
    · exact Or.inl hle
    · exact Or.inr (by omega)
  obtain ⟨head, rest, hhead, hrest, rfl⟩ := exists_head h hforward hstart
  have hsorted : ((inOrder edits).filter fun f => e.start < f.stop).Pairwise
      fun f g => Edit.before f g = true := (pairwise_inOrder edits).filter _
  have hmem : e ∈ (inOrder edits).filter fun f => e.start < f.stop :=
    List.mem_filter.2 ⟨mem_inOrder.2 he, by simpa using hlt⟩
  have hcases : ∀ f ∈ (inOrder edits).filter fun f => e.start < f.stop, f = e ∨ e.stop ≤ f.start := by
    intro f hf
    obtain ⟨hf, hstop⟩ := List.mem_filter.1 hf
    have hstop : e.start < f.stop := by simpa using hstop
    rcases hothers f (mem_inOrder.1 hf) with rfl | hle | hle
    · exact Or.inl rfl
    · omega
    · exact Or.inr hle
  have honward : ((inOrder edits).filter fun f => e.stop ≤ f.start)
      = ((inOrder edits).filter fun f => e.start < f.stop).filter fun f => e.stop ≤ f.start := by
    rw [List.filter_filter]
    apply List.filter_congr
    intro f hf
    have hforward' : f.start ≤ f.stop := hforward f (mem_inOrder.1 hf)
    rw [← Bool.decide_and, decide_eq_decide]
    omega
  -- of the edits that end after the range begins, its own is the first one
  obtain ⟨others, hedits⟩ := exists_eq_cons hsorted hmem hlt hcases
  rw [hedits] at hrest hsorted honward
  obtain ⟨-, tail, htail, rfl⟩ := spliceFrom_cons_iff.1 hrest
  have hlater := le_start_of_spliceFrom htail (List.pairwise_cons.1 hsorted).2
  have hself : (e :: others).filter (fun g => e.stop ≤ g.start) = others := by
    have hnot : ¬ e.stop ≤ e.start := by omega
    simp only [List.filter_cons, hnot, decide_false]
    rw [if_neg (by simp), List.filter_eq_self]
    intro g hg
    simpa using hlater g hg
  rw [hself] at honward
  refine ⟨head, tail, hhead, ?_, ?_⟩
  · rw [spliceOnward, honward]
    exact htail
  · simp [stretch, List.append_assoc]

/-! ### Counting -/

variable [BEq α]

/-- An item occurs in the result as often as in the sequence, less what is taken away and more what
is put in. -/
theorem count_spliceFrom (x : α) {cursor : Nat} (h : spliceFrom data cursor edits = .ok out)
    (hforward : ∀ e ∈ edits, e.Forward) :
    out.count x + (edits.map fun e => (e.removed data).count x).sum
      = (data.drop cursor).count x + (edits.map fun e => e.content.count x).sum := by
  induction edits generalizing cursor out with
  | nil =>
      obtain rfl := Except.ok.inj h
      rfl
  | cons e rest ih =>
      obtain ⟨hcursor, tail, htail, rfl⟩ := spliceFrom_cons_iff.1 h
      have ih := ih htail fun f hf => hforward f (List.mem_cons_of_mem e hf)
      have hstart := stretch_append_drop data hcursor
      have hstop := stretch_append_drop data (hforward e List.mem_cons_self)
      rw [← hstart, ← hstop]
      simp only [List.count_append, List.map_cons, List.sum_cons, Edit.removed] at ih ⊢
      omega

variable [LawfulBEq α]

/-- Edits that put in no `x` keep the number of them exactly if they take none away. -/
theorem count_spliceFrom_iff {x : α} {cursor : Nat} (h : spliceFrom data cursor edits = .ok out)
    (hforward : ∀ e ∈ edits, e.Forward) (hcontent : ∀ e ∈ edits, x ∉ e.content) :
    out.count x = (data.drop cursor).count x ↔ ∀ e ∈ edits, x ∉ e.removed data := by
  have hcount := count_spliceFrom x h hforward
  have hzero : (edits.map fun e => e.content.count x).sum = 0 := by
    rw [List.sum_eq_zero_iff_forall_eq_nat]
    intro n hn
    obtain ⟨e, he, rfl⟩ := List.mem_map.1 hn
    exact List.count_eq_zero.2 (hcontent e he)
  have hremoved : (edits.map fun e => (e.removed data).count x).sum = 0 ↔
      ∀ e ∈ edits, x ∉ e.removed data := by
    rw [List.sum_eq_zero_iff_forall_eq_nat]
    simp only [List.mem_map, forall_exists_index, and_imp, forall_apply_eq_imp_iff₂,
      List.count_eq_zero]
  rw [← hremoved]
  omega

theorem count_splice_iff {x : α} (h : splice data edits = .ok out)
    (hforward : ∀ e ∈ edits, e.Forward) (hcontent : ∀ e ∈ edits, x ∉ e.content) :
    out.count x = data.count x ↔ ∀ e ∈ edits, x ∉ e.removed data := by
  have hsplice : spliceFrom data 0 (inOrder edits) = .ok out := h
  have hcount := count_spliceFrom_iff hsplice (fun e he => hforward e (mem_inOrder.1 he))
    fun e he => hcontent e (mem_inOrder.1 he)
  rw [List.drop_zero] at hcount
  rw [hcount]
  simp only [mem_inOrder]

/-- If edits neither put in an `x` nor take one away, as many of them stand before a range as
before. -/
theorem Stands.count_head {x : α} {head shown tail : List α}
    (h : Stands data edits a b head shown tail out) (hforward : ∀ e ∈ edits, e.Forward)
    (hcontent : ∀ e ∈ edits, x ∉ e.content) (hremoved : ∀ e ∈ edits, x ∉ e.removed data) :
    head.count x = (data.take a).count x := by
  have hfilter : ∀ e ∈ (inOrder edits).filter fun e => e.stop ≤ a, e ∈ edits ∧ e.stop ≤ a := by
    intro e he
    obtain ⟨hmem, hstop⟩ := List.mem_filter.1 he
    exact ⟨mem_inOrder.1 hmem, by simpa using hstop⟩
  refine (count_spliceFrom_iff h.head_eq (fun e he => hforward e (hfilter e he).1)
    fun e he => hcontent e (hfilter e he).1).2 fun e he => ?_
  rw [Edit.removed, stretch_take data (hfilter e he).2]
  exact hremoved e (hfilter e he).1

end SketchHost
