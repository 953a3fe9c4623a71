/-
**Edits one at a time.**

A set of edits is applied in one pass from left to right.  The result is the one of replacing one
range after the other, from the last position to the first, where a replacement moves nothing that is
still to be replaced.  Edits are refused exactly if two of them overlap, and the order in which they
are listed matters only for insertions at the same place.

* `Edit.Overlaps`, `Edit.replaceIn` — two edits cover a common position; one edit on its own;
* `Arranged` — edits by position, insertions in front, insertions at one place as listed;
* `oneAtATime` — the edits of an arrangement, the last one first;
* `untouched` — the items that no edit covers;
* `exact_editText` — what the edits of a text come to.
-/

import SketchHost.Proofs.Text.Boundaries

set_option relaxedAutoImplicit false
set_option autoImplicit false

namespace SketchHost

variable {α : Type}

namespace Edit

/-- Two edits overlap: each begins before the other one ends. -/
def Overlaps (a b : Edit α) : Prop :=
  a.start < b.stop ∧ b.start < a.stop

instance (a b : Edit α) : Decidable (Overlaps a b) :=
  inferInstanceAs (Decidable (_ ∧ _))

/-- An edit takes nothing away. -/
def Inserts (e : Edit α) : Prop :=
  e.stop = e.start

/-- The range of an edit is the one from `a` to `b`. -/
def hasRange (a b : Nat) (e : Edit α) : Bool :=
  e.start == a && e.stop == b

/-- A sequence with one range replaced. -/
def replaceIn (data : List α) (e : Edit α) : List α :=
  data.take e.start ++ e.content ++ data.drop e.stop

theorem hasRange_iff {a b : Nat} {e : Edit α} : hasRange a b e = true ↔ e.start = a ∧ e.stop = b := by
  simp [hasRange]

theorem hasRange_self (e : Edit α) : hasRange e.start e.stop e = true :=
  hasRange_iff.2 ⟨rfl, rfl⟩

theorem Overlaps.symm {a b : Edit α} (h : a.Overlaps b) : b.Overlaps a :=
  ⟨h.2, h.1⟩

/-- An edit leaves the range of another one alone if the two do not overlap. -/
theorem clear_iff {a b : Edit α} : a.Clear b.start b.stop ↔ ¬ a.Overlaps b := by
  unfold Clear Overlaps
  omega

end Edit

/-- Some two of the edits overlap. -/
def Overlapping (edits : List (Edit α)) : Prop :=
  ∃ a b, [a, b].Sublist edits ∧ a.Overlaps b

theorem not_overlapping_iff {edits : List (Edit α)} :
    ¬ Overlapping edits ↔ edits.Pairwise fun a b => ¬ a.Overlaps b := by
  rw [List.pairwise_iff_forall_sublist]
  constructor
  · intro h a b hsub hoverlaps
    exact h ⟨a, b, hsub, hoverlaps⟩
  · rintro h ⟨a, b, hsub, hoverlaps⟩
    exact h hsub hoverlaps

/-- The edits by position: at one place the insertions come first, in the order in which they are
listed. -/
structure Arranged (edits order : List (Edit α)) : Prop where
  perm : order.Perm edits
  ascending : order.Pairwise fun a b => a.start < b.start ∨ (a.start = b.start ∧ a.Inserts)
  stable : ∀ k, order.filter (Edit.hasRange k k) = edits.filter (Edit.hasRange k k)

/-- A sequence with edits applied one at a time, the last one first. -/
def oneAtATime (data : List α) (order : List (Edit α)) : List α :=
  order.foldr (fun e shown => e.replaceIn shown) data

/-- The items that no edit covers, of a sequence whose first item stands at a position. -/
def untouchedFrom (edits : List (Edit α)) : Nat → List α → List α
  | _, [] => []
  | k, x :: rest =>
      if edits.any fun e => e.start ≤ k && k < e.stop then untouchedFrom edits (k + 1) rest
      else x :: untouchedFrom edits (k + 1) rest

/-- The items that no edit covers. -/
def untouched (data : List α) (edits : List (Edit α)) : List α :=
  untouchedFrom edits 0 data

/-! ### The order of edits -/

/-- Lists that agree on the edits of each range have the same edits. -/
theorem mem_iff_of_filter_hasRange {xs ys : List (Edit α)}
    (h : ∀ a b, xs.filter (Edit.hasRange a b) = ys.filter (Edit.hasRange a b)) (e : Edit α) :
    e ∈ xs ↔ e ∈ ys := by
  have hfilter := h e.start e.stop
  rw [← and_iff_left (a := e ∈ xs) e.hasRange_self, ← List.mem_filter, hfilter, List.mem_filter,
    and_iff_left e.hasRange_self]

/-- Two orders of edits by range are the same if they agree on the edits of each range. -/
theorem eq_of_filter_hasRange {xs ys : List (Edit α)}
    (hxs : xs.Pairwise fun e f => Edit.before e f = true)
    (hys : ys.Pairwise fun e f => Edit.before e f = true)
    (h : ∀ a b, xs.filter (Edit.hasRange a b) = ys.filter (Edit.hasRange a b)) : xs = ys := by
  induction xs generalizing ys with
  | nil =>
      cases ys with
      | nil => rfl
      | cons f _ => simpa using (mem_iff_of_filter_hasRange h f).2 List.mem_cons_self
  | cons e xs ih =>
      cases ys with
      | nil => simpa using (mem_iff_of_filter_hasRange h e).1 List.mem_cons_self
      | cons f ys =>
          obtain ⟨hfirst, hrest⟩ := List.pairwise_cons.1 hxs
          obtain ⟨hfirst', hrest'⟩ := List.pairwise_cons.1 hys
          -- each of the two first edits comes before the other one, so they have one range
          have hef : f = e ∨ Edit.before e f = true :=
            (List.mem_cons.1 ((mem_iff_of_filter_hasRange h f).2 List.mem_cons_self)).imp id (hfirst f)
          have hfe : e = f ∨ Edit.before f e = true :=
            (List.mem_cons.1 ((mem_iff_of_filter_hasRange h e).1 List.mem_cons_self)).imp id (hfirst' e)
          have hrange : Edit.hasRange e.start e.stop f = true := by
            rcases hef with rfl | hef
            · exact f.hasRange_self
            · rcases hfe with rfl | hfe
              · exact e.hasRange_self
              · rw [Edit.before_iff] at hef hfe
                exact Edit.hasRange_iff.2 (by omega)
          have hhead := h e.start e.stop
          rw [List.filter_cons_of_pos e.hasRange_self, List.filter_cons_of_pos hrange] at hhead
          obtain rfl := (List.cons.inj hhead).1
          refine congrArg (e :: ·) (ih hrest hrest' fun a b => ?_)
          have hab := h a b
          rw [List.filter_cons, List.filter_cons] at hab
          split at hab
          · exact (List.cons.inj hab).2
          · exact hab

/-- Sorting keeps the order of the edits of one range. -/
theorem filter_inOrder (edits : List (Edit α)) (a b : Nat) :
    (inOrder edits).filter (Edit.hasRange a b) = edits.filter (Edit.hasRange a b) := by
  have hsame : (edits.filter (Edit.hasRange a b)).Pairwise fun e f => Edit.before e f = true := by
    rw [List.pairwise_filter]
    refine List.pairwise_of_forall_sublist fun {e f} _ he hf => ?_
    rw [Edit.hasRange_iff] at he hf
    exact Edit.before_iff.2 (by omega)
  have hsub : (edits.filter (Edit.hasRange a b)).Sublist (inOrder edits) :=
    List.sublist_mergeSort Edit.before_trans Edit.before_total hsame List.filter_sublist
  have hfilter := hsub.filter (Edit.hasRange a b)
  rw [List.filter_filter] at hfilter
  simp only [Bool.and_self] at hfilter
  refine (hfilter.eq_of_length ?_).symm
  exact ((List.mergeSort_perm edits Edit.before).filter _).length_eq.symm

/-- Edits that differ only in the order of those with different ranges are applied alike. -/
theorem inOrder_congr {edits edits' : List (Edit α)}
    (h : ∀ a b, edits'.filter (Edit.hasRange a b) = edits.filter (Edit.hasRange a b)) :
    inOrder edits' = inOrder edits := by
  refine eq_of_filter_hasRange (pairwise_inOrder edits') (pairwise_inOrder edits) fun a b => ?_
  rw [filter_inOrder, filter_inOrder, h]

/-- Two lists of the same items are equal if they have no two items. -/
theorem eq_of_perm_of_pairwise {xs ys : List α} (h : xs.Perm ys) (hys : ys.Pairwise fun _ _ => False) :
    xs = ys := by
  match ys with
  | [] => exact h.eq_nil
  | [y] => exact List.perm_singleton.1 h
  | x :: y :: _ => exact ((List.pairwise_cons.1 hys).1 y List.mem_cons_self).elim

/-- Of edits with different ranges the order does not matter. -/
theorem filter_hasRange_of_perm {edits edits' : List (Edit α)} (h : edits'.Perm edits)
    (hdistinct : edits.Pairwise fun e f => (e.start, e.stop) ≠ (f.start, f.stop)) (a b : Nat) :
    edits'.filter (Edit.hasRange a b) = edits.filter (Edit.hasRange a b) := by
  refine eq_of_perm_of_pairwise (h.filter _) ?_
  rw [List.pairwise_filter]
  refine hdistinct.imp fun {e f} hne he hf => hne ?_
  rw [Edit.hasRange_iff] at he hf
  rw [he.1, he.2, hf.1, hf.2]

section Arrangement

variable {edits : List (Edit α)} (hforward : ∀ e ∈ edits, e.Forward) (happart : ¬ Overlapping edits)

include hforward happart

/-- Edits that do not overlap are arranged by sorting them. -/
theorem arranged_inOrder : Arranged edits (inOrder edits) where
  perm := List.mergeSort_perm edits Edit.before
  ascending := by
    have hordered : (inOrder edits).Pairwise fun a b => ¬ a.Overlaps b :=
      ((List.mergeSort_perm edits Edit.before).pairwise_iff fun h h' => h h'.symm).2
        (not_overlapping_iff.1 happart)
    refine ((pairwise_inOrder edits).and hordered).imp_of_mem fun {a b} ha _ ⟨hbefore, hclear⟩ => ?_
    have ha : a.Forward := hforward a (mem_inOrder.1 ha)
    rw [Edit.before_iff] at hbefore
    unfold Edit.Forward at ha
    unfold Edit.Overlaps at hclear
    unfold Edit.Inserts
    omega
  stable := fun k => filter_inOrder edits k k

/-- There is no other arrangement. -/
theorem eq_inOrder_of_arranged {order : List (Edit α)} (h : Arranged edits order) :
    order = inOrder edits := by
  refine eq_of_filter_hasRange ?_ (pairwise_inOrder edits) fun a b => ?_
  · refine h.ascending.imp_of_mem fun {e f} _ hf hlt => ?_
    have hf : f.Forward := hforward f (h.perm.mem_iff.1 hf)
    unfold Edit.Forward at hf
    unfold Edit.Inserts at hlt
    exact Edit.before_iff.2 (by omega)
  · rw [filter_inOrder]
    by_cases hab : a = b
    · subst hab
      exact h.stable a
    · -- two replacements of one range overlap
      refine eq_of_perm_of_pairwise (h.perm.filter _) ?_
      rw [List.pairwise_filter]
      refine (not_overlapping_iff.1 happart).imp_of_mem fun {e f} he _ hclear hrange hrange' => ?_
      have he : e.Forward := hforward e he
      rw [Edit.hasRange_iff] at hrange hrange'
      unfold Edit.Forward at he
      exact hclear ⟨by omega, by omega⟩

end Arrangement

/-! ### One pass and one edit at a time -/

/-- A pass over edits that lie within a sequence leaves what the edits one at a time leave. -/
theorem oneAtATime_of_spliceFrom {data out : List α} {cursor : Nat} {order : List (Edit α)}
    (h : spliceFrom data cursor order = .ok out) (hforward : ∀ e ∈ order, e.Forward)
    (hwithin : ∀ e ∈ order, e.stop ≤ data.length) :
    oneAtATime data order = data.take cursor ++ out := by
  induction order generalizing cursor out with
  | nil =>
      obtain rfl := Except.ok.inj h
      exact (List.take_append_drop cursor data).symm
  | cons e rest ih =>
      obtain ⟨hcursor, tail, htail, rfl⟩ := spliceFrom_cons_iff.1 h
      have hstart : e.start ≤ e.stop := hforward e List.mem_cons_self
      have hlength : (data.take e.stop).length = e.stop :=
        List.length_take_of_le (hwithin e List.mem_cons_self)
      -- the later edits have left the items up to the end of this one in place
      have hrest : oneAtATime data rest = data.take e.stop ++ tail :=
        ih htail (fun f hf => hforward f (List.mem_cons_of_mem e hf))
          fun f hf => hwithin f (List.mem_cons_of_mem e hf)
      have htake : (data.take e.stop ++ tail).take e.start = data.take e.start := by
        rw [List.take_append_of_le_length (by omega), List.take_take, Nat.min_eq_left hstart]
      have hdrop : (data.take e.stop ++ tail).drop e.stop = tail := List.drop_left' hlength
      have hgap : data.take cursor ++ stretch data cursor e.start = data.take e.start := by
        have hsplit := stretch_append data (Nat.zero_le cursor) hcursor
        simpa only [stretch, List.drop_zero] using hsplit
      calc oneAtATime data (e :: rest)
          = e.replaceIn (oneAtATime data rest) := rfl
        _ = data.take e.start ++ e.content ++ tail := by
            rw [hrest, Edit.replaceIn, htake, hdrop]
        _ = data.take cursor ++ (stretch data cursor e.start ++ e.content ++ tail) := by
            rw [← hgap]
            simp only [List.append_assoc]

/-- Edits in order that a pass applies do not overlap. -/
theorem pairwise_of_spliceFrom {data out : List α} {cursor : Nat} {order : List (Edit α)}
    (h : spliceFrom data cursor order = .ok out)
    (hsorted : order.Pairwise fun e f => Edit.before e f = true) :
    order.Pairwise fun e f => ¬ e.Overlaps f := by
  induction order generalizing cursor out with
  | nil => exact List.Pairwise.nil
  | cons e rest ih =>
      obtain ⟨-, tail, htail, -⟩ := spliceFrom_cons_iff.1 h
      obtain ⟨-, hrest⟩ := List.pairwise_cons.1 hsorted
      refine List.pairwise_cons.2 ⟨fun f hf => ?_, ih htail hrest⟩
      have hstop : e.stop ≤ f.start := le_start_of_spliceFrom htail hrest f hf
      exact fun hoverlaps => absurd hoverlaps.2 (Nat.not_lt.2 hstop)

/-- Edits are refused exactly if two of them overlap. -/
theorem splice_eq_error_iff (data : List α) {edits : List (Edit α)}
    (hforward : ∀ e ∈ edits, e.Forward) :
    (∃ o, splice data edits = .error o) ↔ Overlapping edits := by
  rw [← not_iff_not, not_overlapping_iff]
  constructor
  · intro h
    cases hsplice : splice data edits with
    | error o => exact absurd ⟨o, hsplice⟩ h
    | ok out =>
        have hordered := pairwise_of_spliceFrom hsplice (pairwise_inOrder edits)
        exact ((List.mergeSort_perm edits Edit.before).pairwise_iff fun h h' => h h'.symm).1 hordered
  · rintro hapart ⟨o, ho⟩
    obtain ⟨out, hout⟩ := exists_splice data hforward (hapart.imp fun h => Edit.clear_iff.2 h)
    simp [hout] at ho

/-! ### What no edit covers -/

theorem untouchedFrom_sublist (edits : List (Edit α)) (k : Nat) (xs : List α) :
    (untouchedFrom edits k xs).Sublist xs := by
  induction xs generalizing k with
  | nil => exact List.Sublist.refl []
  | cons x rest ih =>
      rw [untouchedFrom]
      split
      · exact (ih (k + 1)).cons x
      · exact (ih (k + 1)).cons_cons x

theorem untouchedFrom_append (edits : List (Edit α)) (k : Nat) (xs ys : List α) :
    untouchedFrom edits k (xs ++ ys)
      = untouchedFrom edits k xs ++ untouchedFrom edits (k + xs.length) ys := by
  induction xs generalizing k with
  | nil => rfl
  | cons x rest ih =>
      have hk : k + (x :: rest).length = k + 1 + rest.length := by
        rw [List.length_cons]
        omega
      rw [List.cons_append, untouchedFrom, untouchedFrom, ih, hk]
      split <;> rfl

/-- Of the items in the range of an edit none is left untouched. -/
theorem untouchedFrom_eq_nil {edits : List (Edit α)} {e : Edit α} (he : e ∈ edits) {k : Nat}
    {xs : List α} (hstart : e.start ≤ k) (hstop : k + xs.length ≤ e.stop) :
    untouchedFrom edits k xs = [] := by
  induction xs generalizing k with
  | nil => rfl
  | cons x rest ih =>
      rw [List.length_cons] at hstop
      have hcovered : (edits.any fun f => f.start ≤ k && k < f.stop) = true := by
        rw [List.any_eq_true]
        exact ⟨e, he, by simp only [Bool.and_eq_true, decide_eq_true_eq]; omega⟩
      rw [untouchedFrom, if_pos hcovered, ih (by omega) (by omega)]

/-- A pass keeps the items that no edit covers, in their order. -/
theorem untouchedFrom_sublist_of_spliceFrom {data out : List α} {edits order : List (Edit α)}
    {cursor : Nat} (h : spliceFrom data cursor order = .ok out) (hmem : ∀ e ∈ order, e ∈ edits)
    (hforward : ∀ e ∈ order, e.Forward) (hwithin : ∀ e ∈ order, e.stop ≤ data.length) :
    (untouchedFrom edits cursor (data.drop cursor)).Sublist out := by
  induction order generalizing cursor out with
  | nil =>
      obtain rfl := Except.ok.inj h
      exact untouchedFrom_sublist edits cursor _
  | cons e rest ih =>
      obtain ⟨hcursor, tail, htail, rfl⟩ := spliceFrom_cons_iff.1 h
      have hstart : e.start ≤ e.stop := hforward e List.mem_cons_self
      have hstop : e.stop ≤ data.length := hwithin e List.mem_cons_self
      have ih := ih htail (fun f hf => hmem f (List.mem_cons_of_mem e hf))
        (fun f hf => hforward f (List.mem_cons_of_mem e hf))
        fun f hf => hwithin f (List.mem_cons_of_mem e hf)
      have hlength : ∀ {a b : Nat}, a ≤ b → b ≤ data.length → a + (stretch data a b).length = b := by
        intro a b hab hb
        rw [stretch, List.length_drop, List.length_take]
        omega
      have hsplit : data.drop cursor
          = stretch data cursor e.start ++ (stretch data e.start e.stop ++ data.drop e.stop) := by
        rw [stretch_append_drop data hstart, stretch_append_drop data hcursor]
      rw [hsplit, untouchedFrom_append, hlength hcursor (hstart.trans hstop), untouchedFrom_append,
        hlength hstart hstop,
        untouchedFrom_eq_nil (hmem e List.mem_cons_self) (Nat.le_refl e.start)
          (Nat.le_of_eq (hlength hstart hstop)),
        List.nil_append]
      exact ((untouchedFrom_sublist edits cursor _).trans (List.sublist_append_left _ e.content)).append ih

/-! ### Texts -/

/-- What the edits of a text come to. -/
structure ExactEdit (source : String) (edits : List TextEdit) : Prop where
  refused_iff : (∃ o, editText source edits = .error (.overlap o)) ↔ Overlapping edits
  applied : ¬ Overlapping edits → ∃ code, editText source edits = .ok code ∧
    (∃ order, Arranged edits order) ∧
    (∀ order, Arranged edits order → bytesOf code = oneAtATime (bytesOf source) order) ∧
    (untouched (bytesOf source) edits).Sublist (bytesOf code)
  reordered : ∀ edits' : List TextEdit,
    (∀ a b, edits'.filter (Edit.hasRange a b) = edits.filter (Edit.hasRange a b)) →
      editText source edits' = editText source edits
  permuted : ∀ edits' : List TextEdit, edits'.Perm edits →
    (edits.Pairwise fun e f => (e.start, e.stop) ≠ (f.start, f.stop)) →
      editText source edits' = editText source edits

theorem editText_congr (source : String) {edits edits' : List TextEdit}
    (h : ∀ a b, edits'.filter (Edit.hasRange a b) = edits.filter (Edit.hasRange a b)) :
    editText source edits' = editText source edits := by
  have hsplice : splice (bytesOf source) edits' = splice (bytesOf source) edits :=
    congrArg (spliceFrom (bytesOf source) 0) (inOrder_congr h)
  rw [editText, editText, hsplice]

/-- A place that divides a text lies within its bytes. -/
theorem Text.Divides.le_length {source : String} {k : Nat} (h : Text.Divides source.toList k) :
    k ≤ (bytesOf source).length := by
  obtain ⟨run, ⟨rest, hrest⟩, rfl⟩ := h
  rw [length_bytesOf, ← hrest, Text.byteLength_append]
  exact Nat.le_add_right _ _

/-- Edits of a text are refused as overlapping exactly if the edits of its bytes are. -/
theorem editText_eq_overlap_iff {source : String} {edits : List TextEdit} {o : Overlap} :
    editText source edits = .error (.overlap o) ↔ splice (bytesOf source) edits = .error o := by
  rw [editText]
  cases splice (bytesOf source) edits with
  | error o' => simp
  | ok bytes =>
      simp only [reduceCtorEq, iff_false]
      split <;> simp

/-- **Edits are applied exactly.**  Edits that divide no character of a text are refused exactly if
two of them overlap.  Otherwise they give the text that replacing one range after the other gives,
from the last position to the first; the bytes that no edit covers stand in it in their order; and
the order in which edits with different ranges are listed does not matter. -/
theorem exact_editText {source : String} {edits : List TextEdit}
    (hforward : ∀ e ∈ edits, e.start ≤ e.stop)
    (hwhole : ∀ e ∈ edits, TextEdit.Whole source.toList e) : ExactEdit source edits where
  refused_iff := by
    simp only [editText_eq_overlap_iff]
    exact splice_eq_error_iff (bytesOf source) hforward
  applied := by
    intro happart
    obtain ⟨code, hcode⟩ := exists_editText hforward
      ((not_overlapping_iff.1 happart).imp fun h => Edit.clear_iff.2 h) hwhole
    have hsplice : spliceFrom (bytesOf source) 0 (inOrder edits) = .ok (bytesOf code) :=
      splice_of_editText hcode
    have hforward' : ∀ e ∈ inOrder edits, e.Forward := fun e he => hforward e (mem_inOrder.1 he)
    have hwithin : ∀ e ∈ inOrder edits, e.stop ≤ (bytesOf source).length :=
      fun e he => (hwhole e (mem_inOrder.1 he)).stop.le_length
    refine ⟨code, hcode, ⟨inOrder edits, arranged_inOrder hforward happart⟩, fun order horder => ?_, ?_⟩
    · rw [eq_inOrder_of_arranged hforward happart horder,
        oneAtATime_of_spliceFrom hsplice hforward' hwithin]
      rfl
    · exact untouchedFrom_sublist_of_spliceFrom hsplice (fun e he => mem_inOrder.1 he) hforward' hwithin
  reordered := fun _ h => editText_congr source h
  permuted := fun _ hperm hdistinct =>
    editText_congr source (filter_hasRange_of_perm hperm hdistinct)

/-- Edits of "aéb" that touch each other: two insertions and a replacement in front of `b`, listed
before the replacement of the two bytes of `é`. -/
def touching : List TextEdit :=
  [textEdit 3 4 "B", textEdit 3 3 "1", textEdit 3 3 "2", textEdit 1 3 "e"]

theorem exact_editText_touching : ExactEdit "aéb" touching ∧ ¬ Overlapping touching ∧
    editText "aéb" touching = .ok "ae12B" := by
  have hone : Text.Divides "aéb".toList 1 := ⟨['a'], by decide, by decide⟩
  have hthree : Text.Divides "aéb".toList 3 := ⟨['a', 'é'], by decide, by decide⟩
  have hfour : Text.Divides "aéb".toList 4 := ⟨['a', 'é', 'b'], by decide, by decide⟩
  refine ⟨exact_editText (by decide) fun e he => ?_, ?_, ?_⟩
  · simp only [touching, List.mem_cons, List.not_mem_nil, or_false] at he
    rcases he with rfl | rfl | rfl | rfl
    · exact TextEdit.whole_textEdit hthree hfour "B"
    · exact TextEdit.whole_textEdit hthree hthree "1"
    · exact TextEdit.whole_textEdit hthree hthree "2"
    · exact TextEdit.whole_textEdit hone hthree "e"
  · rw [not_overlapping_iff]
    decide
  · simp only [editText, splice, mergeSort_eq_insertionSort]
    decide +kernel

end SketchHost
