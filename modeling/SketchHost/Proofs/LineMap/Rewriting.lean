/-
**One exact splice.**

The numbers that are mapped in a text are whole runs of digits, each taken once and apart from the
others, and the column of a position is none of them.  Mapping puts the line of the source in the place
of each and keeps everything else.

* `LineMap.mem_spans_iff`, `LineMap.spans_apart` — the spans of a text are its mentions of positive
  numbers, from left to right;
* `LineMap.Mapper.lineFor_le` and its neighbours — between which bounds a line of the source lies;
* `LineMap.Mapper.Becomes`, `LineMap.Mapper.renumbered_renumber` — what becomes of a run of digits;
* `LineMap.start_ne_column` — a column is no mention;
* `LineMap.Mapper.mapsExactly` — **mapping a text is one exact splice**.
-/

import SketchHost.LineMap.Mapper
import SketchHost.Proofs.LineMap.Search

set_option relaxedAutoImplicit false
set_option autoImplicit false

namespace SketchHost

namespace LineMap

open Text

variable {text : List Char}

/-! ### Spans -/

theorem mem_of_mem_insertMention {m x : Mention} {found : List Mention}
    (h : x ∈ insertMention m found) : x = m ∨ x ∈ found := by
  induction found with
  | nil => exact Or.inl (List.mem_singleton.1 h)
  | cons y rest ih =>
      rw [insertMention] at h
      split at h
      · exact List.mem_cons.1 h
      · split at h
        · exact Or.inr h
        · rcases List.mem_cons.1 h with rfl | h
          · exact Or.inr List.mem_cons_self
          · exact (ih h).imp_right (List.mem_cons_of_mem y)

theorem mem_insertMention {m x : Mention} {found : List Mention} (h : x ∈ found) :
    x ∈ insertMention m found := by
  induction found with
  | nil => simp at h
  | cons y rest ih =>
      rw [insertMention]
      split
      · exact List.mem_cons_of_mem m h
      · split
        · exact h
        · rcases List.mem_cons.1 h with rfl | h
          · exact List.mem_cons_self
          · exact List.mem_cons_of_mem y (ih h)

theorem exists_start_insertMention (m : Mention) (found : List Mention) :
    ∃ x ∈ insertMention m found, x.start = m.start := by
  induction found with
  | nil => exact ⟨m, List.mem_cons_self, rfl⟩
  | cons y rest ih =>
      rw [insertMention]
      split
      · exact ⟨m, List.mem_cons_self, rfl⟩
      · split
        · next heq => exact ⟨y, List.mem_cons_self, (beq_iff_eq.1 heq).symm⟩
        · obtain ⟨x, hx, hstart⟩ := ih
          exact ⟨x, List.mem_cons_of_mem y hx, hstart⟩

theorem pairwise_insertMention {m : Mention} {found : List Mention}
    (h : found.Pairwise fun x y => x.start < y.start) :
    (insertMention m found).Pairwise fun x y => x.start < y.start := by
  induction found with
  | nil => simp [insertMention]
  | cons y rest ih =>
      obtain ⟨hfirst, hrest⟩ := List.pairwise_cons.1 h
      rw [insertMention]
      split
      · next hlt =>
          refine List.pairwise_cons.2 ⟨fun x hx => ?_, h⟩
          rcases List.mem_cons.1 hx with rfl | hx
          · exact hlt
          · exact Nat.lt_trans hlt (hfirst x hx)
      · split
        · exact h
        · next hlt hne =>
            refine List.pairwise_cons.2 ⟨fun x hx => ?_, ih hrest⟩
            rcases mem_of_mem_insertMention hx with rfl | hx
            · rw [beq_iff_eq] at hne
              omega
            · exact hfirst x hx

/-- Mentions put one after the other into a list are in order of their starts, and there is one for
each start. -/
theorem foldl_insertMention {ms found all : List Mention}
    (hall : ms.foldl (fun found m => insertMention m found) found = all)
    (h : found.Pairwise fun x y => x.start < y.start) :
    (all.Pairwise fun x y => x.start < y.start) ∧ (∀ x ∈ all, x ∈ ms ∨ x ∈ found)
      ∧ (∀ x ∈ found, x ∈ all) ∧ ∀ m ∈ ms, ∃ x ∈ all, x.start = m.start := by
  induction ms generalizing found with
  | nil =>
      obtain rfl : found = all := hall
      exact ⟨h, fun _ => Or.inr, fun _ => id, by simp⟩
  | cons m ms ih =>
      obtain ⟨hsorted, hfrom, hkept, hstarts⟩ := ih hall (pairwise_insertMention h)
      refine ⟨hsorted, fun x hx => ?_, fun x hx => hkept x (mem_insertMention hx), ?_⟩
      · rcases hfrom x hx with hx | hx
        · exact Or.inl (List.mem_cons_of_mem m hx)
        · rcases mem_of_mem_insertMention hx with rfl | hx
          · exact Or.inl List.mem_cons_self
          · exact Or.inr hx
      · rw [List.forall_mem_cons]
        obtain ⟨x, hx, hstart⟩ := exists_start_insertMention m found
        exact ⟨⟨x, hkept x hx, hstart⟩, hstarts⟩

theorem mem_positiveMentions_iff {m : Mention} :
    m ∈ positiveMentions text ↔ m ∈ mentions text ∧ 0 < m.value := by
  rw [positiveMentions, List.mem_filter, decide_eq_true_iff]

/-- Two mentions of a text that begin at one place are one. -/
theorem Mention.eq_of_start {m m' : Mention} (hm : m ∈ mentions text) (hm' : m' ∈ mentions text)
    (h : m.start = m'.start) : m = m' := by
  have hdigits : m.digits = m'.digits := (isWholeRun hm).eq (h ▸ isWholeRun hm')
  obtain ⟨start, digits⟩ := m
  obtain ⟨start', digits'⟩ := m'
  simp only at h hdigits
  rw [h, hdigits]

/-- The spans of a text are its mentions of positive numbers. -/
theorem mem_spans_iff {m : Mention} : m ∈ spans text ↔ m ∈ mentions text ∧ 0 < m.value := by
  obtain ⟨-, hfrom, -, hstarts⟩ := foldl_insertMention (rfl : _ = spans text) .nil
  constructor
  · intro hm
    have hm := (hfrom m hm).resolve_right (by simp)
    exact mem_positiveMentions_iff.1 hm
  · intro hm
    obtain ⟨x, hx, hstart⟩ := hstarts m (mem_positiveMentions_iff.2 hm)
    have hxm := mem_positiveMentions_iff.1 ((hfrom x hx).resolve_right (by simp))
    exact Mention.eq_of_start hxm.1 hm.1 hstart ▸ hx

/-- The spans of a text, in order, are apart. -/
theorem spans_apart : (spans text).Pairwise fun x y => x.stop < y.start := by
  obtain ⟨hsorted, -⟩ := foldl_insertMention (rfl : _ = spans text) .nil
  refine hsorted.imp_of_mem fun hx hy hlt => ?_
  exact (Mention.isWholeRun (mem_spans_iff.1 hx).1).apart (Mention.isWholeRun (mem_spans_iff.1 hy).1) hlt

/-! ### Lines of the source -/

namespace Mapper

variable (m : Mapper)

theorem lineCount_pos : 0 < m.lineCount :=
  numberOfLines_pos m.source

theorem lineFor_pos (line : Int) : 0 < m.lineFor line := by
  have hcount := m.lineCount_pos
  simp only [lineFor]
  split <;> omega

theorem lineFor_le_lineCount (line : Int) : m.lineFor line ≤ m.lineCount := by
  have hcount := m.lineCount_pos
  simp only [lineFor]
  split <;> omega

/-- A line of the source is no greater than the reported line. -/
theorem lineFor_le {n : Nat} (h : 0 < n) : m.lineFor n ≤ n := by
  simp only [lineFor]
  split <;> omega

/-! ### Runs of digits in a mapped text -/

/-- What becomes of a run of digits at a place of a text: the line of the source, if a mention of a
positive number begins there. -/
def Becomes (text : List Char) (k : Nat) (ds es : List Char) : Prop :=
  (∃ s ∈ spans text, s.start = k ∧ s.digits = ds ∧ es = decimal (m.lineFor s.value))
    ∨ (∀ s ∈ spans text, s.start ≠ k) ∧ es = ds

/-- **Mapping a text renumbers it.** -/
theorem renumbered_renumber (text : List Char) : Renumbered (m.Becomes text) 0 text (m.renumber text) := by
  have hforward : ∀ e ∈ (spans text).map m.editOf, e.Forward := by
    intro e he
    obtain ⟨s, -, rfl⟩ := List.mem_map.1 he
    exact Nat.le_add_right _ _
  have hclear : ((spans text).map m.editOf).Pairwise fun e f => e.Clear f.start f.stop :=
    List.pairwise_map.2 (spans_apart.imp fun h => Or.inl (Nat.le_of_lt h))
  obtain ⟨out, hout⟩ := exists_splice text hforward hclear
  rw [renumber, hout]
  refine renumbered_splice (fun e he => ?_) (fun k ds _ hk => ?_) hout
  · obtain ⟨s, hs, rfl⟩ := List.mem_map.1 he
    exact ⟨s.digits, Mention.isWholeRun (mem_spans_iff.1 hs).1, rfl, isRun_decimal _,
      Or.inl ⟨s, hs, rfl, rfl, rfl⟩⟩
  · exact Or.inr ⟨fun s hs => hk (m.editOf s) (List.mem_map_of_mem hs), rfl⟩

end Mapper

/-! ### Columns -/

/-- Behind a colon that follows a digit, a run that ends a position is no mention. -/
theorem start_ne_column {before column more : List Char} (hbefore : before.getLast?.any isDigit = true)
    (hcolumn : IsRun column) (hmore : EndsColumn more)
    (htext : text = before ++ ':' :: (column ++ more)) {m : Mention} (hm : m ∈ mentions text) :
    m.start ≠ before.length + 1 := by
  intro hstart
  obtain ⟨form, hform, a, b, f, rfl, hf, rfl⟩ := mem_mentions_iff.1 hm
  obtain ⟨s, hfind, hs⟩ := exists_setting hform
  obtain ⟨lead, rest, rfl, hlead, hds, hrest, hahead, hbehind⟩ := (hfind _ _ _).1 hf
  -- the text ahead of the digits is the text ahead of the column
  have hsame : (a ++ lead) ++ (f.digits ++ rest) = (before ++ [':']) ++ (column ++ more) := by
    simpa using htext
  have hlength : (a ++ lead).length = (before ++ [':']).length := by
    simpa [Found.mention, hlead] using hstart
  obtain ⟨hahead', hbehind'⟩ := List.append_inj hsame hlength
  obtain ⟨-, rfl⟩ := run_unique hds hrest hcolumn hmore.endsRun hbehind'
  have hcolon : lead.getLast? = some ':' := by
    have hlast := congrArg List.getLast? hahead'
    rwa [List.getLast?_append_of_ne_nil _ (hs.lead_ne hahead), List.getLast?_concat] at hlast
  obtain ⟨rfl, hafter⟩ := hs.after_colon hahead hbehind hcolon
  obtain ⟨rfl, -⟩ := List.append_inj' hahead' rfl
  exact absurd (hmore ':' (hafter hbefore)) (by decide)

/-- A position: a line and a column, in parentheses or after colons. -/
def IsPosition (before : Option Char) (cs : List Char) (f : Found) : Prop :=
  pairForm before cs = some f ∨ frameForm before cs = some f

/-- A position is a number and, behind a colon, a column that ends it. -/
theorem IsPosition.exists_column {before : Option Char} {cs : List Char} {f : Found}
    (h : IsPosition before cs f) :
    ∃ lead column more, cs = (lead ++ f.digits) ++ ':' :: (column ++ more) ∧ f.lead = lead.length
      ∧ IsRun f.digits ∧ IsRun column ∧ EndsColumn more ∧ f.tail ≤ column.length + 2 := by
  rcases h with h | h
  · obtain ⟨lead, _, rfl, hlead, hds, -, -, column, more, rfl, hcolumn, htail⟩ :=
      (findsIn_pairForm _ _ _).1 h
    have hmore : EndsColumn (')' :: more) := by simp [EndsColumn]
    exact ⟨lead, column, _, by simp, hlead, hds, hcolumn, hmore, by omega⟩
  · obtain ⟨lead, _, rfl, hlead, hds, -, -, column, more, rfl, hcolumn, hmore, htail⟩ :=
      (findsIn_frameForm _ _ _).1 h
    exact ⟨lead, column, more, by simp, hlead, hds, hcolumn, hmore, by omega⟩

/-- The column of a position is not mapped, and neither is anything else behind its number. -/
theorem IsPosition.column_kept {a b : List Char} {f : Found} (h : IsPosition a.getLast? b f)
    (htext : text = a ++ b) {s : Mention} (hs : s ∈ spans text) :
    s.stop ≤ a.length + f.lead + f.digits.length ∨ a.length + f.length ≤ s.start := by
  obtain ⟨lead, column, more, rfl, hlead, hds, hcolumn, hmore, htail⟩ := h.exists_column
  have hmention := (mem_spans_iff.1 hs).1
  obtain ⟨d, hd, hdigit⟩ := isDigit_getLast hds
  have hbefore : (a ++ (lead ++ f.digits)).getLast?.any isDigit = true := by
    rw [← List.append_assoc, List.getLast?_append_of_ne_nil _ hds.1, hd]
    exact hdigit
  have htext' : text = (a ++ (lead ++ f.digits)) ++ ':' :: (column ++ more) := by simp [htext]
  have hwhole : IsWholeRun text ((a ++ (lead ++ f.digits)).length + 1) column :=
    ⟨(a ++ (lead ++ f.digits)) ++ [':'], more, by simp [htext], List.length_append, hcolumn,
      by simp; decide, hmore.endsRun⟩
  have hne := start_ne_column hbefore hcolumn hmore htext' hmention
  rw [Found.length]
  simp only [List.length_append] at hne hwhole
  rcases Nat.lt_or_ge s.start (a.length + (lead.length + f.digits.length) + 1) with hlt | hge
  · have hapart : s.stop < _ := (Mention.isWholeRun hmention).apart hwhole hlt
    left
    omega
  · have hapart := hwhole.apart (Mention.isWholeRun hmention) (by omega)
    right
    omega

/-! ### Mapping a text -/

/-- The different values are values of spans, each once. -/
theorem mem_lineNumbers_iff {n : Nat} : n ∈ lineNumbers text ↔ ∃ s ∈ spans text, s.value = n := by
  rw [lineNumbers, List.mem_eraseDups, List.mem_map]
  simp only [mem_positiveMentions_iff, mem_spans_iff]

/-- Induction over a list, with the claim for every part of what follows its first item. -/
@[elab_as_elim]
theorem filter_induction {motive : List Nat → Prop} (nil : motive [])
    (cons : ∀ n ns, (∀ p : Nat → Bool, motive (ns.filter p)) → motive (n :: ns)) (ns : List Nat) :
    motive ns := by
  induction hn : ns.length using Nat.strongRecOn generalizing ns with
  | ind k ih =>
      subst hn
      cases ns with
      | nil => exact nil
      | cons n ns => exact cons n ns fun p => ih _ (Nat.lt_succ_of_le (List.length_filter_le p ns)) _ rfl

theorem nodup_eraseDups (ns : List Nat) : ns.eraseDups.Nodup := by
  induction ns using filter_induction with
  | nil => simp
  | cons n ns ih =>
      rw [List.eraseDups_cons, List.nodup_cons, List.mem_eraseDups]
      exact ⟨by simp, ih _⟩

/-- A text mapped by one exact splice: `out` is what becomes of the text, and `ns` are the numbers that
it mentions. -/
structure Mapper.MapsExactly (m : Mapper) (text out : List Char) (ns : List Nat) : Prop where
  /-- A span is a whole run of digits. -/
  whole : ∀ s ∈ spans text, IsWholeRun text s.start s.digits
  /-- The spans are in order and apart. -/
  apart : (spans text).Pairwise fun s t => s.stop < t.start
  /-- The spans are the runs that stand in one of the forms and denote a positive number. -/
  recognised : ∀ s, s ∈ spans text ↔ s ∈ mentions text ∧ 0 < s.value
  /-- Each of them becomes the numeral of its line of the source, and all else is kept. -/
  renumbered : Renumbered (m.Becomes text) 0 text out
  /-- The source has the line. -/
  line_mem : ∀ s ∈ spans text, 1 ≤ m.lineFor s.value ∧ m.lineFor s.value ≤ m.lineCount
  /-- Nothing is mapped behind the number of a position. -/
  column_kept : ∀ a b f, text = a ++ b → IsPosition a.getLast? b f → ∀ s ∈ spans text,
    s.stop ≤ a.length + f.lead + f.digits.length ∨ a.length + f.length ≤ s.start
  /-- The numbers of the text are those of its spans, each once. -/
  mem_numbers : ∀ n, n ∈ ns ↔ ∃ s ∈ spans text, s.value = n
  nodup : ns.Nodup
  /-- A text without numbers is kept. -/
  unchanged : ns = [] → out = text

/-- **Mapping a text is one exact splice.** -/
theorem Mapper.mapsExactly (m : Mapper) (h : isReadable text = true) :
    ∃ out ns, m.mapMessage text = .ok out ∧ extract text = .ok ns ∧ m.MapsExactly text out ns := by
  refine ⟨m.renumber text, lineNumbers text, if_pos h, if_pos h, ?_⟩
  refine
    { whole := fun s hs => Mention.isWholeRun (mem_spans_iff.1 hs).1
      apart := spans_apart
      recognised := fun s => mem_spans_iff
      renumbered := m.renumbered_renumber text
      line_mem := fun s _ => ⟨m.lineFor_pos _, m.lineFor_le_lineCount _⟩
      column_kept := fun a b f htext hposition s hs => hposition.column_kept htext hs
      mem_numbers := fun n => mem_lineNumbers_iff
      nodup := nodup_eraseDups _
      unchanged := fun hnone => (m.renumbered_renumber text).eq_of_forall ?_ }
  rintro k ds es (⟨s, hs, -⟩ | ⟨-, hes⟩)
  · have hmem := mem_lineNumbers_iff.2 ⟨s, hs, rfl⟩
    simp [hnone] at hmem
  · exact hes

/-- A source of four lines behind ten others. -/
def fourLines : Mapper :=
  ⟨"a
b
c
d".toList, 10⟩

/-- A trace in which all the forms meet, with digits of another script, zero, and a column before a
comma. -/
def meeting : List Char :=
  "app.js:12:34) at (11:7) Line \u0661\u0663 : 14) [99], [0] x:5:6, line 013".toList

/-- Each number of the trace is mapped once, and the columns stay. -/
theorem mapsExactly_meeting : isReadable meeting = true ∧
    ∃ out ns, fourLines.mapMessage meeting = .ok out ∧ Mapper.extract meeting = .ok ns
      ∧ fourLines.MapsExactly meeting out ns
      ∧ out = "app.js:2:34) at (1:7) Line 3 : 4) [4], [0] x:5:6, line 3".toList
      ∧ ns = [13, 11, 14, 99, 12] := by
  have hreadable : isReadable meeting = true := by decide +kernel
  have hmapped : fourLines.mapMessage meeting
      = .ok "app.js:2:34) at (1:7) Line 3 : 4) [4], [0] x:5:6, line 3".toList := by
    simp only [Mapper.mapMessage, Mapper.renumber, splice, mergeSort_eq_insertionSort]
    decide +kernel
  have hnumbers : Mapper.extract meeting = .ok [13, 11, 14, 99, 12] := by decide +kernel
  obtain ⟨out, ns, hout, hns, hexact⟩ := fourLines.mapsExactly hreadable
  exact ⟨hreadable, out, ns, hout, hns, hexact, Except.ok.inj (hout.symm.trans hmapped),
    Except.ok.inj (hns.symm.trans hnumbers)⟩

end LineMap

end SketchHost
