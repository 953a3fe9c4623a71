/-
**The mentions of a text.**

A search from left to right goes on behind what it has found.  No find begins inside another one, so
nothing is missed, and the mentions of a text are the finds of the forms at all its places.  Each is a
whole run of digits, and a renumbered text has a mention for every mention of the text and no other.

* `LineMap.everywhere`, `LineMap.scan_eq_everywhere` — the finds of a form at all places of a text;
* `LineMap.mem_mentions_iff` — where a text mentions a number;
* `LineMap.Mention.isWholeRun` — a mention is a whole run of digits;
* `LineMap.scan_renumbered`, `LineMap.mentions_renumbered` — the mentions of a renumbered text.
-/

import SketchHost.Proofs.LineMap.Forms

set_option relaxedAutoImplicit false
set_option autoImplicit false

namespace SketchHost

namespace LineMap

open Text

variable {form : Form} {s : Setting} {before : Option Char} {start : Nat} {text : List Char}

/-! ### Finds at all places -/

/-- The mention of a find at a place. -/
def Found.mention (f : Found) (start : Nat) : Mention :=
  ⟨start + f.lead, f.digits⟩

/-- What a form finds at the places of a text, where `before` is the character before the text, and
`start` its position. -/
def everywhere (form : Form) : Option Char → Nat → List Char → List Mention
  | _, _, [] => []
  | before, start, c :: rest =>
      ((form before (c :: rest)).map fun f => f.mention start).toList
        ++ everywhere form (some c) (start + 1) rest

/-- A search that skips places at which there is nothing finds what there is. -/
theorem scanFrom_eq_everywhere (hfind : form.FindsIn s) (hs : s.Lawful) {skip : Nat}
    (hskip : ∀ j < skip, ∀ before', form before' (text.drop j) = none) :
    scanFrom form skip before start text = everywhere form before start text := by
  induction text generalizing skip before start with
  | nil => rw [scanFrom, everywhere]
  | cons c rest ih =>
      cases skip with
      | succ skip =>
          have hnone : form before (c :: rest) = none := hskip 0 (Nat.succ_pos skip) before
          rw [scanFrom, everywhere, hnone]
          exact ih fun j hj => hskip (j + 1) (Nat.succ_lt_succ hj)
      | zero =>
          rw [scanFrom, everywhere]
          cases hf : form before (c :: rest) with
          | none => exact ih (by simp)
          | some f =>
              refine congrArg (f.mention start :: ·) (ih fun j hj before' => ?_)
              rw [Option.eq_none_iff_forall_ne_some]
              intro f' hf'
              refine hs.sparse ((hfind _ _ _).1 hf) (Nat.succ_pos j) (by omega) ((hfind before' _ f').1 ?_)
              rwa [List.drop_succ_cons]

/-- Nothing is missed by a search. -/
theorem scan_eq_everywhere (hform : form ∈ forms) : scan text form = everywhere form none 0 text := by
  obtain ⟨s, hfind, hs⟩ := exists_setting hform
  exact scanFrom_eq_everywhere hfind hs (by simp)

/-- The character before a text, if the text is behind another one. -/
theorem getLast?_cons_or (c : Char) (cs : List Char) (before : Option Char) :
    (c :: cs).getLast?.or before = cs.getLast?.or (some c) := by
  rw [List.getLast?_cons]
  cases cs.getLast? <;> rfl

theorem mem_everywhere_iff (hfind : form.FindsIn s) (hs : s.Lawful) {m : Mention} :
    m ∈ everywhere form before start text ↔
      ∃ a b f, text = a ++ b ∧ form (a.getLast?.or before) b = some f
        ∧ m = f.mention (start + a.length) := by
  induction text generalizing before start with
  | nil =>
      constructor
      · simp [everywhere]
      · rintro ⟨a, b, f, htext, hf, -⟩
        obtain ⟨rfl, rfl⟩ := List.append_eq_nil_iff.1 htext.symm
        obtain ⟨lead, rest, hcs, -, -, -, hahead, -⟩ := (hfind _ _ _).1 hf
        exact absurd (List.append_eq_nil_iff.1 hcs.symm).1 (hs.lead_ne hahead)
  | cons c rest ih =>
      rw [everywhere, List.mem_append, ih]
      constructor
      · rintro (h | ⟨a, b, f, rfl, hf, rfl⟩)
        · obtain ⟨f, hf, rfl⟩ : ∃ f, form before (c :: rest) = some f ∧ f.mention start = m := by
            simpa using h
          exact ⟨[], c :: rest, f, rfl, hf, rfl⟩
        · refine ⟨c :: a, b, f, rfl, by rwa [getLast?_cons_or], ?_⟩
          rw [List.length_cons, Nat.add_assoc, Nat.add_comm 1]
      · rintro ⟨a, b, f, htext, hf, rfl⟩
        cases a with
        | nil =>
            obtain rfl : c :: rest = b := htext
            left
            have hf : form before (c :: rest) = some f := hf
            simp [hf]
        | cons c' a =>
            obtain ⟨rfl, rfl⟩ := List.cons.inj htext
            right
            refine ⟨a, b, f, rfl, by rwa [← getLast?_cons_or], ?_⟩
            rw [List.length_cons, Nat.add_assoc, Nat.add_comm 1]

/-- **A text mentions the numbers that its forms find at its places.** -/
theorem mem_mentions_iff {m : Mention} :
    m ∈ mentions text ↔ ∃ form ∈ forms, ∃ a b f, text = a ++ b ∧ form a.getLast? b = some f
      ∧ m = f.mention a.length := by
  rw [mentions, List.mem_flatMap]
  refine exists_congr fun form => and_congr_right fun hform => ?_
  obtain ⟨s, hfind, hs⟩ := exists_setting hform
  rw [scan_eq_everywhere hform, mem_everywhere_iff hfind hs]
  simp only [Option.or_none, Nat.zero_add]

/-- Every mention is a whole run of digits. -/
theorem Mention.isWholeRun {m : Mention} (h : m ∈ mentions text) :
    IsWholeRun text m.start m.digits := by
  obtain ⟨form, hform, a, b, f, rfl, hf, rfl⟩ := mem_mentions_iff.1 h
  obtain ⟨s, hfind, hs⟩ := exists_setting hform
  obtain ⟨lead, rest, rfl, hlead, hds, hrest, hahead, -⟩ := (hfind _ _ _).1 hf
  refine ⟨a ++ lead, rest, by simp [Found.mention], by simp [Found.mention, hlead], hds, ?_, hrest⟩
  intro c hc
  rw [List.getLast?_append_of_ne_nil _ (hs.lead_ne hahead)] at hc
  exact hs.lead_digitless hahead c (List.mem_of_getLast? hc)

/-! ### Mentions of a renumbered text -/

/-- At the digits of a run there is nothing to be found. -/
theorem everywhere_run (hfind : form.FindsIn s) (hs : s.Lawful) {ds : List Char}
    (hds : ∀ c ∈ ds, isDigit c = true) :
    everywhere form before start (ds ++ text)
      = everywhere form (ds.getLast?.or before) (start + ds.length) text := by
  induction ds generalizing before start with
  | nil => simp
  | cons d ds ih =>
      rw [List.cons_append, everywhere, find_digit hfind hs (hds d List.mem_cons_self),
        Option.map_none, Option.toList_none, List.nil_append,
        ih fun c hc => hds c (List.mem_cons_of_mem d hc),
        getLast?_cons_or, List.length_cons, Nat.add_assoc, Nat.add_comm 1]

/-- A mention of a text, and the one that a renumbered text has in its place. -/
def RenumberedMention (R : Nat → List Char → List Char → Prop) (m m' : Mention) : Prop :=
  IsRun m'.digits ∧ R m.start m.digits m'.digits

variable {R : Nat → List Char → List Char → Prop} {out : List Char}

theorem everywhere_renumbered (hfind : form.FindsIn s) (hs : s.Lawful) {before' : Option Char}
    {k j : Nat} (h : Renumbered R k text out) (hbefore : before.any isDigit = before'.any isDigit) :
    List.Forall₂ (RenumberedMention R) (everywhere form before k text) (everywhere form before' j out) := by
  induction h generalizing before before' j with
  | nil => exact .nil
  | @keep k c cs cs' hc hrest ih =>
      rw [everywhere, everywhere]
      refine List.rel_append ?_ (ih rfl)
      have hwhole : Renumbered R k (c :: cs) (c :: cs') := .keep hc hrest
      cases hf : form before (c :: cs) with
      | none =>
          rw [find_renumbered_none hfind hs hwhole hbefore hf]
          exact .nil
      | some f =>
          obtain ⟨f', hf', -, hrun, hR⟩ := find_renumbered hfind hs hwhole hbefore hf
          rw [hf']
          exact .cons ⟨hrun, hR⟩ .nil
  | @run k ds es cs cs' hds _ hes _ _ ih =>
      rw [everywhere_run hfind hs hds.2, everywhere_run hfind hs hes.2]
      refine ih ?_
      -- the character before what follows is a digit in both texts
      obtain ⟨d, hd, hdigit⟩ := isDigit_getLast hds
      obtain ⟨e, he, hdigit'⟩ := isDigit_getLast hes
      simp [hd, he, hdigit, hdigit']

/-- **What a form finds in a text it finds in a renumbered one, in the same order, and no more.** -/
theorem scan_renumbered (h : Renumbered R 0 text out) (hform : form ∈ forms) :
    List.Forall₂ (RenumberedMention R) (scan text form) (scan out form) := by
  obtain ⟨s, hfind, hs⟩ := exists_setting hform
  rw [scan_eq_everywhere hform, scan_eq_everywhere hform]
  exact everywhere_renumbered hfind hs h rfl

theorem mentions_renumbered (h : Renumbered R 0 text out) :
    List.Forall₂ (RenumberedMention R) (mentions text) (mentions out) := by
  have hscan : List.Forall₂ (List.Forall₂ (RenumberedMention R)) (forms.map (scan text))
      (forms.map (scan out)) := by
    rw [List.forall₂_map_left_iff, List.forall₂_map_right_iff, List.forall₂_same]
    exact fun form hform => scan_renumbered h hform
  exact List.rel_flatten hscan

end LineMap

end SketchHost
