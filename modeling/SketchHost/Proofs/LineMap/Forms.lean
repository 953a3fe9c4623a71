/-
**Where a form finds a number.**

Each form of a mention is a setting for a whole run of digits: what stands ahead of the run, and what
stands behind it.  What a form finds does not depend on the digits of any number, and no find begins
inside another one of its form.

* `LineMap.Setting`, `LineMap.Setting.At` — a run of digits in a setting;
* `LineMap.Form.FindsIn` — a form finds exactly the runs in a setting;
* `LineMap.Setting.Lawful` — what the settings of the forms have in common;
* `LineMap.exists_setting` — every form has a lawful setting;
* `LineMap.find_renumbered` — what a form finds in a text it finds in a renumbered one.
-/

import SketchHost.LineMap.Mention
import SketchHost.Proofs.Text.Renumbering
import Mathlib.Data.List.Forall2

set_option relaxedAutoImplicit false
set_option autoImplicit false

namespace SketchHost

namespace LineMap

open Text

/-! ### Settings -/

/-- The setting of a number: what stands ahead of its digits, behind a character if there is one, and
what stands behind them, with the number of characters of it that belong to the find. -/
structure Setting where
  ahead : Option Char → List Char → Prop
  behind : List Char → Nat → Prop

/-- At the head of a text, a whole run of digits stands in a setting. -/
def Setting.At (s : Setting) (before : Option Char) (cs : List Char) (f : Found) : Prop :=
  ∃ lead rest, cs = lead ++ (f.digits ++ rest) ∧ f.lead = lead.length ∧ IsRun f.digits
    ∧ EndsRun rest ∧ s.ahead before lead ∧ s.behind rest f.tail

/-- A form finds exactly the runs in a setting. -/
def Form.FindsIn (form : Form) (s : Setting) : Prop :=
  ∀ before cs f, form before cs = some f ↔ s.At before cs f

/-- The word `line` in any case, and blanks. -/
def wordSetting : Setting where
  ahead _ lead := ∃ word blanks, lead = word ++ blanks
    ∧ List.Forall₂ (fun letter c => isLetter letter c = true) "line".toList word
    ∧ blanks ≠ [] ∧ ∀ c ∈ blanks, isBlank c = true
  behind _ n := n = 0

/-- An opening parenthesis ahead, a column and a closing one behind. -/
def pairSetting : Setting where
  ahead _ lead := lead = ['(']
  behind rest n := ∃ column more, rest = ':' :: (column ++ ')' :: more) ∧ IsRun column
    ∧ n = column.length + 2

/-- A colon that follows no digit and blanks ahead, blanks and a parenthesis or a comma behind. -/
def colonSetting : Setting where
  ahead before lead := before.any isDigit = false
    ∧ ∃ blanks, lead = ':' :: blanks ∧ ∀ c ∈ blanks, isBlank c = true
  behind rest n := ∃ gap c more, rest = gap ++ c :: more ∧ (∀ x ∈ gap, isBlank x = true)
    ∧ (c = ')' ∨ c = ',') ∧ n = gap.length + 1

/-- Brackets. -/
def bracketSetting : Setting where
  ahead _ lead := lead = ['[']
  behind rest n := ∃ more, rest = ']' :: more ∧ n = 1

/-- A text before which a column ends: it is empty, or begins with a parenthesis or a blank. -/
def EndsColumn (cs : List Char) : Prop :=
  ∀ c ∈ cs.head?, c = ')' ∨ isBlank c = true

theorem EndsColumn.endsRun {cs : List Char} (h : EndsColumn cs) : EndsRun cs := by
  intro c hc
  rcases h c hc with rfl | hblank
  · decide
  · exact isDigit_of_isBlank hblank

/-- A colon ahead, a column behind. -/
def frameSetting : Setting where
  ahead _ lead := lead = [':']
  behind rest n := ∃ column more, rest = ':' :: (column ++ more) ∧ IsRun column
    ∧ EndsColumn more ∧ n = column.length + 1

/-! ### What the forms find -/

theorem digitRun?_eq_some_iff {cs ds rest : List Char} :
    digitRun? cs = some (ds, rest) ↔ cs = ds ++ rest ∧ IsRun ds ∧ EndsRun rest := by
  rw [digitRun?]
  cases hrun : cs.takeWhile isDigit with
  | nil =>
      constructor
      · intro h
        simp at h
      · rintro ⟨rfl, hds, hrest⟩
        rw [(takeWhile_dropWhile_iff.2 ⟨rfl, hds.2, hrest⟩).1] at hrun
        exact absurd hrun hds.1
  | cons d tail =>
      have hne : cs.takeWhile isDigit ≠ [] := by simp [hrun]
      simp only [Option.some.injEq, Prod.mk.injEq]
      rw [← hrun]
      constructor
      · intro h
        obtain ⟨hcs, hds, hrest⟩ := takeWhile_dropWhile_iff.1 h
        exact ⟨hcs, ⟨h.1 ▸ hne, hds⟩, hrest⟩
      · rintro ⟨hcs, hds, hrest⟩
        exact takeWhile_dropWhile_iff.2 ⟨hcs, hds.2, hrest⟩

/-- What is read behind a run of digits is read behind all of it. -/
theorem exists_of_digitRun?_bind {α : Type} {cs : List Char} {a : α}
    {next : List Char × List Char → Option α} (h : (digitRun? cs).bind next = some a) :
    ∃ ds rest, cs = ds ++ rest ∧ IsRun ds ∧ EndsRun rest ∧ next (ds, rest) = some a := by
  obtain ⟨⟨ds, rest⟩, hrun, hnext⟩ := Option.bind_eq_some_iff.1 h
  obtain ⟨hcs, hds, hrest⟩ := digitRun?_eq_some_iff.1 hrun
  exact ⟨ds, rest, hcs, hds, hrest, hnext⟩

theorem afterWord?_eq_some_iff {word cs rest : List Char} :
    afterWord? word cs = some rest ↔ ∃ spelled, cs = spelled ++ rest
      ∧ List.Forall₂ (fun letter c => isLetter letter c = true) word spelled := by
  induction word generalizing cs with
  | nil =>
      rw [afterWord?_nil, Option.some.injEq]
      constructor
      · rintro rfl
        exact ⟨[], rfl, .nil⟩
      · rintro ⟨spelled, rfl, hspelled⟩
        cases hspelled
        rfl
  | cons letter word ih =>
      cases cs with
      | nil =>
          constructor
          · intro h
            simp [afterWord?] at h
          · rintro ⟨spelled, hcs, hspelled⟩
            cases hspelled
            simp at hcs
      | cons c cs =>
          rw [afterWord?]
          constructor
          · intro h
            split at h
            · next hletter =>
                obtain ⟨spelled, rfl, hspelled⟩ := ih.1 h
                exact ⟨c :: spelled, rfl, .cons hletter hspelled⟩
            · simp at h
          · rintro ⟨spelled, hcs, hspelled⟩
            cases hspelled with
            | cons hletter hspelled =>
                obtain ⟨rfl, rfl⟩ := List.cons.inj hcs
                rw [if_pos hletter]
                exact ih.2 ⟨_, rfl, hspelled⟩

/-- A run of digits is followed by what does not begin with a blank, and begins with no blank. -/
theorem head_of_isRun {ds : List Char} (h : IsRun ds) (rest : List Char) :
    ∀ c ∈ (ds ++ rest).head?, isBlank c = false := by
  obtain ⟨d, ds, rfl⟩ := List.exists_cons_of_ne_nil h.1
  rintro c hc
  obtain rfl : d = c := by simpa using hc
  exact isBlank_of_isDigit (h.2 d List.mem_cons_self)

theorem findsIn_wordForm : Form.FindsIn wordForm wordSetting := by
  intro before cs f
  constructor
  · intro h
    simp only [wordForm, Option.bind_eq_bind, Option.bind_eq_some_iff] at h
    obtain ⟨after, hafter, h⟩ := h
    obtain ⟨word, rfl, hword⟩ := afterWord?_eq_some_iff.1 hafter
    have hlength : word.length = 4 := hword.length_eq.symm
    split at h
    · simp at h
    · next hne =>
        obtain ⟨ds, rest, hcs, hds, hrest, h⟩ := exists_of_digitRun?_bind h
        obtain rfl := Option.some.inj h
        have hblanks : after = after.takeWhile isBlank ++ (ds ++ rest) := by
          rw [← hcs]
          exact List.takeWhile_append_dropWhile.symm
        refine ⟨word ++ after.takeWhile isBlank, rest, ?_, ?_, hds, hrest,
          ⟨word, _, rfl, hword, by simpa using hne, List.all_eq_true.1 List.all_takeWhile⟩, rfl⟩
        · rw [List.append_assoc, ← hblanks]
        · rw [List.length_append, hlength]
  · rintro ⟨lead, rest, rfl, hlead, hds, hrest, ⟨word, blanks, rfl, hword, hne, hblanks⟩, htail⟩
    obtain ⟨n, ds, t⟩ := f
    simp only [wordSetting] at hlead hds htail ⊢
    obtain ⟨htake, hdrop⟩ := takeWhile_dropWhile_iff.2 ⟨rfl, hblanks, head_of_isRun hds rest⟩
    have hlength : word.length = 4 := hword.length_eq.symm
    have hrun : digitRun? (ds ++ rest) = some (ds, rest) := digitRun?_eq_some_iff.2 ⟨rfl, hds, hrest⟩
    have hafter : afterWord? "line".toList (word ++ (blanks ++ (ds ++ rest)))
        = some (blanks ++ (ds ++ rest)) := afterWord?_eq_some_iff.2 ⟨word, rfl, hword⟩
    have hblank : blanks.isEmpty = false := by simpa using hne
    rw [List.length_append, hlength] at hlead
    simp only [wordForm, List.append_assoc, hafter, Option.bind_eq_bind, Option.bind_some, htake, hdrop,
      hrun, hblank]
    simp [hlead, htail]

theorem findsIn_pairForm : Form.FindsIn pairForm pairSetting := by
  intro before cs f
  constructor
  · intro h
    unfold pairForm at h
    split at h
    · obtain ⟨ds, rest, rfl, hds, hrest, h⟩ := exists_of_digitRun?_bind h
      dsimp only at h
      split at h
      · next behind _ =>
          obtain ⟨column, more, rfl, hcolumn, -, h⟩ := exists_of_digitRun?_bind h
          dsimp only at h
          split at h
          · next more' _ _ =>
              obtain rfl := Option.some.inj h
              exact ⟨['('], _, rfl, rfl, hds, hrest, rfl, column, more', rfl, hcolumn, rfl⟩
          · simp at h
      · simp at h
    · simp at h
  · rintro ⟨lead, rest, rfl, hlead, hds, hrest, rfl, column, more, rfl, hcolumn, htail⟩
    obtain ⟨n, ds, t⟩ := f
    dsimp only at hlead hds htail ⊢
    have hrun : digitRun? (ds ++ ':' :: (column ++ ')' :: more)) = some (ds, ':' :: (column ++ ')' :: more)) :=
      digitRun?_eq_some_iff.2 ⟨rfl, hds, hrest⟩
    have hcolumn : digitRun? (column ++ ')' :: more) = some (column, ')' :: more) :=
      digitRun?_eq_some_iff.2 ⟨rfl, hcolumn, by simp; decide⟩
    simp [pairForm, hrun, hcolumn, hlead, htail]

theorem findsIn_colonForm : Form.FindsIn colonForm colonSetting := by
  intro before cs f
  constructor
  · intro h
    unfold colonForm at h
    split at h
    · next after =>
        split at h
        · simp at h
        · next hbefore =>
            obtain ⟨ds, rest, hcs, hds, hrest, h⟩ := exists_of_digitRun?_bind h
            dsimp only at h
            have hblanks : after = after.takeWhile isBlank ++ (ds ++ rest) := by
              rw [← hcs]
              exact List.takeWhile_append_dropWhile.symm
            split at h
            · next c more hdrop =>
                split at h
                · next hc =>
                    obtain rfl := Option.some.inj h
                    have hgap : rest = rest.takeWhile isBlank ++ c :: more := by
                      rw [← hdrop]
                      exact List.takeWhile_append_dropWhile.symm
                    refine ⟨':' :: after.takeWhile isBlank, rest, ?_, ?_, hds, hrest,
                      ⟨by simpa using hbefore, _, rfl, List.all_eq_true.1 List.all_takeWhile⟩,
                      _, c, more, hgap, List.all_eq_true.1 List.all_takeWhile, by simpa using hc, rfl⟩
                    · rw [List.cons_append, ← hblanks]
                    · simp [Nat.add_comm]
                · simp at h
            · simp at h
    · simp at h
  · rintro ⟨lead, rest, rfl, hlead, hds, hrest, ⟨hbefore, blanks, rfl, hblanks⟩, gap, c, more, rfl,
      hgap, hc, htail⟩
    obtain ⟨n, ds, t⟩ := f
    dsimp only at hlead hds htail ⊢
    have hclose : ∀ x ∈ (c :: more).head?, isBlank x = false := by
      rcases hc with rfl | rfl <;> simp <;> decide
    obtain ⟨htake, hdrop⟩ := takeWhile_dropWhile_iff.2
      ⟨rfl, hblanks, head_of_isRun hds (gap ++ c :: more)⟩
    obtain ⟨htake', hdrop'⟩ := takeWhile_dropWhile_iff.2 ⟨rfl, hgap, hclose⟩
    have hrun : digitRun? (ds ++ (gap ++ c :: more)) = some (ds, gap ++ c :: more) :=
      digitRun?_eq_some_iff.2 ⟨rfl, hds, hrest⟩
    simp [colonForm, hbefore, htake, hdrop, hrun, htake', hdrop', hc, hlead, htail, Nat.add_comm]

theorem findsIn_bracketForm : Form.FindsIn bracketForm bracketSetting := by
  intro before cs f
  constructor
  · intro h
    unfold bracketForm at h
    split at h
    · obtain ⟨ds, rest, rfl, hds, hrest, h⟩ := exists_of_digitRun?_bind h
      dsimp only at h
      split at h
      · next more _ =>
          obtain rfl := Option.some.inj h
          exact ⟨['['], _, rfl, rfl, hds, hrest, rfl, more, rfl, rfl⟩
      · simp at h
    · simp at h
  · rintro ⟨lead, rest, rfl, hlead, hds, hrest, rfl, more, rfl, htail⟩
    obtain ⟨n, ds, t⟩ := f
    dsimp only at hlead hds htail ⊢
    have hrun : digitRun? (ds ++ ']' :: more) = some (ds, ']' :: more) :=
      digitRun?_eq_some_iff.2 ⟨rfl, hds, hrest⟩
    simp [bracketForm, hrun, hlead, htail]

theorem findsIn_frameForm : Form.FindsIn frameForm frameSetting := by
  intro before cs f
  constructor
  · intro h
    unfold frameForm at h
    split at h
    · obtain ⟨ds, rest, rfl, hds, hrest, h⟩ := exists_of_digitRun?_bind h
      dsimp only at h
      split at h
      · next behind _ =>
          obtain ⟨column, more, rfl, hcolumn, -, h⟩ := exists_of_digitRun?_bind h
          dsimp only at h
          split at h
          · next hends =>
              obtain rfl := Option.some.inj h
              exact ⟨[':'], _, rfl, rfl, hds, hrest, rfl, column, more, rfl, hcolumn,
                by simpa [EndsColumn, Option.all_eq_true] using hends, rfl⟩
          · simp at h
      · simp at h
    · simp at h
  · rintro ⟨lead, rest, rfl, hlead, hds, hrest, rfl, column, more, rfl, hcolumn, hends, htail⟩
    obtain ⟨n, ds, t⟩ := f
    dsimp only at hlead hds htail ⊢
    have hrun : digitRun? (ds ++ ':' :: (column ++ more)) = some (ds, ':' :: (column ++ more)) :=
      digitRun?_eq_some_iff.2 ⟨rfl, hds, hrest⟩
    have hcolumn : digitRun? (column ++ more) = some (column, more) :=
      digitRun?_eq_some_iff.2 ⟨rfl, hcolumn, hends.endsRun⟩
    have hmore : (more.head?.all fun c => c == ')' || isBlank c) = true := by
      simpa [EndsColumn, Option.all_eq_true] using hends
    simp [frameForm, hrun, hcolumn, hmore, hlead, htail]

/-! ### What settings have in common -/

/-- The settings of the forms: something without digits stands ahead; whether a run stands in the
setting does not depend on the digits of any number; no run in the setting lies within what another
one covers; and what stands behind a colon that follows a digit is followed by a colon. -/
structure Setting.Lawful (s : Setting) : Prop where
  lead_ne : ∀ {before lead}, s.ahead before lead → lead ≠ []
  lead_digitless : ∀ {before lead}, s.ahead before lead → ∀ c ∈ lead, isDigit c = false
  ahead_congr : ∀ {before before' lead}, before.any isDigit = before'.any isDigit →
    s.ahead before lead → s.ahead before' lead
  behind_alike : ∀ {rest rest' n}, Alike rest rest' → s.behind rest n → ∃ n', s.behind rest' n'
  sparse : ∀ {before before' cs f f' k}, s.At before cs f → 0 < k → k < f.length →
    ¬ s.At before' (cs.drop k) f'
  after_colon : ∀ {before lead rest n}, s.ahead before lead → s.behind rest n →
    lead.getLast? = some ':' → lead = [':'] ∧ (before.any isDigit = true → rest.head? = some ':')

/-- No run in a setting lies within what another one covers if a character that opens the setting
opens it nowhere else in what it covers. -/
theorem sparse_of_opens {s : Setting} (opens : Char → Prop)
    (hlead : ∀ before lead, s.ahead before lead →
      ∃ c tail, lead = c :: tail ∧ opens c ∧ ∀ x ∈ tail, ¬ opens x)
    (hdigit : ∀ c, opens c → isDigit c = false)
    (hbehind : ∀ rest n, s.behind rest n → ∀ j < n, ∀ before f, ¬ s.At before (rest.drop j) f)
    {before before' : Option Char} {cs : List Char} {f f' : Found} {k : Nat} (h : s.At before cs f)
    (hpos : 0 < k) (hk : k < f.length) : ¬ s.At before' (cs.drop k) f' := by
  intro hat
  have hopens : ∃ c ∈ (cs.drop k).head?, opens c := by
    obtain ⟨lead, rest, hcs, -, -, -, hahead, -⟩ := hat
    obtain ⟨c, tail, rfl, hc, -⟩ := hlead _ _ hahead
    exact ⟨c, by simp [hcs], hc⟩
  obtain ⟨lead, rest, rfl, hf, hds, -, hahead, hrest⟩ := h
  obtain ⟨c, tail, rfl, -, htail⟩ := hlead _ _ hahead
  obtain ⟨j, rfl⟩ : ∃ j, k = j + 1 := ⟨k - 1, by omega⟩
  rw [Found.length, hf, List.length_cons] at hk
  rw [List.cons_append, List.drop_succ_cons, ← List.append_assoc] at hat hopens
  rcases Nat.lt_or_ge j (tail ++ f.digits).length with hj | hj
  · -- behind its first character, and before what stands behind the digits
    obtain ⟨x, hx, hxo⟩ := hopens
    have hmem : x ∈ tail ++ f.digits := by
      rw [List.head?_drop, List.getElem?_append_left hj] at hx
      exact List.mem_of_getElem? hx
    rcases List.mem_append.1 hmem with hx | hx
    · exact htail x hx hxo
    · exact absurd (hds.2 x hx) (by simp [hdigit x hxo])
  · rw [List.drop_append, List.drop_of_length_le hj, List.nil_append] at hat
    refine hbehind rest _ hrest _ ?_ _ _ hat
    rw [List.length_append] at hj ⊢
    omega

/-- What a setting covers behind a run does not begin with a character that opens it. -/
theorem not_at_of_opens {s : Setting} {opens : Char → Prop}
    (hlead : ∀ before lead, s.ahead before lead →
      ∃ c tail, lead = c :: tail ∧ opens c ∧ ∀ x ∈ tail, ¬ opens x)
    {rest : List Char} {n j : Nat} (htake : ∀ c ∈ rest.take n, ¬ opens c) (hj : j < n)
    (before : Option Char) (f : Found) : ¬ s.At before (rest.drop j) f := by
  rintro ⟨lead, rest', hrest, -, -, -, hahead, -⟩
  obtain ⟨c, tail, rfl, hc, -⟩ := hlead _ _ hahead
  refine htake c (List.mem_of_getElem? (i := j) ?_) hc
  rw [List.getElem?_take_of_lt hj, ← List.head?_drop, hrest]
  rfl

theorem ahead_word {before : Option Char} {lead : List Char} (h : wordSetting.ahead before lead) :
    ∃ l i n e blanks, lead = l :: i :: n :: e :: blanks ∧ l ∈ spellings 'l' ∧ i ∈ spellings 'i'
      ∧ n ∈ spellings 'n' ∧ e ∈ spellings 'e' ∧ blanks ≠ [] ∧ ∀ c ∈ blanks, isBlank c = true := by
  obtain ⟨word, blanks, rfl, hword, hblanks⟩ := h
  have hline : "line".toList = ['l', 'i', 'n', 'e'] := rfl
  rw [hline] at hword
  simp only [List.forall₂_cons_left_iff, List.forall₂_nil_left_iff] at hword
  obtain ⟨l, _, hl, ⟨i, _, hi, ⟨n, _, hn, ⟨e, _, he, rfl, rfl⟩, rfl⟩, rfl⟩, rfl⟩ := hword
  exact ⟨l, i, n, e, blanks, rfl, mem_spellings (by simp) hl, mem_spellings (by simp) hi,
    mem_spellings (by simp) hn, mem_spellings (by simp) he, hblanks⟩

theorem getLast_ne_colon (lead : List Char) {blanks : List Char} (hne : blanks ≠ [])
    (hblanks : ∀ c ∈ blanks, isBlank c = true) : (lead ++ blanks).getLast? ≠ some ':' := by
  intro h
  rw [List.getLast?_append_of_ne_nil _ hne] at h
  exact absurd (hblanks ':' (List.mem_of_getLast? h)) (by decide)

theorem lawful_wordSetting : wordSetting.Lawful where
  lead_ne h := by
    obtain ⟨l, i, n, e, blanks, rfl, -⟩ := ahead_word h
    simp
  lead_digitless h := by
    obtain ⟨l, i, n, e, blanks, rfl, hl, hi, hn, he, -, hblanks⟩ := ahead_word h
    simp only [List.forall_mem_cons]
    exact ⟨isDigit_of_mem_spellings (by simp) hl, isDigit_of_mem_spellings (by simp) hi,
      isDigit_of_mem_spellings (by simp) hn, isDigit_of_mem_spellings (by simp) he,
      fun c hc => isDigit_of_isBlank (hblanks c hc)⟩
  ahead_congr _ h := h
  behind_alike _ h := ⟨_, h⟩
  sparse h hpos hk := by
    refine sparse_of_opens (· ∈ spellings 'l') (fun _ _ h => ?_)
      (fun c hc => isDigit_of_mem_spellings (by simp) hc) (fun _ n hn j hj => ?_) h hpos hk
    · obtain ⟨l, i, n, e, blanks, rfl, hl, hi, hn, he, -, hblanks⟩ := ahead_word h
      -- no other letter of the word, and no blank, is a spelling of the first one
      refine ⟨l, _, rfl, hl, ?_⟩
      simp only [List.forall_mem_cons]
      refine ⟨notMem_spellings_first (by simp) hi, notMem_spellings_first (by simp) hn,
        notMem_spellings_first (by simp) he, fun c hc hcl => ?_⟩
      have hblank := hblanks c hc
      simp [isBlank_of_mem_spellings_first hcl] at hblank
    · obtain rfl : n = 0 := hn
      omega
  after_colon h _ hcolon := by
    obtain ⟨l, i, n, e, blanks, rfl, -, -, -, -, hne, hblanks⟩ := ahead_word h
    exact absurd hcolon (getLast_ne_colon [l, i, n, e] hne hblanks)

/-- A single character ahead, which is none of those that the setting covers behind a run. -/
theorem lawful_of_single {s : Setting} (opening : Char) (hdigit : isDigit opening = false)
    (hcolon : opening ≠ ':') (hahead : ∀ before lead, s.ahead before lead ↔ lead = [opening])
    (hbehind : ∀ rest rest' n, Alike rest rest' → s.behind rest n → ∃ n', s.behind rest' n')
    (htake : ∀ rest n, s.behind rest n → opening ∉ rest.take n) : s.Lawful where
  lead_ne h := by
    obtain rfl := (hahead _ _).1 h
    simp
  lead_digitless h := by
    obtain rfl := (hahead _ _).1 h
    simpa using hdigit
  ahead_congr _ h := (hahead _ _).2 ((hahead _ _).1 h)
  behind_alike := hbehind _ _ _
  sparse h hpos hk := by
    have hlead : ∀ before lead, s.ahead before lead →
        ∃ c tail, lead = c :: tail ∧ c = opening ∧ ∀ x ∈ tail, ¬ x = opening :=
      fun before lead h => ⟨opening, [], (hahead before lead).1 h, rfl, by simp⟩
    refine sparse_of_opens (· = opening) hlead (by rintro _ rfl; exact hdigit) ?_ h hpos hk
    intro rest n hrest j hj
    refine not_at_of_opens hlead ?_ hj
    rintro c hc rfl
    exact htake rest n hrest hc
  after_colon h _ hlast := by
    obtain rfl := (hahead _ _).1 h
    exact absurd (by simpa using hlast) hcolon

theorem lawful_pairSetting : pairSetting.Lawful := by
  refine lawful_of_single '(' (by decide) (by decide) (fun _ _ => Iff.rfl) ?_ ?_
  · rintro rest rest' n halike ⟨column, more, rfl, hcolumn, -⟩
    obtain ⟨_, rfl, hafter⟩ := halike.of_cons (by decide)
    obtain ⟨column', _, rfl, hcolumn', -, hclose⟩ := hafter.of_run hcolumn (endsRun_cons.2 (by decide))
    obtain ⟨more', rfl, -⟩ := hclose.of_cons (by decide)
    exact ⟨_, column', more', rfl, hcolumn', rfl⟩
  · rintro rest n ⟨column, more, rfl, hcolumn, rfl⟩ hmem
    have hcovered : ':' :: (column ++ ')' :: more) = (':' :: (column ++ [')'])) ++ more := by simp
    rw [hcovered, List.take_left' (by simp)] at hmem
    have hdigit : '(' ∈ column := by simpa using hmem
    exact absurd (hcolumn.2 _ hdigit) (by decide)

theorem lawful_bracketSetting : bracketSetting.Lawful := by
  refine lawful_of_single '[' (by decide) (by decide) (fun _ _ => Iff.rfl) ?_ ?_
  · rintro rest rest' n halike ⟨more, rfl, rfl⟩
    obtain ⟨more', rfl, -⟩ := halike.of_cons (by decide)
    exact ⟨1, more', rfl, rfl⟩
  · rintro rest n ⟨more, rfl, rfl⟩
    simp

theorem lawful_colonSetting : colonSetting.Lawful where
  lead_ne h := by
    obtain ⟨-, blanks, rfl, -⟩ := h
    simp
  lead_digitless h := by
    obtain ⟨-, blanks, rfl, hblanks⟩ := h
    rw [List.forall_mem_cons]
    exact ⟨by decide, fun c hc => isDigit_of_isBlank (hblanks c hc)⟩
  ahead_congr hbefore h := ⟨hbefore ▸ h.1, h.2⟩
  behind_alike halike h := by
    obtain ⟨gap, c, more, rfl, hgap, hc, -⟩ := h
    obtain ⟨_, rfl, hafter⟩ := halike.of_append fun x hx => isDigit_of_isBlank (hgap x hx)
    obtain ⟨more', rfl, -⟩ := hafter.of_cons (by rcases hc with rfl | rfl <;> decide)
    exact ⟨_, gap, c, more', rfl, hgap, hc, rfl⟩
  sparse h hpos hk := by
    have hlead : ∀ before lead, colonSetting.ahead before lead →
        ∃ c tail, lead = c :: tail ∧ c = ':' ∧ ∀ x ∈ tail, ¬ x = ':' := by
      rintro _ lead ⟨-, blanks, rfl, hblanks⟩
      refine ⟨':', blanks, rfl, rfl, ?_⟩
      rintro _ hx rfl
      exact absurd (hblanks _ hx) (by decide)
    refine sparse_of_opens (· = ':') hlead (by rintro _ rfl; decide) ?_ h hpos hk
    rintro rest n ⟨gap, c, more, rfl, hgap, hc, rfl⟩ j hj
    refine not_at_of_opens hlead ?_ hj
    rintro x hx rfl
    rw [List.append_cons, List.take_left' (by simp), List.mem_append, List.mem_singleton] at hx
    rcases hx with hx | rfl
    · exact absurd (hgap _ hx) (by decide)
    · simp at hc
  after_colon h _ hcolon := by
    obtain ⟨hbefore, blanks, rfl, hblanks⟩ := h
    cases blanks with
    | nil => exact ⟨rfl, fun hdigit => by simp [hbefore] at hdigit⟩
    | cons b blanks => exact absurd hcolon (getLast_ne_colon [':'] (by simp) hblanks)

theorem EndsColumn.alike {cs cs' : List Char} (h : EndsColumn cs) (halike : Alike cs cs') :
    EndsColumn cs' := by
  cases cs with
  | nil =>
      rw [Renumbered.of_nil halike]
      exact h
  | cons c cs =>
      obtain ⟨more, rfl, -⟩ := halike.of_cons (h.endsRun c rfl)
      exact h

theorem lawful_frameSetting : frameSetting.Lawful where
  lead_ne h := by
    obtain rfl := h
    simp
  lead_digitless h := by
    obtain rfl := h
    exact List.forall_mem_singleton.2 (by decide)
  ahead_congr _ h := h
  behind_alike halike h := by
    obtain ⟨column, more, rfl, hcolumn, hends, -⟩ := h
    obtain ⟨_, rfl, hafter⟩ := halike.of_cons (by decide)
    obtain ⟨column', more', rfl, hcolumn', -, hmore⟩ := hafter.of_run hcolumn hends.endsRun
    exact ⟨_, column', more', rfl, hcolumn', hends.alike hmore, rfl⟩
  sparse h hpos hk := by
    refine sparse_of_opens (· = ':') ?_ (by rintro _ rfl; decide) ?_ h hpos hk
    · rintro _ lead rfl
      exact ⟨':', [], rfl, rfl, by simp⟩
    · rintro rest n ⟨column, more, rfl, hcolumn, hends, rfl⟩ j hj before f
      rintro ⟨lead, rest', hrest, -, hds, hrest', rfl, column', more', rfl, -⟩
      cases j with
      | zero =>
          -- behind the second colon stands the column, and behind it no third colon
          have hcs : column ++ more = f.digits ++ ':' :: (column' ++ more') := by simpa using hrest
          obtain ⟨-, rfl⟩ := run_unique hcolumn hends.endsRun hds hrest' hcs
          have := hends ':' rfl
          exact absurd this (by decide)
      | succ j =>
          have hcolon : ':' ∈ column := by
            have hhead := congrArg List.head? hrest
            rw [List.drop_succ_cons, List.head?_drop, List.getElem?_append_left (by omega)] at hhead
            exact List.mem_of_getElem? hhead
          exact absurd (hcolumn.2 _ hcolon) (by decide)
  after_colon h hbehind _ := by
    obtain rfl := h
    obtain ⟨column, more, rfl, -⟩ := hbehind
    exact ⟨rfl, fun _ => rfl⟩

/-- **Every form finds exactly the runs of digits in a lawful setting.** -/
theorem exists_setting {form : Form} (h : form ∈ forms) :
    ∃ s : Setting, form.FindsIn s ∧ s.Lawful := by
  simp only [forms, List.mem_cons, List.not_mem_nil, or_false] at h
  rcases h with rfl | rfl | rfl | rfl | rfl
  · exact ⟨wordSetting, findsIn_wordForm, lawful_wordSetting⟩
  · exact ⟨pairSetting, findsIn_pairForm, lawful_pairSetting⟩
  · exact ⟨colonSetting, findsIn_colonForm, lawful_colonSetting⟩
  · exact ⟨bracketSetting, findsIn_bracketForm, lawful_bracketSetting⟩
  · exact ⟨frameSetting, findsIn_frameForm, lawful_frameSetting⟩

/-! ### Finds in renumbered texts -/

section Renumbered

variable {form : Form} {s : Setting} {R : Nat → List Char → List Char → Prop} {k : Nat}
  {cs out : List Char} {before before' : Option Char} {f : Found}

/-- What a form finds in a text it finds in a renumbered one, with the digits that are there. -/
theorem find_renumbered (hfind : form.FindsIn s) (hs : s.Lawful) (h : Renumbered R k cs out)
    (hbefore : before.any isDigit = before'.any isDigit) (hf : form before cs = some f) :
    ∃ f', form before' out = some f' ∧ f'.lead = f.lead ∧ IsRun f'.digits
      ∧ R (k + f.lead) f.digits f'.digits := by
  obtain ⟨lead, rest, rfl, hlead, hds, hrest, hahead, hbehind⟩ := (hfind _ _ _).1 hf
  obtain ⟨_, rfl, hrun⟩ := h.of_append (hs.lead_digitless hahead)
  obtain ⟨es, rest', rfl, hes, hrest', hR, hbehind'⟩ := hrun.of_run hds hrest
  obtain ⟨n', hn'⟩ := hs.behind_alike hbehind'.alike hbehind
  refine ⟨⟨lead.length, es, n'⟩, (hfind _ _ _).2 ?_, hlead.symm, hes, hlead ▸ hR⟩
  exact ⟨lead, rest', rfl, rfl, hes, hrest', hs.ahead_congr hbefore hahead, hn'⟩

theorem find_renumbered_none (hfind : form.FindsIn s) (hs : s.Lawful) (h : Renumbered R k cs out)
    (hbefore : before.any isDigit = before'.any isDigit) (hf : form before cs = none) :
    form before' out = none := by
  cases hout : form before' out with
  | none => rfl
  | some f' =>
      obtain ⟨f, hf', -⟩ := find_renumbered hfind hs (h.symm (j := 0)) hbefore.symm hout
      simp [hf] at hf'

/-- A form finds nothing at a digit. -/
theorem find_digit (hfind : form.FindsIn s) (hs : s.Lawful) {d : Char} (hd : isDigit d = true) :
    form before (d :: cs) = none := by
  cases hf : form before (d :: cs) with
  | none => rfl
  | some f =>
      obtain ⟨lead, rest, hcs, -, -, -, hahead, -⟩ := (hfind _ _ _).1 hf
      obtain ⟨c, lead, rfl⟩ := List.exists_cons_of_ne_nil (hs.lead_ne hahead)
      obtain ⟨rfl, -⟩ := List.cons.inj hcs
      simp [hs.lead_digitless hahead d List.mem_cons_self] at hd

end Renumbered

end LineMap

end SketchHost
