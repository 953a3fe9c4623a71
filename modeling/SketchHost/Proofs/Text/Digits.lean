/-
**Runs of digits.**

A text falls in one way into runs of digits and what stands between them.  Blanks and letters are no
digits, and the numeral of a number is a run of digits that denotes it and that is no longer than any
other run for the number or for a greater one.

* `Text.IsRun`, `Text.EndsRun` — a run of digits, and what may follow one;
* `Text.takeWhile_dropWhile_iff`, `Text.run_unique` — a text is divided after a run in one way;
* `Text.isDigit_of_isBlank`, `Text.isDigit_of_mem_spellings` — what is no digit;
* `Text.mem_spellings` — the characters that stand for a letter;
* `Text.isRun_decimal`, `Text.natOfDigits_decimal`, `Text.length_decimal_le` — numerals.
-/

import SketchHost.Text.Blank
import SketchHost.Text.Caseless
import SketchHost.Text.Digit
import Mathlib.Algebra.GroupWithZero.Nat
import Mathlib.Data.List.Induction

set_option relaxedAutoImplicit false
set_option autoImplicit false

namespace SketchHost

namespace Text

/-! ### Runs -/

/-- A run of digits: at least one, and nothing else. -/
def IsRun (ds : List Char) : Prop :=
  ds ≠ [] ∧ ∀ c ∈ ds, isDigit c = true

instance (ds : List Char) : Decidable (IsRun ds) :=
  inferInstanceAs (Decidable (ds ≠ [] ∧ ∀ c ∈ ds, isDigit c = true))

/-- What follows a whole run of digits does not begin with a digit. -/
def EndsRun (cs : List Char) : Prop :=
  ∀ c ∈ cs.head?, isDigit c = false

instance (cs : List Char) : Decidable (EndsRun cs) :=
  inferInstanceAs (Decidable (∀ c ∈ cs.head?, isDigit c = false))

@[simp] theorem endsRun_nil : EndsRun [] := by
  simp [EndsRun]

@[simp] theorem endsRun_cons {c : Char} {cs : List Char} :
    EndsRun (c :: cs) ↔ isDigit c = false := by
  simp [EndsRun]

/-- A text is divided where a property ends for the first time. -/
theorem takeWhile_dropWhile_iff {p : Char → Bool} {cs xs ys : List Char} :
    cs.takeWhile p = xs ∧ cs.dropWhile p = ys ↔
      cs = xs ++ ys ∧ (∀ c ∈ xs, p c = true) ∧ ∀ c ∈ ys.head?, p c = false := by
  constructor
  · rintro ⟨rfl, rfl⟩
    refine ⟨List.takeWhile_append_dropWhile.symm, fun c hc => List.all_eq_true.1
      List.all_takeWhile c hc, fun c hc => ?_⟩
    simpa [Option.mem_def.1 hc] using List.head?_dropWhile_not p cs
  · rintro ⟨rfl, hxs, hys⟩
    rw [List.takeWhile_append_of_pos hxs, List.dropWhile_append_of_pos hxs]
    cases ys with
    | nil => simp
    | cons y ys =>
        have hy : p y = false := hys y rfl
        simp [hy]

/-- A text begins with a whole run of digits in at most one way. -/
theorem run_unique {ds es xs ys : List Char} (hds : IsRun ds) (hxs : EndsRun xs) (hes : IsRun es)
    (hys : EndsRun ys) (h : ds ++ xs = es ++ ys) : ds = es ∧ xs = ys := by
  obtain ⟨hds', hxs'⟩ := takeWhile_dropWhile_iff.2 ⟨rfl, hds.2, hxs⟩
  obtain ⟨hes', hys'⟩ := takeWhile_dropWhile_iff.2 ⟨rfl, hes.2, hys⟩
  rw [h] at hds' hxs'
  exact ⟨hds'.symm.trans hes', hxs'.symm.trans hys'⟩

/-! ### What is no digit -/

theorem isDigit_iff {c : Char} :
    isDigit c = true ↔ ∃ z ∈ digitZeros, z ≤ c.toNat ∧ c.toNat < z + 10 := by
  simp [isDigit, digitValue?, List.find?_isSome]

theorem isDigit_of_isBlank {c : Char} (h : isBlank c = true) : isDigit c = false := by
  rw [← Bool.not_eq_true, isDigit_iff]
  rintro ⟨z, hz, hle, hlt⟩
  -- where the digits leave room for the blanks
  have hgaps : ∀ z ∈ digitZeros, 0x20 < z ∧ (z + 10 ≤ 0x85 ∨ 0xa0 < z)
      ∧ (z + 10 ≤ 0x1680 ∨ 0x1680 < z) ∧ (z + 10 ≤ 0x2000 ∨ 0x3000 < z) := by
    decide
  have hgap := hgaps z hz
  simp only [isBlank, isWhite, Bool.or_eq_true, Bool.and_eq_true, decide_eq_true_eq,
    beq_iff_eq] at h
  omega

theorem isBlank_of_isDigit {c : Char} (h : isDigit c = true) : isBlank c = false := by
  cases hblank : isBlank c with
  | false => rfl
  | true => simp [isDigit_of_isBlank hblank] at h

/-- Only capital letters of ASCII have a small letter of their own. -/
theorem toLower_eq_self {c : Char} (h : c.toNat < 65 ∨ 90 < c.toNat) : c.toLower = c := by
  unfold Char.toLower
  rw [dif_neg]
  rintro ⟨hlo, hhi⟩
  have hlo : 65 ≤ c.toNat := hlo
  have hhi : c.toNat ≤ 90 := hhi
  omega

/-- The spellings of a small letter: the letter, its capital, and those beyond ASCII. -/
def spellings (letter : Char) : List Char :=
  letter :: letter.toUpper :: (otherSpellings.lookup letter).getD []

theorem mem_spellings {letter c : Char} (hletter : letter ∈ "line".toList)
    (h : isLetter letter c = true) : c ∈ spellings letter := by
  rw [isLetter, Bool.or_eq_true, beq_iff_eq, List.contains_iff_mem] at h
  rcases h with hlower | hother
  · rcases Nat.lt_or_ge c.toNat 91 with hlt | hge
    · have hascii : ("line".toList.all fun letter => (List.range 91).all fun n =>
          decide ((Char.ofNat n).toLower = letter → Char.ofNat n ∈ spellings letter)) = true := by
        decide +kernel
      have hall := List.all_eq_true.1 hascii letter hletter
      have hc := List.all_eq_true.1 hall c.toNat (List.mem_range.2 hlt)
      rw [Char.ofNat_toNat] at hc
      exact of_decide_eq_true hc hlower
    · rw [toLower_eq_self (Or.inr hge)] at hlower
      exact hlower ▸ List.mem_cons_self
  · exact List.mem_cons_of_mem _ (List.mem_cons_of_mem _ hother)

/-- A spelling of a letter is no digit. -/
theorem isDigit_of_mem_spellings {letter c : Char} (hletter : letter ∈ "line".toList)
    (h : c ∈ spellings letter) : isDigit c = false := by
  have hnone : ("line".toList.all fun letter => (spellings letter).all fun x => !isDigit x) = true := by
    decide +kernel
  simpa using List.all_eq_true.1 (List.all_eq_true.1 hnone letter hletter) c h

/-- No spelling of a later letter of the word is one of the first. -/
theorem notMem_spellings_first {letter c : Char} (hletter : letter ∈ ['i', 'n', 'e'])
    (h : c ∈ spellings letter) : c ∉ spellings 'l' := by
  have hnone : (['i', 'n', 'e'].all fun letter => (spellings letter).all fun x =>
      !(spellings 'l').contains x) = true := by
    decide +kernel
  simpa using List.all_eq_true.1 (List.all_eq_true.1 hnone letter hletter) c h

theorem isBlank_of_mem_spellings_first {c : Char} (h : c ∈ spellings 'l') : isBlank c = false := by
  have hnone : ((spellings 'l').all fun x => !isBlank x) = true := by decide +kernel
  simpa using List.all_eq_true.1 hnone c h

/-! ### Numerals -/

theorem digitValue_lt (c : Char) : digitValue c < 10 := by
  rw [digitValue, digitValue?]
  cases hfound : digitZeros.find? fun z => z ≤ c.toNat && c.toNat < z + 10 with
  | none => simp
  | some z =>
      have hlt : z ≤ c.toNat ∧ c.toNat < z + 10 := by simpa using List.find?_some hfound
      simp only [Option.map_some, Option.getD_some]
      omega

/-- The digits of ASCII are digits, and denote what they stand for. -/
theorem digitValue_digitChar {n : Nat} (h : n < 10) :
    isDigit n.digitChar = true ∧ digitValue n.digitChar = n := by
  have hall : ∀ n < 10, isDigit n.digitChar = true ∧ digitValue n.digitChar = n := by decide
  exact hall n h

theorem natOfDigits_concat (ds : List Char) (c : Char) :
    natOfDigits (ds ++ [c]) = 10 * natOfDigits ds + digitValue c := by
  rw [natOfDigits, List.foldl_append]
  rfl

theorem natOfDigits_lt (ds : List Char) : natOfDigits ds < 10 ^ ds.length := by
  induction ds using List.reverseRecOn with
  | nil => simp
  | append_singleton ds c ih =>
      have hc := digitValue_lt c
      rw [natOfDigits_concat, List.length_append, List.length_singleton, Nat.pow_succ]
      omega

theorem isRun_decimal (n : Nat) : IsRun (decimal n) := by
  rw [decimal]
  induction n using Nat.strongRecOn with
  | ind n ih =>
      rcases Nat.lt_or_ge n 10 with hsmall | hlarge
      · rw [Nat.toDigits_of_lt_base hsmall]
        simp [IsRun, (digitValue_digitChar hsmall).1]
      · have hlast := (digitValue_digitChar (Nat.mod_lt n (by decide : 0 < 10))).1
        have hfirst := (ih (n / 10) (by omega)).2
        rw [Nat.toDigits_of_base_le (by decide) hlarge]
        refine ⟨by simp, fun c hc => ?_⟩
        rcases List.mem_append.1 hc with hc | hc
        · exact hfirst c hc
        · rwa [List.mem_singleton.1 hc]

/-- A numeral denotes its number. -/
@[simp] theorem natOfDigits_decimal (n : Nat) : natOfDigits (decimal n) = n := by
  rw [decimal]
  induction n using Nat.strongRecOn with
  | ind n ih =>
      rcases Nat.lt_or_ge n 10 with hsmall | hlarge
      · rw [Nat.toDigits_of_lt_base hsmall]
        simpa [natOfDigits] using (digitValue_digitChar hsmall).2
      · have hlast := (digitValue_digitChar (Nat.mod_lt n (by decide : 0 < 10))).2
        rw [Nat.toDigits_of_base_le (by decide) hlarge, natOfDigits_concat, hlast,
          ih (n / 10) (by omega)]
        omega

/-- A numeral is no longer than a run of digits for the number or for a greater one. -/
theorem length_decimal_le {n : Nat} {ds : List Char} (hds : ds ≠ []) (h : n ≤ natOfDigits ds) :
    (decimal n).length ≤ ds.length := by
  rw [decimal, Nat.length_toDigits_le_iff (by decide) (List.length_pos_iff.2 hds)]
  exact Nat.lt_of_le_of_lt h (natOfDigits_lt ds)

end Text

end SketchHost
