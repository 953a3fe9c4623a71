/-
**Literals are read as what was written.**

A text is written as a literal in printable ASCII alone.  Every character has a form of its own, which the
reader takes back, so that the literal is read as the text whatever follows it.  Inside the literal every
double quote has an odd number of backslashes before it; only the two that enclose it stand bare.

* `Json.Escaped`, `Json.escaped_escape` — the forms in which a character stands in a literal;
* `Text.hex_succ`, `Json.unit?_hex` — four hexadecimal digits are read as the number;
* `Json.literalTail?_quoted` — a literal is read as its text, whatever follows;
* `Json.BareQuote` — a double quote that is not escaped;
* `Json.Sealed` — a part of a literal without a bare quote, after which nothing is escaped;
* `Json.IsLiteral`, `Json.isLiteral_quote` — **a text is written as a literal that is read as the text**.
-/

import SketchHost.Json.Reader
import Mathlib.Data.List.Induction
import Mathlib.Tactic.SplitIfs

set_option relaxedAutoImplicit false
set_option autoImplicit false

namespace SketchHost

/-! ### Hexadecimal digits -/

namespace Text

/-- One more place takes one more digit at the end. -/
theorem hex_succ {width : Nat} (hwidth : 0 < width) (n : Nat) :
    hex (width + 1) n = hex width (n / 16) ++ [Nat.digitChar (n % 16)] := by
  rcases Nat.lt_or_ge n 16 with hsmall | hlarge
  · obtain ⟨w, rfl⟩ : ∃ w, width = w + 1 := ⟨width - 1, by omega⟩
    rw [hex, hex, Nat.div_eq_of_lt hsmall, Nat.mod_eq_of_lt hsmall, Nat.toDigits_of_lt_base hsmall,
      Nat.toDigits_of_lt_base (by decide : 0 < 16)]
    simp [List.replicate_succ']
  · rw [hex, hex, Nat.toDigits_of_base_le (by decide) hlarge, List.length_append, List.length_singleton,
      Nat.add_sub_add_right, List.append_assoc]

/-- A small number takes one digit. -/
theorem hex_one {n : Nat} (h : n < 16) : hex 1 n = [Nat.digitChar n] := by
  rw [hex, Nat.toDigits_of_lt_base h]
  rfl

/-- The four digits of a unit of sixteen bits. -/
theorem hex_four {n : Nat} (h : n < 0x10000) :
    hex 4 n = [Nat.digitChar (n / 16 / 16 / 16), Nat.digitChar (n / 16 / 16 % 16),
      Nat.digitChar (n / 16 % 16), Nat.digitChar (n % 16)] := by
  rw [hex_succ (by decide), hex_succ (by decide), hex_succ (by decide), hex_one (by omega)]
  rfl

end Text

namespace Json

theorem hexValue?_digitChar : ∀ d < 16, hexValue? (Nat.digitChar d) = some d := by
  decide

/-- The four digits of a unit are read as the unit. -/
theorem unit?_hex {n : Nat} (h : n < 0x10000) :
    unit? (Nat.digitChar (n / 16 / 16 / 16)) (Nat.digitChar (n / 16 / 16 % 16))
      (Nat.digitChar (n / 16 % 16)) (Nat.digitChar (n % 16)) = some n := by
  simp only [unit?, hexValue?_digitChar _ (by omega : n / 16 / 16 / 16 < 16),
    hexValue?_digitChar _ (Nat.mod_lt _ (by decide))]
  refine congrArg some ?_
  omega

/-! ### Forms of characters -/

/-- The forms in which a character stands in a literal: as it is, after a backslash, or as its units. -/
inductive Escaped (c : Char) : List Char → Prop
  | plain (hrange : 0x20 ≤ c.toNat ∧ c.toNat < 0x7f) (hquote : c ≠ '\x22') (hslash : c ≠ '\\') :
      Escaped c [c]
  | short (x : Char) (hstands : shortEscape? x = some c) : Escaped c ['\\', x]
  | unit (hsmall : c.toNat < 0x10000) : Escaped c (escapeUnit c.toNat)
  | halves (hlarge : 0x10000 ≤ c.toNat) :
      Escaped c (escapeUnit (0xd800 + (c.toNat - 0x10000) / 0x400)
        ++ escapeUnit (0xdc00 + (c.toNat - 0x10000) % 0x400))

/-- Every character is written in one of these forms. -/
theorem escaped_escape (c : Char) : Escaped c (escape c) := by
  rw [escape]
  split_ifs with hmark hnewline hreturn htab hback hfeed hplain
  · refine .short c ?_
    rcases Bool.or_eq_true_iff.1 hmark with h | h <;> obtain rfl := eq_of_beq h <;> rfl
  · exact .short 'n' (by rw [eq_of_beq hnewline]; rfl)
  · exact .short 'r' (by rw [eq_of_beq hreturn]; rfl)
  · exact .short 't' (by rw [eq_of_beq htab]; rfl)
  · have hc : c = '\x08' := Char.toNat_inj.1 (eq_of_beq hback)
    exact .short 'b' (by rw [hc]; rfl)
  · have hc : c = '\x0c' := Char.toNat_inj.1 (eq_of_beq hfeed)
    exact .short 'f' (by rw [hc]; rfl)
  · obtain ⟨hquote, hslash⟩ : c ≠ '\x22' ∧ c ≠ '\\' := by simpa using hmark
    exact .plain (by simpa using hplain) hquote hslash
  · rcases Nat.lt_or_ge c.toNat 0x10000 with hsmall | hlarge
    · simpa [unitsOf, hsmall] using Escaped.unit hsmall
    · simpa [unitsOf, Nat.not_lt.2 hlarge] using Escaped.halves hlarge

/-- A character has the number of a code point, which is no half of one. -/
theorem toNat_bounds (c : Char) : c.toNat < 0x110000 ∧ (c.toNat < 0xd800 ∨ 0xe000 ≤ c.toNat) := by
  have hvalid := c.valid
  simp only [UInt32.isValidChar, Nat.isValidChar] at hvalid
  rw [Char.toNat]
  omega

/-! ### Reading -/

/-- A character that stands for itself. -/
theorem literalTail?_plain {c : Char} (hlow : 0x20 ≤ c.toNat) (hquote : c ≠ '\x22') (hslash : c ≠ '\\')
    (rest : List Char) : literalTail? (c :: rest) = andThen c (literalTail? rest) := by
  have htest : ¬ ((decide (c.toNat < 0x20) || c == '\\') = true) := by
    simpa [hslash] using hlow
  rw [literalTail?, if_neg htest]
  · exact fun h => hquote h
  · rintro a b d e rest rfl
    exact fun _ => hslash rfl
  · rintro x rest rfl
    exact fun _ => hslash rfl

/-- A character that stands after a backslash. -/
theorem literalTail?_short {x c : Char} (h : shortEscape? x = some c) (rest : List Char) :
    literalTail? ('\\' :: x :: rest) = andThen c (literalTail? rest) := by
  have hunit : x ≠ 'u' := by
    rintro rfl
    cases h
  rw [literalTail?, h]
  rintro a b d e rest rfl
  exact fun _ => hunit rfl

/-- A character of one unit. -/
theorem literalTail?_unit {c : Char} (hsmall : c.toNat < 0x10000) (rest : List Char) :
    literalTail? (escapeUnit c.toNat ++ rest) = andThen c (literalTail? rest) := by
  have hbounds := (toNat_bounds c).2
  have hhigh : isHighHalf c.toNat = false := by simp [isHighHalf]; omega
  have hlow : isLowHalf c.toNat = false := by simp [isLowHalf]; omega
  rw [escapeUnit, Text.hex_four hsmall]
  simp only [List.cons_append, List.nil_append, literalTail?, unit?_hex hsmall, hhigh, hlow,
    Bool.false_eq_true, if_false, Char.ofNat_toNat]

/-- The halves of a character are put together again. -/
theorem joinHalves_eq {c : Char} (hlarge : 0x10000 ≤ c.toNat) :
    joinHalves (0xd800 + (c.toNat - 0x10000) / 0x400) (0xdc00 + (c.toNat - 0x10000) % 0x400) = c := by
  have hsum : 0x10000 + (0xd800 + (c.toNat - 0x10000) / 0x400 - 0xd800) * 0x400
      + (0xdc00 + (c.toNat - 0x10000) % 0x400 - 0xdc00) = c.toNat := by omega
  rw [joinHalves, hsum, Char.ofNat_toNat]

/-- A character of two units. -/
theorem literalTail?_halves {c : Char} (hlarge : 0x10000 ≤ c.toNat) (rest : List Char) :
    literalTail? (escapeUnit (0xd800 + (c.toNat - 0x10000) / 0x400)
        ++ (escapeUnit (0xdc00 + (c.toNat - 0x10000) % 0x400) ++ rest))
      = andThen c (literalTail? rest) := by
  have hbounds := (toNat_bounds c).1
  have hjoin := joinHalves_eq hlarge
  generalize hhigh : 0xd800 + (c.toNat - 0x10000) / 0x400 = high at hjoin ⊢
  generalize hlow : 0xdc00 + (c.toNat - 0x10000) % 0x400 = low at hjoin ⊢
  have hhighHalf : isHighHalf high = true := by simp [isHighHalf]; omega
  have hlowHalf : isLowHalf low = true := by simp [isLowHalf]; omega
  have hhighUnit : high < 0x10000 := by omega
  have hlowUnit : low < 0x10000 := by omega
  rw [escapeUnit, escapeUnit, Text.hex_four hhighUnit, Text.hex_four hlowUnit]
  simp only [List.cons_append, List.nil_append, literalTail?, unit?_hex hhighUnit, unit?_hex hlowUnit,
    hhighHalf, hlowHalf, if_true, hjoin]

/-- Every form of a character is read as the character, whatever follows. -/
theorem Escaped.literalTail?_append {c : Char} {form : List Char} (h : Escaped c form) (rest : List Char) :
    literalTail? (form ++ rest) = andThen c (literalTail? rest) := by
  cases h with
  | plain hrange hquote hslash => exact literalTail?_plain hrange.1 hquote hslash rest
  | short x hstands => exact literalTail?_short hstands rest
  | unit hsmall => exact literalTail?_unit hsmall rest
  | halves hlarge =>
      rw [List.append_assoc]
      exact literalTail?_halves hlarge rest

/-- A literal is read as its text, and what follows it is left. -/
theorem literalTail?_quoted (cs rest : List Char) :
    literalTail? (cs.flatMap escape ++ '\x22' :: rest) = some (cs, rest) := by
  induction cs with
  | nil => simp [literalTail?]
  | cons c cs ih =>
      rw [List.flatMap_cons, List.append_assoc, (escaped_escape c).literalTail?_append, ih]
      rfl

/-- A literal denotes its text. -/
theorem read?_quote (s : String) : read? (quote s.toList) = some (.text s) := by
  have hvalue (depth : Nat) : value? (depth + 1) (quote s.toList) = some (.text s, []) := by
    have hskip : skipSpaces (quote s.toList) = quote s.toList := List.dropWhile_cons_of_neg (by decide)
    rw [value?, hskip, quote, List.cons_append]
    simp only [literalTail?_quoted, Option.map_some, String.ofList_toList]
  simp only [read?, hvalue]
  rfl

/-! ### Characters of a literal -/

/-- A character of printable ASCII. -/
def IsVisible (c : Char) : Prop :=
  0x20 ≤ c.toNat ∧ c.toNat < 0x7f

/-- A digit is visible, and it is neither a quote nor a backslash. -/
theorem digitChar_plain : ∀ d < 16,
    (0x20 ≤ (Nat.digitChar d).toNat ∧ (Nat.digitChar d).toNat < 0x7f) ∧
      Nat.digitChar d ≠ '\x22' ∧ Nat.digitChar d ≠ '\\' := by
  decide

/-- The escape of a unit: a backslash, a letter, and four digits. -/
theorem escapeUnit_eq {n : Nat} (h : n < 0x10000) :
    ∃ digits : List Nat, (∀ d ∈ digits, d < 16) ∧
      escapeUnit n = ['\\', 'u'] ++ digits.map Nat.digitChar := by
  refine ⟨[n / 16 / 16 / 16, n / 16 / 16 % 16, n / 16 % 16, n % 16], ?_, ?_⟩
  · simp only [List.forall_mem_cons]
    refine ⟨by omega, by omega, by omega, by omega, by simp⟩
  · rw [escapeUnit, Text.hex_four h]
    rfl

/-- Both halves of a character are units. -/
theorem halves_lt {c : Char} (hlarge : 0x10000 ≤ c.toNat) :
    0xd800 + (c.toNat - 0x10000) / 0x400 < 0x10000 ∧
      0xdc00 + (c.toNat - 0x10000) % 0x400 < 0x10000 := by
  have hbounds := (toNat_bounds c).1
  omega

theorem isVisible_escapeUnit {n : Nat} (h : n < 0x10000) : ∀ x ∈ escapeUnit n, IsVisible x := by
  obtain ⟨digits, hdigits, heq⟩ := escapeUnit_eq h
  intro x hx
  rw [heq, List.mem_append, List.mem_map] at hx
  rcases hx with hx | ⟨d, hd, rfl⟩
  · simp only [List.mem_cons, List.not_mem_nil, or_false] at hx
    rcases hx with rfl | rfl <;> exact ⟨by decide, by decide⟩
  · exact (digitChar_plain d (hdigits d hd)).1

/-- What stands for a character after a backslash is in printable ASCII. -/
theorem isVisible_of_shortEscape? {x c : Char} (h : shortEscape? x = some c) : IsVisible x := by
  unfold shortEscape? at h
  split at h
  case h_9 => contradiction
  all_goals exact ⟨by decide, by decide⟩

/-- Every form of a character is visible. -/
theorem Escaped.isVisible {c : Char} {form : List Char} (h : Escaped c form) :
    ∀ x ∈ form, IsVisible x := by
  intro x hx
  cases h with
  | plain hrange hquote hslash => exact (List.mem_singleton.1 hx) ▸ hrange
  | short y hstands =>
      simp only [List.mem_cons, List.not_mem_nil, or_false] at hx
      rcases hx with rfl | rfl
      · exact ⟨by decide, by decide⟩
      · exact isVisible_of_shortEscape? hstands
  | unit hsmall => exact isVisible_escapeUnit hsmall x hx
  | halves hlarge =>
      rcases List.mem_append.1 hx with hx | hx
      · exact isVisible_escapeUnit (halves_lt hlarge).1 x hx
      · exact isVisible_escapeUnit (halves_lt hlarge).2 x hx

theorem isVisible_quote (cs : List Char) : ∀ x ∈ quote cs, IsVisible x := by
  have hmark : IsVisible '\x22' := ⟨by decide, by decide⟩
  intro x hx
  rw [quote, List.cons_append, List.mem_cons, List.mem_append, List.mem_singleton, List.mem_flatMap] at hx
  rcases hx with rfl | ⟨c, -, hx⟩ | rfl
  · exact hmark
  · exact (escaped_escape c).isVisible x hx
  · exact hmark

/-! ### Bare quotes -/

/-- The number of backslashes right before a place. -/
def slashesBefore (cs : List Char) (i : Nat) : Nat :=
  ((cs.take i).reverse.takeWhile (· == '\\')).length

/-- A double quote is bare if an even number of backslashes stands right before it. -/
def BareQuote (cs : List Char) (i : Nat) : Prop :=
  cs[i]? = some '\x22' ∧ slashesBefore cs i % 2 = 0

/-- Whether the character after a text is escaped: a backslash escapes it, unless it is escaped itself. -/
def escapesNext (cs : List Char) : Bool :=
  cs.foldl (fun escaped c => c == '\\' && !escaped) false

theorem escapesNext_concat (cs : List Char) (c : Char) :
    escapesNext (cs ++ [c]) = (c == '\\' && !escapesNext cs) := by
  rw [escapesNext, List.foldl_append, ← escapesNext]
  rfl

theorem escapesNext_append {a : List Char} (h : escapesNext a = false) (b : List Char) :
    escapesNext (a ++ b) = escapesNext b := by
  rw [escapesNext, List.foldl_append, ← escapesNext, h, escapesNext]

/-- The backslashes at the end of a text decide whether it escapes what follows. -/
theorem escapesNext_eq (cs : List Char) :
    escapesNext cs = decide ((cs.reverse.takeWhile (· == '\\')).length % 2 = 1) := by
  induction cs using List.reverseRecOn with
  | nil => rfl
  | append_singleton cs c ih =>
      rw [escapesNext_concat, ih, List.reverse_concat]
      rcases Decidable.em (c = '\\') with rfl | hslash
      · rw [List.takeWhile_cons_of_pos (by decide), List.length_cons]
        simp only [beq_self_eq_true, Bool.true_and, ← decide_not, decide_eq_decide]
        omega
      · rw [List.takeWhile_cons_of_neg (by simpa using hslash)]
        simp [hslash]

/-- A quote is bare where the text before it does not escape it. -/
theorem bareQuote_iff (cs : List Char) (i : Nat) :
    BareQuote cs i ↔ cs[i]? = some '\x22' ∧ escapesNext (cs.take i) = false := by
  rw [BareQuote, escapesNext_eq, slashesBefore, decide_eq_false_iff_not]
  refine and_congr_right fun _ => ?_
  omega

/-- A part of a literal: every quote in it is escaped, and it does not escape what follows. -/
structure Sealed (part : List Char) : Prop where
  escaped : ∀ i, part[i]? = some '\x22' → escapesNext (part.take i) = true
  closed : escapesNext part = false

theorem sealed_nil : Sealed [] where
  escaped i h := by simp at h
  closed := rfl

theorem Sealed.append {a b : List Char} (ha : Sealed a) (hb : Sealed b) : Sealed (a ++ b) where
  escaped i hquote := by
    rcases Nat.lt_or_ge i a.length with hlt | hle
    · rw [List.getElem?_append_left hlt] at hquote
      rw [List.take_append_of_le_length (Nat.le_of_lt hlt)]
      exact ha.escaped i hquote
    · rw [List.getElem?_append_right hle] at hquote
      rw [List.take_append, List.take_of_length_le hle, escapesNext_append ha.closed]
      exact hb.escaped _ hquote
  closed := by rw [escapesNext_append ha.closed, hb.closed]

theorem sealed_flatMap {α : Type} {f : α → List Char} (items : List α) (h : ∀ x ∈ items, Sealed (f x)) :
    Sealed (items.flatMap f) := by
  induction items with
  | nil => exact sealed_nil
  | cons x xs ih =>
      rw [List.flatMap_cons]
      exact (h x List.mem_cons_self).append (ih fun y hy => h y (List.mem_cons_of_mem _ hy))

/-- A character that is neither a quote nor a backslash. -/
theorem sealed_single {c : Char} (hquote : c ≠ '\x22') (hslash : c ≠ '\\') : Sealed [c] where
  escaped i h := by
    cases i with
    | zero => exact absurd (Option.some.inj h) hquote
    | succ i => simp at h
  closed := by simp [escapesNext, hslash]

/-- A character after a backslash. -/
theorem sealed_pair (x : Char) : Sealed ['\\', x] where
  escaped i h := by
    match i with
    | 0 => exact absurd (Option.some.inj h) (by decide)
    | 1 => rfl
    | i + 2 => simp at h
  closed := by simp [escapesNext]

theorem sealed_escapeUnit {n : Nat} (h : n < 0x10000) : Sealed (escapeUnit n) := by
  obtain ⟨digits, hdigits, heq⟩ := escapeUnit_eq h
  rw [heq, List.map_eq_flatMap]
  refine (sealed_pair 'u').append (sealed_flatMap digits fun d hd => ?_)
  have hplain := (digitChar_plain d (hdigits d hd)).2
  exact sealed_single hplain.1 hplain.2

/-- Every form of a character is sealed. -/
theorem Escaped.sealed {c : Char} {form : List Char} (h : Escaped c form) : Sealed form := by
  cases h with
  | plain hrange hquote hslash => exact sealed_single hquote hslash
  | short x hstands => exact sealed_pair x
  | unit hsmall => exact sealed_escapeUnit hsmall
  | halves hlarge =>
      exact (sealed_escapeUnit (halves_lt hlarge).1).append (sealed_escapeUnit (halves_lt hlarge).2)

/-- The quotes around a sealed text are the only bare ones. -/
theorem Sealed.bareQuote_enclosed {part : List Char} (h : Sealed part) (i : Nat) :
    BareQuote ('\x22' :: part ++ ['\x22']) i ↔ i = 0 ∨ i = part.length + 1 := by
  rw [bareQuote_iff]
  cases i with
  | zero => simp [escapesNext]
  | succ j =>
      have hopening : escapesNext ['\x22'] = false := rfl
      have htake : escapesNext (('\x22' :: part ++ ['\x22']).take (j + 1))
          = escapesNext ((part ++ ['\x22']).take j) := escapesNext_append hopening _
      rw [htake, List.cons_append, List.getElem?_cons_succ]
      rcases Nat.lt_trichotomy j part.length with hlt | rfl | hgt
      · -- inside, every quote is escaped
        rw [List.getElem?_append_left hlt, List.take_append_of_le_length (Nat.le_of_lt hlt)]
        constructor
        · rintro ⟨hquote, hbare⟩
          exact absurd (h.escaped j hquote) (by simp [hbare])
        · omega
      · simp [h.closed]
      · have hnone : (part ++ ['\x22'])[j]? = none := by simp; omega
        simp [hnone]
        omega

/-! ### Literals -/

/-- A text is a literal of a string: it is read as the string, it is in printable ASCII, and the two
quotes that enclose it are its only bare ones. -/
structure IsLiteral (literal : List Char) (s : String) : Prop where
  denotes : read? literal = some (.text s)
  visible : ∀ c ∈ literal, IsVisible c
  enclosed : 2 ≤ literal.length ∧ ∀ i, BareQuote literal i ↔ i = 0 ∨ i + 1 = literal.length

/-- **Every string is written as a literal of it.** -/
theorem isLiteral_quote (s : String) : IsLiteral (quote s.toList) s where
  denotes := read?_quote s
  visible := isVisible_quote s.toList
  enclosed := by
    have hsealed : Sealed (s.toList.flatMap escape) := sealed_flatMap _ fun c _ => (escaped_escape c).sealed
    refine ⟨by simp [quote], fun i => ?_⟩
    rw [quote, hsealed.bareQuote_enclosed i]
    simp

/-- Two strings with one literal are one string. -/
theorem IsLiteral.unique {literal : List Char} {s t : String} (hs : IsLiteral literal s)
    (ht : IsLiteral literal t) : s = t :=
  Value.text.inj (Option.some.inj (hs.denotes.symm.trans ht.denotes))

end Json

end SketchHost
