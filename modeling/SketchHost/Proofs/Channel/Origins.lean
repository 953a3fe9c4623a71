/-
**What the guard on origins admits.**

A list admits an origin that is on it, and an origin that is on it with a port: a colon and at least one
ASCII digit, and nothing else.

* `Origin.Extends` — an origin is another one, or that with a port;
* `Origin.extends?_iff`, `Origin.isAllowed_iff` — the guard admits exactly these;
* `Origin.Strays`, `Origin.extends_append_iff` — an origin goes on in another way than with a port;
* `Origin.admits_only_ports` — **a list admits what is on it, with a port or without, and nothing else**.
-/

import SketchHost.Channel.Origin

set_option relaxedAutoImplicit false
set_option autoImplicit false

namespace SketchHost

namespace Origin

/-- An origin is `base`, or `base` with a port. -/
def Extends (base origin : String) : Prop :=
  origin = base ∨
    ∃ digits, digits ≠ [] ∧ (∀ d ∈ digits, Text.isAsciiDigit d = true) ∧
      origin.toList = base.toList ++ ':' :: digits

/-- A port is a colon and ASCII digits, of which there is at least one. -/
theorem isNumberSuffix_iff {cs : List Char} :
    isNumberSuffix cs = true ↔
      ∃ digits, digits ≠ [] ∧ (∀ d ∈ digits, Text.isAsciiDigit d = true) ∧ cs = ':' :: digits := by
  constructor
  · intro h
    unfold isNumberSuffix at h
    split at h
    · next digits =>
        simp only [Bool.and_eq_true, Bool.not_eq_true', List.isEmpty_eq_false_iff,
          List.all_eq_true] at h
        exact ⟨digits, h.1, h.2, rfl⟩
    · simp at h
  · rintro ⟨digits, hne, hall, rfl⟩
    simp [isNumberSuffix, hne, List.all_eq_true.2 hall]

theorem extends?_iff {base origin : String} : extends? base origin = true ↔ Extends base origin := by
  rw [extends?, Bool.or_eq_true, beq_iff_eq, Bool.and_eq_true, List.isPrefixOf_iff_prefix,
    isNumberSuffix_iff, Extends]
  refine or_congr Iff.rfl ⟨?_, ?_⟩
  · rintro ⟨⟨rest, hrest⟩, digits, hne, hall, hdrop⟩
    refine ⟨digits, hne, hall, ?_⟩
    rw [← hrest, List.drop_left] at hdrop
    rw [← hrest, hdrop]
  · rintro ⟨digits, hne, hall, heq⟩
    exact ⟨⟨_, heq.symm⟩, digits, hne, hall, by rw [heq, List.drop_left]⟩

/-- A list admits what is on it, with a port or without. -/
theorem isAllowed_iff {origin : String} {allowed : List String} :
    isAllowed origin allowed = true ↔ ∃ base ∈ allowed, Extends base origin := by
  simp [isAllowed, List.any_eq_true, extends?_iff]

/-! ### What is not admitted -/

/-- What follows an origin is not a port: there is something, and it does not begin with a colon, or
nothing comes after the colon, or something that is no ASCII digit. -/
def Strays (rest : String) : Prop :=
  rest ≠ "" ∧
    (rest.toList.head? ≠ some ':' ∨ rest.toList.tail = [] ∨
      ∃ c ∈ rest.toList.tail, Text.isAsciiDigit c = false)

theorem strays_iff {rest : String} :
    Strays rest ↔ rest ≠ "" ∧ isNumberSuffix rest.toList = false := by
  rw [Strays]
  refine and_congr_right fun _ => ?_
  cases rest.toList with
  | nil => simp [isNumberSuffix]
  | cons c digits =>
      by_cases hc : c = ':'
      · subst hc
        simp only [isNumberSuffix, List.head?_cons, List.tail_cons, ne_eq, not_true_eq_false, false_or,
          Bool.and_eq_false_iff, Bool.not_eq_false', List.isEmpty_iff, List.all_eq_false,
          Bool.not_eq_true]
      · simp [isNumberSuffix, hc]

instance : DecidablePred Strays := fun _ => decidable_of_iff _ strays_iff.symm

/-- What follows an origin is nothing, or a port, or neither. -/
theorem extends_append_iff {base rest : String} : Extends base (base ++ rest) ↔ ¬ Strays rest := by
  have hsame : base ++ rest = base ↔ rest = "" := by
    rw [← String.toList_inj, String.toList_append]
    simp
  rw [← extends?_iff, extends?, Bool.or_eq_true, beq_iff_eq, hsame, String.toList_append,
    List.drop_left, strays_iff]
  by_cases hrest : rest = "" <;> simp [hrest]

/-- **A list admits what is on it, with a port or without, and nothing else.**  So neither the order of the
list nor how often an origin is on it makes a difference, and a longer list admits what a shorter one does.
An origin of the list with anything else after it than a port is admitted only if another origin of the list
admits it. -/
theorem admits_only_ports (origin : String) (allowed : List String) :
    (isAllowed origin allowed = true ↔ ∃ base ∈ allowed, Extends base origin) ∧
    (∀ others : List String, (∀ base, base ∈ others ↔ base ∈ allowed) →
      isAllowed origin others = isAllowed origin allowed) ∧
    (∀ more : List String, allowed ⊆ more → isAllowed origin allowed = true →
      isAllowed origin more = true) ∧
    ∀ base rest, origin = base ++ rest → Strays rest →
      isAllowed origin allowed = isAllowed origin (allowed.filter (· != base)) := by
  refine ⟨isAllowed_iff, fun others hsame => ?_, fun more hsub hadmits => ?_, fun base rest heq hstrays => ?_⟩
  · rw [Bool.eq_iff_iff, isAllowed_iff, isAllowed_iff]
    simp only [hsame]
  · obtain ⟨base, hbase, hextends⟩ := isAllowed_iff.1 hadmits
    exact isAllowed_iff.2 ⟨base, hsub hbase, hextends⟩
  · rw [Bool.eq_iff_iff, isAllowed_iff, isAllowed_iff]
    constructor
    · rintro ⟨other, hother, hextends⟩
      -- the origin that admits it is not the one that it strays from
      have hne : other ≠ base := by
        rintro rfl
        rw [heq] at hextends
        exact extends_append_iff.1 hextends hstrays
      exact ⟨other, List.mem_filter.2 ⟨hother, by simpa using hne⟩, hextends⟩
    · rintro ⟨other, hother, hextends⟩
      exact ⟨other, (List.mem_filter.1 hother).1, hextends⟩

/-- A host and one of its paths. -/
def desk : List String :=
  ["http://localhost", "http://localhost/app"]

/-- The host is admitted with a port.  A longer host, a path, an empty port, digits of another script and a
line feed are not, and the path that is on the list itself is admitted with a port of its own. -/
theorem admits_only_ports_desk :
    isAllowed "http://localhost:5173" desk = true ∧
    (∀ rest ∈ ["-attacker.com", "/path", ":", ":٣", ":80\n"],
      Strays rest ∧ isAllowed ("http://localhost" ++ rest) desk = false) ∧
    Strays "/app:80" ∧ isAllowed "http://localhost/app:80" desk = true := by
  have hothers : ∀ rest ∈ ["-attacker.com", "/path", ":", ":٣", ":80\n"], Strays rest ∧
      isAllowed ("http://localhost" ++ rest) (desk.filter (· != "http://localhost")) = false := by
    decide +kernel
  refine ⟨?_, fun rest hrest => ?_, by decide +kernel, ?_⟩
  · refine (admits_only_ports _ desk).1.2 ⟨"http://localhost", by simp [desk], Or.inr ?_⟩
    exact ⟨['5', '1', '7', '3'], by simp, by simp [Text.isAsciiDigit], by decide +kernel⟩
  · obtain ⟨hstrays, hrefused⟩ := hothers rest hrest
    obtain ⟨-, -, -, hsame⟩ := admits_only_ports ("http://localhost" ++ rest) desk
    exact ⟨hstrays, (hsame "http://localhost" rest rfl hstrays).trans hrefused⟩
  · obtain ⟨-, -, hmore, -⟩ := admits_only_ports "http://localhost/app:80" ["http://localhost/app"]
    exact hmore desk (by simp [desk]) (by decide +kernel)

end Origin

end SketchHost
