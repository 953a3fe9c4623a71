/-
**Handing the list of a channel on.**

The origins on the list of a channel are kept without blanks around them and without slashes at their end.
The blanks go first and the slashes after them, so a blank that stands before the slashes is left, now at the
end.  Such an origin does not stay as it is when it is given to a channel again: it loses the blank, and is
another one then, or nothing at all.  All other origins stay as they are.

* `Origin.LeavesBlank` — an origin has a blank before the slashes at its end;
* `Origin.normalize_normalize_iff` — an origin as it is kept stays so unless it was left with a blank;
* `Channel.RoundTrips` — a new channel can have the list of a channel, and its entries can be added again;
* `Channel.rebuilds_iff`, `Channel.addOrigin_of_settled` — the two parts of it;
* `Channel.roundTrips_iff_settled` — so it is if all entries stay as they are;
* `Channel.Session.roundTrips_iff` — **the list of a channel can be handed on exactly if no origin that was
  given to it has a blank before the slashes at its end**;
* `Channel.not_roundTrips_loose` — a channel whose list cannot be handed on.
-/

import SketchHost.Proofs.Channel.Allowlist
import Mathlib.Data.List.DropRight

set_option relaxedAutoImplicit false
set_option autoImplicit false

namespace SketchHost

namespace Text

/-! ### Texts without blanks around them -/

theorem isBlank_head?_trim (cs : List Char) : ∀ c ∈ (trim cs).head?, isBlank c = false := by
  intro c hc
  obtain ⟨back, hback⟩ : trim cs <+: trimLeft cs := List.rdropWhile_prefix _ _
  have hhead : (cs.dropWhile isBlank).head? = some c := by
    rw [← trimLeft, ← hback, List.head?_append, hc]
    rfl
  have hfirst := List.head?_dropWhile_not isBlank cs
  rw [hhead] at hfirst
  exact hfirst

theorem isBlank_getLast?_trim (cs : List Char) : ∀ c ∈ (trim cs).getLast?, isBlank c = false := by
  intro c hc
  obtain ⟨hne, rfl⟩ := List.mem_getLast?_eq_getLast hc
  exact Bool.eq_false_iff.2 (List.rdropWhile_last_not isBlank (trimLeft cs) hne)

end Text

namespace Origin

/-! ### Origins as they are kept -/

theorem dropSlashes_append {kept slashes : List Char} (h : ∀ c ∈ slashes, c = '/') :
    dropSlashes (kept ++ slashes) = dropSlashes kept := by
  rw [dropSlashes, List.reverse_append, List.dropWhile_append_of_pos]
  · rfl
  · simpa using h

/-- An origin has a blank before the slashes at its end, behind which there may be more blanks. -/
def LeavesBlank (origin : String) : Prop :=
  ∃ before blank slashes, Text.isBlank blank = true ∧ slashes ≠ [] ∧ (∀ c ∈ slashes, c = '/') ∧
    Text.trim origin.toList = before ++ blank :: slashes

/-- What is kept of an origin ends in a blank exactly if the blank stood before the slashes at its end. -/
theorem leavesBlank_iff {origin : String} :
    LeavesBlank origin ↔ ∃ c ∈ (normalize origin).toList.getLast?, Text.isBlank c = true := by
  rw [normalize, String.toList_ofList]
  constructor
  · rintro ⟨before, blank, slashes, hblank, -, hslashes, htrim⟩
    have hother : blank ≠ '/' := by
      rintro rfl
      exact absurd hblank (by decide)
    have hkept : dropSlashes (Text.trim origin.toList) = before ++ [blank] := by
      rw [htrim, List.append_cons, dropSlashes_append hslashes]
      exact List.rdropWhile_concat_neg _ _ _ (by simpa using hother)
    exact ⟨blank, by simp [hkept], hblank⟩
  · rintro ⟨blank, hlast, hblank⟩
    obtain ⟨before, hkept⟩ := List.getLast?_eq_some_iff.1 hlast
    have htrim : Text.trim origin.toList
        = before ++ blank :: (Text.trim origin.toList).rtakeWhile (· == '/') := by
      rw [List.append_cons, ← hkept]
      exact (List.rdropWhile_append_rtakeWhile ..).symm
    refine ⟨before, blank, _, hblank, ?_, ?_, htrim⟩
    · -- without slashes the blank would be at the end of a text without blanks around it
      intro hnone
      rw [hnone] at htrim
      have hend := Text.isBlank_getLast?_trim origin.toList blank (by simp [htrim])
      rw [hblank] at hend
      contradiction
    · intro c hc
      simpa using List.mem_rtakeWhile_imp hc

/-- What is kept of an origin does not begin with a blank. -/
theorem trimLeft_normalize (origin : String) :
    Text.trimLeft (normalize origin).toList = (normalize origin).toList := by
  rw [normalize, String.toList_ofList]
  obtain ⟨slashes, hslashes⟩ : dropSlashes (Text.trim origin.toList) <+: Text.trim origin.toList :=
    List.rdropWhile_prefix _ _
  have hhead := Text.isBlank_head?_trim origin.toList
  rw [← hslashes] at hhead
  cases hkept : dropSlashes (Text.trim origin.toList) with
  | nil => rfl
  | cons c kept => simp [Text.trimLeft, hhead c (by simp [hkept])]

/-- An origin as it is kept stays so unless it was left with a blank at its end. -/
theorem normalize_normalize_iff {origin : String} :
    normalize (normalize origin) = normalize origin ↔ ¬ LeavesBlank origin := by
  have htwice : (normalize (normalize origin)).toList
      = dropSlashes (Text.trimRight (normalize origin).toList) := by
    rw [normalize, String.toList_ofList, Text.trim, trimLeft_normalize]
  rw [leavesBlank_iff, ← String.toList_inj, htwice]
  constructor
  · rintro hsame ⟨blank, hlast, hblank⟩
    -- without the blank there is less than before
    obtain ⟨before, hkept⟩ := List.getLast?_eq_some_iff.1 hlast
    have hright : Text.trimRight (before ++ [blank]) = Text.trimRight before :=
      List.rdropWhile_concat_pos _ _ _ hblank
    have hless : dropSlashes (Text.trimRight before) <+: before :=
      (List.rdropWhile_prefix _ _).trans (List.rdropWhile_prefix _ _)
    rw [hkept, hright] at hsame
    rw [hsame] at hless
    exact absurd hless.length_le (by simp)
  · intro hlast
    have hright : Text.trimRight (normalize origin).toList = (normalize origin).toList := by
      refine List.rdropWhile_eq_self_iff.2 fun hne hblank => hlast ?_
      exact ⟨_, List.getLast?_eq_some_getLast hne, hblank⟩
    rw [hright, normalize, String.toList_ofList]
    exact List.rdropWhile_idempotent _ _

end Origin

namespace Channel

/-! ### Lists that are handed on -/

/-- The same options with a list of origins. -/
def Options.withOrigins (origins : List String) (o : Options) : Options :=
  { o with origins := some origins }

/-- The list of a channel can be handed on: a channel that is built with it has the same list, and adding an
origin that is on it changes nothing.  `rest` is what else the new channel is built with. -/
structure RoundTrips (c : Channel Float) (rest : Options) : Prop where
  rebuilds : ∃ d, (rest.withOrigins c.allowed).build = .ok d ∧ d.allowed = c.allowed
  readds : ∀ origin ∈ c.allowed, c.addOrigin origin = .ok c

/-- A list without repetitions can be given to a new channel exactly if all its entries are lawful and stay
as they are. -/
theorem rebuilds_iff {allowed : List String} (hsome : allowed ≠ []) (hdistinct : allowed.Nodup)
    {rest : Options} (hrest : ∃ throttle?, rest.throttle = .ok throttle?) :
    (∃ d, (rest.withOrigins allowed).build = .ok d ∧ d.allowed = allowed) ↔
      ∀ entry ∈ allowed, Origin.normalize entry = entry ∧ Origin.Lawful entry := by
  have hstart : (rest.withOrigins allowed).startingOrigins = allowed := by
    simp [Options.startingOrigins_eq, Options.configured, Options.withOrigins, hsome]
  have hthrottle : ∃ throttle?, (rest.withOrigins allowed).throttle = .ok throttle? := hrest
  rw [exists_build_iff, hstart, and_iff_left hthrottle]
  constructor
  · intro hadded
    obtain ⟨hlawful, hsame⟩ := (Origin.addAll_eraseDups_iff []).1 hadded
    rw [List.nil_append] at hsame
    -- the new list is as long as the old one, so no two entries became the same
    have hmap : (allowed.map Origin.normalize).eraseDups = allowed.map Origin.normalize := by
      refine (sublist_eraseDups _).eq_of_length ?_
      rw [← hsame, List.length_map]
    have hid : allowed.map Origin.normalize = allowed.map id := by rw [List.map_id, ← hmap, ← hsame]
    intro entry hentry
    have hsettled : Origin.normalize entry = entry := List.map_inj_left.1 hid entry hentry
    exact ⟨hsettled, hsettled ▸ hlawful entry hentry⟩
  · intro hentries
    refine (Origin.addAll_eraseDups_iff []).2 ⟨fun entry hentry => ?_, ?_⟩
    · rw [(hentries entry hentry).1]
      exact (hentries entry hentry).2
    · rw [List.nil_append, List.map_congr_left fun entry hentry => (hentries entry hentry).1,
        List.map_id', eraseDups_eq_self_iff.2 hdistinct]

/-- An entry that stays as it is can be added again, and changes nothing. -/
theorem addOrigin_of_settled {c : Channel Float} (hdistinct : c.allowed.Nodup) {entry : String}
    (hentry : entry ∈ c.allowed) (hsettled : Origin.normalize entry = entry)
    (hlawful : Origin.Lawful entry) : c.addOrigin entry = .ok c := by
  have hsame : c.allowed = c.allowed.eraseDups := (eraseDups_eq_self_iff.2 hdistinct).symm
  rw [addOrigin_of_lawful (hsettled.symm ▸ hlawful) hsame, hsettled, eraseDups_concat, if_pos hentry,
    ← hsame]

/-- A list of lawful origins can be handed on exactly if all its entries stay as they are. -/
theorem roundTrips_iff_settled {c : Channel Float} (hsome : c.allowed ≠ [])
    (hdistinct : c.allowed.Nodup) (hlawful : ∀ entry ∈ c.allowed, Origin.Lawful entry)
    {rest : Options} (hrest : ∃ throttle?, rest.throttle = .ok throttle?) :
    c.RoundTrips rest ↔ ∀ entry ∈ c.allowed, Origin.normalize entry = entry := by
  constructor
  · intro hround entry hentry
    exact ((rebuilds_iff hsome hdistinct hrest).1 hround.rebuilds entry hentry).1
  · intro hsettled
    refine ⟨(rebuilds_iff hsome hdistinct hrest).2 fun entry hentry => ?_, fun entry hentry => ?_⟩
    · exact ⟨hsettled entry hentry, hlawful entry hentry⟩
    · exact addOrigin_of_settled hdistinct hentry (hsettled entry hentry) (hlawful entry hentry)

/-- **The list of a channel can be handed on exactly if no origin that was given to it has a blank before the
slashes at its end.**  The channel was built and is met by any commands, and the new channel is built with
any other options that a channel can be built with. -/
theorem Session.roundTrips_iff {o : Options} {c₀ : Channel Float} (hbuilt : o.build = .ok c₀)
    (start : Float) (cs : List (Command Float)) {rest : Options}
    (hrest : ∃ throttle?, rest.throttle = .ok throttle?) :
    ((⟨start, c₀⟩ : Session Float).after cs).channel.RoundTrips rest ↔
      ∀ origin ∈ o.given cs, ¬ Origin.LeavesBlank origin := by
  obtain ⟨hlist, hlawful⟩ := allowed_of_build hbuilt start cs
  have hmem : ∀ entry, entry ∈ ((⟨start, c₀⟩ : Session Float).after cs).channel.allowed ↔
      ∃ origin ∈ o.given cs, Origin.normalize origin = entry := by
    simp [hlist, List.mem_eraseDups]
  have hsome : ((⟨start, c₀⟩ : Session Float).after cs).channel.allowed ≠ [] := by
    obtain ⟨origin, horigin⟩ := List.exists_mem_of_ne_nil _ o.configured_ne_nil
    exact List.ne_nil_of_mem ((hmem _).2 ⟨origin, List.mem_append_left _ horigin, rfl⟩)
  have hdistinct : ((⟨start, c₀⟩ : Session Float).after cs).channel.allowed.Nodup :=
    hlist ▸ nodup_eraseDups _
  rw [roundTrips_iff_settled hsome hdistinct hlawful hrest]
  simp only [hmem, forall_exists_index, and_imp, forall_apply_eq_imp_iff₂,
    Origin.normalize_normalize_iff]

/-- The rule at a channel that is given origins with blanks and slashes in any other order. -/
theorem Session.roundTrips_iff_extending :
    (∃ throttle?, Options.throttle .plain = .ok throttle?) ∧
    ∃ c₀, gate.build = .ok c₀ ∧ (∀ origin ∈ gate.given extending, ¬ Origin.LeavesBlank origin) ∧
      ((⟨0, c₀⟩ : Session Float).after extending).channel.RoundTrips .plain := by
  have hrest : ∃ throttle?, Options.throttle .plain = .ok throttle? := ⟨_, rfl⟩
  have hsettled : ∀ origin ∈ gate.given extending,
      Origin.normalize (Origin.normalize origin) = Origin.normalize origin := by decide +kernel
  have hgiven : ∀ origin ∈ gate.given extending, ¬ Origin.LeavesBlank origin := fun origin horigin =>
    Origin.normalize_normalize_iff.1 (hsettled origin horigin)
  exact ⟨hrest, _, rfl, hgiven, (Session.roundTrips_iff (o := gate) rfl 0 extending hrest).2 hgiven⟩

/-- A channel for one origin, written with a blank before the slash. -/
def loose : Options :=
  Options.plain.withOrigins ["http://localhost /"]

/-- The origin is kept with the blank, and adding it once more puts another one on the list. -/
theorem not_roundTrips_loose : ∃ c, loose.build = .ok c ∧ c.allowed = ["http://localhost "] ∧
    (c.addOrigin "http://localhost ").toOption.map Channel.allowed
      = some ["http://localhost ", "http://localhost"] ∧
    ¬ c.RoundTrips .plain := by
  refine ⟨_, rfl, by decide +kernel, by decide +kernel, fun hround => ?_⟩
  have hsame := hround.readds "http://localhost " (by decide +kernel)
  exact absurd (congrArg (fun r => r.toOption.map Channel.allowed) hsame) (by decide +kernel)

end Channel

end SketchHost
