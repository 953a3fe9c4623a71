/-
**The list of origins of a channel.**

A channel takes messages from the origins on its list.  An origin is put on the list as it is kept, without
blanks around it and without slashes at its end.  If nothing is left of it then, or if it has a wildcard, it
is refused and the list stays as it is; if it is on the list already, it is not put there again.  Nothing else
changes the list.  So at any time it has the origins that the channel was built with and those that were added
since, in this order and each once.

* `eraseDups_concat` — one more entry at the end of a list without repetitions;
* `Origin.Lawful` — an origin may be on a list;
* `Origin.addAll_eraseDups_iff` — when several origins can be added, and what the list is then;
* `Channel.Options.configured`, `Channel.accepted`, `Channel.Options.given` — the origins that a channel is
  built with, those that commands add and that are not refused, and both;
* `Channel.Session.allowed_step`, `Channel.Session.allowed_after` — single commands, and runs;
* `Channel.Session.allowlist_exact` — **the list of a channel has the origins that were given to it, each
  once, in their order**.
-/

import SketchHost.Proofs.Channel.Session
import Mathlib.Data.List.Induction

set_option relaxedAutoImplicit false
set_option autoImplicit false

namespace SketchHost

/-! ### Lists without repetitions -/

/-- One more entry comes at the end, unless it is there. -/
theorem eraseDups_concat (l : List String) (a : String) :
    (l ++ [a]).eraseDups = if a ∈ l then l.eraseDups else l.eraseDups ++ [a] := by
  rw [List.eraseDups_append, List.removeAll]
  by_cases ha : a ∈ l <;> simp [ha, List.eraseDups_cons]

theorem sublist_eraseDups (l : List String) : l.eraseDups.Sublist l := by
  induction l using List.reverseRecOn with
  | nil => simp
  | append_singleton l a ih =>
      rw [eraseDups_concat]
      split
      · exact ih.trans (List.sublist_append_left l [a])
      · exact ih.append_right [a]

theorem nodup_eraseDups (l : List String) : l.eraseDups.Nodup := by
  induction l using List.reverseRecOn with
  | nil => simp
  | append_singleton l a ih =>
      rw [eraseDups_concat]
      split
      · exact ih
      · next ha =>
          refine List.nodup_append.2 ⟨ih, by simp, fun b hb c hc hbc => ha ?_⟩
          rw [← List.mem_singleton.1 hc, ← hbc]
          exact List.mem_eraseDups.1 hb

theorem eraseDups_eq_self_iff {l : List String} : l.eraseDups = l ↔ l.Nodup := by
  refine ⟨fun h => h ▸ nodup_eraseDups l, fun h => ?_⟩
  induction l using List.reverseRecOn with
  | nil => rfl
  | append_singleton l a ih =>
      obtain ⟨hl, -, hne⟩ := List.nodup_append.1 h
      have ha : a ∉ l := fun ha => hne a ha a List.mem_cons_self rfl
      rw [eraseDups_concat, if_neg ha, ih hl]

namespace Origin

/-! ### Origins on a list -/

/-- An origin may be on a list: there is something in it, and no wildcard. -/
structure Lawful (origin : String) : Prop where
  nonempty : origin ≠ ""
  plain : '*' ∉ origin.toList

theorem isAcceptable_iff {origin : String} : isAcceptable origin = true ↔ Lawful origin := by
  rw [isAcceptable, Bool.and_eq_true, Bool.not_eq_true', Bool.not_eq_true']
  constructor
  · rintro ⟨hempty, hplain⟩
    exact ⟨by simpa using hempty, by simpa using hplain⟩
  · rintro ⟨hempty, hplain⟩
    exact ⟨by simpa using hempty, by simpa using hplain⟩

instance : DecidablePred Lawful := fun _ => decidable_of_iff _ isAcceptable_iff

/-- An origin that is not lawful as it is kept is refused. -/
theorem add_of_not_lawful {origin : String} (h : ¬ Lawful (normalize origin)) (allowed : List String) :
    add allowed origin = .error ⟨normalize origin⟩ := by
  have hrefused : isAcceptable (normalize origin) = false := by
    rwa [← isAcceptable_iff, Bool.not_eq_true] at h
  simp [add, hrefused]

/-- A lawful origin comes at the end of a list without repetitions, unless it is there. -/
theorem add_of_lawful {origin : String} (h : Lawful (normalize origin)) (given : List String) :
    add given.eraseDups origin = .ok (given ++ [normalize origin]).eraseDups := by
  simp [add, isAcceptable_iff.2 h, eraseDups_concat]

/-- Several origins can be added if all are lawful as they are kept, and then they come at the end, in their
order. -/
theorem addAll_eraseDups_iff (given : List String) {origins result : List String} :
    addAll given.eraseDups origins = .ok result ↔
      (∀ origin ∈ origins, Lawful (normalize origin)) ∧
        result = (given ++ origins.map normalize).eraseDups := by
  induction origins generalizing given with
  | nil => simp [eq_comm]
  | cons origin rest ih =>
      by_cases h : Lawful (normalize origin)
      · simp only [addAll, add_of_lawful h, ih, List.forall_mem_cons, h, true_and, List.map_cons,
          List.append_assoc, List.singleton_append]
      · simp [addAll, add_of_not_lawful h, h]

end Origin

namespace Channel

variable {τ : Type}

/-! ### Channels that are built -/

/-- The origins that a channel is configured with: the usual ones if none are given. -/
def Options.configured (o : Options) : List String :=
  if o.origins.getD [] = [] then Config.defaultOrigins else o.origins.getD []

theorem Options.configured_ne_nil (o : Options) : o.configured ≠ [] := by
  rw [configured]
  split
  · decide
  · assumption

theorem Options.startingOrigins_eq (o : Options) : o.startingOrigins = o.configured := by
  obtain ⟨_ | _ | ⟨first, rest⟩, sender, id, requiresId, throttleMs, callbacks, hasLoop⟩ := o <;> rfl

/-- A channel can be built if its origins can be added and its throttle can be made, and then its list has
these origins. -/
theorem exists_build_iff {o : Options} {allowed : List String} :
    (∃ c, o.build = .ok c ∧ c.allowed = allowed) ↔
      Origin.addAll [] o.startingOrigins = .ok allowed ∧ ∃ throttle?, o.throttle = .ok throttle? := by
  simp only [Options.build]
  cases horigins : Origin.addAll [] o.startingOrigins with
  | error r => simp [Except.mapError, bind, Except.bind]
  | ok result =>
      cases hthrottle : o.throttle with
      | error f => simp [Except.mapError, bind, Except.bind]
      | ok throttle? => simp [Except.mapError, bind, Except.bind, pure, Except.pure]

/-! ### Single commands -/

/-- The origin that a command adds, unless it is refused. -/
def Command.accepted? : Command τ → Option String
  | .addOrigin origin => if Origin.Lawful (Origin.normalize origin) then some origin else none
  | _ => none

/-- The origins that several commands add and that are not refused. -/
def accepted (cs : List (Command τ)) : List String :=
  cs.filterMap Command.accepted?

theorem accepted_cons (c : Command τ) (cs : List (Command τ)) :
    accepted (c :: cs) = c.accepted?.toList ++ accepted cs := by
  rw [accepted, List.filterMap_cons]
  cases c.accepted? <;> rfl

theorem lawful_of_mem_accepted {cs : List (Command τ)} {origin : String} (h : origin ∈ accepted cs) :
    Origin.Lawful (Origin.normalize origin) := by
  obtain ⟨c, -, hc⟩ := List.mem_filterMap.1 h
  cases c with
  | addOrigin raw =>
      rw [Command.accepted?] at hc
      split at hc
      · next hlawful => exact Option.some.inj hc ▸ hlawful
      · simp at hc
  | _ => simp [Command.accepted?] at hc

/-- The origins that a channel is given, when it is built and by several commands. -/
def Options.given (o : Options) (cs : List (Command τ)) : List String :=
  o.configured ++ accepted cs

theorem OnlyThrottle.allowed_eq {c d : Channel τ} (h : OnlyThrottle c d) : d.allowed = c.allowed := by
  rw [h.rest]

/-- An origin that is refused leaves no other state. -/
theorem addOrigin_of_not_lawful {origin : String} (h : ¬ Origin.Lawful (Origin.normalize origin))
    (c : Channel τ) : c.addOrigin origin = .error ⟨Origin.normalize origin⟩ := by
  rw [addOrigin, Origin.add_of_not_lawful h]
  rfl

/-- An origin that is not refused is put on the list, and nothing else changes. -/
theorem addOrigin_of_lawful {origin : String} (h : Origin.Lawful (Origin.normalize origin))
    {c : Channel τ} {given : List String} (hc : c.allowed = given.eraseDups) :
    c.addOrigin origin =
      .ok { c with allowed := (given ++ [Origin.normalize origin]).eraseDups } := by
  rw [addOrigin, hc, Origin.add_of_lawful h]
  rfl

namespace Session

variable [Resize.Clock τ] {s : Session τ} {given : List String}

/-- A command changes the list only by an origin that it adds. -/
theorem allowed_step (hs : s.channel.allowed = given.eraseDups) (c : Command τ) :
    (s.step c).channel.allowed =
      (given ++ c.accepted?.toList.map Origin.normalize).eraseDups := by
  have hsame : ∀ {d : Channel τ}, d.allowed = s.channel.allowed →
      d.allowed = (given ++ [].map Origin.normalize).eraseDups := by
    intro d hd
    rw [hd, hs, List.map_nil, List.append_nil]
  cases c with
  | addOrigin origin =>
      rw [step, Command.accepted?]
      split
      · next h =>
          rw [addOrigin_of_lawful h hs]
          rfl
      · next h =>
          rw [addOrigin_of_not_lawful h]
          exact hsame rfl
  | message e react => exact hsame (onlyThrottle_handle react s.now e s.channel).allowed_eq
  | register type h hother =>
      rw [step, register?]
      split <;> exact hsame rfl
  | fire => exact hsame (onlyThrottle_fire s.now s.channel).allowed_eq
  | _ => exact hsame rfl

/-- So a run changes the list only by the origins that it adds, by induction on the run. -/
theorem allowed_after (hs : s.channel.allowed = given.eraseDups) (cs : List (Command τ)) :
    (s.after cs).channel.allowed = (given ++ (accepted cs).map Origin.normalize).eraseDups := by
  induction cs generalizing s given with
  | nil => rw [after_nil, hs, accepted, List.filterMap_nil, List.map_nil, List.append_nil]
  | cons c rest ih =>
      rw [after_cons, ih (allowed_step hs c), accepted_cons, List.map_append, List.append_assoc]

/-- The list of a channel that was built, after any run: it has the origins that were given to the channel,
and all of them are lawful. -/
theorem allowed_of_build {o : Options} {c₀ : Channel Float} (hbuilt : o.build = .ok c₀) (start : Float)
    (cs : List (Command Float)) :
    let s := (⟨start, c₀⟩ : Session Float).after cs
    s.channel.allowed = ((o.given cs).map Origin.normalize).eraseDups ∧
      ∀ entry ∈ s.channel.allowed, Origin.Lawful entry := by
  intro s
  obtain ⟨hadded, -⟩ := exists_build_iff.1 ⟨c₀, hbuilt, rfl⟩
  rw [o.startingOrigins_eq] at hadded
  obtain ⟨hlawful, hfirst⟩ := (Origin.addAll_eraseDups_iff []).1 hadded
  have hlist : s.channel.allowed = ((o.given cs).map Origin.normalize).eraseDups := by
    rw [Options.given, List.map_append]
    exact allowed_after (by simpa using hfirst) cs
  refine ⟨hlist, fun entry hentry => ?_⟩
  rw [hlist, List.mem_eraseDups, List.mem_map] at hentry
  obtain ⟨origin, horigin, rfl⟩ := hentry
  rcases List.mem_append.1 horigin with horigin | horigin
  · exact hlawful origin horigin
  · exact lawful_of_mem_accepted horigin

/-- **The list of a channel has the origins that were given to it, each once, in their order.**  They are
given to it when it is built, the usual ones if none are, and by any commands afterwards; and they are on the
list as they are kept.  So nothing is on it twice, it has no empty origin and none with a wildcard, and what
is on it stays where it is.  An origin is refused exactly if it is empty or has a wildcard as it is kept, and
then the channel stays as it is. -/
theorem allowlist_exact {o : Options} {c₀ : Channel Float} (hbuilt : o.build = .ok c₀) (start : Float)
    (cs : List (Command Float)) :
    let s := (⟨start, c₀⟩ : Session Float).after cs
    s.channel.allowed = ((o.given cs).map Origin.normalize).eraseDups ∧
    s.channel.allowed.Nodup ∧
    (∀ origin ∈ s.channel.allowed, Origin.Lawful origin) ∧
    (∀ more, s.channel.allowed <+: (s.after more).channel.allowed) ∧
    ∀ origin,
      ((∃ c, s.channel.addOrigin origin = .ok c) ↔ Origin.Lawful (Origin.normalize origin)) ∧
      ∀ r, s.channel.addOrigin origin = .error r →
        r = ⟨Origin.normalize origin⟩ ∧ s.step (.addOrigin origin) = s := by
  intro s
  obtain ⟨hlist, hlawful⟩ : s.channel.allowed = ((o.given cs).map Origin.normalize).eraseDups ∧ _ :=
    allowed_of_build hbuilt start cs
  refine ⟨hlist, ?_, hlawful, ?_, ?_⟩
  · rw [hlist]
    exact nodup_eraseDups _
  · intro more
    rw [allowed_after hlist more, hlist, List.eraseDups_append]
    exact List.prefix_append _ _
  · intro origin
    by_cases h : Origin.Lawful (Origin.normalize origin)
    · have hadds := addOrigin_of_lawful h hlist
      exact ⟨iff_of_true ⟨_, hadds⟩ h, by simp [hadds]⟩
    · have hrefuses := addOrigin_of_not_lawful h s.channel
      refine ⟨iff_of_false (by simp [hrefuses]) h, fun r hr => ?_⟩
      rw [hrefuses] at hr
      refine ⟨(Except.error.inj hr).symm, ?_⟩
      rw [step, hrefuses]
      rfl

/-- A channel that is configured with one origin in two ways of writing it. -/
def gate : Options :=
  ⟨some [" http://localhost/ ", "http://localhost"], .fixed none, none, none, none, [.ready], .given⟩

/-- An owner who adds origins of all kinds, before and after the channel is closed. -/
def extending : List (Command Float) :=
  [.addOrigin "*", .addOrigin "https://example.org//", .expectId (some "sketch-1"), .close,
    .addOrigin " / ", .addOrigin "http://localhost/", .addOrigin "\thttps://example.net"]

/-- Two of the origins are refused, and one is on the list already. -/
theorem allowlist_exact_extending :
    ∃ c₀, gate.build = .ok c₀ ∧
      let s := (⟨0, c₀⟩ : Session Float).after extending
      s.channel.allowed = ["http://localhost", "https://example.org", "https://example.net"] ∧
      (∀ origin ∈ s.channel.allowed, Origin.Lawful origin) ∧
      ∃ r, s.channel.addOrigin "*/" = .error r ∧ s.step (.addOrigin "*/") = s := by
  refine ⟨_, rfl, ?_⟩
  obtain ⟨hlist, -, hlawful, -, hadds⟩ := allowlist_exact (o := gate) rfl 0 extending
  refine ⟨hlist.trans (by decide +kernel), hlawful, ?_⟩
  obtain ⟨hok, hrefuses⟩ := hadds "*/"
  cases hadd : ((⟨0, _⟩ : Session Float).after extending).channel.addOrigin "*/" with
  | ok c => exact absurd (hok.1 ⟨c, hadd⟩) (by decide +kernel)
  | error r => exact ⟨r, rfl, (hrefuses r hadd).2⟩

end Session

end Channel

end SketchHost
