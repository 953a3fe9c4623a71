/-
**Recognition and hoisting.**

Whether code is a sketch is decided on its text, and what is moved to the instance on its syntax tree.
The two agree on a definition of the hook `setup` if the text shows it: nothing but blanks stands
between the word that introduces the name and the name, or between the name and the assignment sign
behind it.  A star, a comment, or a space that is no blank in between hides the definition.

* `Recognition.Shows`, `isSketch_iff` — a definition of the hook shows somewhere in the text;
* `Recognition.definitionAt_word_iff`, `Recognition.definitionAt_name_iff` — what the test finds at the
  two words of a head;
* `Script.Head.isPlain`, `Script.Opens.isPlain_iff` — a head that shows;
* `Dialect.hookHeads` — the heads of the definitions of the hook that are moved to the instance;
* `Dialect.Recognizes` — a sketch is recognized, and whatever asks for its script gets the converted one;
* `Dialect.recognizes_iff` — **when a sketch with a hoisted hook is recognized**;
* `Dialect.not_recognizes_generator` — a generator need not be.
-/

import SketchHost.CommandLine.Answer
import SketchHost.Proofs.InstanceMode.Applying
import SketchHost.Proofs.Script.Heads

set_option relaxedAutoImplicit false
set_option autoImplicit false

namespace SketchHost

open Script

/-! ### Places that show a definition -/

namespace Recognition

/-- A definition of the hook shows at the place before the rest of a source. -/
def Shows (source rest : List Char) : Prop :=
  ∃ before, source = before ++ rest ∧ Text.isBoundary before.getLast? rest.head? = true ∧
    definitionAt rest = true

theorem ne_nil_of_definitionAt {rest : List Char} (h : definitionAt rest = true) : rest ≠ [] := by
  rintro rfl
  revert h
  decide

/-- The test goes through a text from left to right. -/
theorem definesHook_iff (before : Option Char) (cs : List Char) :
    definesHook before cs = true ↔ ∃ run rest, cs = run ++ rest ∧
      Text.isBoundary (run.getLast?.or before) rest.head? = true ∧ definitionAt rest = true := by
  induction cs generalizing before with
  | nil =>
      constructor
      · intro h
        contradiction
      · rintro ⟨run, rest, hcs, -, hdefinition⟩
        exact absurd (List.append_eq_nil_iff.1 hcs.symm).2 (ne_nil_of_definitionAt hdefinition)
  | cons c cs ih =>
      rw [definesHook, Bool.or_eq_true, Bool.and_eq_true, ih]
      constructor
      · rintro (⟨hboundary, hdefinition⟩ | ⟨run, rest, rfl, hboundary, hdefinition⟩)
        · exact ⟨[], c :: cs, rfl, hboundary, hdefinition⟩
        · refine ⟨c :: run, rest, rfl, ?_, hdefinition⟩
          cases hlast : run.getLast? <;> simp_all [List.getLast?_cons]
      · rintro ⟨run, rest, hcs, hboundary, hdefinition⟩
        cases run with
        | nil =>
            obtain rfl : c :: cs = rest := hcs
            exact Or.inl ⟨hboundary, hdefinition⟩
        | cons x run =>
            obtain ⟨rfl, rfl⟩ := List.cons.inj hcs
            refine Or.inr ⟨run, rest, rfl, ?_, hdefinition⟩
            cases hlast : run.getLast? <;> simp_all [List.getLast?_cons]

end Recognition

theorem isSketch_iff (source : List Char) :
    isSketch source = true ↔ ∃ rest, Recognition.Shows source rest := by
  rw [isSketch, Recognition.definesHook_iff]
  constructor
  · rintro ⟨run, rest, hsource, hboundary, hdefinition⟩
    exact ⟨rest, run, hsource, by simpa using hboundary, hdefinition⟩
  · rintro ⟨rest, run, hsource, hboundary, hdefinition⟩
    exact ⟨run, rest, hsource, by simpa using hboundary, hdefinition⟩

/-! ### Blanks before a token -/

theorem trimLeft_cons (x : Char) (cs : List Char) :
    Text.trimLeft (x :: cs) = if Text.isBlank x then Text.trimLeft cs else x :: cs :=
  List.dropWhile_cons

/-- If what comes after the blanks is no space and no slash, then it is the next token, unless a blank
that is no space comes first. -/
theorem rest_skipFrom {y : Char} {after : List Char} (hspace : isSpace y = false) (hslash : y ≠ '/')
    (mode : Trivia) (cs : List Char) (k : Nat) (hmode : mode = .spaces)
    (h : Text.trimLeft cs = y :: after)
    (hblank : ∀ x ∈ (skipFrom mode cs k).rest.head?, Text.isBlank x = false) :
    (skipFrom mode cs k).rest = y :: after := by
  have hplain : Text.isBlank '/' = false := by decide
  fun_induction skipFrom mode cs k with
  | case1 rest k ih =>
      rw [trimLeft_cons, hplain] at h
      exact absurd (List.cons.inj h).1.symm hslash
  | case2 rest k ih =>
      rw [trimLeft_cons, hplain] at h
      exact absurd (List.cons.inj h).1.symm hslash
  | case3 x rest k _ _ hx ih =>
      rw [trimLeft_cons] at h
      split at h
      · exact ih rfl h hblank
      · rw [(List.cons.inj h).1, hspace] at hx
        contradiction
  | case4 x rest k =>
      rw [trimLeft_cons, hblank x rfl] at h
      exact h
  | case9 => simp at h
  | _ => contradiction

theorem rest_skipTrivia {c : Cursor} {y : Char} {after : List Char} (hspace : isSpace y = false)
    (hslash : y ≠ '/') (h : Text.trimLeft c.rest = y :: after)
    (hblank : ∀ x ∈ c.skipTrivia.rest.head?, Text.isBlank x = false) :
    c.skipTrivia.rest = y :: after :=
  rest_skipFrom hspace hslash .spaces c.rest c.offset rfl h hblank

/-! ### What heads show -/

namespace Recognition

/-- What the test looks for behind a word that introduces a name. -/
def showsBehind (cs : List Char) : Bool :=
  cs.head?.any Text.isBlank && (Text.afterWord? hook (Text.trimLeft cs)).any endsWord

theorem declares_of_afterWord? {w : String} {cs rest : List Char}
    (h : Text.afterWord? w.toList cs = some rest) : declares w cs = showsBehind rest := by
  rw [declares, afterWordAndBlanks?, h, showsBehind]
  change (Option.bind (if rest.head?.any Text.isBlank then some (Text.trimLeft rest) else none)
    (Text.afterWord? hook)).any endsWord = _
  cases rest.head?.any Text.isBlank <;> rfl

theorem definitionAt_introduction {w : String} (h : w ∈ introductions) (cs : List Char) :
    definitionAt (w.toList ++ cs) = showsBehind cs := by
  have hself : Text.afterWord? w.toList (w.toList ++ cs) = some cs := by
    simp only [introductions, List.mem_cons, List.not_mem_nil, or_false] at h
    rcases h with rfl | rfl | rfl | rfl <;> rfl
  rw [← declares_of_afterWord? hself]
  simp only [introductions, List.mem_cons, List.not_mem_nil, or_false] at h
  rcases h with rfl | rfl | rfl | rfl
  · change (_ || false || false || false || false) = _
    simp
  · change (false || _ || false || false || false) = _
    simp
  · change (false || false || _ || false || false) = _
    simp
  · change (false || false || false || _ || false) = _
    simp

theorem isLetter_ofNat_spaceCodes : ∀ n ∈ spaceCodes, Text.isLetter 's' (Char.ofNat n) = false := by
  decide +kernel

/-- A spelling of the first letter of the hook is no space, and no mark. -/
theorem plain_of_isLetter {y : Char} (h : Text.isLetter 's' y = true) :
    isSpace y = false ∧ y ≠ '/' ∧ y ≠ '*' := by
  refine ⟨?_, ?_, ?_⟩
  · rw [Bool.eq_false_iff]
    intro hspace
    have hnone := isLetter_ofNat_spaceCodes _ (mem_spaceCodes hspace)
    rw [Char.ofNat_toNat, h] at hnone
    contradiction
  · rintro rfl
    exact absurd h (by decide)
  · rintro rfl
    exact absurd h (by decide)

variable {a b e f : Cursor}

/-- What stands where the hook is read. -/
theorem rest_of_hook (h : e.word? = some ("setup", f)) : e.rest = 's' :: ("etup".toList ++ f.rest) :=
  (Cursor.word?_spells h).rest

theorem rest_of_star {c : Cursor} (h : c.mark = "*") : c.rest = '*' :: (c.skip 1).rest :=
  rest_of_mark h

/-- **A head shows at the word that introduces the name** if and only if nothing but blanks stands
between the two. -/
theorem definitionAt_word_iff {w : String} (hw : w ∈ introductions) (hword : a.word? = some (w, b))
    (hname : e.word? = some ("setup", f)) (hstar : e = b.skipTrivia ∨ b.skipTrivia.mark = "*") :
    definitionAt a.rest = true ↔ Text.trimLeft b.rest = e.rest := by
  have hhook := rest_of_hook hname
  rw [(Cursor.word?_spells hword).rest, definitionAt_introduction hw, showsBehind, Bool.and_eq_true]
  constructor
  · rintro ⟨-, hafter⟩
    cases htrim : Text.trimLeft b.rest with
    | nil =>
        rw [htrim] at hafter
        contradiction
    | cons y after =>
        have hletter : Text.isLetter 's' y = true := by
          by_contra hne
          rw [htrim, show Text.afterWord? hook (y :: after) = none from if_neg hne] at hafter
          contradiction
        obtain ⟨hspace, hslash, hne⟩ := plain_of_isLetter hletter
        -- neither the name nor a star is a blank, so the blanks lead to the next token
        have hnext : b.skipTrivia.rest = y :: after := by
          refine rest_skipTrivia hspace hslash htrim fun x hx => ?_
          rcases hstar with rfl | hm
          · rw [hhook] at hx
            obtain rfl := Option.some.inj hx
            decide
          · rw [rest_of_star hm] at hx
            obtain rfl := Option.some.inj hx
            decide
        rcases hstar with rfl | hm
        · exact hnext.symm
        · rw [rest_of_star hm] at hnext
          exact absurd (List.cons.inj hnext).1.symm hne
  · intro htrim
    refine ⟨?_, ?_⟩
    · cases hrest : b.rest with
      | nil => simp [hrest, hhook] at htrim
      | cons x rest =>
          by_contra hblank
          have hx : Text.isBlank x = false := by simpa using hblank
          rw [hrest, trimLeft_cons, hx, hhook] at htrim
          have hbehind := isWord_behind hword
          rw [hrest, (List.cons.inj htrim).1] at hbehind
          have hletter : Text.isWord 's' = false := hbehind
          exact absurd hletter (by decide)
    · rw [htrim, hhook]
      change endsWord f.rest = true
      rw [endsWord, isWord_behind hname]
      rfl

theorem markTexts_longer : ['=', '='] ∈ markTexts.take 28 ∧ ∀ m ∈ markTexts.take 28, m ≠ ['='] := by
  decide

/-- An assignment sign is no half of a comparison. -/
theorem rest_of_sign {c : Cursor} (h : c.mark = "=") :
    ∃ after, c.rest = '=' :: after ∧ after.head? ≠ some '=' := by
  have hrest : c.rest = '=' :: (c.skip 1).rest := rest_of_mark h
  refine ⟨_, hrest, fun hhead => ?_⟩
  obtain ⟨after, hafter⟩ : ∃ after, (c.skip 1).rest = '=' :: after := List.head?_eq_some_iff.1 hhead
  have hmark : markOf c.rest = ['='] := String.ofList_injective h
  rw [hrest, hafter] at hmark
  change (markTexts.find? fun m => m.isPrefixOf ('=' :: '=' :: after)).getD [] = ['='] at hmark
  rw [← List.take_append_drop 28 markTexts, List.find?_append] at hmark
  obtain ⟨m, hm⟩ : ∃ m, ((markTexts.take 28).find? fun m => m.isPrefixOf ('=' :: '=' :: after)) = some m := by
    rw [← Option.isSome_iff_exists, List.find?_isSome]
    exact ⟨['=', '='], markTexts_longer.1, rfl⟩
  rw [hm] at hmark
  exact markTexts_longer.2 m (List.mem_of_find?_eq_some hm) hmark

/-- What the test looks for behind the hook and the blanks after it. -/
def showsSign (cs : List Char) : Bool :=
  match cs with
  | '=' :: rest => rest.head? != some '='
  | _ => false

theorem assigns_of_afterWord? {cs rest : List Char} (h : Text.afterWord? hook cs = some rest) :
    assigns cs = showsSign (Text.trimLeft rest) := by
  rw [assigns, h, Option.map_some]
  unfold showsSign
  split <;> simp_all

theorem definitionAt_hook (cs : List Char) :
    definitionAt ("setup".toList ++ cs) = showsSign (Text.trimLeft cs) := by
  change (false || false || false || false || assigns ("setup".toList ++ cs)) = _
  rw [assigns_of_afterWord? rfl]
  rfl

/-- **A head shows at its name** if and only if nothing but blanks stands between the name and an
assignment sign. -/
theorem definitionAt_name_iff (hname : e.word? = some ("setup", f))
    (hnext : f.skipTrivia.mark = "(" ∨ f.skipTrivia.mark = "=") :
    definitionAt e.rest = true ↔
      f.skipTrivia.mark = "=" ∧ Text.trimLeft f.rest = f.skipTrivia.rest := by
  rw [(Cursor.word?_spells hname).rest, definitionAt_hook]
  constructor
  · intro h
    unfold showsSign at h
    split at h
    · next after htrim =>
        have hrest : f.skipTrivia.rest = '=' :: after := by
          refine rest_skipTrivia (by decide) (by decide) htrim fun x hx => ?_
          rcases hnext with hm | hm
          · rw [rest_of_mark hm] at hx
            obtain rfl := Option.some.inj hx
            decide
          · rw [rest_of_mark hm] at hx
            obtain rfl := Option.some.inj hx
            decide
        refine ⟨hnext.resolve_left fun hm => ?_, by rw [htrim, hrest]⟩
        rw [rest_of_mark hm] at hrest
        exact absurd (List.cons.inj hrest).1 (by decide)
    · contradiction
  · rintro ⟨hm, htrim⟩
    obtain ⟨after, hrest, hafter⟩ := rest_of_sign hm
    rw [htrim, hrest]
    simpa [showsSign] using hafter

end Recognition

/-! ### Heads -/

namespace Script

namespace Head

/-- Nothing but blanks stands between the word that introduces the name and the name. -/
def isPlainBefore (h : Head) : Bool :=
  h.word?.any fun a => Text.trimLeft a.pastWord.rest == h.name.rest

/-- Nothing but blanks stands between the name and an assignment sign. -/
def isPlainBehind (h : Head) : Bool :=
  let f := h.name.pastWord
  f.skipTrivia.mark == "=" && Text.trimLeft f.rest == f.skipTrivia.rest

/-- The text shows the definition that begins with a head. -/
def isPlain (h : Head) : Bool :=
  h.isPlainBefore || h.isPlainBehind

/-- The rest of the source from the word that introduces the name, and from the name. -/
def texts (h : Head) : List (List Char) :=
  (h.word?.map Cursor.rest).toList ++ [h.name.rest]

end Head

variable {source : List Char} {c : Cursor} {text : String} {h : Head}

/-- The name of a head is a word, and a parenthesis or an assignment sign follows. -/
theorem Opens.name (hopens : Opens c text h) : ∃ f, h.name.word? = some (text, f) ∧
    (f.skipTrivia.mark = "(" ∨ f.skipTrivia.mark = "=") := by
  cases hopens with
  | function _ _ _ hname hnext => exact ⟨_, hname, Or.inl hnext⟩
  | declaration _ _ hname hnext => exact ⟨_, hname, Or.inr hnext⟩
  | assignment hname hnext => exact ⟨_, hname, Or.inr hnext⟩

/-- Behind the word that introduces a name comes the name, or a star before it. -/
theorem Opens.word (hopens : Opens c text h) {a : Cursor} (ha : h.word? = some a) :
    ∃ w b, w ∈ introductions ∧ a.word? = some (w, b) ∧
      (h.name = b.skipTrivia ∨ b.skipTrivia.mark = "*") := by
  cases hopens with
  | function _ hword hstar _ _ =>
      obtain rfl := Option.some.inj ha
      exact ⟨_, _, by simp [introductions], hword, hstar.imp id And.left⟩
  | declaration hmem hword _ _ =>
      obtain rfl := Option.some.inj ha
      exact ⟨_, _, (mem_introductions _ hmem).2, hword, Or.inl rfl⟩
  | assignment => contradiction

/-- Both words of a head are read at seams. -/
theorem Opens.atSeam (hopens : Opens c text h) (hc : c.AtSeam source) :
    (∀ a, h.word? = some a → a.AtSeam source) ∧ h.name.AtSeam source := by
  cases hopens with
  | @function a b e f hasync hword hstar _ _ =>
      have ha : a.AtSeam source := by
        rcases hasync with rfl | ⟨d, hd, rfl⟩
        · exact hc
        · exact (hc.word hd).skipTrivia
      have hb := (ha.word hword).skipTrivia
      refine ⟨fun a' ha' => Option.some.inj ha' ▸ ha, ?_⟩
      rcases hstar with rfl | ⟨hm, rfl⟩
      · exact hb
      · exact (hb.mark hm ⟨'*', rfl, by decide⟩).skipTrivia
  | declaration _ hword _ _ =>
      exact ⟨fun a ha => Option.some.inj ha ▸ hc, (hc.word hword).skipTrivia⟩
  | assignment => exact ⟨fun a ha => by contradiction, hc⟩

open Recognition (Shows definitionAt)

/-- Where a word begins a definition shows if the test finds one there. -/
theorem shows_iff (hc : c.AtSeam source) (hletter : Text.isWord? c.rest.head? = true) :
    Shows source c.rest ↔ definitionAt c.rest = true := by
  constructor
  · rintro ⟨_, _, _, hdefinition⟩
    exact hdefinition
  · intro hdefinition
    obtain ⟨before, hsource⟩ := hc.1.suffix
    exact ⟨before, hsource.symm, hc.2.isBoundary hsource.symm hletter, hdefinition⟩

theorem Opens.shows_word_iff (hopens : Opens c "setup" h) (hc : c.AtSeam source) {a : Cursor}
    (ha : h.word? = some a) : Shows source a.rest ↔ h.isPlainBefore = true := by
  obtain ⟨w, b, hw, hword, hstar⟩ := hopens.word ha
  obtain ⟨f, hname, -⟩ := hopens.name
  have hletter : Text.isWord? a.rest.head? = true := by
    rw [(Cursor.word?_spells hword).rest]
    simp only [introductions, List.mem_cons, List.not_mem_nil, or_false] at hw
    rcases hw with rfl | rfl | rfl | rfl <;> rfl
  rw [shows_iff ((hopens.atSeam hc).1 a ha) hletter,
    Recognition.definitionAt_word_iff hw hword hname hstar]
  simp [Head.isPlainBefore, ha, pastWord_of_word? hword]

theorem Opens.shows_name_iff (hopens : Opens c "setup" h) (hc : c.AtSeam source) :
    Shows source h.name.rest ↔ h.isPlainBehind = true := by
  obtain ⟨f, hname, hnext⟩ := hopens.name
  have hletter : Text.isWord? h.name.rest.head? = true := by
    rw [Recognition.rest_of_hook hname]
    rfl
  rw [shows_iff (hopens.atSeam hc).2 hletter, Recognition.definitionAt_name_iff hname hnext]
  simp [Head.isPlainBehind, pastWord_of_word? hname]

/-- A definition shows at its head if and only if the head is plain. -/
theorem Opens.isPlain_iff (hopens : Opens c "setup" h) (hc : c.AtSeam source) :
    h.isPlain = true ↔ ∃ rest ∈ h.texts, Shows source rest := by
  rw [Head.isPlain, Bool.or_eq_true, ← hopens.shows_name_iff hc]
  cases hword : h.word? with
  | none => simp [Head.texts, Head.isPlainBefore, hword]
  | some a => simp [Head.texts, hword, ← hopens.shows_word_iff hc hword]

/-- A source is a sketch if the head of a definition is plain, or a definition shows elsewhere. -/
theorem Opens.isSketch_iff (hopens : Opens c "setup" h) (hc : c.AtSeam source) :
    isSketch source = true ↔ h.isPlain = true ∨ ∃ rest, rest ∉ h.texts ∧ Shows source rest := by
  rw [SketchHost.isSketch_iff, hopens.isPlain_iff hc]
  constructor
  · rintro ⟨rest, hshows⟩
    by_cases hrest : rest ∈ h.texts
    · exact Or.inl ⟨rest, hrest, hshows⟩
    · exact Or.inr ⟨rest, hrest, hshows⟩
  · rintro (⟨rest, -, hshows⟩ | ⟨rest, -, hshows⟩)
    · exact ⟨rest, hshows⟩
    · exact ⟨rest, hshows⟩

end Script

/-! ### Sketches with a hoisted hook -/

namespace Dialect

open CommandLine

/-- The heads of the definitions of the hook that are moved to the instance. -/
def hookHeads (d : Dialect) (source : List Char) : List Head :=
  match parse? source with
  | some root => root.children.filterMap fun s =>
      if (d.hoist? source s).any fun x => x.name == "setup" then some (headOf source s) else none
  | none => []

/-- The head of a definition that is moved is read at a seam. -/
theorem exists_opens {d : Dialect} {source : List Char} {h : Head} (hhead : h ∈ d.hookHeads source) :
    ∃ c : Cursor, c.AtSeam source ∧ Opens c "setup" h := by
  unfold hookHeads at hhead
  split at hhead
  · next root hroot =>
      obtain ⟨s, hs, hsome⟩ := List.mem_filterMap.1 hhead
      split at hsome
      · next hmoved =>
          obtain ⟨x, hx, hname⟩ := (Option.any_eq_true _ _).1 hmoved
          have hname : x.name = "setup" := beq_iff_eq.1 hname
          have hwf : s.WellFormed source :=
            ((wellFormed_of_parse? hroot).fits_children hs).wellFormed
          obtain ⟨c, h', hc, hoffset, hopens⟩ :=
            opens_of_hoist? (beginsAtSeam_of_parse? hroot s hs) hwf hx (by rw [hname]; decide)
          rw [hname] at hopens
          refine ⟨c, hc, ?_⟩
          rw [← Option.some.inj hsome, headOf, ← hoffset, placeFrom_of_in hc.1,
            headAt_of_opens hopens (by decide) (by decide)]
          exact hopens
      · contradiction
  · contradiction

/-- A source is recognized as a sketch, and whatever asks for its script gets the converted one: a run
of the source, and the command that prints the script. -/
structure Recognizes (d : Dialect) (source : String) (r : Converted) : Prop where
  isSketch : isSketch source.toList = true
  runs : ∀ container id, Attempt.prepare d container id source =
    .ok (r.code, Injection.forInstance r.code.toList id d.namespaceName (.text container))
  scaffolds : ∀ {m : Type → Type} [Monad m] [LawfulMonad m] {host : Host m} {config : Value}
    {path id : String} {out : Option String} {k : Converter} {fields : Fields}, id ≠ "" →
    readText host path = pure source.toList → readConverter host config = pure k →
    k.dialect = d → k.convert source = .ok (.ok r) → part "scaffold" config = .ok fields →
    answerScaffold host config path (some id) out = pure (Report.ofText
      (Injection.forInstance r.code.toList id d.namespaceName
        ((Fields.find? "container_id" fields).getD (.text Injection.defaultContainer))).text out)

/-- The command that prints the script prints that of the converted sketch. -/
theorem answerScaffold_of_isSketch {m : Type → Type} [Monad m] [LawfulMonad m] {host : Host m}
    {config : Value} {path id : String} {out : Option String} {k : Converter} {fields : Fields}
    {source : String} {r : Converted} (hsketch : isSketch source.toList = true) (hid : id ≠ "")
    (htext : readText host path = pure source.toList) (hk : readConverter host config = pure k)
    (hconvert : k.convert source = .ok (.ok r)) (hpart : part "scaffold" config = .ok fields) :
    answerScaffold host config path (some id) out = pure (Report.ofText
      (Injection.forInstance r.code.toList id k.dialect.namespaceName
        ((Fields.find? "container_id" fields).getD (.text Injection.defaultContainer))).text out) := by
  have hid' : (some id).filter (!·.isEmpty) = some id := by simp [hid]
  have hsettle : ∀ {α : Type} (x : α), (settle (.ok x) : Answering m α) = pure x := fun _ => rfl
  rw [answerScaffold, htext, pure_bind, hid']
  simp only [pure_bind, hsketch, if_true, hk, String.ofList_toList, hconvert, hpart, hsettle]

/-- **When a sketch with a hoisted hook is recognized**: if nothing but blanks stands where the test
looks for blanks, or if a definition shows at another place of the text. -/
theorem recognizes_iff {d : Dialect} {source : String} {r : Converted} {h : Head}
    (hconvert : d.convert source = .ok r) (hhead : h ∈ d.hookHeads source.toList) :
    d.Recognizes source r ↔
      h.isPlain = true ∨ ∃ rest, rest ∉ h.texts ∧ Recognition.Shows source.toList rest := by
  obtain ⟨c, hc, hopens⟩ := exists_opens hhead
  rw [← hopens.isSketch_iff hc]
  refine ⟨Recognizes.isSketch, fun hsketch => ⟨hsketch, fun container id => ?_, ?_⟩⟩
  · rw [Attempt.prepare, if_pos hsketch, hconvert]
  · rintro m _ _ host config path id out k fields hid htext hk rfl hconvert hpart
    exact answerScaffold_of_isSketch hsketch hid htext hk hconvert hpart

/-- A sketch whose hook is a plain function. -/
def functionHook : String :=
  "function setup() \x7b\x7d"

/-- A sketch whose hook is a generator. -/
def generatorHook : String :=
  "function* setup() \x7b\x7d"

theorem recognizes_iff_function : ∃ r h, standard.convert functionHook = .ok r ∧
    h ∈ standard.hookHeads functionHook.toList ∧ standard.Recognizes functionHook r := by
  have hread : standard.convertsTo functionHook ⟨"_p.setup = function () \x7b\x7d;", []⟩
      (fun _ => true) = true := by
    decide +kernel
  obtain ⟨-, -, hconvert, -⟩ := exists_convert hread
  have hhead : headAt (Cursor.start functionHook.toList) ∈ standard.hookHeads functionHook.toList := by
    decide +kernel
  exact ⟨_, _, hconvert, hhead, (recognizes_iff hconvert hhead).2 (Or.inl (by decide +kernel))⟩

/-- **A generator is hoisted and not recognized**, so its text is injected as it is. -/
theorem not_recognizes_generator : ∃ r h, standard.convert generatorHook = .ok r ∧
    h ∈ standard.hookHeads generatorHook.toList ∧ ¬ standard.Recognizes generatorHook r ∧
    ∀ container id, Attempt.prepare standard container id generatorHook =
      .ok (generatorHook, Injection.plain generatorHook.toList id) := by
  have hread : standard.convertsTo generatorHook ⟨"_p.setup = function* () \x7b\x7d;", []⟩
      (fun _ => true) = true := by
    decide +kernel
  obtain ⟨-, -, hconvert, -⟩ := exists_convert hread
  have hhead : headAt (Cursor.start generatorHook.toList) ∈
      standard.hookHeads generatorHook.toList := by
    decide +kernel
  have hsketch : isSketch generatorHook.toList = false := by decide +kernel
  refine ⟨_, _, hconvert, hhead, fun h => ?_, fun container id => ?_⟩
  · exact Bool.false_ne_true (hsketch.symm.trans h.isSketch)
  · rw [Attempt.prepare, hsketch]
    rfl

end Dialect

end SketchHost
