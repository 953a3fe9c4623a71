/-
**The line that was reported with an error.**

A line behind a text adds one mention to those of the text: no form finds anything across the place
where the two are joined.  So an error that names no line itself is shown with the line that was
reported with it, and that line is mapped.  A mention of line zero is a mention all the same, though
no line of a source, and then the reported line is lost.

* `LineMap.lineNote` — a line as it is put behind a text;
* `LineMap.mem_mentions_append`, `LineMap.spans_append` — the mentions of a text with a line behind it;
* `LineMap.Mapper.mapMessage_append` — what such a text is mapped to;
* `ErrorReport.KeepsLine` — the reported line is named in what is shown;
* `ErrorReport.keepsLine_iff` — **when the reported line is kept**.
-/

import SketchHost.Channel.Message
import SketchHost.Proofs.LineMap.Rewriting

set_option relaxedAutoImplicit false
set_option autoImplicit false

namespace SketchHost

namespace LineMap

open Text

/-- What stands ahead of the digits of a line that is put behind a text. -/
def noteHead : List Char :=
  " (line ".toList

/-- A line as it is put behind a text that names none. -/
def lineNote (n : Nat) : List Char :=
  noteHead ++ decimal n ++ [')']

theorem noteHead_eq : noteHead = ' ' :: '(' :: "line ".toList := rfl

theorem length_noteHead : noteHead.length = 7 := rfl

theorem getLast?_noteHead : noteHead.getLast? = some ' ' := by decide

theorem lineNote_eq (n : Nat) : lineNote n = ' ' :: '(' :: ("line ".toList ++ (decimal n ++ [')'])) := by
  rw [lineNote, noteHead_eq, List.append_assoc]
  rfl

/-! ### The place of the joint -/

/-- If what stands ahead of a character is divided at another one, so is what stands ahead of both. -/
theorem exists_eq_append_cons {xs ys us vs : List Char} {c d : Char} (hc : c ∉ us) (hne : c ≠ d)
    (h : xs ++ c :: ys = us ++ d :: vs) : ∃ w, xs = us ++ d :: w := by
  rcases List.append_eq_append_iff.1 h with ⟨w, rfl, hw⟩ | ⟨w, rfl, hw⟩
  · cases w with
    | nil => exact absurd (List.cons.inj hw).1 hne
    | cons x w =>
        obtain ⟨rfl, -⟩ := List.cons.inj hw
        exact absurd (List.mem_append_right _ List.mem_cons_self) hc
  · cases w with
    | nil => exact absurd (List.cons.inj hw).1.symm hne
    | cons x w =>
        obtain ⟨rfl, -⟩ := List.cons.inj hw
        exact ⟨w, rfl⟩

/-- What stands behind a run does so without the note that follows. -/
def Setting.EndsAtNote (s : Setting) : Prop :=
  ∀ rest more n, s.behind (rest ++ ' ' :: '(' :: more) n → ∃ n', s.behind rest n'

theorem space_notMem_run {ds : List Char} (h : IsRun ds) : ' ' ∉ ds :=
  fun hmem => absurd (h.2 ' ' hmem) (by decide)

theorem endsAtNote_wordSetting : wordSetting.EndsAtNote :=
  fun _ _ _ _ => ⟨0, rfl⟩

theorem endsAtNote_pairSetting : pairSetting.EndsAtNote := by
  rintro rest more n ⟨column, after, hrest, hcolumn, -⟩
  have hspace : ' ' ∉ ':' :: column := by
    simpa using space_notMem_run hcolumn
  rw [← List.cons_append] at hrest
  obtain ⟨w, rfl⟩ := exists_eq_append_cons hspace (by decide) hrest
  exact ⟨_, column, w, rfl, hcolumn, rfl⟩

theorem endsAtNote_bracketSetting : bracketSetting.EndsAtNote := by
  rintro rest more n ⟨after, hrest, -⟩
  have hrest : rest ++ ' ' :: '(' :: more = [] ++ ']' :: after := hrest
  obtain ⟨w, rfl⟩ := exists_eq_append_cons (by simp) (by decide) hrest
  exact ⟨1, w, rfl, rfl⟩

theorem endsAtNote_colonSetting : colonSetting.EndsAtNote := by
  rintro rest more n ⟨gap, c, after, hrest, hgap, hc, -⟩
  -- the parenthesis that opens the note is no blank, so the gap ends before it
  have hopening : '(' ∉ gap := fun hmem => absurd (hgap '(' hmem) (by decide)
  have hne : '(' ≠ c := by rcases hc with rfl | rfl <;> decide
  rw [List.append_cons] at hrest
  obtain ⟨w, hw⟩ := exists_eq_append_cons hopening hne hrest
  rcases List.eq_nil_or_concat w with rfl | ⟨w, x, rfl⟩
  · obtain ⟨-, hspace⟩ := List.append_inj' hw rfl
    rcases hc with rfl | rfl <;> simp at hspace
  · rw [List.concat_eq_append, ← List.cons_append, ← List.append_assoc] at hw
    obtain ⟨rfl, -⟩ := List.append_inj' hw rfl
    exact ⟨_, gap, c, w, rfl, hgap, hc, rfl⟩

theorem endsAtNote_frameSetting : frameSetting.EndsAtNote := by
  rintro rest more n ⟨column, after, hrest, hcolumn, hends, -⟩
  cases rest with
  | nil => simp at hrest
  | cons c rest =>
      rw [List.cons_append] at hrest
      obtain ⟨rfl, hcolumns⟩ := List.cons.inj hrest
      rcases List.append_eq_append_iff.1 hcolumns with ⟨w, rfl, hw⟩ | ⟨w, rfl, rfl⟩
      · -- the column ends where the note begins
        cases w with
        | nil => exact ⟨_, rest, [], by simp, by simpa using hcolumn, by simp [EndsColumn], rfl⟩
        | cons x w =>
            obtain ⟨rfl, -⟩ := List.cons.inj hw
            exact absurd (List.mem_append_right rest List.mem_cons_self) (space_notMem_run hcolumn)
      · refine ⟨_, column, w, rfl, hcolumn, fun x hx => hends x ?_, rfl⟩
        rw [List.head?_append, Option.mem_def.1 hx]
        rfl

/-- Every form finds the runs in a lawful setting that ends at a note. -/
theorem exists_setting_endsAtNote {form : Form} (h : form ∈ forms) :
    ∃ s : Setting, form.FindsIn s ∧ s.Lawful ∧ s.EndsAtNote := by
  simp only [forms, List.mem_cons, List.not_mem_nil, or_false] at h
  rcases h with rfl | rfl | rfl | rfl | rfl
  · exact ⟨wordSetting, findsIn_wordForm, lawful_wordSetting, endsAtNote_wordSetting⟩
  · exact ⟨pairSetting, findsIn_pairForm, lawful_pairSetting, endsAtNote_pairSetting⟩
  · exact ⟨colonSetting, findsIn_colonForm, lawful_colonSetting, endsAtNote_colonSetting⟩
  · exact ⟨bracketSetting, findsIn_bracketForm, lawful_bracketSetting, endsAtNote_bracketSetting⟩
  · exact ⟨frameSetting, findsIn_frameForm, lawful_frameSetting, endsAtNote_frameSetting⟩

/-! ### Mentions of a text with a line behind it -/

variable (body : List Char) (n : Nat)

/-- The mention of the line behind a text. -/
def noteMention : Mention :=
  ⟨(body ++ noteHead).length, decimal n⟩

theorem append_lineNote : body ++ lineNote n = (body ++ noteHead) ++ (decimal n ++ [')']) := by
  simp only [lineNote, List.append_assoc]

/-- The digits of the line behind a text are a whole run. -/
theorem isWholeRun_note :
    IsWholeRun (body ++ lineNote n) (noteMention body n).start (decimal n) := by
  refine ⟨body ++ noteHead, [')'], append_lineNote body n, rfl, isRun_decimal n, ?_,
    endsRun_cons.2 (by decide)⟩
  intro c hc
  rw [List.getLast?_append_of_ne_nil _ (by decide), getLast?_noteHead] at hc
  obtain rfl := Option.some.inj hc
  decide

theorem noteMention_mem : noteMention body n ∈ mentions (body ++ lineNote n) := by
  refine mem_mentions_iff.2 ⟨wordForm, by simp [forms], body ++ " (".toList,
    "line ".toList ++ (decimal n ++ [')']), ⟨5, decimal n, 0⟩, ?_, ?_, ?_⟩
  · rw [lineNote_eq]
    simp
  · refine (findsIn_wordForm _ _ _).2 ⟨"line ".toList, [')'], rfl, rfl, isRun_decimal n,
      endsRun_cons.2 (by decide), ⟨"line".toList, [' '], rfl, ?_, by simp, ?_⟩, rfl⟩
    · have hword : ("line".toList.all fun c => isLetter c c) = true := by decide
      exact List.forall₂_same.2 (List.all_eq_true.1 hword)
    · exact List.forall_mem_singleton.2 (by decide)
  · simp [noteMention, Found.mention, length_noteHead]

variable {body} {n}

/-- What is mentioned ahead of a line behind a text is mentioned in the text. -/
theorem mem_mentions_of_before {m : Mention} (h : m ∈ mentions (body ++ lineNote n))
    (hstop : m.stop ≤ body.length) : m ∈ mentions body := by
  obtain ⟨form, hform, a, b, f, htext, hf, rfl⟩ := mem_mentions_iff.1 h
  obtain ⟨s, hfind, -, hends⟩ := exists_setting_endsAtNote hform
  obtain ⟨lead, rest, rfl, hlead, hds, hrest, hahead, hbehind⟩ := (hfind _ _ _).1 hf
  -- the digits end within the text, so what stands behind them goes on with the note
  have hwithin : (a ++ (lead ++ f.digits)).length ≤ body.length := by
    simpa only [Mention.stop, Found.mention, hlead, List.length_append, Nat.add_assoc] using hstop
  have htext' : body ++ lineNote n = (a ++ (lead ++ f.digits)) ++ rest := by
    rw [htext]
    simp only [List.append_assoc]
  obtain ⟨rest', rfl⟩ : ∃ rest', body = (a ++ (lead ++ f.digits)) ++ rest' :=
    (List.prefix_of_prefix_length_le ⟨rest, htext'.symm⟩ ⟨lineNote n, rfl⟩ hwithin).imp
      fun _ h => h.symm
  rw [List.append_assoc, List.append_cancel_left_eq] at htext'
  subst htext'
  rw [lineNote_eq] at hbehind hrest
  obtain ⟨t, ht⟩ := hends _ _ _ hbehind
  have hrest' : EndsRun rest' := by
    cases rest' with
    | nil => exact endsRun_nil
    | cons c rest' => exact endsRun_cons.2 (endsRun_cons.1 hrest)
  refine mem_mentions_iff.2 ⟨form, hform, a, lead ++ (f.digits ++ rest'), ⟨f.lead, f.digits, t⟩, ?_,
    (hfind _ _ _).2 ⟨lead, rest', rfl, hlead, hds, hrest', hahead, ht⟩, rfl⟩
  simp only [List.append_assoc]

/-- A run of digits that begins ahead of the digits of a line behind a text ends within the text. -/
theorem stop_le_of_before_note {ds : List Char} {k : Nat} (h : IsWholeRun (body ++ lineNote n) k ds)
    (hlt : k < (noteMention body n).start) : k + ds.length ≤ body.length := by
  have hapart : k + ds.length < (noteMention body n).start := h.apart (isWholeRun_note body n) hlt
  obtain ⟨before, after, htext, rfl, hds, -, -⟩ := h
  rw [← List.length_append] at hapart ⊢
  by_contra hstop
  -- otherwise the last digit stands in what is put between the text and its line
  rw [append_lineNote, ← List.append_assoc before] at htext
  have hprefix : before ++ ds <+: body ++ noteHead :=
    List.prefix_of_prefix_length_le ⟨after, htext.symm⟩ ⟨_, rfl⟩ (Nat.le_of_lt hapart)
  obtain ⟨more, hover⟩ : body <+: before ++ ds :=
    List.prefix_of_prefix_length_le (List.prefix_append body _) hprefix (by omega)
  have hne : more ≠ [] := by
    rintro rfl
    rw [← hover, List.append_nil] at hstop
    exact hstop (Nat.le_refl _)
  obtain ⟨d, hd, hdigit⟩ := isDigit_getLast hds
  have hlast : more.getLast? = some d := by
    rw [← List.getLast?_append_of_ne_nil body hne, hover, List.getLast?_append_of_ne_nil _ hds.1, hd]
  obtain ⟨rest, hrest⟩ := hprefix
  rw [← hover, List.append_assoc, List.append_cancel_left_eq] at hrest
  have hmem : d ∈ noteHead := hrest ▸ List.mem_append_left rest (List.mem_of_getLast? hlast)
  have hnone : (noteHead.all fun c => !isDigit c) = true := by decide
  have hplain : isDigit d = false := by simpa using List.all_eq_true.1 hnone d hmem
  simp [hplain] at hdigit

/-- **A line behind a text adds its own mention and no other.** -/
theorem mem_mentions_append {m : Mention} (h : m ∈ mentions (body ++ lineNote n)) :
    m ∈ mentions body ∨ m = noteMention body n := by
  have hrun := Mention.isWholeRun h
  rcases Nat.lt_trichotomy m.start (noteMention body n).start with hlt | heq | hgt
  · exact Or.inl (mem_mentions_of_before h (stop_le_of_before_note hrun hlt))
  · exact Or.inr (Mention.eq_of_start h (noteMention_mem body n) heq)
  · -- behind the digits of the line stands one character
    have hapart := (isWholeRun_note body n).apart hrun hgt
    have hlt := hrun.lt_length
    rw [append_lineNote, List.length_append] at hlt
    simp only [noteMention, List.length_append, List.length_singleton] at hapart hlt
    omega

/-- A text that names no line names the one behind it. -/
theorem spans_append (hbody : mentions body = []) (hn : 0 < n) :
    spans (body ++ lineNote n) = [noteMention body n] := by
  have hvalue : (noteMention body n).value = n := natOfDigits_decimal n
  have hall : ∀ s ∈ spans (body ++ lineNote n), s = noteMention body n := by
    intro s hs
    have hs := mem_mentions_append (mem_spans_iff.1 hs).1
    simpa [hbody] using hs
  have hmem : noteMention body n ∈ spans (body ++ lineNote n) :=
    mem_spans_iff.2 ⟨noteMention_mem body n, by rwa [hvalue]⟩
  have hapart : (spans (body ++ lineNote n)).Pairwise fun x y => x.stop < y.start := spans_apart
  match hspans : spans (body ++ lineNote n) with
  | [] => simp [hspans] at hmem
  | [s] => rw [hall s (by simp [hspans])]
  | s :: t :: _ =>
      rw [hspans] at hapart hall
      have hlt := (List.pairwise_cons.1 hapart).1 t List.mem_cons_self
      rw [hall s (by simp), hall t (by simp), Mention.stop] at hlt
      omega

/-- A text with a line behind it can be read if the text and the line can. -/
theorem isReadable_append (hbody : isReadable body = true) (hn : (decimal n).length ≤ Mention.maxDigits) :
    isReadable (body ++ lineNote n) = true := by
  rw [isReadable, List.all_eq_true] at hbody ⊢
  intro m hm
  rcases mem_mentions_append hm with hm | rfl
  · exact hbody m hm
  · simpa [Mention.isTooLong, noteMention] using hn

/-- A text that names no line keeps its words and gets the line of the source. -/
theorem Mapper.mapMessage_append (m : Mapper) (hbody : mentions body = []) (hn : 0 < n)
    (hlength : (decimal n).length ≤ Mention.maxDigits) :
    m.mapMessage (body ++ lineNote n) = .ok (body ++ lineNote (m.lineFor n)) := by
  have hreadable : isReadable (body ++ lineNote n) = true :=
    isReadable_append (by simp [isReadable, hbody]) hlength
  have hvalue : (noteMention body n).value = n := natOfDigits_decimal n
  have hsplice : splice (body ++ lineNote n) [m.editOf (noteMention body n)]
      = .ok (body ++ lineNote (m.lineFor n)) := by
    have htake : (body ++ lineNote n).take (noteMention body n).start = body ++ noteHead := by
      rw [append_lineNote]
      exact List.take_left
    have hdrop : (body ++ lineNote n).drop (noteMention body n).stop = [')'] := by
      rw [append_lineNote, ← List.append_assoc]
      refine List.drop_left' ?_
      rw [List.length_append]
      rfl
    rw [splice, List.mergeSort_singleton, spliceFrom_cons_iff]
    refine ⟨Nat.zero_le _, _, rfl, ?_⟩
    simp only [Mapper.editOf, stretch, List.drop_zero, htake, hdrop, hvalue]
    rw [append_lineNote]
    simp only [List.append_assoc]
  rw [Mapper.mapMessage, if_pos hreadable, Mapper.renumber, spans_append hbody hn, List.map_singleton,
    hsplice]

end LineMap

/-! ### Reports -/

namespace ErrorReport

open LineMap

variable {r : ErrorReport} {n : Nat}

/-- Message and stack, as they are shown. -/
def body (r : ErrorReport) : List Char :=
  (withStack r.headline r.stack).toList

/-- The reported line is put behind message and stack unless these mention a number in one of the
forms. -/
theorem text_eq (hline : r.line = some (n : Int)) (hn : 0 < n) :
    r.text = if namesLine r.body then r.body else r.body ++ lineNote n := by
  have hne : ((n : Int) != 0) = true := by
    simp only [bne_iff_ne]
    omega
  have htext : r.text = if ((n : Int) != 0 && !namesLine r.body) = true
      then r.body ++ lineNote n else r.body := by
    simp only [text, hline, lineNote, ← List.append_assoc]
    rfl
  rw [htext, hne, Bool.true_and]
  cases namesLine r.body <;> rfl

/-- The reported line is kept: what is shown names a line, and if message and stack name none, it
ends with the line of the source for the reported one. -/
structure KeepsLine (r : ErrorReport) (n : Nat) : Prop where
  named : ∃ ns, Mapper.extract r.text = .ok ns ∧ ns ≠ []
  mapped : spans r.body = [] → ∀ m : Mapper, ∃ out, m.mapMessage r.text = .ok out
    ∧ "(line ".toList ++ Text.decimal (m.lineFor n) ++ [')'] <:+ out

/-- A text that can be read names a line exactly if it has a span. -/
theorem lineNumbers_eq_nil_iff {text : List Char} : lineNumbers text = [] ↔ spans text = [] := by
  simp only [List.eq_nil_iff_forall_not_mem, mem_lineNumbers_iff, not_exists, not_and]
  exact ⟨fun h s hs => h s.value s hs rfl, fun h _ s hs _ => h s hs⟩

theorem namesLine_eq_false_iff {text : List Char} : namesLine text = false ↔ mentions text = [] := by
  simp [namesLine]

/-- **When the reported line is kept.**  A positive line that was reported with an error is named in
what is shown exactly if message and stack name a line themselves, or mention no number in any of the
forms: a mention of zero keeps the reported line out and names none. -/
theorem keepsLine_iff (hline : r.line = some (n : Int)) (hn : 0 < n)
    (hlength : (Text.decimal n).length ≤ Mention.maxDigits) (hbody : isReadable r.body = true) :
    r.KeepsLine n ↔ spans r.body ≠ [] ∨ mentions r.body = [] := by
  have htext := text_eq hline hn
  constructor
  · intro h
    by_contra hcontra
    obtain ⟨hspans, hmentions⟩ := not_or.1 hcontra
    have hnames : namesLine r.body = true :=
      (Bool.not_eq_false _).mp fun hfalse => hmentions (namesLine_eq_false_iff.1 hfalse)
    rw [hnames, if_pos rfl] at htext
    obtain ⟨ns, hns, hne⟩ := h.named
    rw [htext, Mapper.extract, if_pos hbody, lineNumbers_eq_nil_iff.2 (not_not.1 hspans)] at hns
    exact hne (Except.ok.inj hns).symm
  · intro h
    cases hnames : namesLine r.body with
    | true =>
        have hspans : spans r.body ≠ [] := by
          refine h.resolve_right fun hnone => ?_
          rw [namesLine_eq_false_iff.2 hnone] at hnames
          exact Bool.false_ne_true hnames
        rw [hnames, if_pos rfl] at htext
        refine ⟨⟨lineNumbers r.body, ?_, mt lineNumbers_eq_nil_iff.1 hspans⟩,
          fun hnone => absurd hnone hspans⟩
        rw [htext, Mapper.extract, if_pos hbody]
    | false =>
        have hmentions := namesLine_eq_false_iff.1 hnames
        rw [hnames, if_neg Bool.false_ne_true] at htext
        refine ⟨⟨lineNumbers r.text, ?_, mt lineNumbers_eq_nil_iff.1 ?_⟩, fun _ m => ?_⟩
        · rw [htext, Mapper.extract, if_pos (isReadable_append hbody hlength)]
        · rw [htext, spans_append hmentions hn]
          simp
        · refine ⟨_, htext ▸ m.mapMessage_append hmentions hn hlength, r.body ++ [' '], ?_⟩
          rw [lineNote_eq]
          simp

/-- A thrown text that names no line, with the line that was reported. -/
def thrown : ErrorReport :=
  ⟨"error", none, some "boom", none, some 12⟩

/-- The reported line of the thrown text is shown. -/
theorem keepsLine_iff_thrown : thrown.line = some ((12 : Nat) : Int) ∧ thrown.KeepsLine 12
    ∧ thrown.text = "boom (line 12)".toList := by
  have hmentions : mentions thrown.body = [] := by decide +kernel
  refine ⟨rfl, (keepsLine_iff rfl (by decide) (by decide) ?_).2 (Or.inr hmentions), by decide +kernel⟩
  simp [isReadable, hmentions]

/-- An error without a place of its own, which the runtime puts at line zero, with the line that was
reported. -/
def placeless : ErrorReport :=
  ⟨"error", none, some "Script error. (0:0)", none, some 7⟩

/-- The reported line of that error is lost. -/
theorem not_keepsLine_placeless : placeless.line = some ((7 : Nat) : Int)
    ∧ isReadable placeless.body = true ∧ spans placeless.body = []
    ∧ Mapper.extract placeless.text = .ok [] ∧ ¬ placeless.KeepsLine 7 := by
  have hextract : Mapper.extract placeless.text = .ok [] := by decide +kernel
  refine ⟨rfl, by decide +kernel, by decide +kernel, hextract, fun h => ?_⟩
  obtain ⟨ns, hns, hne⟩ := h.named
  exact hne (Except.ok.inj (hns.symm.trans hextract))

end ErrorReport

end SketchHost
