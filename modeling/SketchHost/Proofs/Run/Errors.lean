/-
**The errors of a running sketch.**

The runner makes an error of what a sketch sends as one, whatever this looks like.  If it is a report, the
report counts; if not, what is shown of it becomes the message of one.  The lines in the text of the report
are mapped, unless this fails.  The one thing that may go wrong is writing: a whole number of more digits
than are ever written, in a payload that is no report, leaves the runner without a message.  A line that is
read from a text, a truth value or a decimal is never as long as that.

* `ErrorReport.IsFrom` — the report that is made of a payload;
* `RunError.Describes` — an error says what a payload reports, with its lines mapped;
* `RunError.describes_of_ofPayload?` — **an error that is made of a payload says what this reports**;
* `Value.isShort_of_asInt` — an integer that is read is short, unless it was long as it stood;
* `RunError.IsLegible`, `RunError.isSome_ofPayload?_iff` — **an error is made of a payload if and only if it
  is a report, or what is shown of it can be written**.
-/

import SketchHost.Proofs.Text.Digits
import SketchHost.Run.Runner

set_option relaxedAutoImplicit false
set_option autoImplicit false

namespace SketchHost

/-! ### Reports -/

/-- The report that is made of a payload: the one that it is, or else what is shown of it as a message. -/
inductive ErrorReport.IsFrom (payload : Fields) : ErrorReport → Prop
  | report {report : ErrorReport} (hread : ErrorReport.ofFields payload = .ok report) :
      IsFrom payload report
  | shown {findings : List Finding} (hread : ErrorReport.ofFields payload = .error findings)
      (hwritable : (RunError.rawValue payload).isWritable = true) :
      IsFrom payload (.ofMessage (String.ofList (RunError.rawValue payload).display))

namespace RunError

theorem rawMessage?_eq_some_iff {payload : Fields} {message : String} :
    rawMessage? payload = some message ↔
      (rawValue payload).isWritable = true ∧ message = String.ofList (rawValue payload).display := by
  rw [rawMessage?, Value.display?]
  cases (rawValue payload).isWritable <;> simp [eq_comm]

theorem reportOf?_eq_some_iff {payload : Fields} {report : ErrorReport} :
    reportOf? payload = some report ↔ ErrorReport.IsFrom payload report := by
  rw [reportOf?]
  cases hread : ErrorReport.ofFields payload with
  | ok r =>
      constructor
      · rintro h
        obtain rfl := Option.some.inj h
        exact .report hread
      · rintro (⟨hread'⟩ | ⟨hread', -⟩)
        · rw [← Except.ok.inj (hread.symm.trans hread')]
        · simp [hread] at hread'
  | error findings =>
      simp only [Option.map_eq_some_iff, rawMessage?_eq_some_iff]
      constructor
      · rintro ⟨message, ⟨hwritable, rfl⟩, rfl⟩
        exact .shown hread hwritable
      · rintro (⟨hread'⟩ | ⟨-, hwritable⟩)
        · simp [hread] at hread'
        · exact ⟨_, ⟨hwritable, rfl⟩, rfl⟩

end RunError

/-! ### Errors -/

/-- An error says what a payload reports, for the attempt with an identifier.  The lines in its text are
those of a mapper; if this cannot map them, they are shown as they are. -/
structure RunError.Describes (x : RunError) (m : LineMap.Mapper) (id : String) (payload : Fields) :
    Prop where
  ofId : x.id = id
  ofReport : ∃ report, ErrorReport.IsFrom payload report ∧
    x.message = report.headline ∧ x.stack = report.stack ∧
    (∀ mapped, m.mapMessage report.text = .ok mapped → x.shown = mapped) ∧
    (∀ fault, m.mapMessage report.text = .error fault → x.shown = report.text)

/-- The text that can be written is the text. -/
theorem ErrorReport.eq_text_of_text? {r : ErrorReport} {text : List Char} (h : r.text? = some text) :
    text = r.text := by
  rw [text?] at h
  split at h
  · split at h
    · exact (Option.some.inj h).symm
    · contradiction
  · exact (Option.some.inj h).symm

/-- A report whose line is short has a text that can be written. -/
theorem ErrorReport.text?_of_isShort {r : ErrorReport} (h : ∀ n ∈ r.line, Text.isShort n = true) :
    r.text? = some r.text := by
  rw [text?]
  cases hline : r.line with
  | none => rfl
  | some n => simp [h n hline]

namespace RunError

/-- **An error that is made of a payload says what this reports**, with its lines mapped as those of the
attempt are. -/
theorem describes_of_ofPayload? {a : Attempt} {payload : Fields} {x : RunError}
    (h : ofPayload? a payload = some x) : x.Describes a.mapper a.id payload := by
  rw [ofPayload?] at h
  split at h
  · contradiction
  · next report hreport =>
      obtain ⟨text, htext, rfl⟩ := Option.map_eq_some_iff.1 h
      obtain rfl := ErrorReport.eq_text_of_text? htext
      refine ⟨rfl, report, reportOf?_eq_some_iff.1 hreport, rfl, rfl, ?_, ?_⟩
      all_goals
        intro result hresult
        simp only [Attempt.shownText, hresult]

end RunError

/-! ### Lines that are read -/

theorem Text.isShort_iff {n : Int} : Text.isShort n = true ↔ n.natAbs < 10 ^ Text.maxDigits := by
  unfold Text.isShort
  rw [decide_eq_true_iff, Nat.pow_eq]

/-- A number below a power of ten with so many digits is short. -/
theorem Text.isShort_of_lt {n : Int} (digits : Nat) (h : n.natAbs < 10 ^ digits)
    (hdigits : digits ≤ Text.maxDigits) : Text.isShort n = true :=
  Text.isShort_iff.2 (Nat.lt_of_lt_of_le h (Nat.pow_le_pow_right (by decide) hdigits))

namespace Value

/-- Few digits denote a short number. -/
theorem isShort_of_signedDigits? {cs : List Char} {n : Int} (h : signedDigits? cs = some n)
    (hlength : cs.length ≤ maxNumeral) : Text.isShort n = true := by
  unfold signedDigits? at h
  split at h
  next negative digits hparts =>
    have hdigits : digits.length ≤ cs.length := by
      split at hparts <;> simp [← (Prod.mk.inj hparts).2]
    split at h
    · contradiction
    · have hbound := Text.natOfDigits_lt digits
      refine Text.isShort_of_lt digits.length ?_ (Nat.le_trans hdigits hlength)
      rw [← Option.some.inj h]
      cases negative <;> simpa using hbound

/-- A numeral that is read denotes a short number. -/
theorem isShort_of_readNumeral {s : String} {n : Int} (h : readNumeral s = .ok n) :
    Text.isShort n = true := by
  rw [readNumeral] at h
  split at h
  · contradiction
  · dsimp only at h
    split at h
    · contradiction
    · next body _ hlength =>
        split at h
        · contradiction
        · split at h
          · next m hdigits =>
              obtain rfl := Except.ok.inj h
              refine isShort_of_signedDigits? hdigits (Nat.le_trans (List.length_filter_le ..) ?_)
              simpa using hlength
          · contradiction

/-- A whole decimal that is read is a short number. -/
theorem isShort_of_wholeFloat {x : Float} {n : Int} (h : wholeFloat x = .ok n) :
    Text.isShort n = true := by
  rw [wholeFloat] at h
  split at h
  · contradiction
  · split at h
    · contradiction
    · split at h
      · next hbits =>
          obtain rfl := Except.ok.inj h
          exact Text.isShort_of_lt 63
            (Nat.lt_of_lt_of_le hbits (Nat.pow_le_pow_left (by decide) 63)) (by decide)
      · contradiction

/-- **An integer that is read is short, unless it was long as it stood.** -/
theorem isShort_of_asInt {v : Value} (hshort : ∀ n, v = .int n → Text.isShort n = true) {n : Int}
    (h : v.asInt = .ok n) : Text.isShort n = true := by
  cases v with
  | int m =>
      obtain rfl := Except.ok.inj h
      exact hshort m rfl
  | bool b =>
      obtain rfl := Except.ok.inj h
      exact Text.isShort_of_lt 1 (by cases b <;> decide) (by decide)
  | float x => exact isShort_of_wholeFloat h
  | text s => exact isShort_of_readNumeral h
  | _ => simp [asInt] at h

end Value

/-- The line of a report is short, unless the payload has a long number under its name. -/
theorem ErrorReport.isShort_line_of_ofFields {payload : Fields} {r : ErrorReport}
    (hread : ofFields payload = .ok r)
    (hline : ∀ n, Fields.find? "lineno" payload = some (.int n) → Text.isShort n = true) :
    ∀ n ∈ r.line, Text.isShort n = true := by
  simp only [ofFields] at hread
  split at hread
  · next line _ _ _ _ hfield =>
      obtain rfl := Except.ok.inj hread
      intro n hn
      obtain rfl : line = some n := hn
      rw [Message.optionalField] at hfield
      split at hfield
      · simp at hfield
      · next v hfind =>
          cases v with
          | null => simp [Value.orNull, Except.mapError] at hfield
          | _ =>
              refine Value.isShort_of_asInt (fun m hm => hline m (hm ▸ hfind)) (n := n) ?_
              revert hfield
              simp only [Value.orNull]
              cases Value.asInt _ <;> simp [Except.map, Except.mapError]
  · contradiction

namespace RunError

/-- An error can be made of a payload: it is a report, or what is shown of it can be written. -/
def IsLegible (payload : Fields) : Prop :=
  (∃ report, ErrorReport.ofFields payload = .ok report) ∨ (rawValue payload).isWritable = true

/-- **An error is made of a payload if and only if it is a report, or what is shown of it can be written**,
as long as no number under the name for lines is too long. -/
theorem isSome_ofPayload?_iff (a : Attempt) {payload : Fields}
    (hline : ∀ n, Fields.find? "lineno" payload = some (.int n) → Text.isShort n = true) :
    (ofPayload? a payload).isSome = true ↔ IsLegible payload := by
  rw [ofPayload?, reportOf?, IsLegible]
  cases hread : ErrorReport.ofFields payload with
  | ok report =>
      have htext := ErrorReport.text?_of_isShort (ErrorReport.isShort_line_of_ofFields hread hline)
      simp [htext]
  | error findings =>
      rw [rawMessage?, Value.display?]
      cases (rawValue payload).isWritable <;> simp [ErrorReport.text?, ErrorReport.ofMessage]

end RunError

end SketchHost
