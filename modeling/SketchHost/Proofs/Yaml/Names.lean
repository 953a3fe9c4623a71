/-
**Names in what is read from YAML.**

A name may be written twice in a record, and records may be merged into one that has some of their names.
What is read has each name once all the same, at every depth.

* `Yaml.Entry.IsProper` — the values of a field, or of the fields that are merged in, are proper;
* `Yaml.isProper_assemble` — a record that is put together from proper parts;
* `Yaml.isProper_valueOf?` — what a node denotes;
* `Yaml.isProper_read?` — **what is read is proper**.
-/

import SketchHost.Proofs.Value.Records
import SketchHost.Yaml.Reader

set_option relaxedAutoImplicit false
set_option autoImplicit false

namespace SketchHost

namespace Yaml

/-! ### Scalars -/

theorem isProper_plainValue? {cs : List Char} {v : Value} (h : plainValue? cs = some v) : v.IsProper := by
  simp only [plainValue?] at h
  repeat' split at h
  all_goals first
    | contradiction
    | cases h; exact .scalar rfl rfl

theorem isProper_scalarValue? {tag? : Option String} {cs : List Char} {plain : Bool} {v : Value}
    (h : scalarValue? tag? cs plain = some v) : v.IsProper := by
  unfold scalarValue? at h
  split at h
  · split at h
    · exact isProper_plainValue? h
    · cases h; exact .scalar rfl rfl
  · exact isProper_plainValue? h
  · split at h
    · cases h; exact .scalar rfl rfl
    · obtain ⟨n, -, rfl⟩ := Option.map_eq_some_iff.1 h
      exact .scalar rfl rfl
    · split at h
      · cases h; exact .scalar rfl rfl
      · cases h; exact .scalar rfl rfl
      · contradiction
    · obtain ⟨b, -, rfl⟩ := Option.map_eq_some_iff.1 h
      exact .scalar rfl rfl
    · cases h; exact .scalar rfl rfl
    · contradiction

/-! ### Records -/

/-- The fields that an entry gives to its record. -/
def Entry.fields : Entry → Fields
  | .field key v => [(key, v)]
  | .merge fields => fields

/-- The values that an entry gives to its record are proper. -/
def Entry.IsProper (e : Entry) : Prop :=
  ∀ field ∈ e.fields, field.2.IsProper

/-- A record that is put together from proper parts is proper. -/
theorem isProper_assemble {entries : List Entry} (h : ∀ e ∈ entries, e.IsProper) :
    (Value.record (assemble entries)).IsProper := by
  refine Value.isProper_ofList fun pair hpair => ?_
  rcases List.mem_append.1 hpair with hpair | hpair
  · obtain ⟨e, he, hpair⟩ := List.mem_flatMap.1 hpair
    cases e with
    | field key v => cases hpair
    | merge fields => exact h _ he pair hpair
  · obtain ⟨e, he, hown⟩ := List.mem_filterMap.1 hpair
    cases e with
    | field key v => exact h _ he pair (List.mem_singleton.2 (Option.some.inj hown).symm)
    | merge fields => cases hown

/-- If all values of a list are records, the fields of each are those of one of them. -/
theorem exists_record_of_mapM {items : List Value} {records : List Fields}
    (h : items.mapM Value.fields? = some records) :
    ∀ fields ∈ records, Value.record fields ∈ items := by
  induction items generalizing records with
  | nil =>
      cases h
      simp
  | cons item rest ih =>
      simp only [List.mapM_cons, Option.bind_eq_bind, Option.bind_eq_some_iff] at h
      obtain ⟨first, hfirst, others, hothers, hrecords⟩ := h
      cases hrecords
      cases item <;> cases hfirst
      refine List.forall_mem_cons.2 ⟨List.mem_cons_self, fun fields hfields => ?_⟩
      exact List.mem_cons_of_mem _ (ih hothers fields hfields)

/-- The fields that are merged in from a proper value have proper values. -/
theorem isProper_mergedFields? {v : Value} (hv : v.IsProper) {fields : Fields}
    (h : mergedFields? v = some fields) : (Entry.merge fields).IsProper := by
  unfold mergedFields? at h
  split at h
  · cases h
    exact hv.field
  · next items =>
      obtain ⟨records, hrecords, rfl⟩ := Option.map_eq_some_iff.1 h
      intro field hfield
      obtain ⟨taken, htaken, hfield⟩ := List.mem_flatten.1 hfield
      have hitem := List.mem_reverse.1 (exists_record_of_mapM hrecords taken htaken)
      exact (hv.item _ hitem).field field hfield
  · contradiction

/-! ### Nodes -/

mutual

/-- What a node denotes is proper. -/
theorem isProper_valueOf? : ∀ (n : Node) {v : Value}, valueOf? n = some v → v.IsProper
  | .scalar tag? text plain, v, h => isProper_scalarValue? h
  | .list tag? items, v, h => by
      rw [valueOf?] at h
      split at h
      · obtain ⟨vs, hvs, rfl⟩ := Option.map_eq_some_iff.1 h
        exact .list (isProper_items? items hvs)
      · contradiction
  | .record tag? fields, v, h => by
      rw [valueOf?] at h
      split at h
      · obtain ⟨es, hes, rfl⟩ := Option.map_eq_some_iff.1 h
        exact isProper_assemble (isProper_entries? fields hes)
      · contradiction

theorem isProper_items? : ∀ (ns : List Node) {vs : List Value}, valueOf?.items? ns = some vs →
    ∀ v ∈ vs, v.IsProper
  | [], vs, h => by
      cases h
      simp
  | n :: rest, vs, h => by
      rw [valueOf?.items?] at h
      split at h
      · next v vs hv hvs =>
          cases h
          exact List.forall_mem_cons.2 ⟨isProper_valueOf? n hv, isProper_items? rest hvs⟩
      · contradiction

theorem isProper_entries? : ∀ (fields : List (Node × Node)) {es : List Entry},
    valueOf?.entries? fields = some es → ∀ e ∈ es, e.IsProper
  | [], es, h => by
      cases h
      simp
  | (k, n) :: rest, es, h => by
      unfold valueOf?.entries? at h
      split at h
      · next v es hv hes =>
          have hvalue := isProper_valueOf? n hv
          have hrest := isProper_entries? rest hes
          split at h
          · obtain ⟨fields, hfields, rfl⟩ := Option.map_eq_some_iff.1 h
            exact List.forall_mem_cons.2 ⟨isProper_mergedFields? hvalue hfields, hrest⟩
          · obtain ⟨key, -, rfl⟩ := Option.map_eq_some_iff.1 h
            refine List.forall_mem_cons.2 ⟨?_, hrest⟩
            intro field hfield
            rwa [List.mem_singleton.1 hfield]
      · contradiction

end

/-- **What is read from YAML is proper.** -/
theorem isProper_read? {cs : List Char} {v : Value} (h : read? cs = some v) : v.IsProper := by
  rw [read?] at h
  split at h
  · contradiction
  · cases h
    exact .scalar rfl rfl
  · exact isProper_valueOf? _ h

end Yaml

end SketchHost
