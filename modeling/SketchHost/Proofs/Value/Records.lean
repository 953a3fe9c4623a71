/-
**Records and the paths into them.**

The names of a record are unique.  Setting a field keeps this, in its place or at the end, so fields that
are collected one after the other have unique names.

* `Fields.keys_set`, `Fields.mem_of_mem_set` — the names and the fields after one was set;
* `Value.IsProper` — at every depth, the names of a record are unique;
* `Value.IsProper.set`, `Value.isProper_ofList` — records with one more field, and of collected fields;
* `Value.at?` — the value that a path of names leads to.
-/

import SketchHost.Value.Basic
import Mathlib.Data.List.Nodup

set_option relaxedAutoImplicit false
set_option autoImplicit false

namespace SketchHost

namespace Fields

variable {key : String} {v : Value} {fields : Fields}

/-! ### Finding -/

theorem find?_eq_none_iff : find? key fields = none ↔ key ∉ fields.keys := by
  induction fields with
  | nil => simp [find?, keys]
  | cons field rest ih =>
      obtain ⟨k, w⟩ := field
      by_cases h : k = key
      · simp [find?, keys, h]
      · have hne : key ≠ k := Ne.symm h
        simpa [find?, keys, h, hne] using ih

theorem mem_of_find? (h : find? key fields = some v) : (key, v) ∈ fields := by
  induction fields with
  | nil => cases h
  | cons field rest ih =>
      obtain ⟨k, w⟩ := field
      by_cases hk : k = key
      · simp only [find?, hk, beq_self_eq_true, if_true, Option.some.injEq] at h
        simp [hk, h]
      · simp only [find?, beq_iff_eq, hk, if_false] at h
        exact List.mem_cons_of_mem _ (ih h)

/-- In fields with unique names, each one is found. -/
theorem find?_of_mem (hnames : fields.keys.Nodup) (h : (key, v) ∈ fields) :
    find? key fields = some v := by
  induction fields with
  | nil => cases h
  | cons field rest ih =>
      obtain ⟨k, w⟩ := field
      obtain ⟨hk, hrest⟩ := List.nodup_cons.1 hnames
      rcases List.mem_cons.1 h with h | h
      · obtain ⟨rfl, rfl⟩ := Prod.mk.inj h
        simp [find?]
      · have hne : k ≠ key := by
          rintro rfl
          exact hk (List.mem_map.2 ⟨(k, v), h, rfl⟩)
        simp only [find?, beq_iff_eq, hne, if_false]
        exact ih hrest h

/-! ### Setting -/

/-- Setting a field to its value changes nothing. -/
theorem set_eq_self (h : find? key fields = some v) : set key v fields = fields := by
  induction fields with
  | nil => cases h
  | cons field rest ih =>
      obtain ⟨k, w⟩ := field
      by_cases hk : k = key
      · simp only [find?, hk, beq_self_eq_true, if_true, Option.some.injEq] at h
        simp [set, hk, h]
      · simp only [find?, beq_iff_eq, hk, if_false] at h
        simp [set, hk, ih h]

/-- A field that is set keeps its place among the names, or it comes last. -/
theorem keys_set (key : String) (v : Value) (fields : Fields) :
    (set key v fields).keys = if key ∈ fields.keys then fields.keys else fields.keys ++ [key] := by
  induction fields with
  | nil => simp [set, keys]
  | cons field rest ih =>
      obtain ⟨k, w⟩ := field
      by_cases hk : k = key
      · simp [set, keys, hk]
      · have hne : key ≠ k := Ne.symm hk
        simp only [keys] at ih
        simp only [set, keys, beq_iff_eq, hk, if_false, List.map_cons, ih, List.mem_cons, hne, false_or]
        exact apply_ite (k :: ·) _ _ _

theorem nodup_set (key : String) (v : Value) (hnames : fields.keys.Nodup) :
    (set key v fields).keys.Nodup := by
  rw [keys_set]
  split
  · exact hnames
  · next hnew =>
      refine List.nodup_append.2 ⟨hnames, by simp, fun a ha b hb hab => hnew ?_⟩
      rwa [← List.mem_singleton.1 hb, ← hab]

theorem mem_of_mem_set {field : String × Value} (h : field ∈ set key v fields) :
    field = (key, v) ∨ field ∈ fields := by
  induction fields with
  | nil => exact .inl (List.mem_singleton.1 h)
  | cons first rest ih =>
      obtain ⟨k, w⟩ := first
      by_cases hk : k = key
      · simp only [set, hk, beq_self_eq_true, if_true, List.mem_cons] at h
        exact h.imp_right (List.mem_cons_of_mem _)
      · simp only [set, beq_iff_eq, hk, if_false, List.mem_cons] at h
        rcases h with h | h
        · exact .inr (List.mem_cons.2 (.inl h))
        · exact (ih h).imp_right (List.mem_cons_of_mem _)

end Fields

namespace Value

/-! ### Proper values -/

/-- A proper value: the names of every record in it are unique. -/
inductive IsProper : Value → Prop
  | scalar {v : Value} (hfields : v.fields? = none) (hitems : v.items? = none) : IsProper v
  | list {items : List Value} (h : ∀ v ∈ items, IsProper v) : IsProper (.list items)
  | record {fields : Fields} (hnames : fields.keys.Nodup) (h : ∀ field ∈ fields, IsProper field.2) :
      IsProper (.record fields)

theorem IsProper.names {fields : Fields} (h : (Value.record fields).IsProper) : fields.keys.Nodup := by
  cases h with
  | scalar hfields _ => cases hfields
  | record hnames _ => exact hnames

theorem IsProper.field {fields : Fields} (h : (Value.record fields).IsProper) :
    ∀ field ∈ fields, field.2.IsProper := by
  cases h with
  | scalar hfields _ => cases hfields
  | record _ h => exact h

theorem IsProper.item {items : List Value} (h : (Value.list items).IsProper) : ∀ v ∈ items, v.IsProper := by
  cases h with
  | scalar _ hitems => cases hitems
  | list h => exact h

theorem IsProper.of_find? {fields : Fields} (h : (Value.record fields).IsProper) {key : String} {v : Value}
    (hv : Fields.find? key fields = some v) : v.IsProper :=
  h.field (key, v) (Fields.mem_of_find? hv)

theorem isProper_nil : (record []).IsProper :=
  .record List.nodup_nil fun _ hfield => absurd hfield List.not_mem_nil

/-- A record is proper with one more proper field, in its place or at the end. -/
theorem IsProper.set {fields : Fields} {v : Value} (h : (Value.record fields).IsProper) (key : String)
    (hv : v.IsProper) : (Value.record (Fields.set key v fields)).IsProper := by
  refine .record (Fields.nodup_set key v h.names) fun field hfield => ?_
  rcases Fields.mem_of_mem_set hfield with rfl | hfield
  · exact hv
  · exact h.field field hfield

/-- A record of fields that are collected is proper if their values are. -/
theorem isProper_ofList {pairs : List (String × Value)} (h : ∀ pair ∈ pairs, pair.2.IsProper) :
    (record (Fields.ofList pairs)).IsProper :=
  List.foldlRecOn (motive := fun fields => (record fields).IsProper) pairs _ isProper_nil
    fun _ hfields pair hpair => hfields.set pair.1 (h pair hpair)

/-! ### Paths -/

/-- The value that a path of names leads to. -/
def at? : List String → Value → Option Value
  | [], v => some v
  | key :: path, v => (v.field? key).bind (at? path)

@[simp] theorem at?_nil (v : Value) : v.at? [] = some v := rfl

theorem at?_cons (key : String) (path : List String) (v : Value) :
    v.at? (key :: path) = (v.field? key).bind (at? path) := rfl

@[simp] theorem field?_record (key : String) (fields : Fields) :
    (record fields).field? key = Fields.find? key fields := rfl

/-- What is no record has no fields. -/
theorem field?_of_not_record {v : Value} (h : v.fields? = none) (key : String) : v.field? key = none := by
  rw [field?, h, Option.bind_none]

end Value

end SketchHost
