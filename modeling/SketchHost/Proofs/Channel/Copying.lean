/-
**What a handler gets in place of data.**

Exactly plain data can be copied, and a copy is equal to them.  Data that cannot be copied look in JSON as
they are without what guards them, as long as they hold no object and no number that is too long.  Either
way the texts that the guards of a channel read off the data are found in the payload again, so a payload
names the type and carries the identifier of its message.

* `Datum.copy?_eq_some_iff` — exactly plain data have a copy;
* `Datum.unguarded`, `Datum.image_eq_ok_iff` — what data look like in JSON;
* `Datum.clone_eq_ok_iff` — **a handler gets the data themselves, or what they look like in JSON if they
  cannot be copied**;
* `Datum.textAt?_unguarded`, `Datum.textAt?_ofFields` — the texts in a payload are those in the data.
-/

import SketchHost.Channel.Basic

set_option relaxedAutoImplicit false
set_option autoImplicit false

namespace SketchHost

namespace Datum

/-! ### Deep copies -/

mutual

/-- Plain data have a copy, which is equal to them. -/
theorem copy?_ofValue : ∀ v : Value, (ofValue v).copy? = some v
  | .null | .bool _ | .int _ | .float _ | .text _ => rfl
  | .list items => by simp [ofValue, copy?, copyItems?_ofItems items]
  | .record fields => by simp [ofValue, copy?, copyFields?_ofFields fields]

theorem copyItems?_ofItems : ∀ items : List Value,
    copy?.copyItems? (ofValue.ofItems items) = some items
  | [] => rfl
  | v :: rest => by
      simp [ofValue.ofItems, copy?.copyItems?, copy?_ofValue v, copyItems?_ofItems rest]

theorem copyFields?_ofFields : ∀ fields : Fields,
    copy?.copyFields? (ofValue.ofFields fields) = some fields
  | [] => rfl
  | (k, v) :: rest => by
      simp [ofValue.ofFields, copy?.copyFields?, copy?_ofValue v, copyFields?_ofFields rest]

end

mutual

/-- Data that have a copy are plain. -/
theorem eq_ofValue_of_copy? : ∀ (d : Datum) {v : Value}, d.copy? = some v → d = ofValue v
  | null, v, h | bool _, v, h | int _, v, h | float _, v, h | text _, v, h => by
      obtain rfl := Option.some.inj h
      rfl
  | list items, v, h => by
      obtain ⟨vs, hvs, rfl⟩ := Option.map_eq_some_iff.1 h
      rw [ofValue, ← eq_ofItems_of_copyItems? items hvs]
  | record fields, v, h => by
      obtain ⟨vs, hvs, rfl⟩ := Option.map_eq_some_iff.1 h
      rw [ofValue, ← eq_ofFields_of_copyFields? fields hvs]

theorem eq_ofItems_of_copyItems? : ∀ (items : List Datum) {vs : List Value},
    copy?.copyItems? items = some vs → items = ofValue.ofItems vs
  | [], vs, h => by
      obtain rfl := Option.some.inj h
      rfl
  | d :: rest, vs, h => by
      rw [copy?.copyItems?] at h
      split at h
      · next v ws hv hws =>
          obtain rfl := Option.some.inj h
          rw [ofValue.ofItems, ← eq_ofValue_of_copy? d hv, ← eq_ofItems_of_copyItems? rest hws]
      · simp at h

theorem eq_ofFields_of_copyFields? : ∀ (fields : List (String × Datum)) {vs : Fields},
    copy?.copyFields? fields = some vs → fields = ofValue.ofFields vs
  | [], vs, h => by
      obtain rfl := Option.some.inj h
      rfl
  | (k, d) :: rest, vs, h => by
      rw [copy?.copyFields?] at h
      split at h
      · next v ws hv hws =>
          obtain rfl := Option.some.inj h
          rw [ofValue.ofFields, ← eq_ofValue_of_copy? d hv, ← eq_ofFields_of_copyFields? rest hws]
      · simp at h

end

/-- Exactly plain data have a copy. -/
theorem copy?_eq_some_iff {d : Datum} {v : Value} : d.copy? = some v ↔ d = ofValue v := by
  refine ⟨eq_ofValue_of_copy? d, ?_⟩
  rintro rfl
  exact copy?_ofValue v

theorem copy?_eq_none_iff {d : Datum} : d.copy? = none ↔ ∀ v, d ≠ ofValue v := by
  simp only [Option.eq_none_iff_forall_ne_some, ne_eq, copy?_eq_some_iff]

theorem ofValue_injective {v w : Value} (h : ofValue v = ofValue w) : v = w := by
  have hw := copy?_ofValue w
  rw [← h, copy?_ofValue] at hw
  exact Option.some.inj hw

/-! ### Images in JSON -/

/-- Data without what guards them. -/
def unguarded : Datum → Datum
  | list items => list (openItems items)
  | record fields => record (openFields fields)
  | guarded d => d.unguarded
  | d => d
where
  /-- The items of a list. -/
  openItems : List Datum → List Datum
    | [] => []
    | d :: rest => d.unguarded :: openItems rest
  /-- The fields of a record. -/
  openFields : List (String × Datum) → List (String × Datum)
    | [] => []
    | (k, d) :: rest => (k, d.unguarded) :: openFields rest

mutual

/-- Nothing guards plain data. -/
theorem unguarded_ofValue : ∀ v : Value, (ofValue v).unguarded = ofValue v
  | .null | .bool _ | .int _ | .float _ | .text _ => rfl
  | .list items => by simp [ofValue, unguarded, openItems_ofItems items]
  | .record fields => by simp [ofValue, unguarded, openFields_ofFields fields]

theorem openItems_ofItems : ∀ items : List Value,
    unguarded.openItems (ofValue.ofItems items) = ofValue.ofItems items
  | [] => rfl
  | v :: rest => by
      simp [ofValue.ofItems, unguarded.openItems, unguarded_ofValue v, openItems_ofItems rest]

theorem openFields_ofFields : ∀ fields : Fields,
    unguarded.openFields (ofValue.ofFields fields) = ofValue.ofFields fields
  | [] => rfl
  | (k, v) :: rest => by
      simp [ofValue.ofFields, unguarded.openFields, unguarded_ofValue v, openFields_ofFields rest]

end

mutual

/-- Data that can be written look in JSON as they are without guards. -/
theorem unguarded_of_image : ∀ (d : Datum) {v : Value}, d.image = .ok v →
    d.unguarded = ofValue v ∧ v.isWritable = true
  | null, v, h | bool _, v, h | float _, v, h | text _, v, h => by
      obtain rfl := Except.ok.inj h
      exact ⟨rfl, rfl⟩
  | int n, v, h => by
      rw [image] at h
      split at h
      · next hshort =>
          obtain rfl := Except.ok.inj h
          exact ⟨rfl, hshort⟩
      · simp at h
  | list items, v, h => by
      rw [image] at h
      cases hitems : image.imageItems items with
      | error why => simp [hitems, Except.map] at h
      | ok vs =>
          obtain rfl : .list vs = v := by simpa [hitems, Except.map] using h
          obtain ⟨hopen, hwritable⟩ := openItems_of_imageItems items hitems
          exact ⟨by rw [unguarded, hopen, ofValue], hwritable⟩
  | record fields, v, h => by
      rw [image] at h
      cases hfields : image.imageFields fields with
      | error why => simp [hfields, Except.map] at h
      | ok vs =>
          obtain rfl : .record vs = v := by simpa [hfields, Except.map] using h
          obtain ⟨hopen, hwritable⟩ := openFields_of_imageFields fields hfields
          exact ⟨by rw [unguarded, hopen, ofValue], hwritable⟩
  | guarded d, v, h => unguarded_of_image d h
  | object sort, v, h => by simp [image] at h

theorem openItems_of_imageItems : ∀ (items : List Datum) {vs : List Value},
    image.imageItems items = .ok vs →
      unguarded.openItems items = ofValue.ofItems vs ∧ Value.isWritable.areItems vs = true
  | [], vs, h => by
      obtain rfl := Except.ok.inj h
      exact ⟨rfl, rfl⟩
  | d :: rest, vs, h => by
      rw [image.imageItems] at h
      cases hd : d.image with
      | error why => simp [hd] at h
      | ok v =>
          cases hrest : image.imageItems rest with
          | error why => simp [hd, hrest, Except.map] at h
          | ok ws =>
              obtain rfl : v :: ws = vs := by simpa [hd, hrest, Except.map] using h
              obtain ⟨hopen, hwritable⟩ := unguarded_of_image d hd
              obtain ⟨hopens, hwritables⟩ := openItems_of_imageItems rest hrest
              exact ⟨by rw [unguarded.openItems, hopen, hopens, ofValue.ofItems],
                by rw [Value.isWritable.areItems, hwritable, hwritables]; rfl⟩

theorem openFields_of_imageFields : ∀ (fields : List (String × Datum)) {vs : Fields},
    image.imageFields fields = .ok vs →
      unguarded.openFields fields = ofValue.ofFields vs ∧ Value.isWritable.areFields vs = true
  | [], vs, h => by
      obtain rfl := Except.ok.inj h
      exact ⟨rfl, rfl⟩
  | (k, d) :: rest, vs, h => by
      rw [image.imageFields] at h
      cases hd : d.image with
      | error why => simp [hd] at h
      | ok v =>
          cases hrest : image.imageFields rest with
          | error why => simp [hd, hrest, Except.map] at h
          | ok ws =>
              obtain rfl : (k, v) :: ws = vs := by simpa [hd, hrest, Except.map] using h
              obtain ⟨hopen, hwritable⟩ := unguarded_of_image d hd
              obtain ⟨hopens, hwritables⟩ := openFields_of_imageFields rest hrest
              exact ⟨by rw [unguarded.openFields, hopen, hopens, ofValue.ofFields],
                by rw [Value.isWritable.areFields, hwritable, hwritables]; rfl⟩

end

mutual

/-- Guards do not change what data look like in JSON. -/
theorem image_unguarded : ∀ d : Datum, d.unguarded.image = d.image
  | null | bool _ | int _ | float _ | text _ | object _ => rfl
  | list items => by rw [unguarded, image, image, imageItems_openItems items]
  | record fields => by rw [unguarded, image, image, imageFields_openFields fields]
  | guarded d => image_unguarded d

theorem imageItems_openItems : ∀ items : List Datum,
    image.imageItems (unguarded.openItems items) = image.imageItems items
  | [] => rfl
  | d :: rest => by
      rw [unguarded.openItems, image.imageItems, image.imageItems, image_unguarded d,
        imageItems_openItems rest]

theorem imageFields_openFields : ∀ fields : List (String × Datum),
    image.imageFields (unguarded.openFields fields) = image.imageFields fields
  | [] => rfl
  | (k, d) :: rest => by
      rw [unguarded.openFields, image.imageFields, image.imageFields, image_unguarded d,
        imageFields_openFields rest]

end

mutual

/-- Plain data look in JSON as they are. -/
theorem image_ofValue : ∀ {v : Value}, v.isWritable = true → (ofValue v).image = .ok v
  | .null, _ | .bool _, _ | .float _, _ | .text _, _ => rfl
  | .int n, h => if_pos h
  | .list items, h => by rw [ofValue, image, imageItems_ofItems h]; rfl
  | .record fields, h => by rw [ofValue, image, imageFields_ofFields h]; rfl

theorem imageItems_ofItems : ∀ {items : List Value}, Value.isWritable.areItems items = true →
    image.imageItems (ofValue.ofItems items) = .ok items
  | [], _ => rfl
  | v :: rest, h => by
      rw [Value.isWritable.areItems, Bool.and_eq_true] at h
      rw [ofValue.ofItems, image.imageItems, image_ofValue h.1, imageItems_ofItems h.2]
      rfl

theorem imageFields_ofFields : ∀ {fields : Fields}, Value.isWritable.areFields fields = true →
    image.imageFields (ofValue.ofFields fields) = .ok fields
  | [], _ => rfl
  | (k, v) :: rest, h => by
      rw [Value.isWritable.areFields, Bool.and_eq_true] at h
      rw [ofValue.ofFields, image.imageFields, image_ofValue h.1, imageFields_ofFields h.2]
      rfl

end

/-- Data look in JSON as they are without guards, if this is plain and can be written. -/
theorem image_eq_ok_iff {d : Datum} {v : Value} :
    d.image = .ok v ↔ d.unguarded = ofValue v ∧ v.isWritable = true := by
  refine ⟨unguarded_of_image d, fun ⟨hopen, hwritable⟩ => ?_⟩
  rw [← image_unguarded, hopen, image_ofValue hwritable]

/-! ### What a handler gets -/

/-- **A handler gets the data themselves, or what they look like in JSON if they cannot be copied.** -/
theorem clone_eq_ok_iff {d : Datum} {v : Value} :
    d.clone = .ok v ↔
      d = ofValue v ∨ (∀ w, d ≠ ofValue w) ∧ d.unguarded = ofValue v ∧ v.isWritable = true := by
  rw [clone]
  cases hcopy : d.copy? with
  | none =>
      have hrefused := copy?_eq_none_iff.1 hcopy
      simp only [image_eq_ok_iff, hrefused v, hrefused, ne_eq, not_false_eq_true, implies_true,
        true_and, false_or]
  | some w =>
      obtain rfl := copy?_eq_some_iff.1 hcopy
      constructor
      · intro h
        exact Or.inl (congrArg ofValue (Except.ok.inj h))
      · rintro (h | ⟨hrefused, -⟩)
        · rw [ofValue_injective h]
        · exact absurd rfl (hrefused w)

/-- Without guards the data are what a handler gets. -/
theorem unguarded_of_clone {d : Datum} {v : Value} (h : d.clone = .ok v) :
    d.unguarded = ofValue v := by
  rcases clone_eq_ok_iff.1 h with rfl | ⟨-, hopen, -⟩
  · exact unguarded_ofValue v
  · exact hopen

/-! ### Texts -/

theorem fields?_unguarded : ∀ d : Datum, d.unguarded.fields? = d.fields?.map unguarded.openFields
  | null | bool _ | int _ | float _ | text _ | object _ | list _ | record _ => rfl
  | guarded d => fields?_unguarded d

theorem text?_unguarded : ∀ d : Datum, d.unguarded.text? = d.text?
  | null | bool _ | int _ | float _ | text _ | object _ | list _ | record _ => rfl
  | guarded d => text?_unguarded d

theorem lookup_openFields (key : String) (fields : List (String × Datum)) :
    (unguarded.openFields fields).lookup key = (fields.lookup key).map unguarded := by
  induction fields with
  | nil => rfl
  | cons field rest ih =>
      obtain ⟨k, d⟩ := field
      rw [unguarded.openFields, List.lookup_cons, List.lookup_cons]
      split
      · rfl
      · exact ih

/-- A text that guards are taken from is the same text. -/
theorem textAt?_unguarded (key : String) (d : Datum) : d.unguarded.textAt? key = d.textAt? key := by
  rw [textAt?, textAt?, fields?_unguarded]
  cases d.fields? with
  | none => rfl
  | some fields =>
      rw [Option.map_some, Option.bind_some, Option.bind_some, lookup_openFields]
      cases fields.lookup key with
      | none => rfl
      | some d => exact text?_unguarded d

theorem lookup_ofFields (key : String) (fields : Fields) :
    (ofValue.ofFields fields).lookup key = (Fields.find? key fields).map ofValue := by
  induction fields with
  | nil => rfl
  | cons field rest ih =>
      obtain ⟨k, v⟩ := field
      rw [ofValue.ofFields, List.lookup_cons, Fields.find?, BEq.comm (a := key)]
      cases k == key with
      | true => rfl
      | false => simpa using ih

theorem text?_ofValue (v : Value) : (ofValue v).text? = v.text? := by
  cases v <;> rfl

/-- The text under a key of plain fields. -/
theorem textAt?_ofFields (key : String) (fields : Fields) :
    (ofValue (.record fields)).textAt? key = (Fields.find? key fields).bind Value.text? := by
  rw [textAt?, ofValue, fields?, Option.bind_some, lookup_ofFields]
  cases Fields.find? key fields with
  | none => rfl
  | some v => exact text?_ofValue v

/-- What a handler gets for a record is a record. -/
theorem exists_record_of_clone {d : Datum} (hd : d.fields?.isSome = true) {v : Value}
    (h : d.clone = .ok v) : ∃ payload, v = .record payload := by
  have hsome : (ofValue v).fields?.isSome = true := by
    rw [← unguarded_of_clone h, fields?_unguarded, Option.isSome_map, hd]
  cases v with
  | record payload => exact ⟨payload, rfl⟩
  | _ => simp [ofValue, fields?] at hsome

theorem isSome_fields?_of_textAt? {d : Datum} {key text : String} (h : d.textAt? key = some text) :
    d.fields?.isSome = true := by
  rw [textAt?] at h
  cases hd : d.fields? with
  | none => simp [hd] at h
  | some fields => rfl

end Datum

end SketchHost
