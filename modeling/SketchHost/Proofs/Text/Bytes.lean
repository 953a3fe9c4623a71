/-
**The bytes of a text.**

A text is edited by ranges of bytes, and read character by character.  The bytes of a text are those
of its characters one after the other, and exactly one byte stands for each line end.

* `Text.byteLength` — the number of bytes of a run of characters;
* `bytesOf_eq` — the bytes of a text are those of its characters;
* `length_bytesOf` — their number;
* `count_newline_bytesOf` — as many line ends as there are bytes `10`;
* `bytesOf_of_textOfBytes?` — a text that was made of bytes has those bytes.
-/

import SketchHost.Text.Edit
import Mathlib.Data.List.Basic

set_option relaxedAutoImplicit false
set_option autoImplicit false

namespace SketchHost

namespace Text

/-- The number of bytes of a run of characters. -/
def byteLength : List Char → Nat
  | [] => 0
  | c :: rest => c.utf8Size + byteLength rest

@[simp] theorem byteLength_nil : byteLength [] = 0 := rfl

@[simp] theorem byteLength_cons (c : Char) (rest : List Char) :
    byteLength (c :: rest) = c.utf8Size + byteLength rest := rfl

@[simp] theorem byteLength_append (cs ds : List Char) :
    byteLength (cs ++ ds) = byteLength cs + byteLength ds := by
  induction cs with
  | nil => simp
  | cons c rest ih => simp [ih, Nat.add_assoc]

/-- Only the empty run has no bytes. -/
theorem byteLength_pos {cs : List Char} (h : cs ≠ []) : 0 < byteLength cs := by
  cases cs with
  | nil => exact absurd rfl h
  | cons c rest =>
      have hc := c.utf8Size_pos
      simp only [byteLength_cons]
      omega

end Text

/-! ### Bytes of characters -/

theorem toList_loop (bs : ByteArray) (i : Nat) (r : List UInt8) :
    ByteArray.toList.loop bs i r = r.reverse ++ bs.data.toList.drop i := by
  fun_induction ByteArray.toList.loop bs i r with
  | case1 i r h ih =>
      have hi : i < bs.data.toList.length := by simpa using h
      rw [ih, List.drop_eq_getElem_cons hi]
      simp [ByteArray.get!, h]
  | case2 i r h =>
      have hi : bs.data.toList.length ≤ i := by simpa using h
      simp [List.drop_eq_nil_of_le hi]

theorem toList_eq_data (bs : ByteArray) : bs.toList = bs.data.toList := by
  rw [ByteArray.toList, toList_loop]
  simp

/-- The bytes of a text are those of its characters. -/
theorem bytesOf_eq (s : String) : bytesOf s = s.toList.flatMap String.utf8EncodeChar := by
  rw [bytesOf, toList_eq_data, String.toUTF8_eq_toByteArray, ← String.utf8Encode_toList, List.utf8Encode]
  simp

/-- A text that begins with another one begins with its bytes. -/
theorem bytesOf_prefix {s t : String} (h : s.toList <+: t.toList) : bytesOf s <+: bytesOf t := by
  obtain ⟨rest, hrest⟩ := h
  rw [bytesOf_eq, bytesOf_eq, ← hrest, List.flatMap_append]
  exact List.prefix_append _ _

theorem length_flatMap_utf8EncodeChar (cs : List Char) :
    (cs.flatMap String.utf8EncodeChar).length = Text.byteLength cs := by
  induction cs with
  | nil => rfl
  | cons c rest ih => simp [ih]

theorem length_bytesOf (s : String) : (bytesOf s).length = Text.byteLength s.toList := by
  rw [bytesOf_eq, length_flatMap_utf8EncodeChar]

/-- A text that was made of bytes has those bytes. -/
theorem bytesOf_of_textOfBytes? {bytes : List UInt8} {s : String}
    (h : textOfBytes? bytes = some s) : bytesOf s = bytes := by
  unfold textOfBytes? String.fromUTF8? at h
  split at h
  · obtain rfl := Option.some.inj h
    rw [bytesOf, toList_eq_data]
    simp [String.fromUTF8]
  · exact absurd h (by simp)

/-- The bytes of a text make that text. -/
theorem textOfBytes?_bytesOf (s : String) : textOfBytes? (bytesOf s) = some s := by
  have harray : (⟨(bytesOf s).toArray⟩ : ByteArray) = s.toByteArray := by
    rw [bytesOf, toList_eq_data, String.toUTF8_eq_toByteArray]
  have hvalid : (⟨(bytesOf s).toArray⟩ : ByteArray).IsValidUTF8 := by
    rw [harray]
    exact s.isValidUTF8
  unfold textOfBytes? String.fromUTF8?
  rw [dif_pos hvalid, Option.some.injEq]
  exact String.toByteArray_inj.1 harray

/-! ### Line ends -/

/-- The byte of a line end. -/
def newline : UInt8 := 10

/-- A character is a line end exactly if its number is `10`. -/
theorem eq_newline_iff (c : Char) : c = '\n' ↔ c.val.toNat = 10 := by
  constructor
  · rintro rfl
    rfl
  · intro h
    exact Char.ext (UInt32.toNat_inj.1 h)

theorem ofNat_ne_newline {n : Nat} (h : n < 256) (hn : n ≠ 10) : UInt8.ofNat n ≠ newline := by
  intro heq
  have hval := congrArg UInt8.toNat heq
  rw [UInt8.toNat_ofNat', Nat.mod_eq_of_lt (by simpa using h)] at hval
  exact hn hval

/-- The bytes of a character hold a line end only if it is one: no byte of a longer code is below
`0x80`. -/
theorem count_newline_utf8EncodeChar (c : Char) :
    (String.utf8EncodeChar c).count newline = if c = '\n' then 1 else 0 := by
  rw [if_congr (eq_newline_iff c) rfl rfl]
  fun_cases String.utf8EncodeChar c with
  | case1 v h =>
      have hv : c.val.toNat = v := rfl
      rw [hv]
      by_cases hten : v = 10
      · simp [hten, newline]
      · have hne : UInt8.ofNat v ≠ newline := ofNat_ne_newline (by omega) hten
        simp [hten, hne]
  | case2 v h h' =>
      have hv : c.val.toNat = v := rfl
      rw [hv, if_neg (by omega), List.count_eq_zero]
      simp only [List.mem_cons, List.not_mem_nil, or_false, not_or]
      exact ⟨(ofNat_ne_newline (by omega) (by omega)).symm,
        (ofNat_ne_newline (by omega) (by omega)).symm⟩
  | case3 v h h' h'' =>
      have hv : c.val.toNat = v := rfl
      rw [hv, if_neg (by omega), List.count_eq_zero]
      simp only [List.mem_cons, List.not_mem_nil, or_false, not_or]
      exact ⟨(ofNat_ne_newline (by omega) (by omega)).symm,
        (ofNat_ne_newline (by omega) (by omega)).symm, (ofNat_ne_newline (by omega) (by omega)).symm⟩
  | case4 v h h' h'' =>
      have hv : c.val.toNat = v := rfl
      rw [hv, if_neg (by omega), List.count_eq_zero]
      simp only [List.mem_cons, List.not_mem_nil, or_false, not_or]
      exact ⟨(ofNat_ne_newline (by omega) (by omega)).symm,
        (ofNat_ne_newline (by omega) (by omega)).symm,
        (ofNat_ne_newline (by omega) (by omega)).symm, (ofNat_ne_newline (by omega) (by omega)).symm⟩

/-- As many bytes of a line end as there are line ends. -/
theorem count_newline_bytesOf (s : String) :
    (bytesOf s).count newline = s.toList.count '\n' := by
  rw [bytesOf_eq]
  induction s.toList with
  | nil => rfl
  | cons c rest ih =>
      rw [List.flatMap_cons, List.count_append, ih, count_newline_utf8EncodeChar, List.count_cons]
      by_cases h : c = '\n' <;> simp [h, Nat.add_comm]

/-- The bytes of a text hold a line end exactly if the text does. -/
theorem newline_mem_bytesOf {s : String} : newline ∈ bytesOf s ↔ '\n' ∈ s.toList := by
  rw [← List.count_pos_iff, count_newline_bytesOf, List.count_pos_iff]

end SketchHost
