/-
**Which names get a new one.**

The map of a program gives a new name to exactly the names of the variables that it declares, hooks
and excluded declarations apart, and the new name is the old one with the prefix.

* `Renames.Renamed` — a name that a program declares and that gets a new one;
* `Renames.mem_collect_iff`, `Renames.find?_collect_iff`, `Renames.target?_collect_iff` — the entries
  of the map, what it gives, and what it changes;
* `Renames.mem_declaredNames` — a declared name is a word of the tree.
-/

import SketchHost.InstanceMode.Conversion
import SketchHost.Proofs.Script.Occurrences

set_option relaxedAutoImplicit false
set_option autoImplicit false

namespace SketchHost

open Script

namespace Renames

/-! ### Maps that follow a rule -/

/-- Every entry of a map gives a name what a rule gives it. -/
def Follows (f : String → String) (rs : Renames) : Prop :=
  ∀ r ∈ rs, r.2 = f r.1

variable {f : String → String} {rs : Renames}

theorem find?_eq_some_iff (h : Follows f rs) {name new : String} :
    rs.find? name = some new ↔ (name, new) ∈ rs := by
  rw [find?]
  induction rs with
  | nil => simp
  | cons r rest ih =>
      obtain ⟨old, value⟩ := r
      have ih := ih fun s hs => h s (List.mem_cons_of_mem _ hs)
      have hvalue : value = f old := h (old, value) List.mem_cons_self
      rw [List.lookup_cons, List.mem_cons, Prod.mk.injEq]
      by_cases heq : name = old
      · subst heq
        simp only [beq_self_eq_true, Option.some.injEq, true_and]
        constructor
        · rintro rfl
          exact Or.inl rfl
        · rintro (rfl | hmem)
          · rfl
          · -- a later entry for the name gives it the same
            rw [hvalue]
            exact (h (name, new) (List.mem_cons_of_mem _ hmem)).symm
      · have hne : (name == old) = false := by simpa using heq
        simp only [hne, heq, false_and, false_or]
        exact ih

theorem owns_iff (h : Follows f rs) {name : String} : rs.owns name = true ↔ (name, f name) ∈ rs := by
  rw [owns, Option.isSome_iff_exists]
  constructor
  · rintro ⟨new, hnew⟩
    have hmem := (find?_eq_some_iff h).1 hnew
    have hrule : new = f name := h (name, new) hmem
    rwa [hrule] at hmem
  · intro hmem
    exact ⟨f name, (find?_eq_some_iff h).2 hmem⟩

theorem mem_add_iff (h : Follows f rs) {name : String} {r : String × String} :
    r ∈ rs.add name (f name) ↔ r ∈ rs ∨ r = (name, f name) := by
  rw [add]
  split
  · next howns =>
      have hmem := (owns_iff h).1 howns
      constructor
      · exact Or.inl
      · rintro (hr | rfl)
        · exact hr
        · exact hmem
  · simp

theorem Follows.add (h : Follows f rs) (name : String) : Follows f (rs.add name (f name)) := by
  intro r hr
  rcases (mem_add_iff h).1 hr with hr | rfl
  · exact h r hr
  · rfl

/-- The entries of a map after several names were added, apart from those to be left out. -/
theorem mem_foldl_add_iff (out : Node → Bool) (names : List Node) (h : Follows f rs)
    {r : String × String} :
    r ∈ names.foldl (fun rs b => if out b then rs else rs.add b.text (f b.text)) rs ↔
      r ∈ rs ∨ (r.2 = f r.1 ∧ ∃ b ∈ names, out b = false ∧ b.text = r.1) := by
  induction names generalizing rs with
  | nil => simp
  | cons b rest ih =>
      rw [List.foldl_cons]
      cases hout : out b with
      | true =>
          rw [if_pos rfl, ih h]
          simp [hout]
      | false =>
          rw [if_neg (by simp), ih (h.add b.text), mem_add_iff h]
          constructor
          · rintro ((hr | rfl) | ⟨hrule, c, hc, hkeep, htext⟩)
            · exact Or.inl hr
            · exact Or.inr ⟨rfl, b, List.mem_cons_self, hout, rfl⟩
            · exact Or.inr ⟨hrule, c, List.mem_cons_of_mem _ hc, hkeep, htext⟩
          · rintro (hr | ⟨hrule, c, hc, hkeep, htext⟩)
            · exact Or.inl (Or.inl hr)
            · rcases List.mem_cons.1 hc with rfl | hc
              · refine Or.inl (Or.inr ?_)
                obtain ⟨old, new⟩ := r
                simp only at hrule htext
                rw [hrule, htext]
              · exact Or.inr ⟨hrule, c, hc, hkeep, htext⟩

/-! ### The map of a program -/

variable {symbols : SymbolTable} {lead : String} {excluded : List Span} {root : Node}
  {name new : String}

/-- A program declares a variable of this name that is no hook, at a span that is not excluded. -/
def Renamed (symbols : SymbolTable) (excluded : List Span) (root : Node) (name : String) : Prop :=
  ∃ b ∈ declaredNames root, b.text = name ∧ b.span ∉ excluded ∧ symbols.isHook name = false

theorem mem_collect_iff {r : String × String} :
    r ∈ collect symbols lead excluded root ↔
      r.2 = prefixed lead r.1 ∧ Renamed symbols excluded root r.1 := by
  obtain ⟨old, value⟩ := r
  rw [collect]
  rw [mem_foldl_add_iff (f := prefixed lead) _ _ (by simp [Follows])]
  simp only [List.not_mem_nil, false_or]
  refine and_congr_right fun _ => exists_congr fun b => and_congr_right fun _ => ?_
  constructor
  · rintro ⟨hout, rfl⟩
    simpa using hout
  · rintro ⟨rfl, hspan, hhook⟩
    exact ⟨by simpa using ⟨hspan, hhook⟩, rfl⟩

theorem follows_collect : Follows (prefixed lead) (collect symbols lead excluded root) :=
  fun _ hr => (mem_collect_iff.1 hr).1

theorem find?_collect_iff : (collect symbols lead excluded root).find? name = some new ↔
    new = prefixed lead name ∧ Renamed symbols excluded root name := by
  rw [find?_eq_some_iff follows_collect, mem_collect_iff]

theorem target?_collect_iff : (collect symbols lead excluded root).target? name = some new ↔
    new = prefixed lead name ∧ new ≠ name ∧ Renamed symbols excluded root name := by
  rw [target?]
  split
  · next value hvalue =>
      obtain ⟨rfl, hrenamed⟩ := find?_collect_iff.1 hvalue
      by_cases heq : prefixed lead name = name
      · simp only [heq, beq_self_eq_true, if_true]
        constructor
        · intro h
          simp at h
        · rintro ⟨rfl, hne, -⟩
          exact absurd rfl hne
      · rw [if_neg (by simpa using heq), Option.some.injEq]
        constructor
        · rintro rfl
          exact ⟨rfl, heq, hrenamed⟩
        · rintro ⟨rfl, -, -⟩
          rfl
  · next hnone =>
      constructor
      · intro h
        simp at h
      · rintro ⟨rfl, -, hrenamed⟩
        have hsome : (collect symbols lead excluded root).find? name = some (prefixed lead name) :=
          find?_collect_iff.2 ⟨rfl, hrenamed⟩
        rw [hnone] at hsome
        simp at hsome

/-! ### Prefixes -/

/-- A name with the prefix is the name, if it begins with the prefix, or has it in front. -/
theorem prefixed_eq (lead name : String) :
    prefixed lead name = name ∧ lead.toList <+: name.toList ∨
      prefixed lead name = lead ++ name ∧ ¬ lead.toList <+: name.toList := by
  rw [prefixed]
  split
  · next h => exact Or.inl ⟨rfl, List.isPrefixOf_iff_prefix.1 h⟩
  · next h => exact Or.inr ⟨rfl, fun hp => h (List.isPrefixOf_iff_prefix.2 hp)⟩

/-- A name that a prefix is put to differs from what it was, unless the prefix is empty. -/
theorem append_ne_self (h : lead.toList ≠ []) : lead ++ name ≠ name := by
  intro heq
  have hlength := congrArg (fun s => s.toList.length) heq
  have hpos := List.length_pos_of_ne_nil h
  simp only [String.toList_append, List.length_append] at hlength
  omega

/-! ### Declared names -/

/-- What a tree declares is what it declares itself, and then what its parts declare. -/
theorem declaredNames_eq (n : Node) : declaredNames n
    = Node.bindings? (declaredTarget? n) ++ n.children.flatMap declaredNames := by
  obtain ⟨k, r, a, b, t, cs⟩ := n
  rw [declaredNames, Node.preorder_node, List.flatMap_cons, List.flatMap_assoc]
  rfl

/-- A variable that is declared is a word of the tree that names a variable. -/
theorem mem_declaredNames {b : Node} (h : b ∈ declaredNames root) :
    b ∈ root.preorder ∧ isVariableName b.kind = true := by
  obtain ⟨n, hn, hb⟩ := List.mem_flatMap.1 h
  cases htarget : declaredTarget? n with
  | none =>
      rw [htarget] at hb
      simp [Node.bindings?] at hb
  | some target =>
      rw [htarget] at hb
      obtain ⟨hmem, hkind⟩ := Node.mem_bindings target hb
      have hchild : target ∈ n.children := by
        unfold declaredTarget? at htarget
        split at htarget
        · exact Node.mem_children_of_child? htarget
        · split at htarget
          · exact Node.mem_children_of_child? htarget
          · simp at htarget
        · simp at htarget
      exact ⟨Node.mem_preorder_trans hn (Node.mem_preorder_trans
        (Node.mem_preorder_of_mem_children hchild) hmem), hkind⟩

end Renames

end SketchHost
