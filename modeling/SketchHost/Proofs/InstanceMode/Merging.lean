/-
**Names that a conversion merges.**

Two words that stand under one name in a converted sketch had one name before, unless a variable was
given a name that the sketch has already.  That is the only way in which names merge: a new name is
the old one with the prefix, and no name of the library begins with it.

* `Dialect.namesVariable` — a word that names a variable and is no key;
* `Dialect.Meets` — a renamed variable gets the name of another word;
* `Dialect.KeepsApart` — words of different names go on to stand under different names;
* `Dialect.keepsApart_iff` — when they do;
* `Dialect.not_keepsApart_meeting` — a sketch in which two variables get one name.
-/

import SketchHost.Proofs.InstanceMode.Handle

set_option relaxedAutoImplicit false
set_option autoImplicit false

namespace SketchHost

open Script

namespace Dialect

variable {d : Dialect} {source : String} {root : Node} {c : Converted} {p q : Node.Place}

/-! ### Names of the library -/

/-- The names of hoists belong to the library. -/
theorem belongs_of_mem_hoisted {chars : List Char} {name : String} (hroot : root.WellFormed chars)
    (h : name ∈ (d.plan chars root).hoisted) : d.symbols.belongsToInstance name = true := by
  obtain ⟨x, hx, rfl⟩ := List.mem_map.1 h
  obtain ⟨s, -, -, hform⟩ := exists_hoists_of_mem hroot hx
  exact hform.belongs

/-- A name that is none of the library's does not become an access. -/
theorem not_isOnInstance {pl : Plan} (hfunction : d.symbols.isFunction p.node.text = false)
    (hconstant : d.symbols.isConstant p.node.text = false) (hhoisted : p.node.text ∉ pl.hoisted) :
    d.isOnInstance pl p = false := by
  have hname : d.isInstanceName pl.hoisted p.node.text = false := by
    simp [isInstanceName, hconstant, hhoisted]
  have hcallee : d.calleeEdit? p = none := by simp [calleeEdit?, hfunction]
  have hreference : d.referenceEdit? pl.hoisted p = none := by simp [referenceEdit?, hname]
  have hshorthand : d.shorthandEdit? pl.hoisted p = none := by simp [shorthandEdit?, hname]
  rw [isOnInstance]
  split
  · simp [hcallee, hreference]
  · simp [hshorthand]
  · rfl

/-- No name of the library begins with the usual prefix. -/
theorem standard_not_lead {name : String} (h : standard.lead.toList <+: name.toList) :
    standard.symbols.isFunction name = false ∧ standard.symbols.isConstant name = false ∧
      standard.symbols.belongsToInstance name = false := by
  -- on the bytes this is quick to evaluate
  have hall : ∀ library ∈ standard.symbols.functions ++ standard.symbols.constants
      ++ standard.symbols.lifecycle,
        ¬ bytesOf standard.lead <+: library.toByteArray.data.toList := by
    decide +kernel
  have hnone : ∀ library : List String, (∀ n ∈ library, n ∈ standard.symbols.functions
      ++ standard.symbols.constants ++ standard.symbols.lifecycle) →
        library.contains name = false := by
    intro library hlibrary
    rw [← Bool.not_eq_true, List.contains_iff_mem]
    intro hmem
    refine hall name (hlibrary name hmem) ?_
    rw [← toList_eq_data]
    exact bytesOf_prefix h
  have hfunction : standard.symbols.isFunction name = false := hnone _ (by simp +contextual)
  have hconstant : standard.symbols.isConstant name = false := hnone _ (by simp +contextual)
  have hhook : standard.symbols.isHook name = false := hnone _ (by simp +contextual)
  exact ⟨hfunction, hconstant, by simp [SymbolTable.belongsToInstance, hfunction, hhook]⟩

/-! ### Words that meet -/

/-- A word that names a variable and is no key. -/
def namesVariable (p : Node.Place) : Bool :=
  isVariableName p.node.kind && !(p.node.kind == .identifier && p.isKey)

theorem namesVariable_iff : namesVariable p = true ↔
    isVariableName p.node.kind = true ∧ (p.node.kind == .identifier && p.isKey) = false := by
  rw [namesVariable, Bool.and_eq_true, Bool.not_eq_true']

/-- A renamed variable gets the name of another word: it is declared without the prefix and stands at
`p`, and the word at `q` is its name with the prefix. -/
structure Meets (d : Dialect) (source : String) (root : Node) (p q : Node.Place) : Prop where
  renamed : Renames.Renamed d.symbols (d.plan source.toList root).consumed root p.node.text
  plain : ¬ d.lead.toList <+: p.node.text.toList
  unconsumed : p.node.span ∉ (d.plan source.toList root).consumed
  stays : d.isOnInstance (d.plan source.toList root) p = false
  taken : q.node.text = d.lead ++ p.node.text

/-- In a converted sketch, words that are no keys and stand under one name had one name before. -/
structure KeepsApart (d : Dialect) (source : String) (root : Node) (c : Converted) : Prop where
  words : ∀ p ∈ root.places [], isVariableName p.node.kind = true →
    p.node.span ∉ (d.plan source.toList root).consumed →
      ∃ head tail, Stands (bytesOf source) (d.plan source.toList root).edits p.node.start
        p.node.stop head (bytesOf (d.written (d.plan source.toList root) p)) tail (bytesOf c.code)
  apart : ∀ p ∈ root.places [], ∀ q ∈ root.places [], namesVariable p = true →
    namesVariable q = true → ∀ w, d.nameIn? (d.plan source.toList root) p = some w →
      d.nameIn? (d.plan source.toList root) q = some w → p.node.text = q.node.text

/-- A word that is renamed stands under its name with the prefix, which it did not have. -/
theorem renamed_of_target? {new : String}
    (h : (d.plan source.toList root).renames.target? p.node.text = some new) :
    Renames.Renamed d.symbols (d.plan source.toList root).consumed root p.node.text ∧
      ¬ d.lead.toList <+: p.node.text.toList ∧ new = d.lead ++ p.node.text := by
  obtain ⟨hrule, hne, hrenamed⟩ := Renames.target?_collect_iff.1 h
  rcases Renames.prefixed_eq d.lead p.node.text with ⟨heq, -⟩ | ⟨heq, hplain⟩
  · exact absurd (hrule.trans heq) hne
  · exact ⟨hrenamed, hplain, hrule.trans heq⟩

/-- A word that is renamed meets every word that its new name is the text of. -/
theorem meets_of_target? {new : String}
    (hspan : p.node.span ∉ (d.plan source.toList root).consumed)
    (hstays : d.isOnInstance (d.plan source.toList root) p = false)
    (hgiven : (d.plan source.toList root).renames.target? p.node.text = some new)
    (htext : q.node.text = new) : d.Meets source root p q := by
  obtain ⟨hrenamed, hplain, hnew⟩ := renamed_of_target? hgiven
  exact ⟨hrenamed, hplain, hspan, hstays, htext.trans hnew⟩

/-- The word of a variable that meets another one goes on to stand under its new name. -/
theorem Meets.nameIn?_eq (h : d.Meets source root p q) (hlead : d.lead.toList ≠ [])
    (hp : namesVariable p = true) :
    d.nameIn? (d.plan source.toList root) p = some (d.lead ++ p.node.text) := by
  obtain ⟨-, hkey⟩ := namesVariable_iff.1 hp
  have hprefixed : Renames.prefixed d.lead p.node.text = d.lead ++ p.node.text := by
    rcases Renames.prefixed_eq d.lead p.node.text with ⟨-, hprefix⟩ | ⟨heq, -⟩
    · exact absurd hprefix h.plain
    · exact heq
  have htarget : (d.plan source.toList root).renames.target? p.node.text
      = some (d.lead ++ p.node.text) :=
    Renames.target?_collect_iff.2 ⟨hprefixed.symm, Renames.append_ne_self hlead, h.renamed⟩
  rw [nameIn?_eq_some_iff]
  refine ⟨h.unconsumed, h.stays, ?_⟩
  rw [nameOf_eq _ hkey, htarget]
  rfl

/-- A word that begins with the usual prefix stays as it is. -/
theorem nameIn?_of_lead (hroot : root.WellFormed source.toList) (hq : q ∈ root.places [])
    (hkind : isVariableName q.node.kind = true)
    (hlead : standard.lead.toList <+: q.node.text.toList) :
    standard.nameIn? (standard.plan source.toList root) q = some q.node.text := by
  obtain ⟨hfunction, hconstant, hbelongs⟩ := standard_not_lead hlead
  have hspan : q.node.span ∉ (standard.plan source.toList root).consumed := by
    intro hspan
    have h := belongs_of_consumed hroot (Node.mem_preorder_of_mem_places hq)
      (isNamed_of_isVariableName hkind) hspan
    rw [hbelongs] at h
    simp at h
  have hhoisted : q.node.text ∉ (standard.plan source.toList root).hoisted := by
    intro hmem
    have h := belongs_of_mem_hoisted hroot hmem
    rw [hbelongs] at h
    simp at h
  rw [nameIn?_eq_some_iff]
  refine ⟨hspan, not_isOnInstance hfunction hconstant hhoisted, ?_⟩
  rcases nameOf_cases (standard.plan source.toList root) q with hown | hgiven
  · exact hown
  · exact absurd hlead (renamed_of_target? hgiven).2.1

/-- A conversion keeps names apart exactly if no renamed variable gets the name of another word. -/
theorem keepsApart_iff (hroot : parse source = .ok root)
    (hconvert : standard.convert source = .ok c) :
    standard.KeepsApart source root c ↔
      ∀ p ∈ root.places [], ∀ q ∈ root.places [], namesVariable p = true →
        namesVariable q = true → ¬ standard.Meets source root p q := by
  have hwf : root.WellFormed source.toList := wellFormed_of_parse? (parse_eq_ok_iff.1 hroot)
  have hlead : standard.lead.toList ≠ [] := by decide
  constructor
  · -- words that meet stand under one name, since a word that begins with the prefix stays
    intro h p hp q hq hpv hqv hmeets
    obtain ⟨hqkind, -⟩ := namesVariable_iff.1 hqv
    have hprefix : standard.lead.toList <+: q.node.text.toList := by
      rw [hmeets.taken, String.toList_append]
      exact List.prefix_append _ _
    have hpname := hmeets.nameIn?_eq hlead hpv
    have hqname := nameIn?_of_lead hwf hq hqkind hprefix
    rw [hmeets.taken] at hqname
    have htexts := h.apart p hp q hq hpv hqv _ hpname hqname
    rw [hmeets.taken] at htexts
    exact Renames.append_ne_self hlead htexts.symm
  · intro h
    refine ⟨fun p hp hkind hspan => stands_written hroot hconvert hp hkind hspan, ?_⟩
    intro p hp q hq hpv hqv w hpw hqw
    obtain ⟨hpspan, hpstays, hpname⟩ := nameIn?_eq_some_iff.1 hpw
    obtain ⟨hqspan, hqstays, hqname⟩ := nameIn?_eq_some_iff.1 hqw
    have hpcases := nameOf_cases (standard.plan source.toList root) p
    have hqcases := nameOf_cases (standard.plan source.toList root) q
    rw [hpname] at hpcases
    rw [hqname] at hqcases
    -- each of the two has its own name or a new one; one of each kind means that they meet
    rcases hpcases with hpown | hpgiven
    · rcases hqcases with hqown | hqgiven
      · exact hpown.symm.trans hqown
      · exact absurd (meets_of_target? hqspan hqstays hqgiven hpown.symm) (h q hq p hp hqv hpv)
    · rcases hqcases with hqown | hqgiven
      · exact absurd (meets_of_target? hpspan hpstays hpgiven hqown.symm) (h p hp q hq hpv hqv)
      · obtain ⟨-, -, hpnew⟩ := renamed_of_target? hpgiven
        obtain ⟨-, -, hqnew⟩ := renamed_of_target? hqgiven
        exact (String.append_right_inj _).1 (hpnew.symm.trans hqnew)

/-- A sketch with a variable that has the prefix and others that do not. -/
def distinct : String := "let x = 1, _y = x\nfill(_y)"

/-- The rule at a sketch whose names stay apart. -/
theorem keepsApart_iff_distinct : ∃ root c, parse distinct = .ok root ∧
    standard.convert distinct = .ok c ∧ c.code = "let _x = 1, _y = _x\n_p.fill(_y)" ∧
    standard.KeepsApart distinct root c := by
  have hread : standard.convertsTo distinct
      ⟨"let _x = 1, _y = _x\n_p.fill(_y)", [("x", "_x"), ("_y", "_y")]⟩ (fun root => decide
      (∀ p ∈ root.places [], ∀ q ∈ root.places [],
        q.node.text ≠ standard.lead ++ p.node.text)) = true := by
    decide +kernel
  obtain ⟨root, hroot, hconvert, hnames⟩ := exists_convert hread
  refine ⟨root, _, hroot, hconvert, rfl, (keepsApart_iff hroot hconvert).2 ?_⟩
  intro p hp q hq _ _ hmeets
  exact of_decide_eq_true hnames p hp q hq hmeets.taken

/-- A sketch with a variable and one of the name that it gets. -/
def meeting : String := "let x = 1, _x = 2;"

/-- Two variables of the sketch get one name. -/
theorem not_keepsApart_meeting : ∃ root c, parse meeting = .ok root ∧
    standard.convert meeting = .ok c ∧ c.code = "let _x = 1, _x = 2;" ∧
    ¬ standard.KeepsApart meeting root c := by
  have hread : standard.convertsTo meeting
      ⟨"let _x = 1, _x = 2;", [("x", "_x"), ("_x", "_x")]⟩ (fun root => decide
      (∃ p ∈ root.places [], ∃ q ∈ root.places [], namesVariable p = true ∧
        namesVariable q = true ∧
        standard.nameIn? (standard.plan meeting.toList root) p = some "_x" ∧
        standard.nameIn? (standard.plan meeting.toList root) q = some "_x" ∧
        p.node.text ≠ q.node.text)) = true := by
    decide +kernel
  obtain ⟨root, hroot, hconvert, hnames⟩ := exists_convert hread
  obtain ⟨p, hp, q, hq, hpv, hqv, hpw, hqw, htexts⟩ := of_decide_eq_true hnames
  refine ⟨root, _, hroot, hconvert, rfl, fun h => ?_⟩
  exact htexts (h.apart p hp q hq hpv hqv "_x" hpw hqw)

end Dialect

end SketchHost
