/-
**What becomes of the names of a sketch.**

In a converted sketch every name that no hoist uses up stands where it stood, as it is, under its new
name, or as an access to the instance.  A shorthand that changes keeps its key.

* `Dialect.convert_eq_ok_iff` — what a conversion gives;
* `Dialect.convertsTo`, `Dialect.exists_convert` — the conversion of a fixed source, computed;
* `Dialect.isOnInstance` — a name that becomes an access to the instance;
* `Dialect.nameIn?` — the name under which a word goes on to stand;
* `Dialect.written` — the text that stands for a word;
* `Dialect.clear_edits` — the edits of a plan leave a word alone, apart from its own edit;
* `Dialect.stands_written` — that text stands in the converted sketch.
-/

import SketchHost.Proofs.InstanceMode.Hoists
import SketchHost.Proofs.InstanceMode.Renames
import SketchHost.Proofs.Script.Statements
import SketchHost.Proofs.Text.Boundaries

set_option relaxedAutoImplicit false
set_option autoImplicit false

namespace SketchHost

open Script

/-! ### Conversions -/

namespace Dialect

variable {d : Dialect} {source : String} {root : Node} {c : Converted}

/-- What a conversion gives: the text that the edits of the plan make of a program, which is a program
again, and the renames of the plan. -/
theorem convert_eq_ok_iff : d.convert source = .ok c ↔ ∃ root, parse source = .ok root ∧
    editText source (d.plan source.toList root).edits = .ok c.code ∧
      (∃ root', parse c.code = .ok root') ∧ c.renames = (d.plan source.toList root).renames := by
  constructor
  · intro h
    unfold convert at h
    split at h
    · simp at h
    · next root hroot =>
        dsimp only at h
        split at h
        · simp at h
        · next code hcode =>
            split at h
            · simp at h
            · next root' hroot' =>
                obtain rfl := Except.ok.inj h
                exact ⟨root, hroot, hcode, ⟨root', hroot'⟩, rfl⟩
  · rintro ⟨root, hroot, hcode, ⟨root', hroot'⟩, hrenames⟩
    rw [convert, hroot]
    simp only [hcode, hroot', ← hrenames]

/-- A conversion applies the edits of its plan. -/
theorem splice_of_convert (hroot : parse source = .ok root) (h : d.convert source = .ok c) :
    splice (bytesOf source) (d.plan source.toList root).edits = .ok (bytesOf c.code) ∧
      c.renames = (d.plan source.toList root).renames := by
  obtain ⟨root₀, hroot₀, hcode, -, hrenames⟩ := convert_eq_ok_iff.1 h
  obtain rfl := Except.ok.inj (hroot.symm.trans hroot₀)
  exact ⟨splice_of_editText hcode, hrenames⟩

theorem wellFormed_of_parse (hroot : parse source = .ok root) : root.WellFormed source.toList :=
  wellFormed_of_parse? (parse_eq_ok_iff.1 hroot)

/-- What the edits of its plan make of a source.  They are put in order by insertion: unlike sorting
by merging, this can be computed in a proof. -/
def rewritten? (d : Dialect) (source : String) (root : Node) : Option String :=
  let order := (d.plan source.toList root).edits.insertionSort fun e f => Edit.before e f = true
  (spliceFrom (bytesOf source) 0 order).toOption.bind textOfBytes?

theorem rewritten?_eq_some_iff {code : String} : d.rewritten? source root = some code ↔
    editText source (d.plan source.toList root).edits = .ok code := by
  rw [editText_eq_ok_iff, splice, mergeSort_eq_insertionSort]
  rfl

/-- Whether a source is converted to something, and its tree passes a check. -/
def convertsTo (d : Dialect) (source : String) (c : Converted) (check : Node → Bool) : Bool :=
  (parse? source.toList).any fun root =>
    check root && d.rewritten? source root == some c.code &&
      (d.plan source.toList root).renames == c.renames && (parse? c.code.toList).isSome

theorem exists_convert {check : Node → Bool} (h : d.convertsTo source c check = true) :
    ∃ root, parse source = .ok root ∧ d.convert source = .ok c ∧ check root = true := by
  obtain ⟨root, hroot, hsteps⟩ := (Option.any_eq_true _ _).1 h
  simp only [Bool.and_eq_true, beq_iff_eq, rewritten?_eq_some_iff] at hsteps
  obtain ⟨⟨⟨hcheck, hcode⟩, hrenames⟩, hread⟩ := hsteps
  obtain ⟨result, hresult⟩ := Option.isSome_iff_exists.1 hread
  have hroot := parse_eq_ok_iff.2 hroot
  have hconvert := convert_eq_ok_iff.2
    ⟨root, hroot, hcode, ⟨result, parse_eq_ok_iff.2 hresult⟩, hrenames.symm⟩
  exact ⟨root, hroot, hconvert, hcheck⟩

/-! ### Names -/

/-- The spans of the names that the hoists of a plan use up. -/
def Plan.consumed (pl : Plan) : List Span :=
  pl.hoists.map Hoist.consumed

/-- The names of the hoists of a plan. -/
def Plan.hoisted (pl : Plan) : List String :=
  pl.hoists.map Hoist.name

/-- A name that becomes an access to the instance. -/
def isOnInstance (d : Dialect) (pl : Plan) (p : Node.Place) : Bool :=
  match p.node.kind with
  | .identifier =>
      !p.isKey && ((d.calleeEdit? p).isSome
        || (!pl.renames.owns p.node.text && !p.isBinding && (d.referenceEdit? pl.hoisted p).isSome))
  | .shorthand => !pl.renames.owns p.node.text && (d.shorthandEdit? pl.hoisted p).isSome
  | _ => false

/-- The name that a word has if it stays a name.  A key keeps its own. -/
def Plan.nameOf (pl : Plan) (p : Node.Place) : String :=
  if p.node.kind == .identifier && p.isKey then p.node.text
  else (pl.renames.target? p.node.text).getD p.node.text

/-- The name under which a word goes on to stand; none if a hoist uses it up or it becomes an access
to the instance. -/
def nameIn? (d : Dialect) (pl : Plan) (p : Node.Place) : Option String :=
  if pl.consumed.contains p.node.span || d.isOnInstance pl p then none else some (pl.nameOf p)

/-- What a word stands for afterwards: its name, or the access. -/
def meaning (d : Dialect) (pl : Plan) (p : Node.Place) : String :=
  if d.isOnInstance pl p then d.onInstance p.node.text else pl.nameOf p

/-- The text that stands for a word afterwards: a shorthand that changes keeps its key. -/
def written (d : Dialect) (pl : Plan) (p : Node.Place) : String :=
  if p.node.kind == .identifier || d.meaning pl p == p.node.text then d.meaning pl p
  else p.node.text ++ ": " ++ d.meaning pl p

theorem onInstance_ne_self (d : Dialect) (name : String) : d.onInstance name ≠ name := by
  rw [onInstance]
  refine Renames.append_ne_self ?_
  simp

theorem target?_ne_self {rs : Renames} {name new : String} (h : rs.target? name = some new) :
    new ≠ name := by
  unfold Renames.target? at h
  split at h
  · split at h
    · simp at h
    · next hne =>
        obtain rfl := Option.some.inj h
        simpa using hne
  · simp at h

theorem target?_of_not_owns {rs : Renames} {name : String} (h : rs.owns name = false) :
    rs.target? name = none := by
  have hfind : rs.find? name = none := by simpa [Renames.owns] using h
  rw [Renames.target?]
  rw [hfind]

theorem nameOf_eq (pl : Plan) {p : Node.Place}
    (hkey : (p.node.kind == .identifier && p.isKey) = false) :
    pl.nameOf p = (pl.renames.target? p.node.text).getD p.node.text := by
  rw [Plan.nameOf, if_neg (by simp [hkey])]

/-- A name that the map does not have stays as it is. -/
theorem nameOf_of_not_owns {pl : Plan} {p : Node.Place}
    (h : pl.renames.owns p.node.text = false) : pl.nameOf p = p.node.text := by
  rw [Plan.nameOf]
  split
  · rfl
  · rw [target?_of_not_owns h]
    rfl

/-- The name that a word has is its own, or the one that the map gives it. -/
theorem nameOf_cases (pl : Plan) (p : Node.Place) :
    pl.nameOf p = p.node.text ∨ pl.renames.target? p.node.text = some (pl.nameOf p) := by
  rw [Plan.nameOf]
  split
  · exact Or.inl rfl
  · cases h : pl.renames.target? p.node.text with
    | none => exact Or.inl rfl
    | some new => exact Or.inr rfl

theorem nameIn?_eq_some_iff {pl : Plan} {p : Node.Place} {w : String} :
    d.nameIn? pl p = some w ↔
      p.node.span ∉ pl.consumed ∧ d.isOnInstance pl p = false ∧ pl.nameOf p = w := by
  rw [nameIn?]
  split
  · next h =>
      constructor
      · intro hnone
        simp at hnone
      · rintro ⟨hspan, honInstance, -⟩
        simp [hspan, honInstance] at h
  · next h =>
      simp only [Bool.or_eq_true, List.contains_iff_mem, not_or, Bool.not_eq_true] at h
      rw [Option.some.injEq]
      exact ⟨fun hname => ⟨h.1, h.2, hname⟩, fun hall => hall.2.2⟩

/-! ### The edit of a word -/

theorem eq_of_calleeEdit? {p : Node.Place} {e : TextEdit} (h : d.calleeEdit? p = some e) :
    e = replaceNode p.node (d.onInstance p.node.text) := by
  unfold calleeEdit? at h
  dsimp only at h
  split at h
  · exact (Option.some.inj h).symm
  · simp at h

theorem eq_of_referenceEdit? {hoisted : List String} {p : Node.Place} {e : TextEdit}
    (h : d.referenceEdit? hoisted p = some e) :
    e = replaceNode p.node (d.onInstance p.node.text) := by
  unfold referenceEdit? at h
  dsimp only at h
  split at h
  · exact (Option.some.inj h).symm
  · simp at h

theorem eq_of_shorthandEdit? {hoisted : List String} {p : Node.Place} {e : TextEdit}
    (h : d.shorthandEdit? hoisted p = some e) :
    e = replaceNode p.node (p.node.text ++ ": " ++ d.onInstance p.node.text) := by
  unfold shorthandEdit? at h
  dsimp only at h
  split at h
  · exact (Option.some.inj h).symm
  · simp at h

variable {pl : Plan} {p : Node.Place}

theorem written_of_identifier (h : p.node.kind = .identifier) :
    d.written pl p = d.meaning pl p := by
  rw [written, if_pos (by simp [h])]

theorem written_of_eq (h : d.meaning pl p = p.node.text) : d.written pl p = p.node.text := by
  rw [written, if_pos (by simp [h]), h]

theorem written_of_ne (hkind : p.node.kind ≠ .identifier) (h : d.meaning pl p ≠ p.node.text) :
    d.written pl p = p.node.text ++ ": " ++ d.meaning pl p := by
  rw [written, if_neg (by simp [hkind, h])]

theorem meaning_of_isOnInstance (h : d.isOnInstance pl p = true) :
    d.meaning pl p = d.onInstance p.node.text := by
  rw [meaning, if_pos h]

theorem meaning_of_not_isOnInstance (h : d.isOnInstance pl p = false) :
    d.meaning pl p = pl.nameOf p := by
  rw [meaning, if_neg (by simp [h])]

/-- What an edit of a word comes to: the word stays, or what stands for it is put in. -/
def Puts (d : Dialect) (pl : Plan) (p : Node.Place) (e? : Option TextEdit) : Prop :=
  e? = none ∧ d.written pl p = p.node.text ∨ e? = some (replaceNode p.node (d.written pl p))

theorem puts_newNameEdit? (hkind : p.node.kind = .identifier) (hkey : p.isKey = false)
    (h : d.isOnInstance pl p = false) : d.Puts pl p (newNameEdit? pl.renames p.node) := by
  have hmeaning := meaning_of_not_isOnInstance h
  rw [nameOf_eq pl (by simp [hkey])] at hmeaning
  rw [newNameEdit?]
  cases htarget : pl.renames.target? p.node.text with
  | none =>
      rw [htarget] at hmeaning
      exact Or.inl ⟨rfl, written_of_eq hmeaning⟩
  | some new =>
      rw [htarget] at hmeaning
      refine Or.inr ?_
      rw [written_of_identifier hkind, hmeaning]
      rfl

theorem puts_splitShorthand? (hkind : p.node.kind ≠ .identifier)
    (h : d.isOnInstance pl p = false) : d.Puts pl p (splitShorthand? pl.renames p.node) := by
  have hmeaning := meaning_of_not_isOnInstance h
  rw [nameOf_eq pl (by simp [hkind])] at hmeaning
  rw [splitShorthand?]
  cases htarget : pl.renames.target? p.node.text with
  | none =>
      rw [htarget] at hmeaning
      exact Or.inl ⟨rfl, written_of_eq hmeaning⟩
  | some new =>
      rw [htarget] at hmeaning
      have hne : d.meaning pl p ≠ p.node.text := by
        rw [hmeaning]
        exact target?_ne_self htarget
      refine Or.inr ?_
      rw [written_of_ne hkind hne, hmeaning]
      rfl

/-- A word without an edit that the map does not have stays as it is. -/
theorem puts_none (h : d.isOnInstance pl p = false)
    (hname : pl.nameOf p = p.node.text) : d.Puts pl p none := by
  refine Or.inl ⟨rfl, written_of_eq ?_⟩
  rw [meaning_of_not_isOnInstance h, hname]

theorem puts_identifierEdit? (hkind : p.node.kind = .identifier) :
    d.Puts pl p (d.identifierEdit? pl.renames pl.hoisted p) := by
  have haccess : d.isOnInstance pl p = true →
      d.Puts pl p (some (replaceNode p.node (d.onInstance p.node.text))) := by
    intro h
    refine Or.inr ?_
    rw [written_of_identifier hkind, meaning_of_isOnInstance h]
  have hinstance : d.isOnInstance pl p = (!p.isKey && ((d.calleeEdit? p).isSome
      || (!pl.renames.owns p.node.text && !p.isBinding
        && (d.referenceEdit? pl.hoisted p).isSome))) := by
    rw [isOnInstance, hkind]
  rw [identifierEdit?]
  cases hkey : p.isKey with
  | true =>
      refine puts_none (by simp [hinstance, hkey]) ?_
      rw [Plan.nameOf, if_pos (by simp [hkind, hkey])]
  | false =>
      rw [if_neg (by simp)]
      cases hcallee : d.calleeEdit? p with
      | some e =>
          rw [eq_of_calleeEdit? hcallee]
          exact haccess (by simp [hinstance, hkey, hcallee])
      | none =>
          dsimp only
          cases howns : pl.renames.owns p.node.text with
          | true =>
              rw [if_pos rfl]
              exact puts_newNameEdit? hkind hkey (by simp [hinstance, hkey, hcallee, howns])
          | false =>
              rw [if_neg (by simp)]
              have hname := nameOf_of_not_owns howns
              cases hbinding : p.isBinding with
              | true =>
                  rw [if_pos rfl]
                  exact puts_none (by simp [hinstance, hkey, hcallee, howns, hbinding]) hname
              | false =>
                  rw [if_neg (by simp)]
                  cases hreference : d.referenceEdit? pl.hoisted p with
                  | some e =>
                      rw [eq_of_referenceEdit? hreference]
                      exact haccess (by simp [hinstance, hkey, hcallee, howns, hbinding, hreference])
                  | none =>
                      exact puts_none
                        (by simp [hinstance, hkey, hcallee, howns, hbinding, hreference]) hname

theorem puts_shorthand (hkind : p.node.kind = .shorthand) :
    d.Puts pl p (if pl.renames.owns p.node.text then splitShorthand? pl.renames p.node
      else d.shorthandEdit? pl.hoisted p) := by
  have hinstance : d.isOnInstance pl p
      = (!pl.renames.owns p.node.text && (d.shorthandEdit? pl.hoisted p).isSome) := by
    rw [isOnInstance, hkind]
  have hplain : p.node.kind ≠ .identifier := by simp [hkind]
  cases howns : pl.renames.owns p.node.text with
  | true =>
      rw [if_pos rfl]
      exact puts_splitShorthand? hplain (by simp [hinstance, howns])
  | false =>
      rw [if_neg (by simp)]
      cases hshorthand : d.shorthandEdit? pl.hoisted p with
      | some e =>
          have hmeaning : d.meaning pl p = d.onInstance p.node.text :=
            meaning_of_isOnInstance (by simp [hinstance, howns, hshorthand])
          have hne : d.meaning pl p ≠ p.node.text := by
            rw [hmeaning]
            exact onInstance_ne_self d _
          refine Or.inr ?_
          rw [eq_of_shorthandEdit? hshorthand, written_of_ne hplain hne, hmeaning]
      | none =>
          exact puts_none (by simp [hinstance, howns, hshorthand]) (nameOf_of_not_owns howns)

/-- The edit of a word puts in what stands for it afterwards; a word without an edit stays. -/
theorem puts_nameEdit? (d : Dialect) (pl : Plan) {p : Node.Place}
    (hkind : isVariableName p.node.kind = true) :
    d.Puts pl p (d.nameEdit? pl.renames pl.hoisted p) := by
  rw [nameEdit?]
  unfold isVariableName at hkind
  split at hkind
  · next hk =>
      rw [hk]
      exact puts_identifierEdit? hk
  · next hk =>
      rw [hk]
      exact puts_shorthand hk
  · next hk =>
      rw [hk]
      exact puts_splitShorthand? (by simp [hk]) (by rw [isOnInstance, hk])
  · simp at hkind

/-- Only words that name a variable have edits. -/
theorem isVariableName_of_nameEdit? {rs : Renames} {hoisted : List String} {e : TextEdit}
    (h : d.nameEdit? rs hoisted p = some e) : isVariableName p.node.kind = true := by
  unfold nameEdit? at h
  split at h
  · next hk => rw [hk]; rfl
  · next hk => rw [hk]; rfl
  · next hk => rw [hk]; rfl
  · simp at h

/-! ### The edits of a plan -/

/-- The hoists of a plan are those of the statements of the program. -/
theorem exists_hoists_of_mem {chars : List Char} (hroot : root.WellFormed chars) {x : Hoist}
    (hx : x ∈ (d.plan chars root).hoists) :
    ∃ s ∈ root.children, s.WellFormed chars ∧ d.Hoists chars s x := by
  obtain ⟨s, hs, hhoist⟩ := List.mem_filterMap.1 hx
  have hwf := (hroot.fits_children hs).wellFormed
  exact ⟨s, hs, hwf, hoists_of_hoist? hwf hhoist⟩

/-- An edit of a plan belongs to a hoist or to a word that no hoist uses up. -/
theorem mem_edits {source : List Char} {e : TextEdit} (h : e ∈ (d.plan source root).edits) :
    (∃ s ∈ root.children, ∃ x, d.hoist? source s = some x ∧ x ∈ (d.plan source root).hoists ∧
      e ∈ x.edits) ∨
    ∃ p ∈ root.places [], p.node.span ∉ (d.plan source root).consumed ∧
      isVariableName p.node.kind = true ∧
      e = replaceNode p.node (d.written (d.plan source root) p) := by
  rcases List.mem_append.1 h with h | h
  · obtain ⟨x, hx, he⟩ := List.mem_flatMap.1 h
    obtain ⟨s, hs, hhoist⟩ := List.mem_filterMap.1 hx
    exact Or.inl ⟨s, hs, x, hhoist, hx, he⟩
  · obtain ⟨p, hp, hedit⟩ := List.mem_filterMap.1 h
    split at hedit
    · simp at hedit
    · next hspan =>
        have hkind := isVariableName_of_nameEdit? hedit
        -- the edit is the one that puts in what is written for the word
        refine Or.inr ⟨p, hp, by simpa [Plan.consumed, plan] using hspan, hkind, ?_⟩
        rcases puts_nameEdit? d (d.plan source root) hkind with ⟨hnone, -⟩ | hsome
        · rw [plan, Plan.hoisted] at hnone
          rw [hnone] at hedit
          simp at hedit
        · rw [plan, Plan.hoisted] at hsome
          rw [hsome] at hedit
          exact (Option.some.inj hedit).symm

variable {chars : List Char}

/-- The edits of a plan go forward. -/
theorem forward_edits (hroot : root.WellFormed chars) :
    ∀ e ∈ (d.plan chars root).edits, e.Forward := by
  intro e he
  rcases mem_edits he with ⟨s, hs, x, hhoist, -, he⟩ | ⟨p, hp, -, -, rfl⟩
  · have hwf := (hroot.fits_children hs).wellFormed
    exact ((hoists_of_hoist? hwf hhoist).within hwf e he).2.1
  · exact (hroot.fits_of_mem_places hp).start_le_stop

/-- The edits of a hoist leave a word alone that no hoist uses up. -/
theorem clear_hoist (hroot : root.WellFormed chars) {p : Node.Place} (hp : p ∈ root.places [])
    (hkind : isVariableName p.node.kind = true)
    (hspan : p.node.span ∉ (d.plan chars root).consumed) {s : Node} (hs : s ∈ root.children)
    {x : Hoist} (hhoist : d.hoist? chars s = some x) :
    ∀ e ∈ x.edits, e.Clear p.node.start p.node.stop := by
  have hnamed := isNamed_of_isVariableName hkind
  have hwf := (hroot.fits_children hs).wellFormed
  have hform := hoists_of_hoist? hwf hhoist
  intro e he
  rcases Node.mem_preorder_cases (Node.mem_preorder_of_mem_places hp) with hself | ⟨t, ht, hmem⟩
  · -- the root has parts, so it is no word
    rw [hself] at hnamed
    have hform' := (Node.wellFormed_iff.1 hroot).1
    rw [Node.HasForm, if_pos hnamed] at hform'
    rw [hform'.1] at hs
    simp at hs
  · rcases hroot.disjoint_children hs ht with rfl | hdisjoint
    · -- a hoist of the statement of the word
      refine hform.clear hwf hmem hnamed (fun heq => hspan ?_) e he
      rw [heq]
      exact List.mem_map_of_mem (List.mem_filterMap.2 ⟨s, hs, hhoist⟩)
    · -- a hoist of another statement
      obtain ⟨hlo, hle, hhi⟩ := hform.within hwf e he
      have hfits := (hroot.fits_children ht).wellFormed.fits_of_mem hmem
      have hplo := hfits.lo_le
      have hphi := hfits.le_hi
      rw [Edit.Clear]
      omega

/-- The edits of a plan leave a word alone that no hoist uses up, apart from its own edit. -/
theorem clear_edits (hroot : root.WellFormed chars) {p : Node.Place} (hp : p ∈ root.places [])
    (hkind : isVariableName p.node.kind = true)
    (hspan : p.node.span ∉ (d.plan chars root).consumed) :
    ∀ e ∈ (d.plan chars root).edits,
      e = replaceNode p.node (d.written (d.plan chars root) p) ∨ e.Clear p.node.start p.node.stop := by
  intro e he
  rcases mem_edits he with ⟨s, hs, x, hhoist, -, he⟩ | ⟨q, hq, -, hqkind, rfl⟩
  · exact Or.inr (clear_hoist hroot hp hkind hspan hs hhoist e he)
  · rcases hroot.disjoint hq hp (isNamed_of_isVariableName hqkind) (isNamed_of_isVariableName hkind)
      with rfl | hdisjoint
    · exact Or.inl rfl
    · exact Or.inr hdisjoint

/-- A word that no hoist uses up stands in the converted sketch with what is written for it. -/
theorem stands_written (hroot : parse source = .ok root) (hconvert : d.convert source = .ok c)
    {p : Node.Place} (hp : p ∈ root.places []) (hkind : isVariableName p.node.kind = true)
    (hspan : p.node.span ∉ (d.plan source.toList root).consumed) :
    ∃ head tail, Stands (bytesOf source) (d.plan source.toList root).edits p.node.start p.node.stop
      head (bytesOf (d.written (d.plan source.toList root) p)) tail (bytesOf c.code) := by
  have hwf := wellFormed_of_parse hroot
  have hfits := hwf.fits_of_mem_places hp
  have hspelled := hfits.wellFormed.spelledAt (isNamed_of_isVariableName hkind)
  obtain ⟨hsplice, -⟩ := splice_of_convert hroot hconvert
  have hforward := forward_edits (d := d) hwf
  have hclear := clear_edits (d := d) hwf hp hkind hspan
  by_cases hedit : replaceNode p.node (d.written (d.plan source.toList root) p)
      ∈ (d.plan source.toList root).edits
  · exact stands_of_mem hsplice hforward hedit hspelled.lt hclear
  · have hall : ∀ e ∈ (d.plan source.toList root).edits, e.Clear p.node.start p.node.stop := by
      intro e he
      rcases hclear e he with rfl | hclear
      · exact absurd he hedit
      · exact hclear
    -- a word without an edit is written as it is
    have htext : d.written (d.plan source.toList root) p = p.node.text := by
      rcases puts_nameEdit? d (d.plan source.toList root) hkind with ⟨-, htext⟩ | hsome
      · exact htext
      · refine absurd (List.mem_append_right _ ?_) hedit
        refine List.mem_filterMap.2 ⟨p, hp, ?_⟩
        rw [if_neg (by simpa [Plan.consumed, plan] using hspan)]
        exact hsome
    rw [htext, ← hspelled.stretch_eq]
    exact stands_of_clear hsplice hforward hspelled.lt hall

end Dialect

end SketchHost
