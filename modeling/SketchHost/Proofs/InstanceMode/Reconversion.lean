/-
**Converting twice.**

A converted sketch is meant to stay as it is when it is converted again.  If it is read as the tree of
the sketch with its names replaced, it does: no edit is left.  But its map of renames has new names if
the sketch declares a variable where names are taken for keys, inside an import statement.

* `Dialect.ReadsBack` — a text is read as the converted tree of a sketch;
* `Dialect.IsIdempotent` — a converted sketch stays, and its renames change no name;
* `Dialect.plan_of_readsBack` — no edit is left;
* `Dialect.convert_of_readsBack` — **a converted sketch stays**;
* `Dialect.readsBack_of_edits_eq_nil`, `Dialect.ReadsBack.again` — sketches without edits are read so,
  and with them whatever was converted and read so;
* `Dialect.isIdempotent_iff` — **when its renames change no name**;
* `Dialect.not_isIdempotent_attributed` — a sketch whose renames are not those of a converted one.
-/

import SketchHost.Proofs.InstanceMode.ImageDeclarations
import SketchHost.Proofs.InstanceMode.ImageHoists

set_option relaxedAutoImplicit false
set_option autoImplicit false

namespace SketchHost

open Script

/-- A text without edits stays as it is. -/
theorem editText_nil (s : String) : editText s [] = .ok s := by
  rw [editText, splice_nil]
  dsimp only
  rw [textOfBytes?_bytesOf]

namespace Renames

/-- What a tree declares without its positions. -/
theorem declaredNames_bare (n : Node) : declaredNames n.bare = (declaredNames n).map Node.bare := by
  have htarget : ∀ m : Node, declaredTarget? m.bare = (declaredTarget? m).map Node.bare := by
    intro m
    rw [declaredTarget?, declaredTarget?, Node.kind_bare]
    split
    · exact Node.child?_bare _ _
    · rw [Node.declaresTarget_bare]
      split
      · exact Node.child?_bare _ _
      · rfl
    · rfl
  rw [declaredNames, declaredNames, Node.preorder_bare]
  refine Node.flatMap_bare fun m _ => ?_
  rw [htarget, Node.bindings?_bare]

end Renames

namespace Dialect

variable {d : Dialect} {pl : Plan} {chars chars' : List Char} {root root' s : Node} {p q : Node.Place}

/-! ### Conversions without positions -/

theorem refers_bare (d : Dialect) (pl : Plan) (q : Node.Place) :
    d.refers pl q.bare = d.refers pl q := by
  have hcallee : isCallee q.bare = isCallee q := by
    rw [isCallee, isCallee, Node.Place.parent?_bare, Option.any_map, Node.Place.node_bare, Node.role_bare]
    simp
  rw [refers, refers, Node.Place.node_bare, Node.kind_bare, Node.text_bare, Node.Place.isKey_bare,
    Node.Place.isBinding_bare, hcallee]

theorem isOnInstance_bare (d : Dialect) (pl : Plan) (q : Node.Place) :
    d.isOnInstance pl q.bare = d.isOnInstance pl q := by
  rw [isOnInstance_eq, isOnInstance_eq, refers_bare, Node.Place.isLocal_bare, Node.Place.node_bare,
    Node.text_bare]

/-! ### Words without edits -/

/-- A word has no edit if it becomes no access and has no new name, or is a key. -/
theorem nameEdit?_eq_none {rs : Renames} (haccess : d.isOnInstance ⟨[], rs, []⟩ q = false)
    (hname : isVariableName q.node.kind = true → rs.target? q.node.text = none ∨
      (q.node.kind = .identifier ∧ q.isKey = true)) : d.nameEdit? rs [] q = none := by
  have hshorthand : q.node.kind ≠ .identifier → isVariableName q.node.kind = true →
      splitShorthand? rs q.node = none := by
    intro hk hword
    rcases hname hword with htarget | hkey
    · rw [splitShorthand?, htarget]
      rfl
    · exact absurd hkey.1 hk
  rw [isOnInstance] at haccess
  rw [nameEdit?]
  split
  · next hk =>
      rw [hk] at haccess
      rw [identifierEdit?]
      cases hkey : q.isKey with
      | true => rfl
      | false =>
          have htarget : rs.target? q.node.text = none := by
            refine (hname (by rw [hk]; rfl)).elim id fun hkeyed => ?_
            rw [hkey] at hkeyed
            simp at hkeyed
          simp only [hkey, Bool.not_false, Bool.true_and, Bool.or_eq_false_iff] at haccess
          have hcallee : d.calleeEdit? q = none := by simpa using haccess.1
          rw [hcallee, newNameEdit?, htarget]
          have hreference := haccess.2
          cases howns : rs.owns q.node.text with
          | true => rfl
          | false =>
              cases hbinding : q.isBinding with
              | true => rfl
              | false => simpa [howns, hbinding, Plan.hoisted] using hreference
  · next hk => exact hshorthand (by simp [hk]) (by rw [hk]; rfl)
  · next hk =>
      rw [hk] at haccess
      split
      · exact hshorthand (by simp [hk]) (by rw [hk]; rfl)
      · next howns => simpa [howns, Plan.hoisted] using haccess
  · rfl

/-! ### Texts that are read as converted sketches -/

/-- A text is read as nothing but the converted tree of a sketch. -/
def ReadsBack (d : Dialect) (source : String) (root : Node) (code : String) : Prop :=
  ∀ root', parse code = .ok root' → root'.bare = d.programImage source.toList root

/-- A variable of a converted sketch is a variable of the sketch that is not used up, under the name that
it has afterwards; and each of them is there. -/
theorem exists_declared_iff (hroot : root.WellFormed chars) (hprogram : root.kind = .program)
    (hread : root'.bare = d.programImage chars root) {name : String} :
    (∃ b ∈ Renames.declaredNames root', b.text = name) ↔
      ∃ p ∈ root.places [], p.node ∈ Renames.declaredNames root ∧
        p.node.span ∉ (d.plan chars root).consumed ∧ (d.plan chars root).nameOf p = name := by
  obtain ⟨ps, hps, hold, hnew⟩ := carries_programImage (d := d) hroot hprogram
  have htexts : (Renames.declaredNames root').map Node.text = ps.map (d.plan chars root).nameOf := by
    rw [← hnew, ← hread, Renames.declaredNames_bare, List.map_map]
    exact List.map_congr_left fun b _ => (Node.text_bare b).symm
  rw [← List.mem_map, htexts, List.mem_map]
  constructor
  · rintro ⟨p, hp, rfl⟩
    have hmem : p.node ∈ root.children.flatMap (d.remainingNames chars) := by
      rw [← hold]
      exact List.mem_map_of_mem hp
    obtain ⟨hdeclared, hspan⟩ := (mem_remaining_iff hroot hprogram).1 hmem
    exact ⟨p, hps p hp, hdeclared, hspan, rfl⟩
  · rintro ⟨p, hp, hdeclared, hspan, rfl⟩
    have hmem := (mem_remaining_iff hroot hprogram).2 ⟨hdeclared, hspan⟩
    rw [← hold] at hmem
    obtain ⟨q, hq, hnode⟩ := List.mem_map.1 hmem
    have hword := isNamed_of_isVariableName (Renames.mem_declaredNames hdeclared).2
    obtain rfl : q = p := hroot.eq_of_span (hps q hq) hp (by rwa [hnode]) hword (by rw [hnode])
    exact ⟨q, hq, rfl⟩

/-- The words of a text that is read as a converted sketch are settled. -/
theorem isSettled_of_readsBack (hd : d.IsApart) (hroot : root.WellFormed chars)
    (hprogram : root.kind = .program) (hread : root'.bare = d.programImage chars root)
    (hq : q ∈ root'.places []) : IsSettled d (d.plan chars root) q.bare := by
  refine settled_programImage hd hroot hprogram q.bare ?_
  rw [← hread]
  have hplaces := Node.places_bare root' []
  rw [List.map_nil] at hplaces
  rw [hplaces]
  exact List.mem_map_of_mem hq

/-- A name that the first conversion did not change has no new name in the second one. -/
theorem target?_of_readsBack (hroot : root.WellFormed chars) (hprogram : root.kind = .program)
    (hread : root'.bare = d.programImage chars root) {name : String}
    (hname : d.lead.toList <+: name.toList ∨ (d.plan chars root).renames.target? name = none) :
    (Renames.collect d.symbols d.lead [] root').target? name = none := by
  cases htarget : (Renames.collect d.symbols d.lead [] root').target? name with
  | none => rfl
  | some new =>
      obtain ⟨hnew, hne, b, hb, htext, -, hhook⟩ := Renames.target?_collect_iff.1 htarget
      have hlead : ¬ d.lead.toList <+: name.toList := by
        intro hlead
        rcases Renames.prefixed_eq d.lead name with ⟨heq, -⟩ | ⟨-, hnot⟩
        · exact hne (hnew.trans heq)
        · exact hnot hlead
      obtain ⟨p, hp, hdeclared, hspan, hnameOf⟩ :=
        (exists_declared_iff hroot hprogram hread).1 ⟨b, hb, htext⟩
      rcases nameOf_cases (d.plan chars root) p with hsame | hrenamed
      · -- the first conversion would have renamed it as well
        have htarget' : (d.plan chars root).renames.target? name = some new :=
          Renames.target?_collect_iff.2
            ⟨hnew, hne, p.node, hdeclared, hsame.symm.trans hnameOf, hspan, hhook⟩
        rcases hname with hlead' | hnone
        · exact absurd hlead' hlead
        · rw [htarget'] at hnone
          simp at hnone
      · rw [hnameOf] at hrenamed
        exact absurd (lead_of_target? Renames.follows_collect hrenamed) hlead

/-- **No edit is left** for a text that is read as a converted sketch. -/
theorem plan_of_readsBack (hd : d.IsApart) (hroot : root.WellFormed chars)
    (hprogram : root.kind = .program) (hread : root'.bare = d.programImage chars root) :
    d.plan chars' root' = ⟨[], Renames.collect d.symbols d.lead [] root', []⟩ := by
  have hhoists : root'.children.filterMap (d.hoist? chars') = [] := by
    refine List.filterMap_eq_nil_iff.2 fun t ht => ?_
    have hmem : t.bare ∈ (d.programImage chars root).children := by
      rw [← hread, Node.children_bare]
      exact List.mem_map_of_mem ht
    rw [hoist?_eq_none_iff, ← isHoisted_bare]
    exact isHoisted_of_mem_programImage hd hroot hmem
  have hnames : ∀ q ∈ root'.places [],
      d.nameEdit? (Renames.collect d.symbols d.lead [] root') [] q = none := by
    intro q hq
    obtain ⟨haccess, hname⟩ := isSettled_of_readsBack hd hroot hprogram hread hq
    refine nameEdit?_eq_none (by rw [← isOnInstance_bare]; exact haccess _) fun hword => ?_
    rw [Node.Place.node_bare, Node.kind_bare, Node.text_bare, Node.Place.isKey_bare] at hname
    rcases hname hword with hlead | hnone | hkey
    · exact Or.inl (target?_of_readsBack hroot hprogram hread (Or.inl hlead))
    · exact Or.inl (target?_of_readsBack hroot hprogram hread (Or.inr hnone))
    · exact Or.inr hkey
  rw [plan, hhoists]
  simpa using hnames

/-! ### Converted sketches -/

variable {source : String} {c : Converted}

/-- A converted sketch stays when it is converted again, and the renames change no name. -/
def IsIdempotent (d : Dialect) (c : Converted) : Prop :=
  ∃ rs, d.convert c.code = .ok ⟨c.code, rs⟩ ∧ ∀ r ∈ rs, r.2 = r.1

/-- A converted sketch is a program. -/
theorem parse_of_convert (h : d.convert source = .ok c) : ∃ root', parse c.code = .ok root' := by
  obtain ⟨-, -, -, hresult, -⟩ := convert_eq_ok_iff.1 h
  exact hresult

/-- **A converted sketch stays.** -/
theorem convert_of_readsBack (hd : d.IsApart) (hroot : parse source = .ok root)
    (hroot' : parse c.code = .ok root') (hread : root'.bare = d.programImage source.toList root) :
    d.convert c.code = .ok ⟨c.code, Renames.collect d.symbols d.lead [] root'⟩ := by
  have hwf : root.WellFormed source.toList := wellFormed_of_parse? (parse_eq_ok_iff.1 hroot)
  have hplan : d.plan c.code.toList root' = ⟨[], Renames.collect d.symbols d.lead [] root', []⟩ :=
    plan_of_readsBack hd hwf (kind_of_parse hroot) hread
  have hedits : (⟨[], Renames.collect d.symbols d.lead [] root', []⟩ : Plan).edits = [] := rfl
  have hcode : editText c.code (d.plan c.code.toList root').edits = .ok c.code := by
    rw [hplan, hedits, editText_nil]
  exact convert_eq_ok_iff.2 ⟨root', hroot', hcode, ⟨root', hroot'⟩, by rw [hplan]⟩

/-! ### Sketches without edits -/

/-- A word in whose place its own text is put becomes no access and keeps its name. -/
theorem stays_of_written (h : d.written pl p = p.node.text) :
    d.isOnInstance pl p = false ∧ pl.nameOf p = p.node.text := by
  have hmeaning : d.meaning pl p = p.node.text := by
    by_contra hne
    by_cases hkind : p.node.kind = .identifier
    · rw [written_of_identifier hkind] at h
      exact hne h
    · -- the pair is longer than the word
      rw [written_of_ne hkind hne] at h
      have hlength := congrArg String.length h
      simp only [String.length_append] at hlength
      have hcolon : (": " : String).length = 2 := rfl
      omega
  cases haccess : d.isOnInstance pl p with
  | true =>
      rw [meaning_of_isOnInstance haccess] at hmeaning
      exact absurd hmeaning (onInstance_ne_self d _)
  | false => exact ⟨rfl, (meaning_of_not_isOnInstance haccess).symm.trans hmeaning⟩

/-- A word that becomes no access and keeps its name is its own image. -/
theorem wordImage_eq_bare (hword : isVariableName p.node.kind = true) (hleaf : p.node.children = [])
    (haccess : d.isOnInstance pl p = false) (hname : pl.nameOf p = p.node.text) :
    d.wordImage pl p = p.node.bare := by
  have hbare : p.node.bare = bareWord p.node.kind p.node.role p.node.text := by
    obtain ⟨⟨k, r, a, b, t, cs⟩, above⟩ := p
    obtain rfl : cs = [] := hleaf
    rfl
  rw [wordImage, hname, haccess, hbare]
  unfold isVariableName at hword
  split at hword
  · next hk => simp [hk]
  · next hk => simp [hk]
  · next hk => simp [hk]
  · simp at hword

/-- A tree whose words become no accesses and keep their names is its own image. -/
theorem image_eq_bare (hn : s.WellFormed chars) : ∀ above, (∀ p ∈ s.places above,
    isVariableName p.node.kind = true → d.isOnInstance pl p = false ∧ pl.nameOf p = p.node.text) →
    d.image pl above s = s.bare := by
  induction s using Node.induction with
  | h k r a b t cs ih =>
      intro above hstay
      rcases image_cases d pl above (.node k r a b t cs) with hword | ⟨left, rest, hsplit, -⟩ |
        ⟨-, himage⟩
      · obtain ⟨haccess, hname⟩ := hstay _ (Node.mem_places_self _ above) hword
        rw [image_word hword]
        exact wordImage_eq_bare hword (hn.children_eq_nil (isNamed_of_isVariableName hword)) haccess
          hname
      · have hleft : left ∈ (Node.node k r a b t cs).children := by
          rw [hsplit.children]
          exact List.mem_cons_self
        have hplace := Node.mem_places_of_mem_children (Node.mem_places_self _ above) hleft
        exact absurd (hstay _ hplace (by rw [hsplit.leftKind]; rfl)).2 hsplit.changes
      · rw [himage, keptImage, Node.bare_node]
        refine congrArg (Node.node k r 0 0 t) (List.map_congr_left fun c hc => ?_)
        refine ih c hc (hn.fits_children hc).wellFormed _ fun p hp => hstay p ?_
        rw [Node.places_node]
        exact List.mem_cons_of_mem _ (List.mem_flatMap.2 ⟨c, hc, hp⟩)

/-- A plan without edits has no hoist, and every word stays. -/
theorem stays_of_edits_eq_nil (hroot : root.WellFormed chars)
    (h : (d.plan chars root).edits = []) :
    (d.plan chars root).hoists = [] ∧ ∀ p ∈ root.places [], isVariableName p.node.kind = true →
      d.written (d.plan chars root) p = p.node.text := by
  obtain ⟨hhoistEdits, hnames⟩ := List.append_eq_nil_iff.1 h
  have hhoists : (d.plan chars root).hoists = [] := by
    refine List.eq_nil_iff_forall_not_mem.2 fun x hx => ?_
    have hedits : x.edits = [] := List.flatMap_eq_nil_iff.1 hhoistEdits x hx
    obtain ⟨s, -, -, hform⟩ := exists_hoists_of_mem hroot hx
    cases hform <;> simp at hedits
  refine ⟨hhoists, fun p hp hword => ?_⟩
  have hnone := List.filterMap_eq_nil_iff.1 hnames p hp
  change (if (d.plan chars root).consumed.contains p.node.span then none
    else d.nameEdit? (d.plan chars root).renames (d.plan chars root).hoisted p) = none at hnone
  have hconsumed : (d.plan chars root).consumed = [] := by rw [Plan.consumed, hhoists, List.map_nil]
  rw [hconsumed, List.contains_nil, if_neg (by simp)] at hnone
  rcases puts_nameEdit? d (d.plan chars root) hword with ⟨-, hwritten⟩ | hsome
  · exact hwritten
  · rw [hnone] at hsome
    simp at hsome

/-- The converted tree of a sketch without edits is the tree of the sketch. -/
theorem programImage_of_edits_eq_nil (hroot : root.WellFormed chars)
    (h : (d.plan chars root).edits = []) : d.programImage chars root = root.bare := by
  obtain ⟨hhoists, hwritten⟩ := stays_of_edits_eq_nil hroot h
  have hstatement : ∀ s ∈ root.children, d.statementImage chars root s = s.bare := by
    intro s hs
    have hnone : d.hoist? chars s = none := List.filterMap_eq_nil_iff.1 hhoists s hs
    rw [statementImage, hnone]
    refine image_eq_bare (hroot.fits_children hs).wellFormed [root] fun p hp hword => ?_
    refine stays_of_written (hwritten p ?_ hword)
    obtain ⟨k, r, a, b, t, cs⟩ := root
    rw [Node.places_node]
    exact List.mem_cons_of_mem _ (List.mem_flatMap.2 ⟨s, hs, hp⟩)
  obtain ⟨k, r, a, b, t, cs⟩ := root
  rw [programImage, Node.bare_node]
  exact congrArg (Node.node k r 0 0 t) (List.map_congr_left hstatement)

/-- **A sketch without edits is read as its converted tree.** -/
theorem readsBack_of_edits_eq_nil (hroot : parse source = .ok root)
    (h : (d.plan source.toList root).edits = []) : d.ReadsBack source root source := by
  intro root' hroot'
  obtain rfl : root = root' := Except.ok.inj (hroot.symm.trans hroot')
  exact (programImage_of_edits_eq_nil (wellFormed_of_parse? (parse_eq_ok_iff.1 hroot)) h).symm

/-- What is read as the converted tree of a sketch is so as well once it has been converted. -/
theorem ReadsBack.again (hd : d.IsApart) (hroot : parse source = .ok root)
    (hroot' : parse c.code = .ok root') (h : d.ReadsBack source root c.code) :
    d.ReadsBack c.code root' c.code := by
  refine readsBack_of_edits_eq_nil hroot' ?_
  have hwf : root.WellFormed source.toList := wellFormed_of_parse? (parse_eq_ok_iff.1 hroot)
  rw [plan_of_readsBack hd hwf (kind_of_parse hroot) (h root' hroot')]
  rfl

/-- A name with the prefix stays, and any other one does not. -/
theorem prefixed_eq_self_iff {lead name : String} (hlead : lead.toList ≠ []) :
    Renames.prefixed lead name = name ↔ lead.toList <+: name.toList := by
  rcases Renames.prefixed_eq lead name with ⟨heq, hprefix⟩ | ⟨heq, hprefix⟩
  · exact ⟨fun _ => hprefix, fun _ => heq⟩
  · refine ⟨fun h => ?_, fun h => absurd h hprefix⟩
    rw [heq] at h
    exact absurd h (Renames.append_ne_self hlead)

/-- The renames of a conversion change no name if every variable is a hook or has the prefix. -/
theorem isIdempotent_iff_declared (hlead : d.lead.toList ≠ [])
    (hagain : d.convert c.code = .ok ⟨c.code, Renames.collect d.symbols d.lead [] root'⟩) :
    d.IsIdempotent c ↔ ∀ b ∈ Renames.declaredNames root',
      d.symbols.isHook b.text = true ∨ d.lead.toList <+: b.text.toList := by
  constructor
  · rintro ⟨rs, hrs, hall⟩ b hb
    rw [hagain] at hrs
    obtain rfl : Renames.collect d.symbols d.lead [] root' = rs :=
      congrArg Converted.renames (Except.ok.inj hrs)
    cases hhook : d.symbols.isHook b.text with
    | true => exact Or.inl rfl
    | false =>
        have hmem : (b.text, Renames.prefixed d.lead b.text)
            ∈ Renames.collect d.symbols d.lead [] root' :=
          Renames.mem_collect_iff.2 ⟨rfl, b, hb, rfl, by simp, hhook⟩
        exact Or.inr ((prefixed_eq_self_iff hlead).1 (hall _ hmem))
  · intro h
    refine ⟨_, hagain, fun r hr => ?_⟩
    obtain ⟨hnew, b, hb, htext, -, hhook⟩ := Renames.mem_collect_iff.1 hr
    rw [hnew]
    refine (prefixed_eq_self_iff hlead).2 ?_
    rcases h b hb with hhook' | hprefix
    · rw [htext, hhook] at hhook'
      simp at hhook'
    · rwa [htext] at hprefix

/-- A variable that is declared where names are no keys is a hook afterwards or has the prefix. -/
theorem nameOf_declared (hp : p.node ∈ Renames.declaredNames root)
    (hspan : p.node.span ∉ (d.plan chars root).consumed)
    (hkey : (p.node.kind == .identifier && p.isKey) = false) :
    d.symbols.isHook ((d.plan chars root).nameOf p) = true ∨
      d.lead.toList <+: ((d.plan chars root).nameOf p).toList := by
  have hrule : Renames.Follows (Renames.prefixed d.lead) (d.plan chars root).renames :=
    Renames.follows_collect
  rcases nameOf_cases (d.plan chars root) p with hsame | hnew
  · rw [hsame]
    cases hhook : d.symbols.isHook p.node.text with
    | true => exact Or.inl rfl
    | false =>
        refine Or.inr (by_contra fun hprefix => ?_)
        have howns : (d.plan chars root).renames.owns p.node.text = true :=
          (Renames.owns_iff hrule).2
            (Renames.mem_collect_iff.2 ⟨rfl, p.node, hp, rfl, hspan, hhook⟩)
        obtain ⟨new, hnew⟩ := Option.ne_none_iff_exists'.1 (target?_ne_none hrule howns hprefix)
        have hname := nameOf_eq (d.plan chars root) hkey
        rw [hsame, hnew, Option.getD_some] at hname
        exact target?_ne_self hnew hname.symm
  · exact Or.inr (lead_of_target? hrule hnew)

/-- Converted twice, a sketch has the code that it has converted once, if this is read as the converted
tree.  **Its renames change no name then exactly if every variable that is declared where names are
keys is a hook or has the prefix.** -/
theorem isIdempotent_iff (hroot : parse source = .ok root) (hconvert : standard.convert source = .ok c)
    (hread : standard.ReadsBack source root c.code) :
    (∃ rs, standard.convert c.code = .ok ⟨c.code, rs⟩) ∧ (standard.IsIdempotent c ↔
      ∀ p ∈ root.places [], p.node ∈ Renames.declaredNames root → p.node.kind = .identifier →
        p.isKey = true → standard.symbols.isHook p.node.text = true ∨
          standard.lead.toList <+: p.node.text.toList) := by
  have hwf : root.WellFormed source.toList := wellFormed_of_parse? (parse_eq_ok_iff.1 hroot)
  have hprogram := kind_of_parse hroot
  obtain ⟨root', hroot'⟩ := parse_of_convert hconvert
  have hback := hread root' hroot'
  have hagain := convert_of_readsBack isApart_standard hroot hroot' hback
  refine ⟨⟨_, hagain⟩, ?_⟩
  rw [isIdempotent_iff_declared (by decide) hagain]
  constructor
  · intro h p hp hdeclared hkind hkey
    have hspan : p.node.span ∉ (standard.plan source.toList root).consumed := by
      intro hspan
      obtain ⟨s, -, x, -, hplace⟩ :=
        isHoistPlace_of_consumed hwf hprogram hp (by rw [hkind]; rfl) hspan
      rw [hplace.isKey] at hkey
      simp at hkey
    have hname : (standard.plan source.toList root).nameOf p = p.node.text := by
      rw [Plan.nameOf, if_pos (by simp [hkind, hkey])]
    obtain ⟨b, hb, htext⟩ :=
      (exists_declared_iff hwf hprogram hback).2 ⟨p, hp, hdeclared, hspan, hname⟩
    rw [← htext]
    exact h b hb
  · intro h b hb
    obtain ⟨p, hp, hdeclared, hspan, hname⟩ :=
      (exists_declared_iff hwf hprogram hback).1 ⟨b, hb, rfl⟩
    rw [← hname]
    cases hkey : (p.node.kind == .identifier && p.isKey) with
    | true =>
        rw [Plan.nameOf, if_pos hkey]
        rw [Bool.and_eq_true, beq_iff_eq] at hkey
        exact h p hp hdeclared hkey.1 hkey.2
    | false => exact nameOf_declared hdeclared hspan hkey

/-- A sketch with a variable, a shorthand, a constant and a hook. -/
def plainSketch : String :=
  "let x = \x7b width \x7d;\nfunction draw() \x7b circle(x); \x7d"

/-- What it is converted to. -/
def plainConverted : Converted :=
  ⟨"let _x = \x7b width: _p.width \x7d;\n_p.draw = function () \x7b _p.circle(_x); \x7d;", [("x", "_x")]⟩

/-- The rule at a sketch that stays. -/
theorem isIdempotent_iff_plain : ∃ root, parse plainSketch = .ok root ∧
    standard.convert plainSketch = .ok plainConverted ∧
    standard.ReadsBack plainSketch root plainConverted.code ∧ standard.IsIdempotent plainConverted := by
  have hreads : standard.convertsTo plainSketch plainConverted (fun root =>
      ((parse? plainConverted.code.toList).all fun root' =>
        decide (root'.bare = standard.programImage plainSketch.toList root)) &&
      (root.places []).all fun p => !(p.node.kind == .identifier && p.isKey)) = true := by
    decide +kernel
  obtain ⟨root, hroot, hconvert, hmet⟩ := exists_convert hreads
  rw [Bool.and_eq_true] at hmet
  have hread : standard.ReadsBack plainSketch root plainConverted.code := by
    intro root' hroot'
    have hall := (Option.all_eq_true _ _).1 hmet.1 root' (parse_eq_ok_iff.1 hroot')
    exact of_decide_eq_true hall
  refine ⟨root, hroot, hconvert, hread, (isIdempotent_iff hroot hconvert hread).2.2 ?_⟩
  intro p hp _ hkind hkey
  have hnone := List.all_eq_true.1 hmet.2 p hp
  simp [hkind, hkey] at hnone

/-- A sketch with an import statement in whose attributes a method declares a variable. -/
def attributed : String :=
  "import \"m\" with \x7b f() \x7b let x; \x7d \x7d;"

/-- The map of the second conversion has a new name, as that of the first one. -/
theorem not_isIdempotent_attributed :
    standard.convert attributed = .ok ⟨attributed, [("x", "_x")]⟩ ∧
      ¬ standard.IsIdempotent ⟨attributed, [("x", "_x")]⟩ := by
  have hread : standard.convertsTo attributed ⟨attributed, [("x", "_x")]⟩ (fun _ => true) = true := by
    decide +kernel
  obtain ⟨-, -, hconvert, -⟩ := exists_convert hread
  refine ⟨hconvert, ?_⟩
  rintro ⟨rs, hrs, hall⟩
  rw [hconvert] at hrs
  obtain rfl : [("x", "_x")] = rs := congrArg Converted.renames (Except.ok.inj hrs)
  have hsame : ("_x" : String) = "x" := hall ("x", "_x") (List.mem_singleton_self _)
  simp at hsame

end Dialect

end SketchHost
