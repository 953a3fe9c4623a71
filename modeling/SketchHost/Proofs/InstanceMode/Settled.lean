/-
**Words that a second conversion leaves alone.**

A word of a converted tree is the namespace, or it has the prefix, or it is a word that the conversion
did not change.  None of them is changed by a second conversion: the library has no name with the
prefix, and what keeps a word from being changed, a declaration around it or the place where it stands,
is still there.

* `Dialect.IsApart` — the prefix begins the namespace and no name of the library;
* `Dialect.IsSettled` — a word that a conversion without hoists leaves alone;
* `Dialect.Mirrors`, `Dialect.SameSlot` — surroundings that keep what the other ones keep;
* `Dialect.isSettled_of_same` — a word that stays, in surroundings that keep it;
* `Dialect.settled_image` — **all words of the image of a tree are left alone**.
-/

import SketchHost.Proofs.InstanceMode.ImageBindings
import SketchHost.Proofs.InstanceMode.Merging

set_option relaxedAutoImplicit false
set_option autoImplicit false

namespace SketchHost

open Script

namespace Dialect

/-! ### Prefixes that no library name has -/

/-- The prefix begins the namespace, and no name of the library. -/
structure IsApart (d : Dialect) : Prop where
  handle : d.lead.toList <+: d.namespaceName.toList
  library : ∀ name : String, d.lead.toList <+: name.toList →
    d.symbols.isFunction name = false ∧ d.symbols.isConstant name = false ∧
      d.symbols.belongsToInstance name = false

theorem isApart_standard : IsApart standard where
  handle := by decide
  library _ h := standard_not_lead h

/-! ### Settled words -/

variable {d : Dialect} {pl : Plan} {above above' : List Node} {n : Node} {p q : Node.Place}

/-- A word that a conversion leaves alone whose hoists are none: it becomes no access, and its name has
the prefix or no new name, or it is a key. -/
structure IsSettled (d : Dialect) (pl : Plan) (q : Node.Place) : Prop where
  access : ∀ rs, d.isOnInstance ⟨[], rs, []⟩ q = false
  name : isVariableName q.node.kind = true → d.lead.toList <+: q.node.text.toList ∨
    pl.renames.target? q.node.text = none ∨ (q.node.kind = .identifier ∧ q.isKey = true)

theorem isSettled_of_not_word (h : isVariableName q.node.kind = false) : IsSettled d pl q where
  access rs := by
    rw [isOnInstance]
    split
    · next hk => simp [hk, isVariableName] at h
    · next hk => simp [hk, isVariableName] at h
    · rfl
  name hword := by simp [h] at hword

theorem isSettled_of_lead (hd : d.IsApart) (h : d.lead.toList <+: q.node.text.toList) :
    IsSettled d pl q where
  access rs := by
    obtain ⟨hfunction, hconstant, -⟩ := hd.library q.node.text h
    rw [isOnInstance_eq, refers]
    split <;> simp [hfunction, hconstant, isInstanceName, Plan.hoisted]
  name _ := Or.inl h

/-! ### Renames with a prefix -/

/-- A new name begins with the prefix. -/
theorem lead_of_target? (hrule : Renames.Follows (Renames.prefixed d.lead) pl.renames) {name new : String}
    (h : pl.renames.target? name = some new) : d.lead.toList <+: new.toList := by
  have hne := target?_ne_self h
  have hfind : pl.renames.find? name = some new := by
    unfold Renames.target? at h
    split at h
    · next value hvalue =>
        split at h
        · simp at h
        · rw [hvalue, h]
    · simp at h
  have hnew : new = Renames.prefixed d.lead name :=
    hrule _ ((Renames.find?_eq_some_iff hrule).1 hfind)
  rcases Renames.prefixed_eq d.lead name with ⟨heq, -⟩ | ⟨heq, -⟩
  · exact absurd (hnew.trans heq) hne
  · rw [hnew, heq, String.toList_append]
    exact List.prefix_append _ _

/-- A name that stays is a key, or it has no new name. -/
theorem isKey_or_target?_eq_none (h : pl.nameOf p = p.node.text) :
    (p.node.kind = .identifier ∧ p.isKey = true) ∨ pl.renames.target? p.node.text = none := by
  cases hkeyed : (p.node.kind == .identifier && p.isKey) with
  | true =>
      rw [Bool.and_eq_true, beq_iff_eq] at hkeyed
      exact Or.inl hkeyed
  | false =>
      have hown := nameOf_eq pl hkeyed
      cases htarget : pl.renames.target? p.node.text with
      | none => exact Or.inr rfl
      | some new =>
          rw [h, htarget] at hown
          exact absurd hown.symm (target?_ne_self htarget)

/-- A name of the map without the prefix gets a new name. -/
theorem target?_ne_none (hrule : Renames.Follows (Renames.prefixed d.lead) pl.renames) {name : String}
    (howns : pl.renames.owns name = true) (h : ¬ d.lead.toList <+: name.toList) :
    pl.renames.target? name ≠ none := by
  have hfind := (Renames.find?_eq_some_iff hrule).2 ((Renames.owns_iff hrule).1 howns)
  rw [Renames.target?, hfind]
  rcases Renames.prefixed_eq d.lead name with ⟨-, hlead⟩ | ⟨heq, -⟩
  · exact absurd hlead h
  · dsimp only
    rw [if_neg ?_]
    · simp
    · rw [beq_iff_eq, heq]
      refine Renames.append_ne_self fun hnil => h ?_
      rw [hnil]
      exact List.nil_prefix

/-! ### Surroundings -/

/-- The nodes around a place keep what other nodes around it keep: it is in an import statement if it was
in one, and the local declarations of names that are not renamed are there. -/
structure Mirrors (pl : Plan) (above above' : List Node) : Prop where
  imported : (above.any fun m => m.kind == .importStatement) = true →
    (above'.any fun m => m.kind == .importStatement) = true
  bound : ∀ m ∈ above, ∀ b ∈ m.localBindings, pl.renames.owns b.text = false →
    ∃ m' ∈ above', ∃ b' ∈ m'.localBindings, b'.text = b.text

/-- A part in a role stands in a place of the same sort: under a specifier or a declaration as before,
and under no call that was none. -/
structure SameSlot (r : Role) (above above' : List Node) : Prop where
  specifier : (above.head?.any fun m => Node.isModuleSpecifier m.kind) = true →
    (above'.head?.any fun m => Node.isModuleSpecifier m.kind) = true
  call : (above'.head?.any fun m => m.kind == .call) = true →
    (above.head?.any fun m => m.kind == .call) = true
  binding : ∀ n n' : Node, n.role = r → n'.role = r → (⟨n, above⟩ : Node.Place).isBinding = true →
    (⟨n', above'⟩ : Node.Place).isBinding = true

theorem isKey_of_mirrors (hmirrors : Mirrors pl p.above q.above)
    (hslot : SameSlot p.node.role p.above q.above) (hkind : q.node.kind = p.node.kind)
    (h : p.isKey = true) : q.isKey = true := by
  rw [Node.Place.isKey, Bool.or_eq_true, Bool.or_eq_true] at h ⊢
  rcases h with (h | h) | h
  · exact Or.inl (Or.inl (by rwa [hkind]))
  · exact Or.inl (Or.inr (hslot.specifier h))
  · exact Or.inr (hmirrors.imported h)

theorem isLocal_of_mirrors {name : String} (hmirrors : Mirrors pl p.above q.above)
    (howns : pl.renames.owns name = false) (h : p.isLocal name = true) : q.isLocal name = true := by
  obtain ⟨m, hm, hb⟩ := List.any_eq_true.1 h
  obtain ⟨b, hb, htext⟩ := List.any_eq_true.1 hb
  rw [beq_iff_eq] at htext
  obtain ⟨m', hm', b', hb', htext'⟩ := hmirrors.bound m hm b hb (by rwa [htext])
  exact Node.Place.isLocal_of_mem hm' hb' (htext'.trans htext)

/-- What is taken for a reference in the new surroundings was taken for one before. -/
theorem refers_of_refers {rs : Renames} (hmirrors : Mirrors pl p.above q.above)
    (hslot : SameSlot p.node.role p.above q.above) (hkind : q.node.kind = p.node.kind)
    (hrole : q.node.role = p.node.role) (htext : q.node.text = p.node.text)
    (howns : pl.renames.owns p.node.text = false) (h : d.refers ⟨[], rs, []⟩ q = true) :
    d.refers pl p = true := by
  have hkey : q.isKey = false → p.isKey = false := by
    intro hq
    cases hp : p.isKey with
    | false => rfl
    | true =>
        rw [isKey_of_mirrors hmirrors hslot hkind hp] at hq
        exact hq
  have hbinding : q.isBinding = false → p.isBinding = false := by
    intro hq
    cases hp : p.isBinding with
    | false => rfl
    | true =>
        have hnew : q.isBinding = true := hslot.binding _ _ rfl hrole hp
        rw [hnew] at hq
        exact hq
  have hcallee : isCallee q = true → isCallee p = true := by
    intro hq
    rw [isCallee, Bool.and_eq_true, hrole] at hq
    rw [isCallee, Bool.and_eq_true]
    exact ⟨hslot.call hq.1, hq.2⟩
  have hconstant : d.isInstanceName [] p.node.text = true →
      d.isInstanceName pl.hoisted p.node.text = true := by
    intro hq
    simp only [isInstanceName, List.contains_nil, Bool.or_false] at hq
    simp [isInstanceName, hq]
  rw [refers, hkind, htext] at h
  rw [refers]
  split at h
  · simp only [Bool.and_eq_true, Bool.or_eq_true, Bool.not_eq_true'] at h ⊢
    refine ⟨hkey h.1, ?_⟩
    rcases h.2 with ⟨hq, hfunction⟩ | ⟨⟨-, hq⟩, hname⟩
    · exact Or.inl ⟨hcallee hq, hfunction⟩
    · exact Or.inr ⟨⟨howns, hbinding hq⟩, hconstant hname⟩
  · simp only [Bool.and_eq_true, Bool.not_eq_true'] at h ⊢
    exact ⟨howns, hconstant h.2⟩
  · simp at h

/-- A word that stays a name is settled in surroundings that keep what the old ones kept. -/
theorem isSettled_of_same (hd : d.IsApart)
    (hrule : Renames.Follows (Renames.prefixed d.lead) pl.renames)
    (hmirrors : Mirrors pl p.above q.above) (hslot : SameSlot p.node.role p.above q.above)
    (hname : d.isOnInstance pl p = false) (hkind : q.node.kind = p.node.kind)
    (hrole : q.node.role = p.node.role) (htext : q.node.text = pl.nameOf p) : IsSettled d pl q := by
  have hkey : p.isKey = true → q.isKey = true := isKey_of_mirrors hmirrors hslot hkind
  rcases nameOf_cases pl p with hsame | hnew
  · rw [hsame] at htext
    by_cases hlead : d.lead.toList <+: p.node.text.toList
    · exact isSettled_of_lead hd (by rwa [htext])
    have hcases := isKey_or_target?_eq_none hsame
    refine ⟨fun rs => ?_, fun _ => ?_⟩
    · rcases hcases with ⟨hidentifier, hkeyed⟩ | htarget
      · rw [isOnInstance_eq, refers, hkind, hidentifier]
        simp [hkey hkeyed]
      -- the map would give a name it has a new one, since this one lacks the prefix
      have howns : pl.renames.owns p.node.text = false := by
        cases howns : pl.renames.owns p.node.text with
        | false => rfl
        | true => exact absurd htarget (target?_ne_none hrule howns hlead)
      rw [isOnInstance_eq] at hname ⊢
      cases hq : d.refers ⟨[], rs, []⟩ q with
      | false => rfl
      | true =>
          rw [refers_of_refers hmirrors hslot hkind hrole htext howns hq] at hname
          have hlocal : p.isLocal p.node.text = true := by simpa using hname
          rw [htext, isLocal_of_mirrors hmirrors howns hlocal]
          rfl
    · rcases hcases with ⟨hidentifier, hkeyed⟩ | htarget
      · exact Or.inr (Or.inr ⟨hkind.trans hidentifier, hkey hkeyed⟩)
      · exact Or.inr (Or.inl (by rwa [htext]))
  · refine isSettled_of_lead hd ?_
    rw [htext]
    exact lead_of_target? hrule hnew

/-! ### Images of words -/

/-- The words of a node that is none are those of its parts. -/
theorem settled_node {k : Kind} {r : Role} {t : String} {cs : List Node}
    (hk : isVariableName k = false)
    (h : ∀ c ∈ cs, ∀ q ∈ c.places (.node k r 0 0 t cs :: above), IsSettled d pl q) :
    ∀ q ∈ (Node.node k r 0 0 t cs).places above, IsSettled d pl q := by
  intro q hq
  rw [Node.places_node] at hq
  rcases List.mem_cons.1 hq with rfl | hq
  · exact isSettled_of_not_word hk
  · obtain ⟨c, hc, hmem⟩ := List.mem_flatMap.1 hq
    exact h c hc q hmem

theorem settled_bareWord {k : Kind} {r : Role} {t : String}
    (h : IsSettled d pl ⟨bareWord k r t, above⟩) :
    ∀ q ∈ (bareWord k r t).places above, IsSettled d pl q := by
  intro q hq
  rw [bareWord, Node.places_node, List.flatMap_nil] at hq
  obtain rfl := List.mem_singleton.1 hq
  exact h

/-- An access consists of the namespace and a key. -/
theorem settled_accessNode (hd : d.IsApart) (r : Role) (name : String) :
    ∀ q ∈ (d.accessNode r name).places above, IsSettled d pl q := by
  refine settled_node rfl fun c hc => ?_
  rcases List.mem_cons.1 hc with rfl | hc
  · exact settled_bareWord (isSettled_of_lead hd hd.handle)
  · obtain rfl := List.mem_singleton.1 hc
    exact settled_bareWord (isSettled_of_not_word rfl)

theorem settled_keyedNode {k : Kind} {r : Role} {key : String} {value : Node}
    (hk : isVariableName k = false)
    (h : ∀ above, ∀ q ∈ value.places above, IsSettled d pl q) :
    ∀ q ∈ (keyedNode k r key value).places above, IsSettled d pl q := by
  refine settled_node hk fun c hc => ?_
  rcases List.mem_cons.1 hc with rfl | hc
  · exact settled_bareWord (isSettled_of_not_word rfl)
  · obtain rfl := List.mem_singleton.1 hc
    exact h _

/-- The words of the image of a word are settled. -/
theorem settled_wordImage (hd : d.IsApart)
    (hrule : Renames.Follows (Renames.prefixed d.lead) pl.renames)
    (hword : isVariableName p.node.kind = true) (hmirrors : Mirrors pl p.above above')
    (hslot : SameSlot p.node.role p.above above') :
    ∀ q ∈ (d.wordImage pl p).places above', IsSettled d pl q := by
  have hsame : ∀ k, p.node.kind = k → d.isOnInstance pl p = false →
      IsSettled d pl ⟨bareWord k p.node.role (pl.nameOf p), above'⟩ := by
    rintro k rfl hname
    exact isSettled_of_same hd hrule hmirrors hslot hname rfl rfl rfl
  have hchanged : pl.nameOf p ≠ p.node.text → ∀ k r above,
      ∀ q ∈ (bareWord k r (pl.nameOf p)).places above, IsSettled d pl q := by
    intro hne k r above
    refine settled_bareWord (isSettled_of_lead hd ?_)
    exact (nameOf_cases pl p).elim (fun heq => absurd heq hne) (lead_of_target? hrule)
  rw [wordImage]
  split
  · next hk =>
      cases hname : d.isOnInstance pl p with
      | true => exact settled_accessNode hd _ _
      | false => exact settled_bareWord (hsame _ hk hname)
  · next hk =>
      cases hname : d.isOnInstance pl p with
      | true => exact settled_keyedNode rfl fun _ => settled_accessNode hd _ _
      | false =>
          rw [if_neg (by simp)]
          split
          · exact settled_bareWord (hsame _ hk hname)
          · next hne => exact settled_keyedNode rfl (hchanged (by simpa using hne) _ _)
  · next hidentifier hshorthand =>
      have hk : p.node.kind = .shorthandPattern := by
        cases hk : p.node.kind <;> rw [hk] at hword <;>
          first | rfl | exact absurd hk hidentifier | exact absurd hk hshorthand | simp [isVariableName] at hword
      split
      · exact settled_bareWord (hsame _ hk (by rw [isOnInstance, hk]))
      · next hne => exact settled_keyedNode rfl (hchanged (by simpa using hne) _ _)

/-! ### Images of trees -/

variable {chars : List Char}

/-- A node around the place that binds nothing and is no import statement does not count. -/
theorem Mirrors.drop {m : Node} (h : Mirrors pl above above') (hk : m.kind ≠ .importStatement)
    (hlocal : m.localBindings = []) : Mirrors pl (m :: above) above' where
  imported hany := h.imported (by simpa [hk] using hany)
  bound l hl b hb howns := by
    rcases List.mem_cons.1 hl with rfl | hl
    · rw [hlocal] at hb
      simp at hb
    · exact h.bound l hl b hb howns

theorem Mirrors.put (h : Mirrors pl above above') (m : Node) : Mirrors pl above (m :: above') where
  imported hany := by simp [h.imported hany]
  bound l hl b hb howns := by
    obtain ⟨l', hl', b', hb', htext⟩ := h.bound l hl b hb howns
    exact ⟨l', List.mem_cons_of_mem _ hl', b', hb', htext⟩

/-- A node in the place of another one that binds what the other binds. -/
theorem Mirrors.cons {m m' : Node} (h : Mirrors pl above above')
    (hk : m.kind = .importStatement → m'.kind = .importStatement)
    (hbound : ∀ b ∈ m.localBindings, pl.renames.owns b.text = false →
      ∃ b' ∈ m'.localBindings, b'.text = b.text) : Mirrors pl (m :: above) (m' :: above') where
  imported hany := by
    rw [List.any_cons, Bool.or_eq_true, beq_iff_eq] at hany ⊢
    exact hany.imp hk h.imported
  bound l hl b hb howns := by
    rcases List.mem_cons.1 hl with rfl | hl
    · obtain ⟨b', hb', htext⟩ := hbound b hb howns
      exact ⟨m', List.mem_cons_self, b', hb', htext⟩
    · obtain ⟨l', hl', b', hb', htext⟩ := h.bound l hl b hb howns
      exact ⟨l', List.mem_cons_of_mem _ hl', b', hb', htext⟩

/-- A node that keeps its kind and its parts. -/
theorem Mirrors.kept (h : Mirrors pl above above') (hwf : n.WellFormed chars) :
    Mirrors pl (n :: above) (d.keptImage pl n above :: above') :=
  h.cons id fun _ hb howns => exists_localBinding_image hwf hb howns

/-- The parts of a node of the same kind that declares a target if the other does. -/
theorem SameSlot.of_same {m m' : Node} (r : Role) (hkind : m'.kind = m.kind)
    (hdeclares : m'.declaresTarget = m.declaresTarget) : SameSlot r (m :: above) (m' :: above') where
  specifier h := by
    rw [List.head?_cons, Option.any_some] at h ⊢
    rwa [hkind]
  call h := by
    rw [List.head?_cons, Option.any_some] at h ⊢
    rwa [← hkind]
  binding n n' hn hn' h := by
    rw [Node.Place.isBinding, Node.Place.parent?, List.head?_cons] at h ⊢
    dsimp only at h ⊢
    rw [hn] at h
    rwa [hkind, hdeclares, hn']

/-- The parts of a node that keeps its kind and its parts. -/
theorem SameSlot.kept (r : Role) : SameSlot r (n :: above) (d.keptImage pl n above :: above') :=
  .of_same r rfl (declaresTarget_keptImage d pl n above)

/-- The words of a property with a default value whose name changes are the new name and those of the
default value. -/
theorem settled_splitImage {left : Node} {rest : List Node} (hd : d.IsApart)
    (hrule : Renames.Follows (Renames.prefixed d.lead) pl.renames) (hsplit : IsSplit pl n left above rest)
    (h : ∀ c ∈ rest, ∀ outer, Mirrors pl (n :: above) outer → SameSlot c.role (n :: above) outer →
      ∀ q ∈ (d.image pl (n :: above) c).places outer, IsSettled d pl q)
    (hmirrors : Mirrors pl above above') :
    ∀ q ∈ (d.splitImage pl n left above rest).places above', IsSettled d pl q := by
  have hkind := hsplit.kind
  have hlocal : n.localBindings = [] := by
    rw [Node.localBindings, hkind]
    rfl
  have hnew : d.lead.toList <+: (pl.nameOf ⟨left, n :: above⟩).toList :=
    (nameOf_cases pl ⟨left, n :: above⟩).elim (fun heq => absurd heq hsplit.changes)
      (lead_of_target? hrule)
  refine settled_node rfl fun c hc => ?_
  rcases List.mem_cons.1 hc with rfl | hc
  · exact settled_bareWord (isSettled_of_not_word rfl)
  obtain rfl := List.mem_singleton.1 hc
  refine settled_node rfl fun e he => ?_
  rcases List.mem_cons.1 he with rfl | he
  · exact settled_bareWord (isSettled_of_lead hd hnew)
  obtain ⟨c, hc, rfl⟩ := List.mem_map.1 he
  refine h c hc _ (((hmirrors.put _).put _).drop (by simp [hkind]) hlocal) ⟨?_, ?_, ?_⟩
  · simp [hkind, Node.isModuleSpecifier]
  · simp
  · intro m m' hm hm' hbinding
    simp only [Node.Place.isBinding, Node.Place.parent?, List.head?_cons, hkind, hm] at hbinding
    simp [Node.Place.isBinding, Node.Place.parent?, hm', hbinding]

/-- **The words of the image of a tree are left alone** by a conversion without hoists, in surroundings
that keep what the surroundings of the tree keep.  By induction on the tree. -/
theorem settled_image (hd : d.IsApart)
    (hrule : Renames.Follows (Renames.prefixed d.lead) pl.renames) (n : Node) : ∀ above above',
    n.WellFormed chars → Mirrors pl above above' → SameSlot n.role above above' →
      ∀ q ∈ (d.image pl above n).places above', IsSettled d pl q := by
  induction n using Node.induction with
  | h k r a b t cs ih =>
      intro above above' hwf hmirrors hslot
      have hpart : ∀ c ∈ cs, ∀ outer, Mirrors pl (.node k r a b t cs :: above) outer →
          SameSlot c.role (.node k r a b t cs :: above) outer →
          ∀ q ∈ (d.image pl (.node k r a b t cs :: above) c).places outer, IsSettled d pl q :=
        fun c hc outer => ih c hc _ outer (hwf.fits_children hc).wellFormed
      generalize hn : Node.node k r a b t cs = n at *
      have hcs : n.children = cs := by rw [← hn]; rfl
      rcases image_cases d pl above n with hword | ⟨left, rest, hsplit, himage⟩ | ⟨hword, himage⟩
      · rw [image_word hword]
        exact settled_wordImage hd hrule hword hmirrors hslot
      · have hchildren : cs = left :: rest := by rw [← hcs, hsplit.children]
        rw [himage]
        exact settled_splitImage hd hrule hsplit (fun c hc => hpart c (by simp [hchildren, hc])) hmirrors
      · rw [himage]
        refine settled_node hword fun c hc => ?_
        obtain ⟨e, he, rfl⟩ := List.mem_map.1 hc
        exact hpart e (hcs ▸ he) _ (hmirrors.kept hwf) (.kept e.role)

end Dialect

end SketchHost
