/-
**What a converted tree declares.**

The names that a tree declares and binds are those that its image declares and binds, each under the
name that it has afterwards.  Local declarations of names that are not renamed are there again.

* `Dialect.Carries` — names that become other names, one by one;
* `Dialect.carries_bindings` — what a target binds becomes what its image binds;
* `Dialect.carries_declaredNames` — **what a tree declares becomes what its image declares**;
* `Dialect.exists_localBinding_image` — **local declarations stay**.
-/

import SketchHost.Proofs.InstanceMode.Image

set_option relaxedAutoImplicit false
set_option autoImplicit false

namespace SketchHost

open Script

namespace Dialect

variable {d : Dialect} {pl : Plan} {above : List Node} {n : Node} {p : Node.Place}

/-! ### Bindings -/

/-- The names `new` are what the names `old` become, which stand at places of `inside`. -/
def Carries (pl : Plan) (inside : List Node.Place) (old new : List Node) : Prop :=
  ∃ ps : List Node.Place, (∀ p ∈ ps, p ∈ inside) ∧ ps.map Node.Place.node = old ∧
    new.map Node.text = ps.map pl.nameOf

theorem Carries.nil {inside : List Node.Place} : Carries pl inside [] [] :=
  ⟨[], by simp, rfl, rfl⟩

/-- One name. -/
theorem Carries.single {inside : List Node.Place} {new : Node} (hp : p ∈ inside)
    (hnew : new.text = pl.nameOf p) : Carries pl inside [p.node] [new] :=
  ⟨[p], by simpa using hp, rfl, by simp [hnew]⟩

theorem Carries.mono {inside inside' : List Node.Place} {old new : List Node}
    (h : Carries pl inside old new) (hsub : ∀ p ∈ inside, p ∈ inside') :
    Carries pl inside' old new := by
  obtain ⟨ps, hps, hold, hnew⟩ := h
  exact ⟨ps, fun p hp => hsub p (hps p hp), hold, hnew⟩

theorem Carries.append {inside : List Node.Place} {old new old' new' : List Node}
    (h : Carries pl inside old new) (h' : Carries pl inside old' new') :
    Carries pl inside (old ++ old') (new ++ new') := by
  obtain ⟨ps, hps, hold, hnew⟩ := h
  obtain ⟨qs, hqs, hold', hnew'⟩ := h'
  refine ⟨ps ++ qs, ?_, ?_, ?_⟩
  · intro p hp
    exact (List.mem_append.1 hp).elim (hps p) (hqs p)
  · rw [List.map_append, hold, hold']
  · rw [List.map_append, hnew, hnew', List.map_append]

/-- The names of several trees, one tree after the other. -/
theorem Carries.flatMap {inside : List Node.Place} {f g : Node → List Node} {cs : List Node}
    (h : ∀ c ∈ cs, Carries pl inside (f c) (g c)) :
    Carries pl inside (cs.flatMap f) (cs.flatMap g) := by
  induction cs with
  | nil => exact .nil
  | cons c rest ih =>
      rw [List.flatMap_cons, List.flatMap_cons]
      exact (h c List.mem_cons_self).append (ih fun e he => h e (List.mem_cons_of_mem _ he))

/-- A name that is not renamed is still there. -/
theorem Carries.exists_new {inside : List Node.Place} {old new : List Node}
    (h : Carries pl inside old new) {b : Node} (hb : b ∈ old)
    (howns : pl.renames.owns b.text = false) : ∃ b' ∈ new, b'.text = b.text := by
  obtain ⟨ps, -, hold, hnew⟩ := h
  rw [← hold] at hb
  obtain ⟨p, hp, rfl⟩ := List.mem_map.1 hb
  have hmem : pl.nameOf p ∈ new.map Node.text := by
    rw [hnew]
    exact List.mem_map_of_mem hp
  obtain ⟨b', hb', htext⟩ := List.mem_map.1 hmem
  exact ⟨b', hb', htext.trans (nameOf_of_not_owns howns)⟩

/-- The places of a part are places of the tree. -/
theorem mem_places_of_part {c : Node} (hc : c ∈ n.children) {q : Node.Place}
    (hq : q ∈ c.places (n :: above)) : q ∈ n.places above := by
  obtain ⟨k, r, a, b, t, cs⟩ := n
  rw [Node.places_node]
  exact List.mem_cons_of_mem _ (List.mem_flatMap.2 ⟨c, hc, hq⟩)

/-- A name binds itself, and a shorthand in an expression nothing. -/
theorem bindings_word (hword : isVariableName n.kind = true) :
    n.bindings = if n.kind = .shorthand then [] else [n] := by
  rw [Node.bindings_eq]
  cases hk : n.kind <;> first | rfl | simp [hk, isVariableName] at hword

/-- A word binds in its image what it bound. -/
theorem carries_bindings_word (hword : isVariableName n.kind = true)
    (hname : n.kind = .identifier → d.isOnInstance pl ⟨n, above⟩ = false) :
    Carries pl (n.places above) n.bindings (d.image pl above n).bindings := by
  have hself : (⟨n, above⟩ : Node.Place) ∈ n.places above := Node.mem_places_self n above
  rw [image_word hword, bindings_word hword, wordImage]
  dsimp only
  by_cases hshorthand : n.kind = .shorthand
  · rw [if_pos hshorthand, hshorthand]
    dsimp only
    split
    · exact .nil
    · split <;> exact .nil
  · rw [if_neg hshorthand]
    split
    · next hk =>
        rw [hname hk]
        exact .single hself rfl
    · next hk => exact absurd hk hshorthand
    · split <;> exact .single hself rfl

/-- A property with a default value whose name changes binds the new name. -/
theorem carries_bindings_split {left : Node} {rest : List Node} (h : IsSplit pl n left above rest) :
    Carries pl (n.places above) n.bindings (d.splitImage pl n left above rest).bindings := by
  have hleft : n.child? .left = some left := by
    rw [Node.child?, h.children, List.find?_cons, h.leftRole]
    rfl
  have hbindings : n.bindings = [left] := by
    rw [Node.bindings_eq, h.kind]
    dsimp only
    rw [hleft, Node.bindings?, bindings_word (by rw [h.leftKind]; rfl), if_neg (by simp [h.leftKind])]
  have hplace : (⟨left, n :: above⟩ : Node.Place) ∈ n.places above :=
    Node.mem_places_of_mem_children (Node.mem_places_self n above) (by simp [h.children])
  rw [hbindings]
  exact .single hplace rfl

/-- What a target binds becomes what its image binds, by induction on the target. -/
theorem carries_bindings (n : Node) : ∀ above,
    (n.kind = .identifier → d.isOnInstance pl ⟨n, above⟩ = false) →
      Carries pl (n.places above) n.bindings (d.image pl above n).bindings := by
  induction n using Node.induction with
  | h k r a b t cs ih =>
      intro above hname
      generalize hn : Node.node k r a b t cs = n at *
      have hcs : n.children = cs := by rw [← hn]; rfl
      -- a part that is a name is declared where it stands
      have hpart : ∀ c ∈ cs, (⟨c, n :: above⟩ : Node.Place).isBinding = true →
          Carries pl (n.places above) c.bindings (d.image pl (n :: above) c).bindings := by
        intro c hc hbinding
        refine (ih c hc (n :: above) fun hk => not_isOnInstance_of_isBinding hk hbinding).mono
          fun q hq => mem_places_of_part (by rwa [hcs]) hq
      have hchild : ∀ role, (∀ c ∈ cs, c.role = role →
          (⟨c, n :: above⟩ : Node.Place).isBinding = true) →
          Carries pl (n.places above) (Node.bindings? (n.child? role))
            (Node.bindings? ((d.keptImage pl n above).child? role)) := by
        intro role hbinding
        rw [child?_keptImage]
        cases hc : n.child? role with
        | none => exact .nil
        | some c =>
            have hmem : c ∈ cs := hcs ▸ Node.mem_children_of_child? hc
            exact hpart c hmem (hbinding c hmem (Node.role_of_child? hc))
      have hall : (∀ c ∈ cs, (⟨c, n :: above⟩ : Node.Place).isBinding = true) →
          Carries pl (n.places above) (n.children.flatMap Node.bindings)
            ((d.keptImage pl n above).children.flatMap Node.bindings) := by
        intro hbinding
        rw [keptImage, Node.children_node, List.flatMap_map, hcs]
        exact .flatMap fun c hc => hpart c hc (hbinding c hc)
      rcases image_cases d pl above n with hword | ⟨left, rest, hsplit, himage⟩ | ⟨hword, himage⟩
      · exact carries_bindings_word hword hname
      · rw [himage]
        exact carries_bindings_split hsplit
      · have hkind : (d.keptImage pl n above).kind = n.kind := rfl
        rw [himage, Node.bindings_eq n, Node.bindings_eq (d.keptImage pl n above), hkind]
        cases hk : n.kind <;> try exact .nil
        case identifier => simp [hk, isVariableName] at hword
        case shorthandPattern => simp [hk, isVariableName] at hword
        case objectPattern =>
          exact hall fun c _ => by simp [Node.Place.isBinding, Node.Place.parent?, hk]
        case arrayPattern =>
          exact hall fun c _ => by simp [Node.Place.isBinding, Node.Place.parent?, hk]
        case restPattern =>
          exact hall fun c _ => by simp [Node.Place.isBinding, Node.Place.parent?, hk]
        case pairPattern =>
          exact hchild .value fun c _ hr => by simp [Node.Place.isBinding, Node.Place.parent?, hk, hr]
        case assignmentPattern =>
          exact hchild .left fun c _ hr => by simp [Node.Place.isBinding, Node.Place.parent?, hk, hr]
        case objectAssignmentPattern =>
          exact hchild .left fun c _ hr => by simp [Node.Place.isBinding, Node.Place.parent?, hk, hr]

/-! ### Declared names -/

variable {chars : List Char}

/-- A word declares no variable. -/
theorem declaredNames_word (hn : n.WellFormed chars) (hword : isVariableName n.kind = true) :
    Renames.declaredNames n = [] := by
  have htarget : Renames.declaredTarget? n = none := by
    rw [Renames.declaredTarget?]
    split
    · next hk => simp [hk, isVariableName] at hword
    · next hk => simp [hk, isVariableName] at hword
    · rfl
  rw [Renames.declaredNames_eq, hn.children_eq_nil (isNamed_of_isVariableName hword), htarget]
  rfl

/-- The image of a word declares no variable. -/
theorem declaredNames_wordImage (d : Dialect) (pl : Plan) (p : Node.Place) :
    Renames.declaredNames (d.wordImage pl p) = [] := by
  rw [wordImage]
  split
  · split <;> rfl
  · split
    · rfl
    · split <;> rfl
  · split <;> rfl

/-- What a tree declares itself becomes what its image declares itself. -/
theorem carries_declaredTarget? (n : Node) (above : List Node) :
    Carries pl (n.places above) (Node.bindings? (Renames.declaredTarget? n))
      (Node.bindings? (Renames.declaredTarget? (d.keptImage pl n above))) := by
  have hchild : ∀ role, (∀ c : Node, c.role = role → (⟨c, n :: above⟩ : Node.Place).isBinding = true) →
      Carries pl (n.places above) (Node.bindings? (n.child? role))
        (Node.bindings? ((n.child? role).map (d.image pl (n :: above)))) := by
    intro role hbinding
    cases hc : n.child? role with
    | none => exact .nil
    | some c =>
        refine (carries_bindings c (n :: above) fun hk =>
          not_isOnInstance_of_isBinding hk (hbinding c (Node.role_of_child? hc))).mono ?_
        exact fun q hq => mem_places_of_part (Node.mem_children_of_child? hc) hq
  have hkind : (d.keptImage pl n above).kind = n.kind := rfl
  have hdeclares : (d.keptImage pl n above).declaresTarget = n.declaresTarget := by
    rw [Node.declaresTarget, Node.declaresTarget, child?_keptImage, Option.isSome_map]
  rw [Renames.declaredTarget?, Renames.declaredTarget?, hkind]
  split
  · next hk =>
      rw [child?_keptImage]
      exact hchild .name fun c hr => by simp [Node.Place.isBinding, Node.Place.parent?, hk, hr]
  · next hk =>
      rw [hdeclares]
      split
      · next htarget =>
          rw [child?_keptImage]
          exact hchild .left fun c hr => by
            simp [Node.Place.isBinding, Node.Place.parent?, hk, hr, htarget]
      · exact .nil
  · exact .nil

/-- What a tree declares becomes what its image declares, by induction on the tree. -/
theorem carries_declaredNames (n : Node) : ∀ above, n.WellFormed chars →
    Carries pl (n.places above) (Renames.declaredNames n)
      (Renames.declaredNames (d.image pl above n)) := by
  induction n using Node.induction with
  | h k r a b t cs ih =>
      intro above hwf
      have hpart : ∀ c ∈ cs, Carries pl ((Node.node k r a b t cs).places above)
          (Renames.declaredNames c)
          (Renames.declaredNames (d.image pl (.node k r a b t cs :: above) c)) := by
        intro c hc
        refine (ih c hc _ (hwf.fits_children hc).wellFormed).mono ?_
        exact fun q hq => mem_places_of_part (n := .node k r a b t cs) hc hq
      generalize hn : Node.node k r a b t cs = n at *
      have hcs : n.children = cs := by rw [← hn]; rfl
      rcases image_cases d pl above n with hword | ⟨left, rest, hsplit, himage⟩ | ⟨-, himage⟩
      · rw [image_word hword, declaredNames_word hwf hword, declaredNames_wordImage]
        exact .nil
      · -- the name is a word, and only the default value may declare anything
        have hchildren : cs = left :: rest := by rw [← hcs, hsplit.children]
        have hleft : Renames.declaredNames left = [] := by
          refine declaredNames_word (hwf.fits_children (c := left) ?_).wellFormed ?_
          · simp [hsplit.children]
          · rw [hsplit.leftKind]
            rfl
        have hold : Renames.declaredNames n = rest.flatMap Renames.declaredNames := by
          rw [Renames.declaredNames_eq, hsplit.children, List.flatMap_cons, hleft,
            Renames.declaredTarget?, hsplit.kind]
          rfl
        have hnew : Renames.declaredNames (d.splitImage pl n left above rest)
            = rest.flatMap fun c => Renames.declaredNames (d.image pl (n :: above) c) := by
          simp [splitImage, keyedNode, bareWord, Renames.declaredNames_eq, Renames.declaredTarget?,
            Node.bindings?, List.flatMap_map]
        rw [himage, hold, hnew]
        exact .flatMap fun c hc => hpart c (by simp [hchildren, hc])
      · have hnew : (d.keptImage pl n above).children.flatMap Renames.declaredNames
            = cs.flatMap fun c => Renames.declaredNames (d.image pl (n :: above) c) := by
          rw [keptImage, Node.children_node, List.flatMap_map, hcs]
        rw [himage, Renames.declaredNames_eq n, Renames.declaredNames_eq (d.keptImage pl n above), hnew,
          hcs]
        exact (carries_declaredTarget? n above).append (.flatMap hpart)

/-! ### Local declarations -/

/-- A name that is not renamed is bound by the image of a target, if no access takes its place. -/
theorem exists_binding_image {b : Node} (hb : b ∈ n.bindings)
    (hname : n.kind = .identifier → d.isOnInstance pl ⟨n, above⟩ = false)
    (howns : pl.renames.owns b.text = false) :
    ∃ b' ∈ (d.image pl above n).bindings, b'.text = b.text :=
  (carries_bindings n above hname).exists_new hb howns

/-- A target in a node that binds its names locally. -/
theorem exists_binding_of_local {m b : Node} (hm : m ∈ above)
    (hlocal : ∀ v ∈ n.bindings, v ∈ m.localBindings) (hb : b ∈ n.bindings)
    (howns : pl.renames.owns b.text = false) :
    ∃ b' ∈ (d.image pl above n).bindings, b'.text = b.text := by
  refine exists_binding_image hb (fun hk => ?_) howns
  have hself : n ∈ n.bindings := by
    rw [bindings_word (by rw [hk]; rfl), if_neg (by simp [hk])]
    exact List.mem_singleton_self n
  exact not_isOnInstance_of_mem hm (hlocal n hself) rfl

/-- A part in a role that is a target, in a node that binds its names locally. -/
theorem exists_binding_of_part {m b : Node} {c? : Option Node} (hm : m ∈ above)
    (hlocal : ∀ v ∈ Node.bindings? c?, v ∈ m.localBindings) (hb : b ∈ Node.bindings? c?)
    (howns : pl.renames.owns b.text = false) :
    ∃ b' ∈ Node.bindings? (c?.map (d.image pl above)), b'.text = b.text := by
  cases c? with
  | none => simp [Node.bindings?] at hb
  | some c => exact exists_binding_of_local hm hlocal hb howns

/-- A parameter of a function that is not renamed is one of a function with the images of its parts. -/
theorem exists_boundParameter_image {m' b : Node} (hwf : n.WellFormed chars)
    (hscope : Node.isFunctionScope n.kind = true)
    (hchild : ∀ r, r ≠ .name → m'.child? r = (n.child? r).map (d.image pl (n :: above)))
    (hb : b ∈ n.boundParameters) (howns : pl.renames.owns b.text = false) :
    ∃ b' ∈ m'.boundParameters, b'.text = b.text := by
  have hlocal : n.localBindings = n.boundParameters := by rw [Node.localBindings, if_pos hscope]
  rw [Node.boundParameters] at hb ⊢
  rw [hchild .parameters (by decide), hchild .parameter (by decide)]
  cases hps : n.child? .parameters with
  | some ps =>
      rw [hps] at hb
      obtain ⟨c, hc, hmem⟩ := List.mem_flatMap.1 hb
      have hword : isVariableName ps.kind = false := by
        cases hname : isVariableName ps.kind with
        | false => rfl
        | true =>
            have hpsWf := (hwf.fits_children (Node.mem_children_of_child? hps)).wellFormed
            rw [hpsWf.children_eq_nil (isNamed_of_isVariableName hname)] at hc
            simp at hc
      have hkept : d.image pl (n :: above) ps = d.keptImage pl ps (n :: above) :=
        image_of_role hword (by rw [Node.role_of_child? hps]; decide)
      have hbound : ∀ v ∈ c.bindings, v ∈ n.localBindings := by
        intro v hv
        rw [hlocal, Node.boundParameters, hps]
        exact List.mem_flatMap.2 ⟨c, hc, hv⟩
      have himage : ∃ b' ∈ (d.image pl (ps :: n :: above) c).bindings, b'.text = b.text :=
        exists_binding_of_local (by simp) hbound hmem howns
      obtain ⟨b', hb', htext⟩ := himage
      refine ⟨b', ?_, htext⟩
      rw [Option.map_some]
      dsimp only
      rw [hkept, keptImage, Node.children_node, List.flatMap_map]
      exact List.mem_flatMap.2 ⟨c, hc, hb'⟩
  | none =>
      rw [hps] at hb
      have hbound : ∀ v ∈ Node.bindings? (n.child? .parameter), v ∈ n.localBindings := by
        intro v hv
        rw [hlocal, Node.boundParameters, hps]
        exact hv
      exact exists_binding_of_part List.mem_cons_self hbound hb howns

/-- A declaration of variables declares the names of its declarators. -/
theorem blockBindings_of_variables (hk : Node.isVariableDeclaration n.kind = true) :
    n.blockBindings = n.declaratorNames := by
  unfold Node.isVariableDeclaration at hk
  rw [Node.blockBindings, Node.declaratorNames]
  cases hkind : n.kind <;> rw [hkind] at hk <;> first | rfl | simp at hk

/-- A variable of a declaration that is not renamed is one of the image of the declaration. -/
theorem exists_declaratorName_image {m b : Node} (hm : m ∈ above)
    (hlocal : ∀ v ∈ n.declaratorNames, v ∈ m.localBindings) (hb : b ∈ n.declaratorNames)
    (howns : pl.renames.owns b.text = false) :
    ∃ b' ∈ (d.keptImage pl n above).declaratorNames, b'.text = b.text := by
  obtain ⟨e, he, hmem⟩ := List.mem_flatMap.1 hb
  obtain ⟨hchild, hk⟩ := List.mem_filter.1 he
  rw [beq_iff_eq] at hk
  have hkept : d.image pl (n :: above) e = d.keptImage pl e (n :: above) :=
    image_of_kind (by rw [hk]; rfl) (by rw [hk]; decide)
  have hbound : ∀ v ∈ Node.bindings? (e.child? .name), v ∈ m.localBindings := by
    intro v hv
    exact hlocal v (List.mem_flatMap.2 ⟨e, he, hv⟩)
  have himage : ∃ b' ∈ Node.bindings? ((e.child? .name).map (d.image pl (e :: n :: above))),
      b'.text = b.text := exists_binding_of_part (by simp [hm]) hbound hmem howns
  obtain ⟨b', hb', htext⟩ := himage
  refine ⟨b', List.mem_flatMap.2 ⟨d.image pl (n :: above) e, List.mem_filter.2 ⟨?_, ?_⟩, ?_⟩, htext⟩
  · exact List.mem_map_of_mem hchild
  · rw [hkept, beq_iff_eq]
    exact hk
  · rw [hkept, child?_keptImage]
    exact hb'

/-- A name of a statement that is not renamed is one of the image of the statement. -/
theorem exists_blockBinding_image {m b : Node} (hm : m ∈ above)
    (hlocal : ∀ v ∈ n.blockBindings, v ∈ m.localBindings) (hb : b ∈ n.blockBindings)
    (howns : pl.renames.owns b.text = false) :
    ∃ b' ∈ (d.image pl above n).blockBindings, b'.text = b.text := by
  have hkind : (d.keptImage pl n above).kind = n.kind := rfl
  have hvariables : Node.isVariableDeclaration n.kind = true → d.image pl above n = d.keptImage pl n above →
      ∃ b' ∈ (d.image pl above n).blockBindings, b'.text = b.text := by
    intro hk hkept
    rw [blockBindings_of_variables hk] at hlocal hb
    rw [hkept, blockBindings_of_variables (by rwa [hkind])]
    exact exists_declaratorName_image hm hlocal hb howns
  have hnamed : b ∈ (n.child? .name).toList →
      ∃ b' ∈ ((d.keptImage pl n above).child? .name).toList, b'.text = b.text := by
    intro hname
    rw [Option.mem_toList] at hname
    refine ⟨d.image pl (n :: above) b, ?_, ?_⟩
    · rw [child?_keptImage, hname]
      exact List.mem_singleton_self _
    · exact text_image (by rw [Node.role_of_child? hname]; decide) howns
        (not_isOnInstance_of_mem (List.mem_cons_of_mem _ hm) (hlocal b hb) rfl)
  have hkept : ∀ k, n.kind = k → isVariableName k = false → k ≠ .objectAssignmentPattern →
      d.image pl above n = d.keptImage pl n above := by
    rintro k rfl hword hpattern
    exact image_of_kind hword hpattern
  have hb' := hb
  rw [Node.blockBindings] at hb'
  split at hb'
  · next hk => exact hvariables (by rw [hk]; rfl) (hkept _ hk rfl (by decide))
  · next hk => exact hvariables (by rw [hk]; rfl) (hkept _ hk rfl (by decide))
  · next hk =>
      rw [hkept _ hk rfl (by decide), Node.blockBindings, hkind, hk]
      exact hnamed hb'
  · next hk =>
      rw [hkept _ hk rfl (by decide), Node.blockBindings, hkind, hk]
      exact hnamed hb'
  · next hk =>
      rw [hkept _ hk rfl (by decide), Node.blockBindings, hkind, hk]
      exact hnamed hb'
  · simp at hb'

/-- **Local declarations stay**: what a tree binds locally is bound by its image, apart from names that
are renamed. -/
theorem exists_localBinding_image {b : Node} (hwf : n.WellFormed chars) (hb : b ∈ n.localBindings)
    (howns : pl.renames.owns b.text = false) :
    ∃ b' ∈ (d.keptImage pl n above).localBindings, b'.text = b.text := by
  have hkind : (d.keptImage pl n above).kind = n.kind := rfl
  have hself : n ∈ n :: above := List.mem_cons_self
  have hchild : ∀ r, (∀ v ∈ Node.bindings? (n.child? r), v ∈ n.localBindings) →
      b ∈ Node.bindings? (n.child? r) →
      ∃ b' ∈ Node.bindings? ((d.keptImage pl n above).child? r), b'.text = b.text := by
    intro r hlocal hmem
    rw [child?_keptImage]
    exact exists_binding_of_part hself hlocal hmem howns
  have hb' := hb
  rw [Node.localBindings] at hb' ⊢
  rw [hkind]
  split at hb'
  · next hscope =>
      rw [if_pos hscope]
      exact exists_boundParameter_image hwf hscope (fun r _ => child?_keptImage d pl n above r) hb' howns
  · next hscope =>
      rw [if_neg hscope]
      split at hb'
      · next hk =>
          have hlocal : n.localBindings = Node.bindings? (n.child? .parameter) := by
            rw [Node.localBindings, if_neg hscope, hk]
          exact hchild .parameter (fun v hv => hlocal ▸ hv) hb'
      · next hk =>
          have hlocal : n.localBindings = n.children.flatMap Node.blockBindings := by
            rw [Node.localBindings, if_neg hscope, hk]
          obtain ⟨c, hc, hmem⟩ := List.mem_flatMap.1 hb'
          have himage : ∃ b' ∈ (d.image pl (n :: above) c).blockBindings, b'.text = b.text :=
            exists_blockBinding_image hself
              (fun v hv => hlocal ▸ List.mem_flatMap.2 ⟨c, hc, hv⟩) hmem howns
          obtain ⟨b', hb', htext⟩ := himage
          refine ⟨b', ?_, htext⟩
          rw [keptImage, Node.children_node, List.flatMap_map]
          exact List.mem_flatMap.2 ⟨c, hc, hb'⟩
      · next hk =>
          have hlocal : n.localBindings
              = ((n.child? .initializer).map Node.blockBindings).getD [] := by
            rw [Node.localBindings, if_neg hscope, hk]
          rw [child?_keptImage]
          cases hc : n.child? .initializer with
          | none =>
              rw [hc] at hb'
              simp at hb'
          | some c =>
              rw [hc] at hb' hlocal
              exact exists_blockBinding_image hself (fun v hv => hlocal ▸ hv) hb' howns
      · next hk =>
          rw [declaresTarget_keptImage]
          split at hb'
          · next htarget =>
              have hlocal : n.localBindings = Node.bindings? (n.child? .left) := by
                rw [Node.localBindings, if_neg hscope, hk]
                exact if_pos htarget
              rw [if_pos htarget]
              exact hchild .left (fun v hv => hlocal ▸ hv) hb'
          · simp at hb'
      · simp at hb'

end Dialect

end SketchHost
