/-
**The names of a tree, where they stand.**

In a well-formed tree the nodes that are one word stand in the source one after the other, each as
it is spelled there.

* `Script.SpelledAt.stretch_eq` — the bytes of the source at a word;
* `Script.isVariableName` — the kinds of the words that name a variable;
* `Script.Node.pairwise_places` — words follow each other;
* `Script.Node.WellFormed.disjoint` — two words are the same one or do not meet;
* `Script.Node.WellFormed.eq_of_span` — two words of one range are one word.
-/

import SketchHost.InstanceMode.Binding
import SketchHost.Proofs.Script.WellFormed
import SketchHost.Proofs.Text.Splice

set_option relaxedAutoImplicit false
set_option autoImplicit false

namespace SketchHost

namespace Script

/-! ### Words in the source -/

theorem SpelledAt.newline_not_mem {source : List Char} {start stop : Nat} {text : String}
    (h : SpelledAt source start stop text) : '\n' ∉ text.toList := by
  obtain ⟨c, d, -, hspells, -, -⟩ := h
  exact hspells.newline

/-- The bytes of the source at a word are those of the word. -/
theorem SpelledAt.stretch_eq {source : String} {start stop : Nat} {text : String}
    (h : SpelledAt source.toList start stop text) :
    stretch (bytesOf source) start stop = bytesOf text := by
  obtain ⟨c, d, ⟨run, hrun, hstart⟩, hspells, rfl, rfl⟩ := h
  have hsource : source.toList = run ++ text.toList ++ d.rest := by
    rw [List.append_assoc, ← hspells.rest]
    exact hrun
  have hbytes : bytesOf source = run.flatMap String.utf8EncodeChar ++ bytesOf text
      ++ d.rest.flatMap String.utf8EncodeChar := by
    rw [bytesOf_eq, bytesOf_eq, hsource, List.flatMap_append, List.flatMap_append]
  have hstart : c.offset = (run.flatMap String.utf8EncodeChar).length := by
    rw [hstart, length_flatMap_utf8EncodeChar]
    exact Nat.zero_add _
  have hstop : d.offset = (run.flatMap String.utf8EncodeChar).length + (bytesOf text).length := by
    rw [hspells.offset, hstart, length_bytesOf]
  rw [hbytes, hstart, hstop, stretch_between]

/-- The kinds of the words that name a variable, a function or a class. -/
def isVariableName (k : Kind) : Bool :=
  match k with
  | .identifier | .shorthand | .shorthandPattern => true
  | _ => false

theorem isNamed_of_isVariableName {k : Kind} (h : isVariableName k = true) : isNamed k = true := by
  cases k <;> first | rfl | simp [isVariableName] at h

namespace Node

/-! ### Places -/

theorem places_node (above : List Node) (k : Kind) (r : Role) (a b : Nat) (t : String)
    (cs : List Node) : (node k r a b t cs).places above
      = ⟨node k r a b t cs, above⟩ :: cs.flatMap (places (node k r a b t cs :: above)) := by
  have hall : ∀ (outer ds : List Node), places.placesAll outer ds = ds.flatMap (places outer) := by
    intro outer ds
    induction ds with
    | nil => rfl
    | cons d rest ih => rw [places.placesAll, ih, List.flatMap_cons]
  rw [places, hall]

/-- The nodes of the places of a tree are its nodes. -/
theorem map_node_places (n : Node) : ∀ above, (n.places above).map Place.node = n.preorder := by
  induction n using Node.induction with
  | h k r a b t cs ih =>
      intro above
      rw [places_node, preorder_node, List.map_cons, List.map_flatMap]
      congr 1
      exact List.flatMap_congr fun c hc => ih c hc _

theorem mem_preorder_of_mem_places {n : Node} {above : List Node} {p : Place}
    (hp : p ∈ n.places above) : p.node ∈ n.preorder := by
  rw [← map_node_places n above]
  exact List.mem_map_of_mem hp

/-- The nodes of a tree have places. -/
theorem exists_place_of_mem_preorder {n m : Node} (hm : m ∈ n.preorder) :
    ∃ p ∈ n.places [], p.node = m := by
  rwa [← map_node_places n [], List.mem_map] at hm

theorem mem_places_self (n : Node) (above : List Node) : ⟨n, above⟩ ∈ n.places above := by
  obtain ⟨k, r, a, b, t, cs⟩ := n
  rw [places_node]
  exact List.mem_cons_self

/-- The children of a place are places. -/
theorem mem_places_of_mem_children {n : Node} : ∀ {above : List Node} {q : Place},
    q ∈ n.places above → ∀ {c : Node}, c ∈ q.node.children →
      ⟨c, q.node :: q.above⟩ ∈ n.places above := by
  induction n using Node.induction with
  | h k r a b t cs ih =>
      intro above q hq c hc
      rw [places_node] at hq ⊢
      refine List.mem_cons_of_mem _ (List.mem_flatMap.2 ?_)
      rcases List.mem_cons.1 hq with rfl | hq
      · exact ⟨c, hc, mem_places_self c _⟩
      · obtain ⟨d, hd, hmem⟩ := List.mem_flatMap.1 hq
        exact ⟨d, hd, ih d hd hmem hc⟩

/-- The nodes around a place of a tree are nodes of the tree, or around the tree. -/
theorem mem_preorder_of_mem_above {n : Node} : ∀ {above : List Node} {q : Place},
    q ∈ n.places above → ∀ {m : Node}, m ∈ q.above → m ∈ n.preorder ∨ m ∈ above := by
  induction n using Node.induction with
  | h k r a b t cs ih =>
      intro above q hq m hm
      rw [places_node] at hq
      rcases List.mem_cons.1 hq with rfl | hq
      · exact Or.inr hm
      · obtain ⟨d, hd, hmem⟩ := List.mem_flatMap.1 hq
        rw [preorder_node]
        rcases ih d hd hmem hm with hpre | habove
        · exact Or.inl (List.mem_cons_of_mem _ (List.mem_flatMap.2 ⟨d, hd, hpre⟩))
        · rcases List.mem_cons.1 habove with rfl | habove
          · exact Or.inl List.mem_cons_self
          · exact Or.inr habove

/-- A place of a tree is the root, or its parent is one. -/
theorem exists_parent {root : Node} : ∀ {above : List Node} {p : Place}, p ∈ root.places above →
    p = ⟨root, above⟩ ∨
      ∃ q ∈ root.places above, p.node ∈ q.node.children ∧ p.above = q.node :: q.above := by
  induction root using Node.induction with
  | h k r a b t cs ih =>
      intro above p hp
      rw [places_node] at hp ⊢
      rcases List.mem_cons.1 hp with rfl | hp
      · exact Or.inl rfl
      · obtain ⟨c, hc, hp⟩ := List.mem_flatMap.1 hp
        refine Or.inr ?_
        rcases ih c hc hp with rfl | ⟨q, hq, hchild⟩
        · exact ⟨⟨node k r a b t cs, above⟩, List.mem_cons_self, hc, rfl⟩
        · exact ⟨q, List.mem_cons_of_mem _ (List.mem_flatMap.2 ⟨c, hc, hq⟩), hchild⟩

/-! ### Descendants -/

theorem mem_preorder_of_mem_children {n c : Node} (h : c ∈ n.children) : c ∈ n.preorder := by
  cases n with
  | node k r a b t cs =>
      rw [preorder_node]
      exact List.mem_cons_of_mem _ (List.mem_flatMap.2 ⟨c, h, mem_preorder_self c⟩)

theorem mem_children_of_child? {n c : Node} {r : Role} (h : n.child? r = some c) :
    c ∈ n.children :=
  List.mem_of_find?_eq_some h

theorem role_of_child? {n c : Node} {r : Role} (h : n.child? r = some c) : c.role = r := by
  simpa using List.find?_some h

/-- The nodes of a node of a tree are nodes of the tree. -/
theorem mem_preorder_trans {n m l : Node} (hm : m ∈ n.preorder) (hl : l ∈ m.preorder) :
    l ∈ n.preorder := by
  induction n using Node.induction with
  | h k r a b t cs ih =>
      rw [preorder_node] at hm ⊢
      rcases List.mem_cons.1 hm with rfl | hm
      · rwa [preorder_node] at hl
      · obtain ⟨c, hc, hmem⟩ := List.mem_flatMap.1 hm
        exact List.mem_cons_of_mem _ (List.mem_flatMap.2 ⟨c, hc, ih c hc hmem⟩)

/-- A name that a target binds is a word in the target that names a variable. -/
theorem mem_bindings (n : Node) : ∀ {b}, b ∈ n.bindings →
    b ∈ n.preorder ∧ isVariableName b.kind = true := by
  induction n using Node.induction with
  | h k r a e t cs ih =>
      intro b hb
      have hall : ∀ ds : List Node, b ∈ bindings.bindingsAll ds → ∃ d ∈ ds, b ∈ d.bindings := by
        intro ds
        induction ds with
        | nil => simp [bindings.bindingsAll]
        | cons d rest ihds =>
            intro hmem
            rcases List.mem_append.1 hmem with hmem | hmem
            · exact ⟨d, List.mem_cons_self, hmem⟩
            · obtain ⟨d', hd', hmem'⟩ := ihds hmem
              exact ⟨d', List.mem_cons_of_mem _ hd', hmem'⟩
      have hin : ∀ (role : Role) (ds : List Node), b ∈ bindings.bindingsIn role ds →
          ∃ d ∈ ds, b ∈ d.bindings := by
        intro role ds
        induction ds with
        | nil => simp [bindings.bindingsIn]
        | cons d rest ihds =>
            intro hmem
            unfold bindings.bindingsIn at hmem
            split at hmem
            · exact ⟨d, List.mem_cons_self, hmem⟩
            · obtain ⟨d', hd', hmem'⟩ := ihds hmem
              exact ⟨d', List.mem_cons_of_mem _ hd', hmem'⟩
      have hchild : (∃ d ∈ cs, b ∈ d.bindings) →
          b ∈ (node k r a e t cs).preorder ∧ isVariableName b.kind = true := by
        rintro ⟨d, hd, hmem⟩
        obtain ⟨hpre, hkind⟩ := ih d hd hmem
        have hdn : d ∈ (node k r a e t cs).preorder := mem_preorder_of_mem_children hd
        exact ⟨mem_preorder_trans hdn hpre, hkind⟩
      unfold bindings at hb
      split at hb
      · obtain rfl := List.mem_singleton.1 hb
        exact ⟨mem_preorder_self _, rfl⟩
      · obtain rfl := List.mem_singleton.1 hb
        exact ⟨mem_preorder_self _, rfl⟩
      · exact hchild (hall cs hb)
      · exact hchild (hall cs hb)
      · exact hchild (hall cs hb)
      · exact hchild (hin _ cs hb)
      · exact hchild (hin _ cs hb)
      · exact hchild (hin _ cs hb)
      · simp at hb

/-! ### Words of a well-formed tree -/

variable {source : List Char}

/-- The trees of a row follow each other. -/
theorem Row.pairwise {lo hi : Nat} {cs : List Node} (h : Row source lo hi cs) :
    cs.Pairwise fun c d => c.stop ≤ d.start := by
  induction cs generalizing lo with
  | nil => exact List.Pairwise.nil
  | cons c rest ih =>
      refine List.pairwise_cons.2 ⟨fun d hd => ?_, ih h.2.2⟩
      exact (Row.fits h.2.2 d hd).lo_le

/-- Every place of a well-formed tree lies in its range. -/
theorem WellFormed.fits_of_mem_places {n : Node} (h : n.WellFormed source) {above : List Node}
    {p : Place} (hp : p ∈ n.places above) : Fits source n.start n.stop p.node :=
  h.fits_of_mem (mem_preorder_of_mem_places hp)

/-- Words follow each other. -/
theorem pairwise_places {n : Node} (h : n.WellFormed source) : ∀ above,
    ((n.places above).filter fun p => isNamed p.node.kind).Pairwise
      fun p q => p.node.stop ≤ q.node.start := by
  induction n using Node.induction with
  | h k r a b t cs ih =>
      intro above
      obtain ⟨hform, hrow⟩ := h
      have hchild : ∀ c ∈ cs, c.WellFormed source := fun c hc => (Row.fits hrow c hc).wellFormed
      rw [places_node]
      cases hk : isNamed k with
      | true =>
          rw [HasForm, if_pos hk] at hform
          obtain ⟨rfl, -⟩ := hform
          exact (List.pairwise_singleton _ _).filter _
      | false =>
          rw [List.filter_cons, if_neg (by simp [hk]), List.filter_flatMap, List.pairwise_flatMap]
          refine ⟨fun c hc => ih c hc (hchild c hc) _, ?_⟩
          -- what lies in a child lies before what lies in a later one
          refine (Row.pairwise hrow).imp_of_mem fun {c d} hc hd hcd p hp q hq => ?_
          have hp' := (hchild c hc).fits_of_mem_places (List.mem_filter.1 hp).1
          have hq' := (hchild d hd).fits_of_mem_places (List.mem_filter.1 hq).1
          exact Nat.le_trans hp'.le_hi (Nat.le_trans hcd hq'.lo_le)

/-- Of things that follow each other, two are the same one or do not meet. -/
theorem eq_or_apart_of_pairwise {α : Type} {f : α → Node} {xs : List α}
    (h : xs.Pairwise fun x y => (f x).stop ≤ (f y).start) {x y : α} (hx : x ∈ xs) (hy : y ∈ xs) :
    x = y ∨ (f x).stop ≤ (f y).start ∨ (f y).stop ≤ (f x).start := by
  have hself : ∀ z ∈ xs, z = z ∨ (f z).stop ≤ (f z).start ∨ (f z).stop ≤ (f z).start :=
    fun z _ => Or.inl rfl
  exact List.Pairwise.forall_of_forall_of_flip hself (h.imp fun hle => Or.inr (Or.inl hle))
    (h.imp fun hle => Or.inr (Or.inr hle)) hx hy

/-- Two children of a tree are the same one or do not meet. -/
theorem WellFormed.disjoint_children {n c d : Node} (h : n.WellFormed source) (hc : c ∈ n.children)
    (hd : d ∈ n.children) : c = d ∨ c.stop ≤ d.start ∨ d.stop ≤ c.start :=
  eq_or_apart_of_pairwise (Row.pairwise (wellFormed_iff.1 h).2) hc hd

/-- Two words are the same one or do not meet. -/
theorem WellFormed.disjoint {root : Node} (h : root.WellFormed source) {p q : Place}
    (hp : p ∈ root.places []) (hq : q ∈ root.places []) (hpn : isNamed p.node.kind = true)
    (hqn : isNamed q.node.kind = true) :
    p = q ∨ p.node.stop ≤ q.node.start ∨ q.node.stop ≤ p.node.start :=
  eq_or_apart_of_pairwise (pairwise_places h []) (List.mem_filter.2 ⟨hp, by simpa using hpn⟩)
    (List.mem_filter.2 ⟨hq, by simpa using hqn⟩)

theorem WellFormed.disjoint_nodes {root : Node} (h : root.WellFormed source) {m n : Node}
    (hm : m ∈ root.preorder) (hn : n ∈ root.preorder) (hmn : isNamed m.kind = true)
    (hnn : isNamed n.kind = true) : m = n ∨ m.stop ≤ n.start ∨ n.stop ≤ m.start := by
  obtain ⟨p, hp, rfl⟩ := exists_place_of_mem_preorder hm
  obtain ⟨q, hq, rfl⟩ := exists_place_of_mem_preorder hn
  exact (h.disjoint hp hq hmn hnn).imp_left (congrArg Place.node)

/-- A word is spelled in the source where it stands. -/
theorem WellFormed.spelledAt {n : Node} (h : n.WellFormed source) (hn : isNamed n.kind = true) :
    SpelledAt source n.start n.stop n.text := by
  have hform := (wellFormed_iff.1 h).1
  rw [HasForm, if_pos hn] at hform
  exact hform.2

/-- A word is not empty. -/
theorem WellFormed.start_lt_stop {n : Node} (h : n.WellFormed source) (hn : isNamed n.kind = true) :
    n.start < n.stop :=
  (h.spelledAt hn).lt

/-- Two words of one range are one word, as no word is empty. -/
theorem WellFormed.eq_of_span {root : Node} (h : root.WellFormed source) {p q : Place}
    (hp : p ∈ root.places []) (hq : q ∈ root.places []) (hpn : isNamed p.node.kind = true)
    (hqn : isNamed q.node.kind = true) (hspan : p.node.span = q.node.span) : p = q := by
  have hstart : p.node.start = q.node.start := congrArg Span.start hspan
  have hstop : p.node.stop = q.node.stop := congrArg Span.stop hspan
  have hlt := (h.fits_of_mem_places hp).wellFormed.start_lt_stop hpn
  rcases h.disjoint hp hq hpn hqn with heq | hle | hle
  · exact heq
  · omega
  · omega

theorem WellFormed.node_eq_of_span {root : Node} (h : root.WellFormed source) {m n : Node}
    (hm : m ∈ root.preorder) (hn : n ∈ root.preorder) (hmn : isNamed m.kind = true)
    (hnn : isNamed n.kind = true) (hspan : m.span = n.span) : m = n := by
  obtain ⟨p, hp, rfl⟩ := exists_place_of_mem_preorder hm
  obtain ⟨q, hq, rfl⟩ := exists_place_of_mem_preorder hn
  exact congrArg Place.node (h.eq_of_span hp hq hmn hnn hspan)

/-- A word has no parts. -/
theorem WellFormed.children_eq_nil {n : Node} (h : n.WellFormed source)
    (hn : isNamed n.kind = true) : n.children = [] := by
  have hform := (wellFormed_iff.1 h).1
  rw [HasForm, if_pos hn] at hform
  exact hform.1

theorem WellFormed.eq_of_mem_preorder {n m : Node} (h : n.WellFormed source)
    (hn : isNamed n.kind = true) (hm : m ∈ n.preorder) : m = n := by
  cases n with
  | node k r a b t cs =>
      have hcs : cs = [] := h.children_eq_nil hn
      subst hcs
      rw [preorder_node] at hm
      simpa using hm

/-- A node of a tree is the root, or a node of one of the children of the root. -/
theorem mem_preorder_cases {n m : Node} (hm : m ∈ n.preorder) :
    m = n ∨ ∃ c ∈ n.children, m ∈ c.preorder := by
  cases n with
  | node k r a b t cs =>
      rw [preorder_node] at hm
      rcases List.mem_cons.1 hm with rfl | hm
      · exact Or.inl rfl
      · exact Or.inr (List.mem_flatMap.1 hm)

/-- The children of a well-formed tree are well-formed, in its range. -/
theorem WellFormed.fits_children {n c : Node} (h : n.WellFormed source) (hc : c ∈ n.children) :
    Fits source n.start n.stop c :=
  Row.fits (wellFormed_iff.1 h).2 c hc

end Node

end Script

end SketchHost
