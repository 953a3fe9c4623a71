/-
**The first fault of a tree.**

The nodes of a tree are listed with a stack, which holds the trees that are still to be visited: that is
the order of the document, in which a node comes before what lies in it and siblings go from left to
right.  The first fault is looked for with a stack as well, but only marked children are put on it.  In a
tree whose marks are true nothing is missed: the search finds the first faulty node of the document.

* `Script.MarkedTree.at?` — the node at a place, which is a list of child numbers from the root down;
* `Script.MarkedTree.ListsDocument` — a list has the node of every place once, in the order of places;
* `Script.MarkedTree.visit_eq` — what a stack holds is what its trees still have to give, in order;
* `Script.MarkedTree.Truthful` — exactly the nodes in which a fault lies are marked;
* `Script.MarkedTree.search_eq` — what the search of a stack finds;
* `Script.MarkedTree.finds_first_fault` — **a walk lists the document, and the search finds the first
  fault of it**.
-/

import SketchHost.Script.Fault
import Mathlib.Data.List.Basic

set_option relaxedAutoImplicit false
set_option autoImplicit false

namespace SketchHost

namespace Script

namespace MarkedTree

variable {α : Type}

/-- Induction over trees: a property holds of a tree if it holds of its children. -/
@[elab_as_elim]
theorem induction {P : MarkedTree α → Prop}
    (h : ∀ type text l f m cs, (∀ c ∈ cs, P c) → P (node type text l f m cs)) : ∀ t, P t
  | node type text l f m cs => h type text l f m cs (all cs)
where
  /-- The property holds of several trees. -/
  all : ∀ cs : List (MarkedTree α), ∀ c ∈ cs, P c
    | [], _, hc => absurd hc List.not_mem_nil
    | d :: rest, c, hc =>
        (List.mem_cons.1 hc).elim (fun heq => heq ▸ induction h d) (fun hmem => all rest c hmem)

/-! ### Places -/

/-- The node at a place of a tree: the place lists the numbers of the children that lead to it. -/
def at? (t : MarkedTree α) : List Nat → Option (MarkedTree α)
  | [] => some t
  | i :: place => t.children[i]?.bind fun c => c.at? place

/-- The places of a tree. -/
def places : MarkedTree α → List (List Nat)
  | node _ _ _ _ _ cs => [] :: placesFrom 0 cs
where
  /-- The places of several siblings, the first of which has the number `i`. -/
  placesFrom (i : Nat) : List (MarkedTree α) → List (List Nat)
    | [] => []
    | c :: rest => (places c).map (i :: ·) ++ placesFrom (i + 1) rest

/-- A list has the node of every place of a tree once, in the order of the places: a place comes before
those below it, and before those of siblings further to the right. -/
def ListsDocument (root : MarkedTree α) (nodes : List (MarkedTree α)) : Prop :=
  ∃ order : List (List Nat), order.Pairwise (· < ·) ∧
    (∀ place, place ∈ order ↔ ∃ t, root.at? place = some t) ∧
    nodes.map some = order.map root.at?

/-- Exactly the nodes are marked that are faulty or have a faulty node below them. -/
def Truthful (root : MarkedTree α) : Prop :=
  ∀ place t, root.at? place = some t →
    (t.hasFault = true ↔ ∃ below s, t.at? below = some s ∧ s.isFault = true)

/-- The node at a place of a tree is faulty, and none at an earlier place is. -/
def IsFirstFault (root found : MarkedTree α) : Prop :=
  ∃ place, root.at? place = some found ∧ found.isFault = true ∧
    ∀ earlier t, earlier < place → root.at? earlier = some t → t.isFault = false

@[simp] theorem at?_nil (t : MarkedTree α) : t.at? [] = some t := rfl

theorem at?_cons_eq_some_iff {t s : MarkedTree α} {i : Nat} {place : List Nat} :
    t.at? (i :: place) = some s ↔ ∃ c, t.children[i]? = some c ∧ c.at? place = some s := by
  rw [at?, Option.bind_eq_some_iff]

/-- The marks of the children of a truthful tree are true. -/
theorem Truthful.of_mem {t c : MarkedTree α} (ht : t.Truthful) (hc : c ∈ t.children) : c.Truthful := by
  obtain ⟨i, hi⟩ := List.mem_iff_getElem?.1 hc
  intro place s hs
  exact ht (i :: place) s (at?_cons_eq_some_iff.2 ⟨c, hi, hs⟩)

/-! ### The order of the document -/

theorem preorder_node (type : String) (text : Option String) (l : α) (f m : Bool)
    (cs : List (MarkedTree α)) : (node type text l f m cs).preorder
      = node type text l f m cs :: cs.flatMap preorder := by
  have hall : ∀ ds : List (MarkedTree α), preorder.preorderAll ds = ds.flatMap preorder := by
    intro ds
    induction ds with
    | nil => rfl
    | cons d rest ih => rw [preorder.preorderAll, ih, List.flatMap_cons]
  rw [preorder, hall]

theorem preorder_eq (t : MarkedTree α) : t.preorder = t :: t.children.flatMap preorder := by
  cases t
  exact preorder_node ..

/-- A place of several siblings is the number of one of them with a place of it. -/
theorem mem_placesFrom {cs : List (MarkedTree α)} {i : Nat} {place : List Nat} :
    place ∈ places.placesFrom i cs ↔
      ∃ j c below, cs[j]? = some c ∧ below ∈ c.places ∧ place = (i + j) :: below := by
  induction cs generalizing i with
  | nil => simp [places.placesFrom]
  | cons c rest ih =>
      rw [places.placesFrom, List.mem_append, List.mem_map, ih]
      constructor
      · rintro (⟨below, hbelow, rfl⟩ | ⟨j, d, below, hd, hbelow, rfl⟩)
        · exact ⟨0, c, below, rfl, hbelow, rfl⟩
        · refine ⟨j + 1, d, below, hd, hbelow, ?_⟩
          rw [Nat.add_assoc, Nat.add_comm 1 j]
      · rintro ⟨j, d, below, hd, hbelow, rfl⟩
        cases j with
        | zero =>
            obtain rfl : c = d := Option.some.inj hd
            exact Or.inl ⟨below, hbelow, rfl⟩
        | succ j =>
            refine Or.inr ⟨j, d, below, hd, hbelow, ?_⟩
            rw [Nat.add_assoc, Nat.add_comm 1 j]

/-- The places of a tree are those at which it has a node. -/
theorem mem_places_iff (t : MarkedTree α) : ∀ place, place ∈ t.places ↔ ∃ s, t.at? place = some s := by
  induction t using induction with
  | h type text l f m cs ih =>
      intro place
      rw [places, List.mem_cons, mem_placesFrom]
      cases place with
      | nil => simp
      | cons i below =>
          constructor
          · rintro (hnil | ⟨j, c, below', hc, hbelow, heq⟩)
            · exact absurd hnil (List.cons_ne_nil i below)
            · rw [Nat.zero_add] at heq
              obtain ⟨rfl, rfl⟩ := List.cons.inj heq
              obtain ⟨s, hs⟩ := (ih c (List.mem_of_getElem? hc) below).1 hbelow
              exact ⟨s, at?_cons_eq_some_iff.2 ⟨c, hc, hs⟩⟩
          · rintro ⟨s, hs⟩
            obtain ⟨c, hc, hs⟩ := at?_cons_eq_some_iff.1 hs
            have hbelow := (ih c (List.mem_of_getElem? hc) below).2 ⟨s, hs⟩
            exact Or.inr ⟨i, c, below, hc, hbelow, by rw [Nat.zero_add]⟩

/-- The places of a tree go up: what lies in a child comes after the tree and before what lies in a
later child. -/
theorem pairwise_places (t : MarkedTree α) : t.places.Pairwise (· < ·) := by
  induction t using induction with
  | h type text l f m cs ih =>
      have hfrom : ∀ (ds : List (MarkedTree α)) (i : Nat), (∀ d ∈ ds, d.places.Pairwise (· < ·)) →
          (places.placesFrom i ds).Pairwise (· < ·) := by
        intro ds
        induction ds with
        | nil => exact fun _ _ => List.Pairwise.nil
        | cons d rest ihds =>
            intro i hds
            rw [places.placesFrom, List.pairwise_append]
            refine ⟨?_, ihds (i + 1) fun e he => hds e (List.mem_cons_of_mem d he), ?_⟩
            · refine List.pairwise_map.2 ((hds d List.mem_cons_self).imp fun {p q} hpq => ?_)
              exact List.cons_lt_cons_iff.2 (Or.inr ⟨rfl, hpq⟩)
            · intro p hp q hq
              obtain ⟨below, -, rfl⟩ := List.mem_map.1 hp
              obtain ⟨j, e, below', -, -, rfl⟩ := mem_placesFrom.1 hq
              exact List.cons_lt_cons_iff.2 (Or.inl (by omega))
      rw [places]
      refine List.pairwise_cons.2 ⟨fun p hp => ?_, hfrom cs 0 ih⟩
      obtain ⟨j, c, below, -, -, rfl⟩ := mem_placesFrom.1 hp
      exact List.nil_lt_cons _ _

/-- The nodes at the places of a tree are its nodes in pre-order. -/
theorem map_at?_places (t : MarkedTree α) : t.places.map t.at? = t.preorder.map some := by
  induction t using induction with
  | h type text l f m cs ih =>
      -- the siblings from the number `i` on, as seen from the tree
      have hfrom : ∀ (ds : List (MarkedTree α)) (i : Nat),
          (∀ j, (node type text l f m cs).children[i + j]? = ds[j]?) →
          (∀ d ∈ ds, d.places.map d.at? = d.preorder.map some) →
          (places.placesFrom i ds).map (node type text l f m cs).at? = (ds.flatMap preorder).map some := by
        intro ds
        induction ds with
        | nil => exact fun _ _ _ => rfl
        | cons d rest ihds =>
            intro i hchildren hds
            have hchild : (node type text l f m cs).children[i]? = some d := hchildren 0
            have hfirst : ((places d).map (i :: ·)).map (node type text l f m cs).at?
                = d.preorder.map some := by
              rw [List.map_map, ← hds d List.mem_cons_self]
              refine List.map_congr_left fun place _ => ?_
              rw [Function.comp_apply, at?, hchild, Option.bind_some]
            have hrest := ihds (i + 1) (fun j => ?_) fun e he => hds e (List.mem_cons_of_mem d he)
            · rw [places.placesFrom, List.map_append, hfirst, hrest, List.flatMap_cons, List.map_append]
            · have hnext := hchildren (j + 1)
              rw [Nat.add_assoc, Nat.add_comm 1 j]
              exact hnext
      rw [places, preorder_node, List.map_cons, List.map_cons]
      congr 1
      exact hfrom cs 0 (fun j => by rw [Nat.zero_add]; rfl) ih

/-! ### Walks -/

/-- What a stack gives is what its trees give, one after the other: by induction on the walk, the
children that are put on the stack are what is left of the tree that was taken. -/
theorem visit_eq (stack : List (MarkedTree α)) : visit stack = stack.flatMap preorder := by
  induction stack using visit.induct with
  | case1 => rw [visit, List.flatMap_nil]
  | case2 t stack ih =>
      rw [visit, ih, List.flatMap_append, List.flatMap_cons, preorder_eq t, List.cons_append]

theorem walk_eq_preorder (root : MarkedTree α) : root.walk = root.preorder := by
  rw [walk, visit_eq, List.flatMap_singleton]

/-- A walk has the node of every place once, in the order of the document. -/
theorem listsDocument_walk (root : MarkedTree α) : root.ListsDocument root.walk := by
  refine ⟨root.places, pairwise_places root, mem_places_iff root, ?_⟩
  rw [walk_eq_preorder, map_at?_places]

theorem mem_walk_iff {root t : MarkedTree α} : t ∈ root.walk ↔ ∃ place, root.at? place = some t := by
  have hmem : t ∈ root.walk ↔ some t ∈ root.places.map root.at? := by
    rw [map_at?_places, walk_eq_preorder, List.mem_map_of_injective fun _ _ h => Option.some.inj h]
  rw [hmem, List.mem_map]
  constructor
  · rintro ⟨place, -, hplace⟩
    exact ⟨place, hplace⟩
  · rintro ⟨place, hplace⟩
    exact ⟨place, (mem_places_iff root place).2 ⟨t, hplace⟩, hplace⟩

/-- The first faulty node of a walk is the one at the first place that has a faulty node. -/
theorem isFirstFault_of_find? {root found : MarkedTree α} (h : root.walk.find? isFault = some found) :
    root.IsFirstFault found := by
  obtain ⟨hfault, earlier, later, hwalk, hearlier⟩ := List.find?_eq_some_iff_append.1 h
  have hmap : root.places.map root.at? = earlier.map some ++ some found :: later.map some := by
    rw [map_at?_places, ← walk_eq_preorder, hwalk, List.map_append, List.map_cons]
  obtain ⟨before, rest, hplaces, hbefore, hrest⟩ := List.map_eq_append_iff.1 hmap
  obtain ⟨place, after, rfl, hplace, -⟩ := List.map_eq_cons_iff.1 hrest
  refine ⟨place, hplace, hfault, fun q t hlt hq => ?_⟩
  have hmem : q ∈ root.places := (mem_places_iff root q).2 ⟨t, hq⟩
  have hsorted := pairwise_places root
  rw [hplaces] at hmem hsorted
  -- an earlier place stands before this one in the list, for the places go up
  rcases List.mem_append.1 hmem with hq' | hq'
  · have ht : some t ∈ earlier.map some := by
      rw [← hbefore, ← hq]
      exact List.mem_map_of_mem hq'
    have hnot := hearlier t ((List.mem_map_of_injective fun _ _ h => Option.some.inj h).1 ht)
    simpa using hnot
  · have hle : place = q ∨ place < q := by
      rcases List.mem_cons.1 hq' with rfl | hlater
      · exact Or.inl rfl
      · exact Or.inr ((List.pairwise_cons.1 (List.pairwise_append.1 hsorted).2.1).1 q hlater)
    rcases hle with rfl | hgt
    · exact absurd hlt (List.lt_irrefl _)
    · exact absurd (List.lt_trans hlt hgt) (List.lt_irrefl _)

/-! ### The search -/

/-- A tree with true marks is marked exactly if one of its nodes is faulty. -/
theorem Truthful.hasFault_iff {t : MarkedTree α} (ht : t.Truthful) :
    t.hasFault = true ↔ ∃ s ∈ t.preorder, s.isFault = true := by
  rw [ht [] t rfl]
  constructor
  · rintro ⟨place, s, hs, hfault⟩
    refine ⟨s, ?_, hfault⟩
    rw [← walk_eq_preorder]
    exact mem_walk_iff.2 ⟨place, hs⟩
  · rintro ⟨s, hs, hfault⟩
    rw [← walk_eq_preorder] at hs
    obtain ⟨place, hplace⟩ := mem_walk_iff.1 hs
    exact ⟨place, s, hplace, hfault⟩

/-- In trees without a mark there is nothing to find. -/
theorem find?_flatMap_filter {cs : List (MarkedTree α)} (hcs : ∀ c ∈ cs, c.Truthful) :
    ((cs.filter hasFault).flatMap preorder).find? isFault = (cs.flatMap preorder).find? isFault := by
  induction cs with
  | nil => rfl
  | cons c rest ih =>
      have hrest := ih fun d hd => hcs d (List.mem_cons_of_mem c hd)
      have hc := (hcs c List.mem_cons_self).hasFault_iff
      rw [List.flatMap_cons, List.find?_append, ← hrest]
      cases hmark : c.hasFault with
      | true => rw [List.filter_cons_of_pos hmark, List.flatMap_cons, List.find?_append]
      | false =>
          have hnone : c.preorder.find? isFault = none := by
            rw [List.find?_eq_none]
            intro s hs hfault
            rw [hc.2 ⟨s, hs, hfault⟩] at hmark
            contradiction
          rw [List.filter_cons_of_neg (by simp [hmark]), hnone, Option.none_or]

/-- What the search of a stack finds, by induction on the search: the first faulty node among all nodes
of the trees on it, as the trees that were left out have none. -/
theorem search_eq {stack : List (MarkedTree α)} (hstack : ∀ t ∈ stack, t.Truthful) :
    search stack = (stack.flatMap preorder).find? isFault := by
  induction stack using search.induct with
  | case1 => rw [search, List.flatMap_nil, List.find?_nil]
  | case2 t stack hfault =>
      rw [search, if_pos hfault, List.flatMap_cons, preorder_eq, List.cons_append,
        List.find?_cons_of_pos hfault]
  | case3 t stack hsound ih =>
      have hchildren : ∀ c ∈ t.children, c.Truthful := fun c hc =>
        (hstack t List.mem_cons_self).of_mem hc
      have hnext : ∀ s ∈ t.children.filter hasFault ++ stack, s.Truthful := by
        intro s hs
        rcases List.mem_append.1 hs with hs | hs
        · exact hchildren s (List.mem_filter.1 hs).1
        · exact hstack s (List.mem_cons_of_mem t hs)
      calc search (t :: stack)
          = search (t.children.filter hasFault ++ stack) := by rw [search, if_neg hsound]
        _ = ((t.children.filter hasFault).flatMap preorder ++ stack.flatMap preorder).find? isFault := by
            rw [ih hnext, List.flatMap_append]
        _ = (t.children.flatMap preorder ++ stack.flatMap preorder).find? isFault := by
            rw [List.find?_append, find?_flatMap_filter hchildren, ← List.find?_append]
        _ = ((t :: stack).flatMap preorder).find? isFault := by
            rw [List.flatMap_cons, preorder_eq t, List.cons_append, List.find?_cons_of_neg hsound]

/-- The search of a tree whose marks are true finds what the walk finds. -/
theorem Truthful.search_eq_find? {root : MarkedTree α} (h : root.Truthful) :
    search [root] = root.walk.find? isFault := by
  rw [search_eq (by simpa using h), List.flatMap_singleton, walk_eq_preorder]

/-- A marked tree whose marks are true has a fault to find. -/
theorem Truthful.exists_search_eq_some {root : MarkedTree α} (h : root.Truthful)
    (hmark : root.hasFault = true) : ∃ found, search [root] = some found := by
  obtain ⟨s, hs, hfault⟩ := h.hasFault_iff.1 hmark
  rw [h.search_eq_find?, walk_eq_preorder, ← Option.isSome_iff_exists, List.find?_isSome]
  exact ⟨s, hs, hfault⟩

theorem Truthful.firstFault?_eq_find? {root : MarkedTree α} (h : root.Truthful) :
    root.firstFault? = root.walk.find? isFault := by
  rw [firstFault?]
  cases hmark : root.hasFault with
  | true =>
      obtain ⟨found, hfound⟩ := h.exists_search_eq_some hmark
      rw [if_pos rfl, ← h.search_eq_find?, hfound, Option.getD_some]
  | false =>
      rw [if_neg (by simp)]
      refine (List.find?_eq_none.2 fun s hs hfault => ?_).symm
      rw [walk_eq_preorder] at hs
      rw [h.hasFault_iff.2 ⟨s, hs, hfault⟩] at hmark
      contradiction

/-- **A walk lists the document, and the search finds the first fault of it.**  A walk has the node of
every place of a tree once, in the order of the document, which is the recursive pre-order.  If the marks
are true, the search gives the first faulty node of the walk, and none exactly if no node is faulty; and
the loop of the search finds one in every marked tree, so the root is never given for want of another. -/
theorem finds_first_fault (root : MarkedTree α) :
    (root.ListsDocument root.walk ∧ root.walk = root.preorder) ∧
      (root.Truthful →
        root.firstFault? = root.walk.find? isFault ∧
        (∀ found, root.firstFault? = some found → root.IsFirstFault found) ∧
        (root.firstFault? = none ↔ ∀ place t, root.at? place = some t → t.isFault = false) ∧
        (root.hasFault = true → ∃ found, search [root] = some found ∧ root.firstFault? = some found)) := by
  refine ⟨⟨listsDocument_walk root, walk_eq_preorder root⟩, fun h => ?_⟩
  have heq := h.firstFault?_eq_find?
  refine ⟨heq, fun found hfound => ?_, ?_, fun hmark => ?_⟩
  · rw [heq] at hfound
    exact isFirstFault_of_find? hfound
  · rw [heq, List.find?_eq_none]
    constructor
    · intro hnone place t ht
      simpa using hnone t (mem_walk_iff.2 ⟨place, ht⟩)
    · intro hnone t ht
      obtain ⟨place, hplace⟩ := mem_walk_iff.1 ht
      simp [hnone place t hplace]
  · obtain ⟨found, hfound⟩ := h.exists_search_eq_some hmark
    refine ⟨found, hfound, ?_⟩
    rw [firstFault?, if_pos hmark, hfound, Option.getD_some]

/-- A marked tree with a sound child, a marked child that is not faulty itself, and below that one a
stretch of text without a place and a missing token. -/
def twoFaults : MarkedTree Nat :=
  node "program" none 0 true false
    [node "comment" none 1 false false [],
      node "expression_statement" none 2 true false
        [node strayType (some "*") 3 true false [], node ";" none 4 true true []]]

theorem truthful_twoFaults : twoFaults.Truthful := by
  intro place t ht
  match place with
  | [] =>
      obtain rfl := Option.some.inj ht
      exact ⟨fun _ => ⟨[1, 0], _, rfl, rfl⟩, fun _ => rfl⟩
  | [0] =>
      obtain rfl := Option.some.inj ht
      refine ⟨fun h => absurd h (by decide), ?_⟩
      rintro ⟨below, s, hs, hfault⟩
      cases below with
      | nil =>
          obtain rfl := Option.some.inj hs
          exact absurd hfault (by decide)
      | cons i below => simp [at?_cons_eq_some_iff, children] at hs
  | [1] =>
      obtain rfl := Option.some.inj ht
      exact ⟨fun _ => ⟨[0], _, rfl, rfl⟩, fun _ => rfl⟩
  | [1, 0] =>
      obtain rfl := Option.some.inj ht
      exact ⟨fun _ => ⟨[], _, rfl, rfl⟩, fun _ => rfl⟩
  | [1, 1] =>
      obtain rfl := Option.some.inj ht
      exact ⟨fun _ => ⟨[], _, rfl, rfl⟩, fun _ => rfl⟩
  | 0 :: _ :: _ | 1 :: 0 :: _ :: _ | 1 :: 1 :: _ :: _ | 1 :: (_ + 2) :: _ | (_ + 2) :: _ =>
      simp [twoFaults, at?_cons_eq_some_iff, children] at ht

/-- In a tree with two faults, the search finds the stretch of text, which comes before the missing
token. -/
theorem finds_first_fault_of_two : twoFaults.Truthful ∧
    twoFaults.firstFault? = some (node strayType (some "*") 3 true false []) ∧
    twoFaults.IsFirstFault (node strayType (some "*") 3 true false []) := by
  have hfound : twoFaults.firstFault? = some (node strayType (some "*") 3 true false []) := by
    rw [((finds_first_fault twoFaults).2 truthful_twoFaults).1, walk_eq_preorder]
    rfl
  exact ⟨truthful_twoFaults, hfound,
    ((finds_first_fault twoFaults).2 truthful_twoFaults).2.1 _ hfound⟩

end MarkedTree

end Script

end SketchHost
