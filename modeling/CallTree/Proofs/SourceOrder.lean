import CallTree.Proofs.Lists
import CallTree.Proofs.Preorder
import CallTree.Syntax.Tree

/-!
# Descendants in the order of the source

A tree may hold the same node many times over, so where a node stands is not told by the node. It
is told by its *address* below another node: the number of the child to take at each step of the
way down. Addresses are compared as words of a dictionary are, so that of two of them the one that
branches off further to the left comes first, and an address comes before those that continue it.

The search for descendants keeps a stack. What it finds are the nodes at all addresses, each of
them once, in the order of the addresses (`Node.map_siteAt?_addresses`,
`Node.pairwise_addresses`); and this is what the recursion over the tree gives. A search that wants
some of the labels only finds a part of that list.

When every node holds its children one after the other, the order of the addresses is the order in
which the nodes begin in the file (`Node.pairwise_before`). Of two nodes that begin together the
first is then the longer one. Only a node of no length may stand before the longer one.
-/

namespace CallTree.Syntax

/-! ## Addresses -/

/-- **The node at an address**, with the node above it. At the empty address is the node itself,
which is not below itself. -/
def Node.siteAt? (n : Node) : List Nat → Option Site
  | [] => none
  | [i] => n.sites[i]?
  | i :: j :: p => n.sites[i]?.bind fun site => site.node.siteAt? (j :: p)

mutual

/-- The addresses of all that is below a node, each child followed by what is below it. -/
def Node.addresses (n : Node) : List (List Nat) :=
  match n with
  | .mk _ _ _ children => Node.addressesFrom 0 children

/-- The addresses of the children that are left, of which the first has the number `i`, and of all
that is below them. -/
def Node.addressesFrom (i : Nat) : List Node → List (List Nat)
  | [] => []
  | child :: rest =>
    [i] :: (child.addresses.map (i :: ·) ++ Node.addressesFrom (i + 1) rest)

end

theorem Node.addressesFrom_eq (parent : Node) (i : Nat) (children : List Node) :
    Node.addressesFrom i children
      = ((children.map fun child => (⟨child, some parent⟩ : Site)).zipIdx i).flatMap fun entry =>
        [entry.2] :: entry.1.node.addresses.map (entry.2 :: ·) := by
  induction children generalizing i with
  | nil => rw [Node.addressesFrom]; rfl
  | cons child children ih =>
    rw [Node.addressesFrom, ih]
    rfl

/-- **The addresses below a node**: that of each child, and after it those of what is below the
child, which begin with it. -/
theorem Node.addresses_eq (n : Node) :
    n.addresses = n.sites.zipIdx.flatMap fun entry =>
      [entry.2] :: entry.1.node.addresses.map (entry.2 :: ·) := by
  obtain ⟨label, role, span, children⟩ := n
  rw [Node.addresses, Node.addressesFrom_eq (.mk label role span children)]
  rfl

theorem Node.mem_addresses_iff_exists {n : Node} {p : List Nat} :
    p ∈ n.addresses ↔ ∃ i site, n.sites[i]? = some site
      ∧ (p = [i] ∨ ∃ q ∈ site.node.addresses, i :: q = p) := by
  simp only [n.addresses_eq, List.mem_flatMap, List.mem_cons, List.mem_map, Prod.exists,
    List.mem_zipIdx_iff_getElem?]
  exact exists_comm

/-- What is below the node at an address is below the node. -/
theorem Node.siteAt?_cons {n : Node} {i : Nat} {site : Site} (hsite : n.sites[i]? = some site)
    {p : List Nat} (hp : p ≠ []) : n.siteAt? (i :: p) = site.node.siteAt? p := by
  obtain ⟨j, q, rfl⟩ := List.exists_cons_of_ne_nil hp
  rw [Node.siteAt?, hsite, Option.bind_some]

theorem Node.ne_nil_of_mem_addresses {n : Node} {p : List Nat} (h : p ∈ n.addresses) :
    p ≠ [] := by
  obtain ⟨i, site, -, rfl | ⟨q, -, rfl⟩⟩ := Node.mem_addresses_iff_exists.mp h <;> simp

/-- **The addresses are those at which there is something.** -/
theorem Node.mem_addresses {n : Node} {p : List Nat} :
    p ∈ n.addresses ↔ (n.siteAt? p).isSome := by
  induction p generalizing n with
  | nil =>
    exact ⟨fun h => absurd rfl (Node.ne_nil_of_mem_addresses h), fun h => by cases h⟩
  | cons i p ih =>
    rw [Node.mem_addresses_iff_exists]
    cases p with
    | nil =>
      rw [Node.siteAt?, Option.isSome_iff_exists]
      constructor
      · rintro ⟨j, site, hsite, heq | ⟨q, hq, heq⟩⟩
        · exact ⟨site, by rw [List.cons.inj heq |>.1, hsite]⟩
        · exact absurd (List.cons.inj heq).2 (Node.ne_nil_of_mem_addresses hq)
      · rintro ⟨site, hsite⟩
        exact ⟨i, site, hsite, .inl rfl⟩
    | cons j p =>
      constructor
      · rintro ⟨k, site, hsite, heq | ⟨q, hq, heq⟩⟩
        · cases heq
        · obtain ⟨rfl, rfl⟩ := List.cons.inj heq
          rw [Node.siteAt?_cons hsite (List.cons_ne_nil j p)]
          exact ih.mp hq
      · intro hsome
        obtain ⟨below, hbelow⟩ := Option.isSome_iff_exists.mp hsome
        rw [Node.siteAt?] at hbelow
        obtain ⟨site, hsite, hbelow⟩ := Option.bind_eq_some_iff.mp hbelow
        exact ⟨i, site, hsite, .inr ⟨j :: p, ih.mpr (by rw [hbelow]; rfl), rfl⟩⟩

/-- **What the recursion lists is what is at the addresses.** -/
theorem Node.map_siteAt?_addresses (n : Node) :
    n.addresses.map n.siteAt? = n.preorder.map some := by
  induction n using Node.children_induction with
  | step n ih =>
    have hentry : ∀ entry ∈ n.sites.zipIdx,
        ([entry.2] :: entry.1.node.addresses.map (entry.2 :: ·)).map n.siteAt?
          = (entry.1 :: entry.1.node.preorder).map some := by
      rintro ⟨site, i⟩ hentry
      have hsite : n.sites[i]? = some site := List.mem_zipIdx_iff_getElem?.mp hentry
      have hbelow : ∀ p ∈ site.node.addresses, n.siteAt? (i :: p) = site.node.siteAt? p :=
        fun p hp => Node.siteAt?_cons hsite (Node.ne_nil_of_mem_addresses hp)
      obtain ⟨child, hchild, rfl⟩ := List.mem_map.mp (List.mem_of_getElem? hsite)
      rw [List.map_cons, List.map_cons, List.map_map, Node.siteAt?, hsite, ← ih child hchild]
      exact congrArg _ (List.map_congr_left hbelow)
    rw [n.addresses_eq, n.preorder_eq, List.map_flatMap, List.map_flatMap]
    calc n.sites.zipIdx.flatMap (fun entry =>
            ([entry.2] :: entry.1.node.addresses.map (entry.2 :: ·)).map n.siteAt?)
        = n.sites.zipIdx.flatMap (fun entry => (entry.1 :: entry.1.node.preorder).map some) :=
          List.flatMap_congr hentry
      _ = (n.sites.zipIdx.map Prod.fst).flatMap
            (fun site => (site :: site.node.preorder).map some) := by rw [List.flatMap_map]
      _ = n.sites.flatMap (fun site => (site :: site.node.preorder).map some) := by
          rw [List.zipIdx_map_fst]

/-- **The addresses come in their order**, so none of them comes twice. -/
theorem Node.pairwise_addresses (n : Node) : n.addresses.Pairwise (· < ·) := by
  induction n using Node.children_induction with
  | step n ih =>
    have hnumbers : n.sites.zipIdx.Pairwise fun a b => a.2 < b.2 := by
      rw [← List.pairwise_map, List.zipIdx_map_snd]
      exact List.pairwise_lt_range'
    rw [n.addresses_eq, List.pairwise_flatMap]
    refine ⟨?_, hnumbers.imp ?_⟩
    · rintro ⟨site, i⟩ hentry
      obtain ⟨child, hchild, rfl⟩ :=
        List.mem_map.mp (List.mem_of_getElem? (List.mem_zipIdx_iff_getElem?.mp hentry))
      refine List.pairwise_cons.mpr ⟨?_, ?_⟩
      · rintro p hp
        obtain ⟨q, hq, rfl⟩ := List.mem_map.mp hp
        obtain ⟨j, q, rfl⟩ := List.exists_cons_of_ne_nil (Node.ne_nil_of_mem_addresses hq)
        exact List.cons_lt_cons_iff.mpr (.inr ⟨rfl, List.nil_lt_cons j q⟩)
      · exact List.pairwise_map.mpr ((ih child hchild).imp fun hlt =>
          List.cons_lt_cons_iff.mpr (.inr ⟨rfl, hlt⟩))
    · rintro ⟨site, i⟩ ⟨other, j⟩ hlt p hp q hq
      have hhead : ∀ {k : Nat} {s : Site} {r : List Nat},
          r ∈ [k] :: s.node.addresses.map (k :: ·) → ∃ r', r = k :: r' := by
        intro k s r hr
        rcases List.mem_cons.mp hr with rfl | hr
        · exact ⟨[], rfl⟩
        · obtain ⟨r', -, rfl⟩ := List.mem_map.mp hr
          exact ⟨r', rfl⟩
      obtain ⟨p', rfl⟩ := hhead hp
      obtain ⟨q', rfl⟩ := hhead hq
      exact List.cons_lt_cons_iff.mpr (.inl hlt)

/-! ## Places in the file -/

/-- **A node that holds its children one after the other.** -/
structure Node.IsLaidOut (n : Node) : Prop where
  proper : n.span.start ≤ n.span.stop
  inside : ∀ child ∈ n.children,
    n.span.start ≤ child.span.start ∧ child.span.stop ≤ n.span.stop
  apart : n.children.Pairwise fun a b => a.span.stop ≤ b.span.start

instance (n : Node) : Decidable n.IsLaidOut :=
  decidable_of_iff (n.span.start ≤ n.span.stop
      ∧ (∀ child ∈ n.children, n.span.start ≤ child.span.start ∧ child.span.stop ≤ n.span.stop)
      ∧ n.children.Pairwise fun a b => a.span.stop ≤ b.span.start)
    ⟨fun h => ⟨h.1, h.2.1, h.2.2⟩, fun h => ⟨h.proper, h.inside, h.apart⟩⟩

/-- **A tree in which all children stand in the order of their places.** -/
def Node.InOrder (n : Node) : Prop :=
  n.IsLaidOut ∧ ∀ site ∈ n.preorder, site.node.IsLaidOut

instance (n : Node) : Decidable n.InOrder :=
  inferInstanceAs (Decidable (_ ∧ _))

/-- **A place that comes before another**: it begins earlier, or together with the other and then
it reaches at least as far, unless it has no length. -/
def Span.Before (a b : Span) : Prop :=
  a.start ≤ b.start ∧ (a.start = b.start → b.stop ≤ a.stop ∨ a.start = a.stop)

theorem Node.InOrder.child {n child : Node} (h : n.InOrder) (hchild : child ∈ n.children) :
    child.InOrder := by
  have hsite : (⟨child, some n⟩ : Site) ∈ n.sites := List.mem_map.mpr ⟨child, hchild, rfl⟩
  refine ⟨h.2 _ (Node.mem_preorder_of_mem_children hsite), fun site hbelow => h.2 site ?_⟩
  rw [n.preorder_eq]
  exact List.mem_flatMap.mpr ⟨_, hsite, List.mem_cons_of_mem _ hbelow⟩

/-- What is below a node lies in it. -/
theorem Node.InOrder.inside {n : Node} (h : n.InOrder) {site : Site} (hsite : site ∈ n.preorder) :
    n.span.start ≤ site.node.span.start ∧ site.node.span.stop ≤ n.span.stop := by
  induction n using Node.children_induction with
  | step n ih =>
    rw [n.preorder_eq] at hsite
    obtain ⟨above, habove, hsite⟩ := List.mem_flatMap.mp hsite
    obtain ⟨child, hchild, rfl⟩ := List.mem_map.mp habove
    have hin := h.1.inside child hchild
    rcases List.mem_cons.mp hsite with rfl | hsite
    · exact hin
    · have hbelow := ih child hchild (h.child hchild) hsite
      exact ⟨Nat.le_trans hin.1 hbelow.1, Nat.le_trans hbelow.2 hin.2⟩

/-- **The order of the addresses is that of the places.** -/
theorem Node.pairwise_before {n : Node} (h : n.InOrder) :
    n.preorder.Pairwise fun a b => a.node.span.Before b.node.span := by
  induction n using Node.children_induction with
  | step n ih =>
    rw [n.preorder_eq, List.pairwise_flatMap]
    refine ⟨fun site hsite => ?_, List.pairwise_map.mpr (h.1.apart.imp_of_mem ?_)⟩
    · obtain ⟨child, hchild, rfl⟩ := List.mem_map.mp hsite
      refine List.pairwise_cons.mpr ⟨fun below hbelow => ?_, ih child hchild (h.child hchild)⟩
      have hin := (h.child hchild).inside hbelow
      exact ⟨hin.1, fun _ => .inl hin.2⟩
    · intro a b ha hb hapart below hbelow later hlater
      -- what is in or below the first child ends before the second one begins
      have hstop : below.node.span.start ≤ below.node.span.stop
          ∧ below.node.span.stop ≤ a.span.stop := by
        rcases List.mem_cons.mp hbelow with rfl | hbelow
        · exact ⟨(h.child ha).1.proper, Nat.le_refl _⟩
        · exact ⟨((h.child ha).2 below hbelow).proper, ((h.child ha).inside hbelow).2⟩
      have hstart : b.span.start ≤ later.node.span.start := by
        rcases List.mem_cons.mp hlater with rfl | hlater
        · exact Nat.le_refl _
        · exact ((h.child hb).inside hlater).1
      exact ⟨by omega, fun _ => .inr (by omega)⟩

/-! ## The search -/

/-- The addresses at which a label is wanted. -/
def Node.addressesOf (wanted : Label → Bool) (n : Node) : List (List Nat) :=
  n.addresses.filter fun p => (n.siteAt? p).any fun site => wanted site.node.label

theorem Node.mem_addressesOf {n : Node} {wanted : Label → Bool} {p : List Nat} :
    p ∈ n.addressesOf wanted
      ↔ ∃ site, n.siteAt? p = some site ∧ wanted site.node.label = true := by
  rw [Node.addressesOf, List.mem_filter, Node.mem_addresses, Option.any_eq_true]
  exact and_iff_right_of_imp fun ⟨site, hsite, _⟩ => by rw [hsite]; rfl

/-- What is found is what is at the addresses where it is wanted. -/
theorem Node.map_siteAt?_addressesOf (n : Node) (wanted : Label → Bool) :
    (n.addressesOf wanted).map n.siteAt? = (n.descendants wanted).map some := by
  rw [n.descendants_eq, Node.addressesOf]
  rw [show (fun p => (n.siteAt? p).any fun site => wanted site.node.label)
      = (fun found : Option Site => found.any fun site => wanted site.node.label) ∘ n.siteAt?
      from rfl,
    ← List.filter_map, n.map_siteAt?_addresses, List.filter_map]
  rfl

/-- **The search with a stack is the recursion over the tree.** It finds what is wanted at each
address below the node, and nothing else, once each and in the order of the addresses, where a node
comes before what is below it. What is found for any labels is a part of one list. And in a tree
whose children stand in the order of their places, it is found in the order of the places. -/
theorem Node.descendants_in_source_order (n : Node) (wanted : Label → Bool) :
    (∀ fuel, n.size ≤ fuel → visitStack fuel n.sites = n.preorder)
      ∧ n.descendants wanted = n.preorder.filter (fun site => wanted site.node.label)
      ∧ (∃ addresses : List (List Nat),
        addresses.Pairwise (fun p q => p < q ∧ ¬ q <+: p)
          ∧ (∀ p, p ∈ addresses
            ↔ ∃ site, n.siteAt? p = some site ∧ wanted site.node.label = true)
          ∧ addresses.map n.siteAt? = (n.descendants wanted).map some)
      ∧ (n.descendants wanted).Sublist n.preorder
      ∧ (n.InOrder → (n.descendants wanted).Pairwise
        fun a b => a.node.span.Before b.node.span) := by
  refine ⟨fun fuel hfuel => ?_, n.descendants_eq wanted,
    ⟨n.addressesOf wanted, ?_, fun p => Node.mem_addressesOf,
      n.map_siteAt?_addressesOf wanted⟩, ?_, fun horder => ?_⟩
  · have hsites : n.sites.map Site.node = n.children := by
      rw [Node.sites, List.map_map]
      exact List.map_id _
    rw [visitStack_eq (by rw [hsites]; rw [n.size_eq] at hfuel; omega), ← n.preorder_eq]
  · refine (n.pairwise_addresses.filter _).imp fun {p q} hlt => ⟨hlt, fun hprefixed => ?_⟩
    rcases lt_or_eq_of_isPrefix hprefixed with hgt | rfl
    · exact List.lt_asymm hlt hgt
    · exact List.lt_irrefl _ hlt
  · rw [n.descendants_eq]
    exact List.filter_sublist
  · rw [n.descendants_eq]
    exact (Node.pairwise_before horder).filter _

/-- The calls of `f(g(x), h(y).z)` and of the line after it: the outer one comes before the two
inside it. -/
theorem Node.descendants_in_source_order_calls :
    let tree := (Source.ofText "f(g(x), h(y).z)\nk()\n").tree
    tree.InOrder
      ∧ (tree.descendants (· = .construct .call)).map (fun site =>
          (site.node.span.start, site.node.span.stop)) = [(0, 15), (2, 6), (8, 12), (16, 19)]
      ∧ (tree.descendants (· = .construct .call)).Pairwise
        fun a b => a.node.span.Before b.node.span := by
  intro tree
  have hcalls : tree.InOrder
      ∧ (tree.descendants (· = .construct .call)).map (fun site =>
        (site.node.span.start, site.node.span.stop)) = [(0, 15), (2, 6), (8, 12), (16, 19)] := by
    decide +kernel
  exact ⟨hcalls.1, hcalls.2, (Node.descendants_in_source_order tree _).2.2.2.2 hcalls.1⟩

end CallTree.Syntax
