import CallTree.Proofs.Lists
import CallTree.Syntax.TypeName
import Mathlib.Data.List.Perm.Basic

/-!
# What is below a node

The descendants of a node are found with a stack, and they are the preorder of the tree
(`Node.descendants_eq`): each child, and after it everything below that child. So what holds of the
children of a node, and goes from every node to its children, holds of everything below it
(`Node.preorder_induction`).

Something that a node and one of its children are together can be found from either of them. Found
from the child, it comes up where the child is visited, and found from the node where the node is.
These are different places, but it is found as often (`Node.perm_filterMap_preorder`).
-/

namespace CallTree.Syntax

open scoped List

/-- **What holds of a tree**, if it holds of a node whenever it holds of its children. -/
@[elab_as_elim]
theorem Node.children_induction {motive : Node → Prop}
    (step : ∀ n, (∀ child ∈ n.children, motive child) → motive n) (n : Node) : motive n := by
  induction hsize : n.size using Nat.strongRecOn generalizing n with
  | _ size ih =>
    exact step n fun child hchild => ih _ (hsize ▸ Node.size_lt_of_mem hchild) child rfl

/-! ## Preorder -/

theorem Node.preorderList_eq (parent : Node) (children : List Node) :
    Node.preorderList parent children
      = (children.map fun child => ⟨child, some parent⟩).flatMap fun site : Site =>
        site :: site.node.preorder := by
  induction children with
  | nil => rw [Node.preorderList]; rfl
  | cons child children ih =>
    rw [Node.preorderList, ih]
    rfl

/-- **The preorder of a tree**: each child, and after it what is below it. -/
theorem Node.preorder_eq (n : Node) :
    n.preorder = n.sites.flatMap fun site => site :: site.node.preorder := by
  cases n
  rw [Node.preorder, Node.preorderList_eq]
  rfl

theorem Node.sizes_append (a b : List Node) :
    Node.sizes (a ++ b) = Node.sizes a + Node.sizes b := by
  induction a with
  | nil => rw [List.nil_append, Node.sizes, Nat.zero_add]
  | cons n a ih => rw [List.cons_append, Node.sizes, ih, Node.sizes, Nat.add_assoc]

theorem Node.size_eq (n : Node) : n.size = Node.sizes n.children + 1 := by
  cases n
  rw [Node.size]
  rfl

/-- **The stack is visited from its top**: each site on it, and after it what is below it, if
there is fuel for all of them. -/
theorem visitStack_eq {fuel : Nat} {stack : List Site}
    (h : Node.sizes (stack.map Site.node) ≤ fuel) :
    visitStack fuel stack = stack.flatMap fun site => site :: site.node.preorder := by
  induction fuel generalizing stack with
  | zero =>
    cases stack with
    | nil => rfl
    | cons site stack =>
      rw [List.map_cons, Node.sizes, Node.size_eq] at h
      omega
  | succ fuel ih =>
    cases stack with
    | nil => rfl
    | cons site stack =>
      have hbelow : site.node.sites.map Site.node = site.node.children := by
        rw [Node.sites, List.map_map]
        exact List.map_id _
      have hfuel : Node.sizes ((site.node.sites ++ stack).map Site.node) ≤ fuel := by
        rw [List.map_append, hbelow, Node.sizes_append]
        rw [List.map_cons, Node.sizes, Node.size_eq] at h
        omega
      rw [visitStack, ih hfuel, List.flatMap_append, ← Node.preorder_eq, List.flatMap_cons,
        List.cons_append]

/-- **The descendants of a node are those of its preorder.** -/
theorem Node.descendants_eq (n : Node) (wanted : Label → Bool) :
    n.descendants wanted = n.preorder.filter fun site => wanted site.node.label := by
  have hsites : Node.sizes (n.sites.map Site.node) ≤ n.size := by
    rw [Node.sites, List.map_map, Node.size_eq]
    exact Nat.le_succ_of_le (Nat.le_of_eq (congrArg Node.sizes (List.map_id n.children)))
  rw [Node.descendants, visitStack_eq hsites, ← Node.preorder_eq]

/-- **What holds of everything below a node**: it holds of the children, and goes from every node
to its children. -/
theorem Node.preorder_induction {P : Site → Prop} {n : Node} (start : ∀ site ∈ n.sites, P site)
    (step : ∀ site, P site → ∀ below ∈ site.node.sites, P below) : ∀ site ∈ n.preorder, P site := by
  induction n using Node.children_induction with
  | step n ih =>
    intro site hsite
    rw [Node.preorder_eq] at hsite
    obtain ⟨above, habove, hsite⟩ := List.mem_flatMap.mp hsite
    obtain ⟨child, hchild, rfl⟩ := List.mem_map.mp habove
    rcases List.mem_cons.mp hsite with rfl | hsite
    · exact start _ habove
    · exact ih child hchild (step _ (start _ habove)) site hsite

theorem Node.mem_preorder_of_mem_children {n : Node} {site : Site} (h : site ∈ n.sites) :
    site ∈ n.preorder := by
  rw [Node.preorder_eq]
  exact List.mem_flatMap.mpr ⟨site, h, List.mem_cons_self⟩

/-- What stands right below a descendant is a descendant. -/
theorem Node.mem_preorder_of_mem_sites {n : Node} {above below : Site} (h : above ∈ n.preorder)
    (hbelow : below ∈ above.node.sites) : below ∈ n.preorder := by
  induction n using Node.children_induction with
  | step n ih =>
    rw [Node.preorder_eq] at h ⊢
    obtain ⟨site, hsite, habove⟩ := List.mem_flatMap.mp h
    obtain ⟨child, hchild, rfl⟩ := List.mem_map.mp hsite
    refine List.mem_flatMap.mpr ⟨_, hsite, List.mem_cons_of_mem _ ?_⟩
    rcases List.mem_cons.mp habove with rfl | habove
    · exact Node.mem_preorder_of_mem_children hbelow
    · exact ih child hchild habove

/-- What stands above a descendant is the node itself, or one of its descendants. -/
theorem Node.parent_of_mem_preorder {n : Node} {site : Site} (h : site ∈ n.preorder) :
    site.parent = some n ∨ ∃ above ∈ n.preorder, site.parent = some above.node := by
  refine (Node.preorder_induction (P := fun site => site ∈ n.preorder
    ∧ (site.parent = some n ∨ ∃ above ∈ n.preorder, site.parent = some above.node)) ?_ ?_ site h).2
  · intro site hsite
    obtain ⟨child, -, rfl⟩ := List.mem_map.mp hsite
    exact ⟨Node.mem_preorder_of_mem_children hsite, .inl rfl⟩
  · rintro above ⟨habove, -⟩ site hsite
    obtain ⟨child, -, rfl⟩ := List.mem_map.mp hsite
    exact ⟨Node.mem_preorder_of_mem_sites habove hsite, .inr ⟨above, habove, rfl⟩⟩

/-! ## From above and from below -/

/-- **Found from above, or from below.** When each node below gives what its children give, then
all that is given by children is what the children of the node itself give, and what the nodes
below it give. -/
theorem Node.perm_filterMap_preorder {β : Type} {ofChild ofNode : Site → Option β} {n : Node}
    (h : ∀ site ∈ n.preorder, site.node.sites.filterMap ofChild = (ofNode site).toList) :
    (n.preorder.filterMap ofChild).Perm
      (n.sites.filterMap ofChild ++ n.preorder.filterMap ofNode) := by
  induction n using Node.children_induction with
  | step n ih =>
    rw [Node.preorder_eq] at h
    have hvisit {site below : Site} (hsite : site ∈ n.sites)
        (hbelow : below ∈ site :: site.node.preorder) :
        below.node.sites.filterMap ofChild = (ofNode below).toList :=
      h below (List.mem_flatMap.mpr ⟨site, hsite, hbelow⟩)
    have hbelow : ∀ site ∈ n.sites, (site.node.preorder.filterMap ofChild).Perm
        ((site :: site.node.preorder).filterMap ofNode) := by
      intro site hsite
      rw [filterMap_cons_toList, ← hvisit hsite List.mem_cons_self]
      obtain ⟨child, hchild, rfl⟩ := List.mem_map.mp hsite
      exact ih child hchild fun below hbelow => hvisit hsite (List.mem_cons_of_mem _ hbelow)
    rw [Node.preorder_eq, List.filterMap_flatMap, List.filterMap_flatMap]
    calc n.sites.flatMap (fun site => (site :: site.node.preorder).filterMap ofChild)
        = n.sites.flatMap (fun site =>
            (ofChild site).toList ++ site.node.preorder.filterMap ofChild) := by
          simp only [filterMap_cons_toList]
      _ ~ n.sites.flatMap (fun site => (ofChild site).toList)
            ++ n.sites.flatMap (fun site => site.node.preorder.filterMap ofChild) :=
          (List.flatMap_append_perm _ _ _).symm
      _ ~ n.sites.filterMap ofChild
            ++ n.sites.flatMap (fun site => (site :: site.node.preorder).filterMap ofNode) := by
          rw [← List.filterMap_eq_flatMap_toList]
          exact (List.Perm.flatMap_left _ hbelow).append_left _

end CallTree.Syntax
