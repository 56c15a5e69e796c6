import Mathlib.Data.Fintype.Card
import Mathlib.Data.Fintype.EquivFin
import Mathlib.Data.Fintype.Sets
import Mathlib.Logic.Relation

/-!
# Listing what can be reached

Items lead to further items, in a given order, and all that can be reached is listed depth-first:
an item, then what it leads to from left to right, each with what it leads to in turn. What is
listed already is passed over (`Lists`), so it does no harm if items lead round in a circle.

Such a list holds what can be reached, nothing else, and nothing twice (`Lists.mem_iff`,
`Lists.nodup`). If there is no circle, the items could as well be written out as a tree, with
whatever comes up again written out again. Then the list is the walk over the tree, without the
repeats (`Lists.eq_append_fresh`). The reason is that an item which comes up again is not above
the place where it does, so that it was done with before, and all that it leads to is listed.
-/

namespace CallTree

open Relation (ReflTransGen TransGen)

variable {α : Type} {next : α → List α} {a b : α} {todo listed mid all roots walk : List α}

/-- One item leads to another. -/
def LeadsTo (next : α → List α) (a b : α) : Prop := b ∈ next a

/-- **Listing items depth-first**: those to do are added to those that are listed, each followed by
what it leads to. -/
inductive Lists (next : α → List α) : (todo listed all : List α) → Prop
  | done {listed : List α} : Lists next [] listed listed
  | skip {a : α} {todo listed all : List α} (h : a ∈ listed) (rest : Lists next todo listed all) :
      Lists next (a :: todo) listed all
  | visit {a : α} {todo listed mid all : List α} (h : a ∉ listed)
      (below : Lists next (next a) (listed ++ [a]) mid) (rest : Lists next todo mid all) :
      Lists next (a :: todo) listed all

/-- **The walk over the trees that grow from some items**: each item, followed by the walk over what
it leads to. -/
inductive Walks (next : α → List α) : (roots walk : List α) → Prop
  | nil : Walks next [] []
  | cons {a : α} {roots below beside : List α} (hbelow : Walks next (next a) below)
      (hbeside : Walks next roots beside) : Walks next (a :: roots) (a :: below ++ beside)

/-! ## What is on the list -/

namespace Lists

/-- One item after the other. -/
theorem cons (ha : Lists next [a] listed mid) (hrest : Lists next todo mid all) :
    Lists next (a :: todo) listed all := by
  cases ha with
  | skip h rest =>
    cases rest
    exact .skip h hrest
  | visit h below rest =>
    cases rest
    exact .visit h below hrest

/-- What is listed stays listed, in front. -/
theorem isPrefix (h : Lists next todo listed all) : listed <+: all := by
  induction h with
  | done => exact List.prefix_rfl
  | skip _ _ ih => exact ih
  | visit _ _ _ ihbelow ihrest =>
    exact (List.prefix_append _ _).trans (ihbelow.trans ihrest)

theorem nodup (h : Lists next todo listed all) (hlisted : listed.Nodup) : all.Nodup := by
  induction h with
  | done => exact hlisted
  | skip _ _ ih => exact ih hlisted
  | visit h _ _ ihbelow ihrest =>
    refine ihrest (ihbelow (List.nodup_append.mpr ⟨hlisted, List.nodup_singleton _, ?_⟩))
    intro b hb c hc heq
    exact h (List.mem_singleton.mp hc ▸ heq ▸ hb)

/-- What there was to do is listed. -/
theorem todo_subset (h : Lists next todo listed all) : todo ⊆ all := by
  induction h with
  | done => exact List.nil_subset _
  | skip h rest ih => exact List.cons_subset.mpr ⟨rest.isPrefix.subset h, ih⟩
  | visit _ below rest _ ihrest =>
    refine List.cons_subset.mpr ⟨rest.isPrefix.subset (below.isPrefix.subset ?_), ihrest⟩
    exact List.mem_append_right _ (List.mem_singleton_self _)

/-- What is added can be reached. -/
theorem reached (h : Lists next todo listed all) :
    ∀ b ∈ all, b ∈ listed ∨ ∃ a ∈ todo, ReflTransGen (LeadsTo next) a b := by
  induction h with
  | done => exact fun b hb => .inl hb
  | skip _ _ ih =>
    intro b hb
    refine (ih b hb).imp_right ?_
    rintro ⟨a, ha, hreach⟩
    exact ⟨a, List.mem_cons_of_mem _ ha, hreach⟩
  | @visit a _ _ _ _ _ _ _ ihbelow ihrest =>
    intro b hb
    rcases ihrest b hb with hmid | ⟨a', ha', hreach⟩
    · rcases ihbelow b hmid with hlisted | ⟨a', ha', hreach⟩
      · refine (List.mem_append.mp hlisted).imp_right fun hb => ?_
        rw [List.mem_singleton.mp hb]
        exact ⟨a, List.mem_cons_self, .refl⟩
      · exact .inr ⟨a, List.mem_cons_self, hreach.head ha'⟩
    · exact .inr ⟨a', List.mem_cons_of_mem _ ha', hreach⟩

/-- With what is added, what it leads to is listed. -/
theorem closed (h : Lists next todo listed all) : ∀ b ∈ all, b ∈ listed ∨ next b ⊆ all := by
  induction h with
  | done => exact fun b hb => .inl hb
  | skip _ _ ih => exact ih
  | visit _ below rest ihbelow ihrest =>
    intro b hb
    rcases ihrest b hb with hmid | hclosed
    · rcases ihbelow b hmid with hlisted | hclosed
      · refine (List.mem_append.mp hlisted).imp_right fun hb => ?_
        rw [List.mem_singleton.mp hb]
        exact List.Subset.trans below.todo_subset rest.isPrefix.subset
      · exact .inr (List.Subset.trans hclosed rest.isPrefix.subset)
    · exact .inr hclosed

/-- **What is listed is what can be reached.** -/
theorem mem_iff (h : Lists next [a] [] all) : b ∈ all ↔ ReflTransGen (LeadsTo next) a b := by
  constructor
  · intro hb
    obtain ⟨a', ha', hreach⟩ := (h.reached b hb).resolve_left List.not_mem_nil
    rwa [List.mem_singleton.mp ha'] at hreach
  · intro hreach
    induction hreach with
    | refl => exact h.todo_subset (List.mem_singleton_self a)
    | tail _ hstep ih => exact (h.closed _ ih).resolve_left List.not_mem_nil hstep

/-- The item that the list is made for is its first. -/
theorem head?_eq (h : Lists next [a] [] all) : all.head? = some a := by
  cases h with
  | skip h _ => exact absurd h List.not_mem_nil
  | visit _ below rest =>
    cases rest
    obtain ⟨more, rfl⟩ := below.isPrefix
    rfl

end Lists

/-! ## The list and the tree -/

/-- What is on the walk can be reached. -/
theorem Walks.reached (h : Walks next roots walk) :
    ∀ b ∈ walk, ∃ a ∈ roots, ReflTransGen (LeadsTo next) a b := by
  induction h with
  | nil => exact fun b hb => absurd hb List.not_mem_nil
  | @cons a _ _ _ _ _ ihbelow ihbeside =>
    intro b hb
    rcases List.mem_append.mp hb with hb | hb
    · rcases List.mem_cons.mp hb with rfl | hb
      · exact ⟨b, List.mem_cons_self, .refl⟩
      · obtain ⟨a', ha', hreach⟩ := ihbelow b hb
        exact ⟨a, List.mem_cons_self, hreach.head ha'⟩
    · obtain ⟨a', ha', hreach⟩ := ihbeside b hb
      exact ⟨a', List.mem_cons_of_mem _ ha', hreach⟩

/-- There is a walk over several trees if there is one over each. -/
theorem exists_walks_of_forall (h : ∀ a ∈ roots, ∃ walk, Walks next (next a) walk) :
    ∃ walk, Walks next roots walk := by
  induction roots with
  | nil => exact ⟨[], .nil⟩
  | cons a roots ih =>
    obtain ⟨below, hbelow⟩ := h a List.mem_cons_self
    obtain ⟨beside, hbeside⟩ := ih fun a ha => h a (List.mem_cons_of_mem _ ha)
    exact ⟨_, .cons hbelow hbeside⟩

/-- **The tree can be written out** if there is a list and no circle. -/
theorem Lists.exists_walks (h : Lists next [a] [] all)
    (hacyclic : ∀ b, ReflTransGen (LeadsTo next) a b → ¬ TransGen (LeadsTo next) b b) :
    ∃ walk, Walks next [a] walk := by
  classical
  -- on the items of the list, which are finitely many, to be led to is well-founded
  let leads : {b // b ∈ all} → {b // b ∈ all} → Prop := fun c b => TransGen (LeadsTo next) b.1 c.1
  have : IsTrans _ leads := ⟨fun _ _ _ hcb hba => hba.trans hcb⟩
  have : Std.Irrefl leads := ⟨fun b => hacyclic b.1 (h.mem_iff.mp b.2)⟩
  have hwalk : ∀ b : {b // b ∈ all}, ∃ walk, Walks next (next b.1) walk := fun b =>
    (Finite.wellFounded_of_trans_of_irrefl leads).induction b fun b ih =>
      exists_walks_of_forall fun c hc =>
        ih ⟨c, (h.closed b.1 b.2).resolve_left List.not_mem_nil hc⟩ (.single hc)
  exact exists_walks_of_forall fun b hb => hwalk ⟨b, h.todo_subset hb⟩

/-- **Once an item is done with, all that it leads to is listed**, if what was listed before is
above the item or done with itself. -/
theorem Lists.mem_of_reached (h : Lists next (next a) (listed ++ [a]) all)
    (hacyclic : ∀ b, ReflTransGen (LeadsTo next) a b → ¬ TransGen (LeadsTo next) b b)
    (hlisted : ∀ b ∈ listed, TransGen (LeadsTo next) b a
      ∨ ∀ c, ReflTransGen (LeadsTo next) b c → c ∈ listed)
    (hreach : ReflTransGen (LeadsTo next) a b) : b ∈ all := by
  have hsubset : listed ++ [a] ⊆ all := h.isPrefix.subset
  induction hreach with
  | refl => exact hsubset (List.mem_append_right _ (List.mem_singleton_self a))
  | @tail b c hreach hstep ih =>
    rcases h.closed b ih with hb | hclosed
    · rcases List.mem_append.mp hb with hb | hb
      · rcases hlisted b hb with habove | hdone
        · exact absurd (habove.trans_left hreach) (hacyclic b hreach)
        · exact hsubset (List.mem_append_left _ (hdone c (.single hstep)))
      · rw [List.mem_singleton.mp hb] at hstep
        exact h.todo_subset hstep
    · exact hclosed hstep

section Fresh

variable [DecidableEq α]

/-- **What a walk adds to a list**, without repeats. -/
def fresh (listed walk : List α) : List α := (walk.removeAll listed).eraseDups

theorem fresh_nil_left (walk : List α) : fresh [] walk = walk.eraseDups := by
  unfold fresh
  rw [List.removeAll_nil]

theorem fresh_of_subset (h : walk ⊆ listed) : fresh listed walk = [] := by
  have hnone : walk.removeAll listed = [] := by
    refine List.filter_eq_nil_iff.mpr fun b hb => ?_
    simpa using h hb
  unfold fresh
  rw [hnone]
  rfl

theorem fresh_singleton (h : a ∉ listed) : fresh listed [a] = [a] := by
  have hall : [a].removeAll listed = [a] := by
    refine List.filter_eq_self.mpr fun b hb => ?_
    rw [List.mem_singleton.mp hb]
    simpa using h
  unfold fresh
  rw [hall]
  rfl

/-- One walk after another. -/
theorem fresh_append (listed walk walk' : List α) :
    fresh listed (walk ++ walk')
      = fresh listed walk ++ fresh (listed ++ fresh listed walk) walk' := by
  unfold fresh
  have hsplit : (walk ++ walk').removeAll listed
      = walk.removeAll listed ++ walk'.removeAll listed := List.filter_append ..
  have hagain : (walk'.removeAll listed).removeAll (walk.removeAll listed)
      = walk'.removeAll (listed ++ (walk.removeAll listed).eraseDups) := by
    unfold List.removeAll
    rw [List.filter_filter]
    refine List.filter_congr fun b _ => ?_
    by_cases hb : b ∈ listed <;> simp [hb, List.mem_eraseDups]
  rw [hsplit, List.eraseDups_append, hagain]

/-- **Where there is no circle, the list is the walk over the tree without the repeats.** Each item
that is listed is above all that is to be done, or it is done with. -/
theorem Lists.eq_append_fresh (h : Lists next todo listed all) (hwalk : Walks next todo walk)
    (hacyclic : ∀ a ∈ todo, ∀ b, ReflTransGen (LeadsTo next) a b → ¬ TransGen (LeadsTo next) b b)
    (hlisted : ∀ b ∈ listed, (∀ a ∈ todo, TransGen (LeadsTo next) b a)
      ∨ ∀ c, ReflTransGen (LeadsTo next) b c → c ∈ listed) :
    all = listed ++ fresh listed walk := by
  induction h generalizing walk with
  | done =>
    cases hwalk
    rw [fresh_of_subset (List.nil_subset _), List.append_nil]
  | @skip a todo listed all h rest ih =>
    cases hwalk with
    | @cons _ _ below beside hbelow hbeside =>
    -- the item is not above itself, so it is done with
    have hdone : ∀ c, ReflTransGen (LeadsTo next) a c → c ∈ listed :=
      (hlisted a h).resolve_left fun habove =>
        hacyclic a List.mem_cons_self a .refl (habove a List.mem_cons_self)
    have hsubset : a :: below ⊆ listed := by
      intro b hb
      obtain ⟨a', ha', hreach⟩ := (Walks.cons hbelow .nil).reached b (List.mem_append_left _ hb)
      rw [List.mem_singleton.mp ha'] at hreach
      exact hdone b hreach
    rw [fresh_append, fresh_of_subset hsubset, List.nil_append, List.append_nil]
    refine ih hbeside (fun a ha => hacyclic a (List.mem_cons_of_mem _ ha)) fun b hb => ?_
    exact (hlisted b hb).imp_left fun habove a ha => habove a (List.mem_cons_of_mem _ ha)
  | @visit a todo listed mid all h below rest ihbelow ihrest =>
    cases hwalk with
    | @cons _ _ belowWalk beside hbelow hbeside =>
    have habove : ∀ b ∈ listed, TransGen (LeadsTo next) b a
        ∨ ∀ c, ReflTransGen (LeadsTo next) b c → c ∈ listed := fun b hb =>
      (hlisted b hb).imp_left fun habove => habove a List.mem_cons_self
    have hacyclicAt := hacyclic a List.mem_cons_self
    have hdone := fun c => below.mem_of_reached (b := c) hacyclicAt habove
    have hmid : mid = listed ++ [a] ++ fresh (listed ++ [a]) belowWalk := by
      refine ihbelow hbelow (fun c hc b hreach => hacyclicAt b (hreach.head hc)) fun b hb => ?_
      rcases List.mem_append.mp hb with hb | hb
      · refine (habove b hb).imp (fun habove c hc => habove.tail hc) fun hdone c hreach => ?_
        exact List.mem_append_left _ (hdone c hreach)
      · rw [List.mem_singleton.mp hb]
        exact .inl fun c hc => .single hc
    have hall : all = mid ++ fresh mid beside := by
      refine ihrest hbeside (fun c hc => hacyclic c (List.mem_cons_of_mem _ hc)) fun b hb => ?_
      rcases below.reached b hb with hb | ⟨c, hc, hreach⟩
      · rcases List.mem_append.mp hb with hb | hb
        · refine (hlisted b hb).imp (fun habove c hc => habove c (List.mem_cons_of_mem _ hc))
            fun hdone c hreach => ?_
          exact below.isPrefix.subset (List.mem_append_left _ (hdone c hreach))
        · rw [List.mem_singleton.mp hb]
          exact .inr hdone
      · exact .inr fun d hd => hdone d ((hreach.head hc).trans hd)
    have hfirst : listed ++ fresh listed (a :: belowWalk) = mid := by
      rw [← List.singleton_append, fresh_append, fresh_singleton h, ← List.append_assoc, hmid]
    rw [hall, fresh_append, ← List.append_assoc, hfirst]

end Fresh

end CallTree
