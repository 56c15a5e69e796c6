import CallTree.Proofs.Reachability

/-!
# Repeated paths discover nothing

A walk that expands repeated paths may go through the same methods again and again, and
yet it visits the same keys in the same order as a walk that expands each key once. The
two are run side by side, and whenever the latter comes to a key that it has expanded
already, it passes over it, while the former may expand it again. What has to be seen is
that such a detour adds nothing to the visited keys (`detour_invariant`).

The reason is what is usual for a search in depth. A visited key is either on the path,
where it is being expanded and the guard stops the detour, or it is finished, and what a
finished key leads to has been visited (`Underway`). So the detour stays within the
visited keys. A method is known only by its key on the way, so methods with the same key
have to follow the same keys.
-/

namespace CallTree.Walk

open CallTree.Script (Step)

/-! ## What is finished -/

/-- **How things stand while the methods on a path are being expanded**: they have been
visited, and whatever else has been visited leads to visited keys only. -/
structure Plan.Underway (plan : Plan) (entry : MethodSymbol) (path : List String) (p : Progress) :
    Prop where
  path_subset : path ⊆ p.visited
  finished : ∀ m, plan.Reaches entry m → plan.key m ∈ p.visited → plan.key m ∉ path →
    ∀ k ∈ plan.calleeKeys m, k ∈ p.visited

namespace Plan.Underway

variable {plan : Plan} {entry : MethodSymbol} {path : List String} {p q : Progress}

theorem start (plan : Plan) (entry : MethodSymbol) : plan.Underway entry [] {} :=
  ⟨List.nil_subset _, fun _ _ hmem => absurd hmem List.not_mem_nil⟩

/-- Only the visited keys matter. -/
theorem of_visited_eq (h : plan.Underway entry path p) (hq : q.visited = p.visited) :
    plan.Underway entry path q := by
  refine ⟨?_, ?_⟩
  · rw [hq]
    exact h.path_subset
  · rw [hq]
    exact h.finished

/-- **A key that begins to be expanded** is on the path, so nothing is asked of it. -/
theorem enter (h : plan.Underway entry path p) (key : String) :
    plan.Underway entry (key :: path) (p.polled.mark key) where
  path_subset k hk := by
    rw [Progress.mem_visited_mark]
    exact (List.mem_cons.mp hk).symm.imp_left fun hk => h.path_subset hk
  finished m hm hkey hpath k hk := by
    obtain ⟨hne, hpath⟩ := not_or.mp (mt List.mem_cons.mpr hpath)
    rw [Progress.mem_visited_mark] at hkey ⊢
    exact Or.inl (h.finished m hm (hkey.resolve_right hne) hpath k hk)

/-- **A visit finishes what it expands**, unless it is cut off by the cap or called off. -/
theorem grow (h : plan.Underway entry path p) (hkeys : plan.KeysAgree entry) {room : Nat}
    {m : MethodSymbol} (hm : plan.Reaches entry m) {t : Tree}
    (hgrow : grow plan room path m p = (t, q)) (huncut : t.truncated = [])
    (hq : q.halted = false) : plan.Underway entry path q where
  path_subset := List.Subset.trans h.path_subset (visited_subset_of_grow hgrow)
  finished m' hm' hkey hpath k hk := by
    have hvisited := (visited_invariant plan).grow room path m p (plan.key m')
    have hclosed := (settled_invariant plan).grow room path m p h.path_subset
    have hreach : ∀ e ∈ t.expansions, plan.Reaches m e.2 ∧ e.1 = plan.key e.2 := fun e he => by
      have he' : e ∈ (Walk.grow plan room path m p).1.expansions := by rwa [hgrow]
      exact ⟨reaches_of_mem_expansions he', key_of_mem_expansions he'⟩
    rw [hgrow] at hvisited hclosed
    rcases hvisited.mp hkey with hbefore | hduring
    · exact visited_subset_of_grow hgrow (h.finished m' hm' hbefore hpath k hk)
    · -- the method that was expanded under the key follows what `m'` follows
      obtain ⟨e, he, hkey⟩ := List.mem_map.mp hduring
      obtain ⟨hme, hekey⟩ := hreach e he
      have hsame : plan.calleeKeys e.2 = plan.calleeKeys m' :=
        hkeys e.2 m' (hm.trans hme) hm' (hekey.symm.trans hkey)
      rw [← hsame] at hk
      refine ((hclosed hq).callee e he k hk).resolve_right ?_
      rw [huncut]
      exact List.not_mem_nil

end Plan.Underway

/-! ## Detours -/

/-- With repeated paths, only what is on the path is guarded. -/
theorem Plan.notMem_path_of_guards {plan : Plan} (hrepeats : plan.repeats = true)
    {path : List String} {p : Progress} {key : String} (h : plan.guards path p key = false) :
    key ∉ path := by
  rw [Plan.guards_of_repeats hrepeats] at h
  exact fun hmem => Bool.false_ne_true (h.symm.trans (List.contains_iff_mem.mpr hmem))

/-- **Expanding a visited key again adds nothing** to what was visited. -/
theorem detour_invariant (plan : Plan) (hrepeats : plan.repeats = true) (entry : MethodSymbol) :
    plan.Invariant
      (fun _ path m p _ q => plan.Reaches entry m → plan.Underway entry path p →
        plan.key m ∈ p.visited → q.visited = p.visited)
      (fun _ path steps p _ q =>
        (∀ callee ∈ Script.calleesOf steps,
          plan.Reaches entry callee ∧ plan.key callee ∈ p.visited) →
        plan.Underway entry path p → q.visited = p.visited) where
  calledOff _ _ _ _ := rfl
  met _ _ _ _ _ := rfl
  capped _ _ _ _ _ := rfl
  expanded {_ path m p _ _} _ hg _ hB hm hp hkey := by
    have hmark : (p.polled.mark (plan.key m)).visited = p.visited := by
      unfold Progress.mark
      rw [if_pos (List.contains_iff_mem.mpr (show _ ∈ p.polled.visited from hkey))]
      rfl
    -- the key is visited and not on the path, so what it leads to is visited as well
    have hcallees : ∀ callee ∈ (plan.script m).callees,
        plan.Reaches entry callee ∧ plan.key callee ∈ (p.polled.mark (plan.key m)).visited := by
      intro callee hcallee
      rw [hmark]
      exact ⟨hm.tail hcallee, hp.finished m hm hkey (Plan.notMem_path_of_guards hrepeats hg) _
        (Plan.Follows.mem_calleeKeys hcallee)⟩
    rw [hB hcallees (hp.enter _), hmark]
  done _ _ := rfl
  remark hB := hB
  stopped _ hV _ hsteps hp := by
    obtain ⟨hcallee, hkey⟩ := hsteps _ List.mem_cons_self
    exact hV hcallee hp hkey
  followed _ hV _ _ hB hsteps hp := by
    obtain ⟨⟨hcallee, hkey⟩, hrest⟩ := List.forall_mem_cons.mp hsteps
    have hq := hV hcallee hp hkey
    rw [← hq]
    refine hB (fun callee hmem => ?_) (hp.of_visited_eq hq)
    rw [hq]
    exact hrest callee hmem

/-! ## Side by side -/

/-- The plan that expands each key once and is otherwise the same. -/
def Plan.once (plan : Plan) : Plan := { plan with repeats := false }

/-- A walk is alongside another when it is behind it and has visited the same keys. -/
structure Progress.Alongside (p' p : Progress) : Prop extends p'.Behind p where
  visited_eq : p'.visited = p.visited

namespace Progress.Alongside

variable {p p' : Progress}

theorem polled (h : p'.Alongside p) : p'.polled.Alongside p.polled :=
  ⟨h.toBehind.polled, h.visited_eq⟩

theorem mark (h : p'.Alongside p) (key : String) : (p'.mark key).Alongside (p.mark key) := by
  refine ⟨h.toBehind.mark key, ?_⟩
  unfold Progress.mark
  rw [h.visited_eq]
  split
  · exact h.visited_eq
  · rfl

end Progress.Alongside

/-- The walk that expands each key once guards what both walks have visited. -/
theorem Plan.guards_once_of_mem (plan : Plan) {path : List String} {p p' : Progress}
    (h : p'.Alongside p) {key : String} (hkey : key ∈ p.visited) :
    plan.once.guards path p' key = true := by
  rw [← h.visited_eq] at hkey
  exact List.contains_iff_mem.mpr hkey

theorem Plan.guards_once_of_notMem (plan : Plan) {path : List String} {p p' : Progress}
    (h : p'.Alongside p) {key : String} (hkey : key ∉ p.visited) :
    plan.once.guards path p' key = false := by
  rw [← h.visited_eq] at hkey
  exact Bool.eq_false_iff.mpr (mt List.contains_iff_mem.mp hkey)

/-- **The two walks go on side by side.** Whenever the one with repeated paths gets through
a visit, or through some steps, so does the one that expands each key once, with the same
keys visited. -/
theorem alongside_invariant (plan : Plan) (hrepeats : plan.repeats = true) (entry : MethodSymbol)
    (hkeys : plan.KeysAgree entry) :
    plan.Invariant
      (fun room path m p t q => plan.Reaches entry m → plan.Underway entry path p →
        t.truncated = [] → plan.Uninterrupted q →
        ∀ p', p'.Alongside p → (grow plan.once room path m p').2.Alongside q)
      (fun room path steps p bs q =>
        (∀ callee ∈ Script.calleesOf steps, plan.Reaches entry callee) →
        plan.Underway entry path p → bs.truncated = [] → plan.Uninterrupted q →
        ∀ p', p'.Alongside p →
          (growBranches (grow plan.once room path) steps p').2.Alongside q) where
  calledOff _ _ _ _ hq := by cases hq.on
  met _ hg _ hp _ hq p' h := by
    have hmem := Plan.mem_visited_of_guards hp.path_subset hg
    have hon' : plan.once.calledOff p'.polls = false := hq.goes_on h.toBehind (Nat.lt_succ_self _)
    rw [grow_met hon' (plan.guards_once_of_mem h hmem)]
    exact h.polled
  capped _ _ _ _ hcut := by cases hcut
  expanded {room path m p bs q} hon hg hbs hB hm hp hcut hq p' h := by
    have hlt : p.polls < q.polls := polls_lt_of_growBranches hbs
    have hon' : plan.once.calledOff p'.polls = false := hq.goes_on h.toBehind hlt
    by_cases hkey : plan.key m ∈ p.visited
    · -- the one walk passes over the key, the other makes a detour
      have hdetour := (detour_invariant plan hrepeats entry).grow (room + 1) path m p hm hp hkey
      rw [grow_expanded hon hg hbs] at hdetour
      rw [grow_met hon' (plan.guards_once_of_mem h hkey)]
      exact ⟨h.toBehind.polled.of_polls_le hlt, h.visited_eq.trans hdetour.symm⟩
    · rw [grow_expanded hon' (plan.guards_once_of_notMem h hkey) rfl]
      exact hB (fun callee hcallee => hm.tail hcallee) (hp.enter _) hcut hq _ (h.polled.mark _)
  done _ _ _ _ _ h := h
  remark hB := hB
  stopped _ _ hstop _ _ _ hq := by
    rw [hq.on] at hstop
    cases hstop
  followed hgrow hV hon hbs hB hsteps hp hcut hq p' h := by
    obtain ⟨hcallee, hrest⟩ := List.forall_mem_cons.mp hsteps
    obtain ⟨hcut, hcut'⟩ := List.append_eq_nil_iff.mp hcut
    have hfirst := hV hcallee hp hcut (hq.before hon (polls_le_of_growBranches hbs)) p' h
    rw [growBranches_followed rfl hfirst.on]
    exact hB hrest (hp.grow hkeys hcallee hgrow hcut hon) hcut' hq _ hfirst

section Walks

variable {Body Scope Expr : Type} (model : CodeModel Body Scope Expr) (noise : Noise)
  (options : Options) (calledOff : Nat → Bool) (entry : MethodSymbol)

/-- **Both guards discover the same methods in the same order.** When methods with the same
key follow the same keys, and the walk with repeated paths is neither called off nor
stopped by the cap, then the walk that expands each key once is not called off either, and
visits the same keys in the same order. -/
theorem policies_discover_alike
    (hkeys : (Plan.ofModel model noise options calledOff).KeysAgree entry)
    (hrun : (walk model noise { options with expandRepeatedPaths := true } calledOff
      entry).cancelled = false)
    (hroom : ∀ k d detail, Event.terminal k d .depthLimit detail
      ∉ (walk model noise { options with expandRepeatedPaths := true } calledOff entry).events) :
    let outcome (repeats : Bool) :=
      walk model noise { options with expandRepeatedPaths := repeats } calledOff entry
    (outcome false).cancelled = false ∧ (outcome false).visited = (outcome true).visited := by
  intro outcome
  let plan := Plan.ofModel model noise { options with expandRepeatedPaths := true } calledOff
  have huncut : (grow plan options.maxDepth [] entry {}).1.truncated = [] := by
    refine List.eq_nil_iff_forall_not_mem.mpr fun k hk => ?_
    obtain ⟨d, detail, hmem⟩ := Tree.mem_truncated.mp hk
    exact hroom k d detail hmem
  have halongside := (alongside_invariant plan rfl entry hkeys).grow options.maxDepth [] entry {}
    .refl (.start plan entry) huncut (.of_grow hrun) {} ⟨⟨rfl, Nat.le_refl _⟩, rfl⟩
  exact ⟨halongside.on, halongside.visited_eq⟩

end Walks

/-- Two ways lead to a method `k`, to `p.k` on the first and to `q.k` on the second. -/
def namesakeWays : Tabular.Program :=
  .ofCalls [("e", ["a", "b"]), ("a", ["p.k"]), ("b", ["q.k"]), ("p.k", ["c"]), ("q.k", ["c"]),
    ("c", ["e"])]

/-- The walk with repeated paths looks into `q.k` and `c` again and finds nothing new. -/
theorem policies_discover_alike_namesakeWays :
    let outcome (repeats : Bool) :=
      walk namesakeWays.model {} { expandRepeatedPaths := repeats } (fun _ => false) (.called "e")
    (outcome true).expanded.length = 7
      ∧ (outcome false).visited = (outcome true).visited
      ∧ (outcome true).visited
        = ["<module>.e", "<module>.a", "<module>.k", "<module>.c", "<module>.b"] := by
  intro outcome
  let plan := Plan.ofModel namesakeWays.model {} {} fun _ => false
  let methods := ["e", "a", "b", "p.k", "q.k", "c"].map MethodSymbol.called
  have hclosed : ∀ m ∈ methods, ∀ callee ∈ (plan.script m).callees, callee ∈ methods := by
    decide +kernel
  have hagree : ∀ m ∈ methods, ∀ m' ∈ methods, plan.key m = plan.key m' →
      plan.calleeKeys m = plan.calleeKeys m' := by
    decide +kernel
  have hkeys : plan.KeysAgree (.called "e") := fun m m' hm hm' =>
    hagree m (hm.mem_of_closed hclosed List.mem_cons_self) m'
      (hm'.mem_of_closed hclosed List.mem_cons_self)
  refine ⟨by decide +kernel, ?_, by decide +kernel⟩
  exact (policies_discover_alike namesakeWays.model {} {} (fun _ => false) (.called "e") hkeys
    (by decide +kernel) (depthLimit_notMem (by decide +kernel))).2

end CallTree.Walk
