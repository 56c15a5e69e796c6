import CallTree.Proofs.ImportSpellings

/-!
# Names that are passed on

A module can take a name out of another one, which has taken it out of a third, and so on. Looking
the name up goes along this chain (`PassesOn`), one module after the other, and it stops in two
ways: at a module that defines the name, or when as many imports have been followed as are
followed at all.

One link costs one import, except for the first: the module in which the look-up begins is not
asked as others are, and its import is not counted. So a chain may have one link more than there
are imports to follow (`inModuleWithin_of_chain`). In a circle no module defines the name, and the
look-up goes round until the imports are used up (`inModuleWithin_of_circle`).
-/

namespace CallTree.Workspace

open CallTree.Text (segments)

/-- **A module passes a name on**: it does not define `x` and binds it by `from p import x`, and in
no other way. -/
structure PassesOn (ws : Workspace) (m p x : String) : Prop where
  notDefined : ws.definedIn? m x = none
  /-- The other module is given by its full name. -/
  absolute : IsAbsolute p
  imported : ∃ file bindings, ws.fileOf? m = some file ∧ file.bindings = .ok bindings
    ∧ ⟨false, x, p ++ "." ++ x⟩ ∈ bindings
    ∧ ∀ b ∈ bindings, b.name = x → b = ⟨false, x, p ++ "." ++ x⟩

section Links

variable {ws : Workspace} {m p x : String}

/-- What is indexed of a module that passes a name on. -/
theorem PassesOn.exists_index (h : ws.PassesOn m p x) (hws : Loaded ws) :
    ∃ index, ws.modules.get? m = some index ∧ index.defined? x = none
      ∧ index.imports.get? x = some (p ++ "." ++ x) ∧ x ∉ index.wholeModules := by
  obtain ⟨file, bindings, hfile, hbindings, hmem, honly⟩ := h.imported
  obtain ⟨isPackage, hindex⟩ := hws.module_eq m file hfile
  have hbinds := binds_outline hbindings isPackage
  refine ⟨_, hindex, ?_, hbinds.imports_of_only hmem honly, fun hwhole => ?_⟩
  · have hdefined := h.notDefined
    unfold definedIn? at hdefined
    rw [hindex] at hdefined
    exact hdefined
  · obtain ⟨b, hb, hisWhole, hname⟩ := (hbinds.wholeModules x).mp hwhole
    rw [honly b hb hname] at hisWhole
    cases hisWhole

theorem PassesOn.has_modules (h : ws.PassesOn m p x) (hws : Loaded ws) :
    ws.modules.has m = true := by
  obtain ⟨index, hindex, -⟩ := h.exists_index hws
  exact Data.Table.has_eq_true_iff.mpr (List.mem_map_of_mem (Data.Table.mem_of_get? hindex))

theorem has_modules_of_definedIn? {s : Symbol} (h : ws.definedIn? m x = some s) :
    ws.modules.has m = true := by
  obtain ⟨index, hindex, -⟩ := Option.bind_eq_some_iff.mp h
  exact Data.Table.has_eq_true_iff.mpr (List.mem_map_of_mem (Data.Table.mem_of_get? hindex))

/-- **A module that is asked for a name it passes on** asks the next one, with one import less to
follow, or gives up. -/
theorem PassesOn.asks_next (h : ws.PassesOn m p x) (hws : Loaded ws)
    (hx : segments x = [x]) (hp : ws.modules.has p = true)
    (hsub : ws.modules.has (m ++ "." ++ x) = false)
    (hsub' : ws.modules.has (p ++ "." ++ x) = false) (member : MemberLookup) :
    inModuleWithin ws member 0 ⟨m, false⟩ x = .ok none
      ∧ ∀ hops, inModuleWithin ws member (hops + 1) ⟨m, false⟩ x
        = inModuleWithin ws member hops ⟨p, false⟩ x := by
  obtain ⟨index, hindex, hdefined, himports, hwhole⟩ := h.exists_index hws
  have hsubmodule : submodule? ws ⟨m, false⟩ x = none := by
    unfold submodule?
    simp [hsub]
  constructor
  · unfold inModuleWithin
    simp [hindex, hdefined, himports, hsubmodule]
  · intro hops
    rw [inModuleWithin]
    simp only [Bool.false_eq_true, if_false, hindex, hdefined, himports, hsubmodule]
    exact importedWith_member h.absolute hp hx hwhole hsub'

/-- **At the top of a module**, a name that is passed on is looked for in the next one. -/
theorem PassesOn.global_eq (h : ws.PassesOn m p x) (hws : Loaded ws) (hx : segments x = [x])
    (hp : ws.modules.has p = true) (hsub : ws.modules.has (p ++ "." ++ x) = false) :
    ws.global m x = inModuleWithin ws ws.member mostHops ⟨p, false⟩ x := by
  obtain ⟨index, hindex, hdefined, himports, hwhole⟩ := h.exists_index hws
  rw [global_of_imported hindex hdefined himports,
    importedWith_member h.absolute hp hx hwhole hsub]
  rfl

end Links

/-! ## Chains and circles -/

section Chains

variable {ws : Workspace} {x : String} {m : Nat → String} {n : Nat} (hws : Loaded ws)
  (hx : segments x = [x]) (hsub : ∀ i ≤ n, ws.modules.has (m i ++ "." ++ x) = false)
  (hchain : ∀ i < n, ws.PassesOn (m i) (m (i + 1)) x)
include hws hx hsub hchain

/-- **Along a chain that ends in a definition**: it is found if there are imports enough for the
links that are left. -/
theorem inModuleWithin_of_chain {s : Symbol} (hs : ws.definedIn? (m n) x = some s)
    (member : MemberLookup) (hops : Nat) {i : Nat} (hi : i ≤ n) :
    inModuleWithin ws member hops ⟨m i, false⟩ x
      = .ok (if n - i ≤ hops then some (.symbol s) else none) := by
  have hmodule : ∀ i ≤ n, ws.modules.has (m i) = true := by
    intro i hi
    rcases Nat.eq_or_lt_of_le hi with rfl | hlt
    · exact has_modules_of_definedIn? hs
    · exact (hchain i hlt).has_modules hws
  have hlink : ∀ i < n, _ := fun i hlt => (hchain i hlt).asks_next hws hx
    (hmodule (i + 1) hlt) (hsub i (Nat.le_of_lt hlt)) (hsub (i + 1) hlt) member
  induction hops generalizing i with
  | zero =>
    rcases Nat.eq_or_lt_of_le hi with rfl | hlt
    · rw [inModuleWithin_of_definedIn? 0 hs, if_pos (by omega)]
    · rw [(hlink i hlt).1, if_neg (by omega)]
  | succ hops ih =>
    rcases Nat.eq_or_lt_of_le hi with rfl | hlt
    · rw [inModuleWithin_of_definedIn? (hops + 1) hs, if_pos (by omega)]
    · have hleft : n - (i + 1) ≤ hops ↔ n - i ≤ hops + 1 := by omega
      rw [(hlink i hlt).2, ih hlt]
      simp only [hleft]

/-- **In a circle** nothing is found, however many imports are followed: each module of the circle
asks another one. -/
theorem inModuleWithin_of_circle {j : Nat} (hj : j ≤ n) (hback : ws.PassesOn (m n) (m j) x)
    (member : MemberLookup) (hops : Nat) {i : Nat} (hi : i ≤ n) :
    inModuleWithin ws member hops ⟨m i, false⟩ x = .ok none := by
  have hnext : ∀ i ≤ n, ∃ k ≤ n, ws.PassesOn (m i) (m k) x := by
    intro i hi
    rcases Nat.eq_or_lt_of_le hi with rfl | hlt
    · exact ⟨j, hj, hback⟩
    · exact ⟨i + 1, hlt, hchain i hlt⟩
  have hlink : ∀ i ≤ n, ∃ k ≤ n, _ := fun i hi => by
    obtain ⟨k, hk, hpasses⟩ := hnext i hi
    obtain ⟨_, _, hpasses'⟩ := hnext k hk
    exact ⟨k, hk, hpasses.asks_next hws hx (hpasses'.has_modules hws) (hsub i hi) (hsub k hk)
      member⟩
  induction hops generalizing i with
  | zero =>
    obtain ⟨k, -, hasks⟩ := hlink i hi
    exact hasks.1
  | succ hops ih =>
    obtain ⟨k, hk, hasks⟩ := hlink i hi
    exact (hasks.2 hops).trans (ih hk)

end Chains

/-- **A name that is passed on from module to module.** Each of some modules binds `x` by taking it
out of the next and in no other way, and none has a module of that name below it. If the last one
defines `x`, that is what `x` is in the first, as long as there are at most nine links, and with
ten or more `x` is nothing there. If the last one passes `x` on to one of the modules instead, `x`
is nothing. -/
theorem passed_on_up_to_nine_times (ws : Workspace) (x : String) (m : Nat → String) (n : Nat)
    (hws : Loaded ws) (hx : segments x = [x]) (hn : 1 ≤ n)
    (hsub : ∀ i ≤ n, ws.modules.has (m i ++ "." ++ x) = false)
    (hchain : ∀ i < n, ws.PassesOn (m i) (m (i + 1)) x) :
    (∀ s, ws.definedIn? (m n) x = some s →
        (n ≤ 9 → ws.global (m 0) x = .ok (some (.symbol s)))
          ∧ (10 ≤ n → ws.global (m 0) x = .ok none))
      ∧ ∀ j ≤ n, ws.PassesOn (m n) (m j) x → ws.global (m 0) x = .ok none := by
  -- the first import is not counted, so the second module is asked with all hops left
  have hfirst : ws.modules.has (m n) = true →
      ws.global (m 0) x = inModuleWithin ws ws.member mostHops ⟨m 1, false⟩ x := by
    intro hlast
    have hmodule : ws.modules.has (m 1) = true := by
      rcases Nat.eq_or_lt_of_le hn with rfl | hlt
      · exact hlast
      · exact (hchain 1 hlt).has_modules hws
    exact (hchain 0 hn).global_eq hws hx hmodule (hsub 1 hn)
  refine ⟨fun s hs => ?_, fun j hj hback => ?_⟩
  · have hglobal := (hfirst (has_modules_of_definedIn? hs)).trans
      (inModuleWithin_of_chain hws hx hsub hchain hs ws.member mostHops hn)
    unfold mostHops at hglobal
    constructor
    · intro hle
      rw [hglobal, if_pos (by omega)]
    · intro hle
      rw [hglobal, if_neg (by omega)]
  · exact (hfirst (hback.has_modules hws)).trans
      (inModuleWithin_of_circle hws hx hsub hchain hj hback ws.member mostHops hn)

/-! ## A chain of ten links, and a circle -/

/-- The names of the modules of the chain. -/
def relayNames : List String := ["a", "b", "c", "d", "e", "f", "g", "h", "i", "j", "k"]

/-- A module of the chain. -/
def relayName (i : Nat) : String := relayNames.getD i ""

/-- Eleven modules, of which the last defines a function that all others take out of the next, and
two that take a function out of each other. -/
def relay : Workspace :=
  inTurn ((List.range 10).map (fun i =>
      (relayName i ++ ".py", "from " ++ relayName (i + 1) ++ " import run\n"))
    ++ [("k.py", "def run(): 0\n"), ("y.py", "from z import run\n"),
      ("z.py", "from y import run\n")])

/-- A module passes a name on if this is all that it imports. -/
theorem passesOn_of_bindings {ws : Workspace} {m p x : String} (hnot : ws.definedIn? m x = none)
    (habsolute : IsAbsolute p) (h : ∃ file ∈ ws.fileOf? m,
      file.bindings = .ok [⟨false, x, p ++ "." ++ x⟩]) : ws.PassesOn m p x := by
  obtain ⟨file, hfile, hbindings⟩ := h
  exact ⟨hnot, habsolute, file, _, hfile, hbindings, List.mem_singleton_self _,
    fun _ hb _ => List.mem_singleton.mp hb⟩

theorem passed_on_up_to_nine_times_relay :
    (∃ s ∈ relay.definedIn? "k" "run", relay.global "b" "run" = .ok (some (.symbol s)))
      ∧ relay.global "a" "run" = .ok none ∧ relay.global "y" "run" = .ok none := by
  have hfacts : (∀ link ∈ (List.range 10).map (fun i => (relayName i, relayName (i + 1)))
        ++ [("y", "z"), ("z", "y")], relay.definedIn? link.1 "run" = none ∧ IsAbsolute link.2
        ∧ ∃ file ∈ relay.fileOf? link.1,
          file.bindings = .ok [⟨false, "run", link.2 ++ "." ++ "run"⟩])
      ∧ (relay.definedIn? "k" "run").isSome = true
      ∧ ∀ name ∈ relayNames ++ ["y", "z"], relay.modules.has (name ++ "." ++ "run") = false := by
    decide +kernel
  have hloaded : Loaded relay := loaded_inTurn (by decide +kernel)
  generalize relay = ws at *
  obtain ⟨hlinks, hdefined, hsub⟩ := hfacts
  obtain ⟨s, hs⟩ := Option.isSome_iff_exists.mp hdefined
  have hpasses : ∀ m p, (m, p) ∈ (List.range 10).map (fun i => (relayName i, relayName (i + 1)))
      ++ [("y", "z"), ("z", "y")] → ws.PassesOn m p "run" := fun m p hlink =>
    passesOn_of_bindings (hlinks _ hlink).1 (hlinks _ hlink).2.1 (hlinks _ hlink).2.2
  have hchain : ∀ i < 10, ws.PassesOn (relayName i) (relayName (i + 1)) "run" := fun i hi =>
    hpasses _ _ (List.mem_append_left _ (List.mem_map.mpr ⟨i, List.mem_range.mpr hi, rfl⟩))
  have hnames : ∀ i ≤ 10, relayName i ∈ relayNames ++ ["y", "z"] := by decide
  refine ⟨⟨s, hs, ?_⟩, ?_, ?_⟩
  · exact ((passed_on_up_to_nine_times ws "run" (fun i => relayName (i + 1)) 9 hloaded (by decide)
      (by decide) (fun i hi => hsub _ (hnames (i + 1) (Nat.succ_le_succ hi)))
      (fun i hi => hchain (i + 1) (Nat.succ_lt_succ hi))).1 s hs).1 (Nat.le_refl 9)
  · exact ((passed_on_up_to_nine_times ws "run" relayName 10 hloaded (by decide) (by decide)
      (fun i hi => hsub _ (hnames i hi)) hchain).1 s hs).2 (Nat.le_refl 10)
  · have hpair : ∀ i ≤ 1, ["y", "z"].getD i "" ∈ relayNames ++ ["y", "z"] := by decide
    have hforth : ∀ i < 1,
        ws.PassesOn (["y", "z"].getD i "") (["y", "z"].getD (i + 1) "") "run" := by
      intro i hi
      obtain rfl := Nat.lt_one_iff.mp hi
      exact hpasses "y" "z" (by decide)
    exact (passed_on_up_to_nine_times ws "run" (fun i => ["y", "z"].getD i "") 1 hloaded
      (by decide) (by decide) (fun i hi => hsub _ (hpair i hi)) hforth).2 0 (by decide)
      (hpasses "z" "y" (by decide))

end CallTree.Workspace
