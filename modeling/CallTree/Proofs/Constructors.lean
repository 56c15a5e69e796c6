import CallTree.Proofs.ClassSites
import CallTree.Proofs.DeadEnds
import CallTree.Proofs.Lists
import CallTree.Proofs.ReadableText

/-!
# Which body a constructor leads to

An object of a class is created by the constructor that the class declares, or else by that of the
first ancestor which declares one. A workspace finds its definition by name: first under the name
that a constructor of the class would have, and only if nothing is filed there among the ancestors.
The table of types and the table of definitions are filled together, so this should come to the
same thing.

It does not. A class that is declared again takes the place of the first among the types, with all
its members; but definitions are replaced one by one, and the constructor of the first class stays
where it is if the second declares none. It can also be that something else has the name of a
constructor, such as a function in a module that is called like the class. What is filed under the
name of the constructor is then no longer the constructor that the class holds (`IsStale`), and
this is the only thing that can go wrong.
-/

namespace CallTree.Workspace

open CallTree.Data (Table)

/-! ## The constructor that a class holds -/

/-- **The class that a qualified name stands for**: of all that are written, the last. -/
def classNow? (ws : Workspace) (name : String) : Option ClassSite :=
  ws.classSites.reverse.find? (·.isNamed name)

/-- The definition of the constructor that a class declares: of several, the last. -/
def ClassSite.constructor? (c : ClassSite) : Option Definition :=
  c.definitions.reverse.find? (·.symbol.name = "__init__")

/-- **The definition of the constructor that a class now holds.** -/
def heldConstructor? (ws : Workspace) (t : TypeSymbol) : Option Definition :=
  (ws.classNow? t.qualifiedName).bind ClassSite.constructor?

/-- **What is filed as the constructor of a class is out of date**: the class holds none, or what is
filed does not belong to a class of that name. -/
def IsStale (ws : Workspace) (t : TypeSymbol) : Prop :=
  ∃ d, ws.definitions.get? (t.qualifiedName ++ ".__init__") = some d
    ∧ (ws.heldConstructor? t = none ∨ d.isIn t.qualifiedName = false)

instance decidableIsStale (ws : Workspace) (t : TypeSymbol) : Decidable (ws.IsStale t) :=
  decidable_of_iff (∃ d ∈ ws.definitions.get? (t.qualifiedName ++ ".__init__"),
    (ws.heldConstructor? t).isNone = true ∨ d.isIn t.qualifiedName = false)
    (exists_congr fun _ => and_congr_right fun _ => or_congr_left Option.isNone_iff_eq_none)

/-- The name of a constructor. -/
theorem qualifiedName_constructor (name : String) :
    name ++ "." ++ "__init__" = name ++ ".__init__" :=
  String.append_assoc ..

/-- A constructor that a class declares is one of its definitions, under the name of a
constructor. -/
theorem ClassSite.of_constructor? {c : ClassSite} {d : Definition} (h : c.constructor? = some d) :
    d ∈ c.definitions ∧ d.symbol.qualifiedName = c.symbol.qualifiedName ++ ".__init__"
      ∧ d.isIn c.symbol.qualifiedName = true := by
  have hmem : d ∈ c.definitions := List.mem_reverse.mp (List.mem_of_find?_eq_some h)
  have hname : d.symbol.name = "__init__" := by simpa using List.find?_some h
  obtain ⟨henclosing, hqualified⟩ := c.of_mem_definitions hmem
  rw [hname, qualifiedName_constructor] at hqualified
  refine ⟨hmem, hqualified, ?_⟩
  unfold Definition.isIn
  rw [henclosing]
  exact decide_eq_true rfl

/-- Among the definitions of a class, its constructors are those with the name of a constructor. -/
theorem ClassSite.find?_constructor (c : ClassSite) :
    (c.definitions.reverse.find? fun d =>
        d.symbol.qualifiedName = c.symbol.qualifiedName ++ ".__init__") = c.constructor? := by
  unfold constructor?
  rw [← List.head?_filter, ← List.head?_filter]
  refine congrArg _ (List.filter_congr fun d hd => ?_)
  rw [(c.of_mem_definitions (List.mem_reverse.mp hd)).2, ← qualifiedName_constructor]
  simp

section Tables

variable {ws : Workspace}

theorem classNow?_name {name : String} {c : ClassSite} (h : ws.classNow? name = some c) :
    c.symbol.qualifiedName = name := by
  have hnamed : c.isNamed name = true := List.find?_some h
  exact of_decide_eq_true hnamed

theorem qualifiedName_of_held {t : TypeSymbol} {e : Definition}
    (h : ws.heldConstructor? t = some e) :
    e.symbol.qualifiedName = t.qualifiedName ++ ".__init__" := by
  obtain ⟨c, hc, he⟩ := Option.bind_eq_some_iff.mp h
  rw [(ClassSite.of_constructor? he).2.1, classNow?_name hc]

variable (hws : Loaded ws) (hread : ∀ file ∈ ws.files, file.IsReadable)
include hws hread

/-- What the table of types holds is the class that a name stands for. -/
theorem get?_types (name : String) :
    ws.types.get? name = (ws.classNow? name).map ClassSite.index := by
  rw [(hws.tables_eq hread).1]
  exact Table.get?_putAll_map ws.classSites (fun c => c.symbol.qualifiedName) ClassSite.index

/-- What the table of definitions holds is the last one that is written under a name. -/
theorem get?_definitions (name : String) :
    ws.definitions.get? name
      = ws.writtenDefinitions.reverse.find? fun d => d.symbol.qualifiedName = name := by
  rw [(hws.tables_eq hread).2.1]
  refine (Table.get?_putAll_map ws.writtenDefinitions (fun d => d.symbol.qualifiedName) id).trans ?_
  exact Option.map_id'

/-- **The constructor in the table of methods** is the one that the class holds. -/
theorem init_eq_held (t : TypeSymbol) :
    (ws.types.get? t.qualifiedName).bind (·.methods.get? "__init__")
      = (ws.heldConstructor? t).map (·.symbol) := by
  rw [get?_types hws hread]
  unfold heldConstructor?
  cases ws.classNow? t.qualifiedName with
  | none => rfl
  | some c =>
    show c.index.methods.get? "__init__" = c.constructor?.map (·.symbol)
    rw [c.methods_index]
    exact Table.get?_putAll_map c.definitions (fun d => d.symbol.name) (·.symbol)

/-- **What is filed as the constructor of a class is the one that the class holds**, if it holds one
and what is filed belongs to a class of that name. -/
theorem filed_eq_held {t : TypeSymbol} {d e : Definition} (hheld : ws.heldConstructor? t = some e)
    (hd : ws.definitions.get? (t.qualifiedName ++ ".__init__") = some d)
    (hin : d.isIn t.qualifiedName = true) : d = e := by
  obtain ⟨c, hc, he⟩ := Option.bind_eq_some_iff.mp hheld
  have hname := classNow?_name hc
  -- the last definition of this name is the last of those that belong to classes of the name `t`
  have hlast : ((ws.writtenDefinitions.filter (·.isIn t.qualifiedName)).reverse.find? fun d =>
      d.symbol.qualifiedName = t.qualifiedName ++ ".__init__") = some d := by
    rw [get?_definitions hws hread] at hd
    rw [← List.filter_reverse, List.find?_filter]
    obtain ⟨hp, before, after, hsplit, hbefore⟩ := List.find?_eq_some_iff_append.mp hd
    refine List.find?_eq_some_iff_append.mpr ⟨by simp [hin, of_decide_eq_true hp], before, after,
      hsplit, fun a ha => ?_⟩
    have hnot := hbefore a ha
    simp only [Bool.not_eq_true', decide_eq_false_iff_not] at hnot ⊢
    exact fun hboth => hnot (of_decide_eq_true hboth.2)
  -- these come class by class, and the class that the name stands for is the last of them
  have hsites : ∃ earlier, ws.classSites.filter (·.isNamed t.qualifiedName) = earlier ++ [c] := by
    have hhead := hc
    unfold classNow? at hhead
    rw [← List.head?_filter, List.filter_reverse, List.head?_reverse] at hhead
    exact ⟨_, (List.dropLast_append_getLast? c hhead).symm⟩
  obtain ⟨earlier, hearlier⟩ := hsites
  rw [(hws.tables_eq hread).2.2, hearlier, List.flatMap_append, List.flatMap_singleton,
    List.reverse_append, List.find?_append, ← hname, c.find?_constructor, he] at hlast
  exact (Option.some.inj hlast).symm

/-- A constructor that is held has a definition filed under its name. -/
theorem exists_filed_of_held {t : TypeSymbol} {e : Definition}
    (hheld : ws.heldConstructor? t = some e) :
    e.symbol.isExternal = false
      ∧ ∃ d, ws.definitions.get? (t.qualifiedName ++ ".__init__") = some d := by
  have hinit := init_eq_held hws hread t
  rw [hheld] at hinit
  obtain ⟨index, hindex, hm⟩ := Option.bind_eq_some_iff.mp hinit
  obtain ⟨hexternal, hfiled⟩ := hws.filed.methods index (Table.mem_values_of_get? hindex) e.symbol
    (Or.inl (Table.mem_values_of_get? hm))
  rw [qualifiedName_of_held hheld] at hfiled
  exact ⟨hexternal, Table.exists_get?_of_mem_names hfiled⟩

/-- **What is filed for a class that holds a constructor** is that constructor, unless it is out of
date. -/
theorem filed_eq_held_iff {t : TypeSymbol} {d e : Definition}
    (hheld : ws.heldConstructor? t = some e)
    (hd : ws.definitions.get? (t.qualifiedName ++ ".__init__") = some d) :
    d = e ↔ ¬ ws.IsStale t := by
  constructor
  · rintro rfl ⟨d', hd', hstale⟩
    obtain rfl := Option.some.inj (hd.symm.trans hd')
    rcases hstale with hnone | hnotIn
    · rw [hheld] at hnone
      cases hnone
    · obtain ⟨c, hc, he⟩ := Option.bind_eq_some_iff.mp hheld
      rw [← classNow?_name hc, (ClassSite.of_constructor? he).2.2] at hnotIn
      cases hnotIn
  · intro hfresh
    refine filed_eq_held hws hread hheld hd ?_
    cases hin : d.isIn t.qualifiedName with
    | true => rfl
    | false => exact absurd ⟨d, hd, Or.inr hin⟩ hfresh

/-- A type of the workspace is the class that its name stands for. -/
theorem classNow?_of_mem_typeSymbols {t : TypeSymbol} (h : t ∈ ws.typeSymbols) :
    ∃ c, ws.classNow? t.qualifiedName = some c ∧ c.symbol = t := by
  obtain ⟨index, hindex, rfl⟩ := List.mem_map.mp h
  obtain ⟨entry, hentry, rfl⟩ := List.mem_map.mp hindex
  have hkey := hws.filed.typeNames entry hentry
  have hget : ws.types.get? entry.2.symbol.qualifiedName = some entry.2 := by
    rw [hkey]
    exact Table.get?_of_mem hws.nodup_types hentry
  rw [get?_types hws hread] at hget
  obtain ⟨c, hc, heq⟩ := Option.map_eq_some_iff.mp hget
  exact ⟨c, hc, by rw [← heq, c.symbol_index]⟩

theorem isExternal_of_mem_typeSymbols {t : TypeSymbol} (h : t ∈ ws.typeSymbols) :
    t.isExternal = false := by
  obtain ⟨c, hc, rfl⟩ := classNow?_of_mem_typeSymbols hws hread h
  exact isExternal_of_mem_classSites (List.mem_reverse.mp (List.mem_of_find?_eq_some hc))

end Tables

/-! ## The definition that a constructor leads to -/

section Leads

variable {ws : Workspace} {t : TypeSymbol} {ancestors : List TypeSymbol}
  (hws : Loaded ws) (hread : ∀ file ∈ ws.files, file.IsReadable)
include hws hread

/-- **A class that holds a constructor** leads to what is filed under its name. -/
theorem definitionOf_of_held {d e : Definition} (hheld : ws.heldConstructor? t = some e)
    (hd : ws.definitions.get? (t.qualifiedName ++ ".__init__") = some d) :
    ws.definitionOf (ws.constructorOf t) = .ok (some d) := by
  have hconstructor : ws.constructorOf t = e.symbol := by
    unfold constructorOf
    rw [init_eq_held hws hread, hheld]
    rfl
  unfold definitionOf
  rw [hconstructor, (exists_filed_of_held hws hread hheld).1, qualifiedName_of_held hheld, hd]
  rfl

/-- **A class that holds none** leads to what is filed under the name it would have. -/
theorem definitionOf_of_stale {d : Definition} (hexternal : t.isExternal = false)
    (hheld : ws.heldConstructor? t = none)
    (hd : ws.definitions.get? (t.qualifiedName ++ ".__init__") = some d) :
    ws.definitionOf (ws.constructorOf t) = .ok (some d) := by
  unfold definitionOf constructorOf
  rw [init_eq_held hws hread, hheld]
  dsimp only [Option.map_none]
  rw [hexternal, hd]
  rfl

/-- If nothing is filed there, it leads to what is filed for the first ancestor that holds one. -/
theorem definitionOf_of_inherited (ht : t ∈ ws.typeSymbols) (hheld : ws.heldConstructor? t = none)
    (hd : ws.definitions.get? (t.qualifiedName ++ ".__init__") = none)
    (hlineage : ws.lineage t = .ok (t :: ancestors)) :
    ws.definitionOf (ws.constructorOf t)
      = .ok ((ancestors.findSome? ws.heldConstructor?).bind fun e =>
        ws.definitions.get? e.symbol.qualifiedName) := by
  obtain ⟨c, hc, hsymbol⟩ := classNow?_of_mem_typeSymbols hws hread ht
  have hexternal := isExternal_of_mem_typeSymbols hws hread ht
  have howner : ws.types.get? (ownerName (t.qualifiedName ++ ".__init__")) = some c.index := by
    rw [← qualifiedName_constructor, ownerName_append t.qualifiedName (by decide),
      get?_types hws hread, hc]
    rfl
  unfold definitionOf constructorOf
  rw [init_eq_held hws hread, hheld]
  dsimp only [Option.map_none]
  rw [hexternal, hd, howner]
  dsimp only
  rw [if_neg Bool.false_ne_true, if_pos rfl, c.symbol_index, hsymbol]
  unfold inheritedConstructor
  rw [hlineage]
  simp only [init_eq_held hws hread]
  have hmap : (ancestors.findSome? fun a => (ws.heldConstructor? a).map (·.symbol))
      = (ancestors.findSome? ws.heldConstructor?).map (·.symbol) := List.map_findSome?.symm
  show Except.ok ((ancestors.findSome? fun a => (ws.heldConstructor? a).map (·.symbol)).bind _) = _
  rw [hmap]
  cases ancestors.findSome? ws.heldConstructor? <;> rfl

end Leads

/-- **A constructor leads to the right body, unless what is filed is out of date.** In a workspace
whose files can be read, as those of every workspace of texts can (`isReadable_of_mem_ofSources`),
the method table of every class has the constructor that the class holds.
What the constructor of a type leads to is the constructor that the first of its ancestors holds
which holds one, or nothing if none does, if and only if what is filed for the type and for that
ancestor is not out of date. -/
theorem constructor_leads_to_held_iff (ws : Workspace) (t : TypeSymbol) (lineage : List TypeSymbol)
    (hws : Loaded ws) (hread : ∀ file ∈ ws.files, file.IsReadable) (ht : t ∈ ws.typeSymbols)
    (hlineage : ws.lineage t = .ok lineage) :
    (∀ a, (ws.types.get? a.qualifiedName).bind (·.methods.get? "__init__")
        = (ws.heldConstructor? a).map (·.symbol))
      ∧ (ws.definitionOf (ws.constructorOf t) = .ok (lineage.findSome? ws.heldConstructor?)
        ↔ ¬ ws.IsStale t ∧ ∀ a, lineage.find? (fun a => (ws.heldConstructor? a).isSome) = some a →
          ¬ ws.IsStale a) := by
  refine ⟨init_eq_held hws hread, ?_⟩
  obtain ⟨ancestors, rfl⟩ := head_of_lineage hlineage
  cases hheld : ws.heldConstructor? t with
  | some e =>
    -- the type is itself the first that holds one
    obtain ⟨-, d, hd⟩ := exists_filed_of_held hws hread hheld
    rw [definitionOf_of_held hws hread hheld hd, List.findSome?_cons, hheld,
      List.find?_cons_of_pos (by rw [hheld]; rfl)]
    simp only [Except.ok.injEq, Option.some.injEq, filed_eq_held_iff hws hread hheld hd,
      forall_eq', and_self]
  | none =>
    rw [List.findSome?_cons, hheld,
      List.find?_cons_of_neg (by rw [hheld]; exact Bool.false_ne_true)]
    cases hd : ws.definitions.get? (t.qualifiedName ++ ".__init__") with
    | some d =>
      rw [definitionOf_of_stale hws hread (isExternal_of_mem_typeSymbols hws hread ht) hheld hd]
      refine ⟨fun heq => ?_, fun h => absurd ⟨d, hd, Or.inl hheld⟩ h.1⟩
      -- what is filed has the name of the type, and the type holds nothing
      obtain ⟨a, -, ha⟩ := List.exists_of_findSome?_eq_some (Except.ok.inj heq).symm
      have hname : t.qualifiedName ++ ".__init__" = a.qualifiedName ++ ".__init__" :=
        (hws.filed.definitionNames _ (Table.mem_of_get? hd)).symm.trans (qualifiedName_of_held ha)
      have hsame : ws.heldConstructor? a = ws.heldConstructor? t := by
        have howner : t.qualifiedName = a.qualifiedName := by simpa using hname
        unfold heldConstructor?
        rw [howner]
      rw [hsame, hheld] at ha
      cases ha
    | none =>
      have hfresh : ¬ ws.IsStale t := by
        rintro ⟨d, hd', -⟩
        rw [hd] at hd'
        cases hd'
      rw [definitionOf_of_inherited hws hread ht hheld hd hlineage, findSome?_eq_bind_find?]
      cases hfirst : ancestors.find? fun a => (ws.heldConstructor? a).isSome with
      | none => simp [hfresh]
      | some a =>
        have hsome : (ws.heldConstructor? a).isSome = true := by simpa using List.find?_some hfirst
        obtain ⟨e, he⟩ := Option.isSome_iff_exists.mp hsome
        obtain ⟨-, d, hd'⟩ := exists_filed_of_held hws hread he
        rw [Option.bind_some, he, Option.bind_some, qualifiedName_of_held he, hd']
        simp only [Except.ok.injEq, Option.some.injEq, filed_eq_held_iff hws hread he hd',
          forall_eq', hfresh, not_false_eq_true, true_and]

/-! ## A class that is declared again -/

/-- A class that inherits its constructor, and one that was declared again without one. -/
def declaredAgain : Workspace :=
  ofSources [("m.py", "class A:\n def __init__(self): 0\nclass B(A): 0\n"
    ++ "class C:\n def __init__(self): 0\nclass C: 0\n")]

theorem constructor_leads_to_held_iff_declaredAgain :
    ∃ e, declaredAgain.heldConstructor? (classNamed declaredAgain "m.A") = some e
      ∧ declaredAgain.definitionOf (declaredAgain.constructorOf (classNamed declaredAgain "m.B"))
        = .ok (some e)
      ∧ declaredAgain.definitionOf (declaredAgain.constructorOf (classNamed declaredAgain "m.C"))
        ≠ .ok none := by
  have hfacts : classNamed declaredAgain "m.B" ∈ declaredAgain.typeSymbols
      ∧ classNamed declaredAgain "m.C" ∈ declaredAgain.typeSymbols
      ∧ declaredAgain.lineage (classNamed declaredAgain "m.B")
        = .ok [classNamed declaredAgain "m.B", classNamed declaredAgain "m.A"]
      ∧ declaredAgain.lineage (classNamed declaredAgain "m.C")
        = .ok [classNamed declaredAgain "m.C"]
      ∧ (declaredAgain.heldConstructor? (classNamed declaredAgain "m.A")).isSome = true
      ∧ (declaredAgain.heldConstructor? (classNamed declaredAgain "m.B")).isSome = false
      ∧ (declaredAgain.heldConstructor? (classNamed declaredAgain "m.C")).isSome = false
      ∧ ¬ declaredAgain.IsStale (classNamed declaredAgain "m.A")
      ∧ ¬ declaredAgain.IsStale (classNamed declaredAgain "m.B")
      ∧ declaredAgain.IsStale (classNamed declaredAgain "m.C") := by
    decide +kernel
  have hloaded : Loaded declaredAgain := loaded_ofSources _
  have hread : ∀ file ∈ declaredAgain.files, file.IsReadable := isReadable_of_mem_ofSources _
  generalize declaredAgain = ws at *
  obtain ⟨hB, hC, hlineageB, hlineageC, hheldA, hheldB, hheldC, hfreshA, hfreshB, hstale⟩ :=
    hfacts
  obtain ⟨e, he⟩ := Option.isSome_iff_exists.mp hheldA
  have hnoneB := Option.not_isSome_iff_eq_none.mp (Bool.eq_false_iff.mp hheldB)
  have hnoneC := Option.not_isSome_iff_eq_none.mp (Bool.eq_false_iff.mp hheldC)
  have hlawB := (constructor_leads_to_held_iff ws _ _ hloaded hread hB hlineageB).2
  have hlawC := (constructor_leads_to_held_iff ws _ _ hloaded hread hC hlineageC).2
  refine ⟨e, he, ?_, fun heq => (hlawC.mp ?_).1 hstale⟩
  · rw [hlawB.mpr ⟨hfreshB, fun a ha => ?_⟩]
    · simp [hnoneB, he]
    · obtain rfl : classNamed ws "m.A" = a := by simpa [hheldB, hheldA] using ha
      exact hfreshA
  · rw [heq]
    simp [hnoneC]

/-- A class with a constructor that is declared again without one. -/
def replaced : Workspace :=
  ofSources [("m.py", "class C:\n    def __init__(self):\n        pass\n\n\nclass C:\n    pass\n")]

/-- **Where a constructor leads astray**: the class that is now in the index has no ancestor and
declares no constructor, and its constructor leads to the one of the class that it replaced. -/
theorem replaced_class_leaves_constructor :
    replaced.typeSymbols = [classNamed replaced "m.C"]
      ∧ replaced.lineage (classNamed replaced "m.C") = .ok [classNamed replaced "m.C"]
      ∧ (replaced.types.get? "m.C").bind (·.methods.get? "__init__") = none
      ∧ ∃ d ∈ (replaced.definitionOf
          (replaced.constructorOf (classNamed replaced "m.C"))).toOption.join,
        d.symbol.qualifiedName = "m.C.__init__" := by
  decide +kernel

end CallTree.Workspace
