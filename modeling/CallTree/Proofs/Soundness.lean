import CallTree.Proofs.Filing
import CallTree.Proofs.Parameters
import CallTree.Proofs.Questions
import CallTree.Workspace.Model

/-!
# What a name resolves to is known

A body is resolved by going from name to name: through imports, into modules and packages, to
the members of types and of their ancestors, along the types of fields and of results. Any of
these steps might make a symbol up. They do not: what a step finds is in one of the tables of
the workspace or is external (`Vouched`), and it is so whatever the step starts from. That last
point is what makes the argument short. A member is looked for among the declarations of
ancestors and nowhere else, and a name of a module among the definitions of modules, so nothing
has to be known about receivers, local variables or the types that led to them.

One symbol is made up all the same, the constructor of a class that declares none. It is made
for a class that is called, and that class is found like anything else or is the one that the
body belongs to; either way it is indexed (`sound_constructorOf`).
-/

namespace CallTree.Workspace

open CallTree.Data (Table)
open CallTree.Syntax (Site)

/-! ## Symbols that are vouched for -/

/-- **A symbol that the tables of a workspace hold.** -/
inductive Holds (ws : Workspace) : Symbol → Prop
  | topClass {index : ModuleIndex} {t : TypeSymbol} (hindex : index ∈ ws.modules.values)
      (ht : t ∈ index.classes.values) : Holds ws (.type t)
  | function {index : ModuleIndex} {m : MethodSymbol} (hindex : index ∈ ws.modules.values)
      (hm : m ∈ index.functions.values) : Holds ws (.method m)
  | method {index : TypeIndex} {m : MethodSymbol} (hindex : index ∈ ws.types.values)
      (hm : m ∈ index.methods.values) : Holds ws (.method m)
  | property {index : TypeIndex} {s : StateSymbol} (hindex : index ∈ ws.types.values)
      (hs : s ∈ index.properties.values) : Holds ws (.property s)
  | field {index : TypeIndex} {s : StateSymbol} (hindex : index ∈ ws.types.values)
      (hs : s ∈ index.fields.values) : Holds ws (.field s)
  | nested {index : TypeIndex} {t : TypeSymbol} (hindex : index ∈ ws.types.values)
      (ht : t ∈ index.nested.values) : Holds ws (.type t)

/-- A symbol is external, or the tables hold it. -/
def Vouched (ws : Workspace) (s : Symbol) : Prop := s.isExternal = true ∨ ws.Holds s

/-- If a symbol is found, it is vouched for. -/
def VouchedSymbol (ws : Workspace) (found : Option Symbol) : Prop :=
  ∀ s, found = some s → ws.Vouched s

/-- If a name stands for a symbol, it is vouched for. -/
def VouchedReferent (ws : Workspace) (found : Option Referent) : Prop :=
  ∀ s, found = some (.symbol s) → ws.Vouched s

variable {ws : Workspace}

theorem vouchedReferent_none : ws.VouchedReferent none := fun _ h => by cases h

theorem vouchedReferent_module (ref : ModuleRef) : ws.VouchedReferent (some (.module' ref)) :=
  fun _ h => by cases h

theorem Vouched.referent {s : Symbol} (h : ws.Vouched s) :
    ws.VouchedReferent (some (.symbol s)) := by
  intro s' hs'
  cases hs'
  exact h

theorem VouchedSymbol.referent {found : Option Symbol} (h : ws.VouchedSymbol found) :
    ws.VouchedReferent (found.map .symbol) := by
  intro s hs
  obtain ⟨s', hs', heq⟩ := Option.map_eq_some_iff.mp hs
  cases heq
  exact h s hs'

theorem isExternal_externalName (moduleName name : String) :
    (externalName moduleName name).isExternal = true := by
  unfold externalName
  dsimp only
  split <;> rfl

/-- What a module defines is held. -/
theorem holds_defined? {moduleName name : String} {index : ModuleIndex} {s : Symbol}
    (hindex : ws.modules.get? moduleName = some index) (hs : index.defined? name = some s) :
    ws.Holds s := by
  have hvalue := Table.mem_values_of_get? hindex
  unfold ModuleIndex.defined? at hs
  rw [Option.or_eq_some_iff, Option.map_eq_some_iff, Option.map_eq_some_iff] at hs
  rcases hs with ⟨t, ht, rfl⟩ | ⟨-, m, hm, rfl⟩
  · exact .topClass hvalue (Table.mem_values_of_get? ht)
  · exact .function hvalue (Table.mem_values_of_get? hm)

/-- What a class declares is held. -/
theorem holds_declares? {typeName name : String} {index : TypeIndex} {s : Symbol}
    (hindex : ws.types.get? typeName = some index) (hs : index.declares? name = some s) :
    ws.Holds s := by
  have hvalue := Table.mem_values_of_get? hindex
  unfold TypeIndex.declares? at hs
  simp only [Option.or_eq_some_iff, Option.map_eq_some_iff] at hs
  rcases hs with ⟨m, hm, rfl⟩ | ⟨-, ⟨p, hp, rfl⟩ | ⟨-, ⟨f, hf, rfl⟩ | ⟨-, t, ht, rfl⟩⟩⟩
  · exact .method hvalue (Table.mem_values_of_get? hm)
  · exact .property hvalue (Table.mem_values_of_get? hp)
  · exact .field hvalue (Table.mem_values_of_get? hf)
  · exact .nested hvalue (Table.mem_values_of_get? ht)

/-! ## Look-ups -/

/-- **A member is declared by an ancestor, or external.** -/
theorem vouchedSymbol_memberAmong (lineage : List TypeSymbol) (name : String) :
    ws.VouchedSymbol (memberAmong ws lineage name) := by
  intro s hs
  unfold memberAmong at hs
  rcases Option.or_eq_some_iff.mp hs with h | ⟨-, h⟩
  · obtain ⟨a, -, ha⟩ := List.exists_of_findSome?_eq_some h
    obtain ⟨index, hindex, hdeclares⟩ := Option.bind_eq_some_iff.mp ha
    exact Or.inr (holds_declares? hindex hdeclares)
  · obtain ⟨a, -, rfl⟩ := Option.map_eq_some_iff.mp h
    exact Or.inl rfl

theorem gives_memberWithin (level : Nat) (t : TypeSymbol) (name : String) :
    Gives (memberWithin ws level t name) ws.VouchedSymbol := by
  cases level with
  | zero => exact .error
  | succ level =>
    rw [memberWithin_succ]
    intro s hs
    obtain ⟨lineage, -, hs⟩ := ok_of_bind hs
    cases hs
    exact vouchedSymbol_memberAmong lineage name

theorem vouchedReferent_submodule? (ws : Workspace) (ref : ModuleRef) (name : String) :
    ws.VouchedReferent (submodule? ws ref name) := by
  unfold submodule?
  dsimp only
  split
  · exact vouchedReferent_module _
  · exact vouchedReferent_none

section With

variable {member : MemberLookup} {within : ModuleLookup}
  (hmember : ∀ t name, Gives (member t name) ws.VouchedSymbol)
include hmember

/-- A step along a dotted name, wherever it starts. -/
theorem gives_stepWith (hwithin : ∀ ref name, Gives (within ref name) ws.VouchedReferent)
    (current : Option Referent) (name : String) :
    Gives (stepWith member within current name) ws.VouchedReferent := by
  unfold stepWith
  split
  · exact hwithin _ name
  · exact (hmember _ name).map fun _ h => h.referent
  · exact .ok vouchedReferent_none

theorem gives_importedWith (hwithin : ∀ ref name, Gives (within ref name) ws.VouchedReferent)
    (index : ModuleIndex) (name target : String) :
    Gives (importedWith ws member within index name target) ws.VouchedReferent := by
  unfold importedWith
  dsimp only
  split
  · exact .ok (vouchedReferent_module _)
  · split
    · exact .ok (vouchedReferent_module _)
    · split
      · exact .foldlM _ (vouchedReferent_module _)
          fun current part _ _ => gives_stepWith hmember hwithin current part
      · exact .ok (Vouched.referent (Or.inl (isExternal_externalName _ _)))

/-- **A name of a module**, whatever number of imports is followed. -/
theorem gives_inModuleWithin (hops : Nat) (ref : ModuleRef) (name : String) :
    Gives (inModuleWithin ws member hops ref name) ws.VouchedReferent := by
  induction hops using Nat.strongRecOn generalizing ref name with
  | _ hops ih =>
    have hsubmodule := vouchedReferent_submodule? ws ref name
    unfold inModuleWithin
    split
    · refine .ok ?_
      cases hr : submodule? ws ref name with
      | none => exact Vouched.referent (Or.inl (isExternal_externalName _ _))
      | some r =>
        rw [hr] at hsubmodule
        exact hsubmodule
    · rename_i index hfound
      have hindex : ws.modules.get? ref.name = some index := by
        split at hfound
        · cases hfound
        · exact hfound
      split
      · rename_i s hs
        exact .ok (Vouched.referent (Or.inr (holds_defined? hindex hs)))
      · rename_i r hr
        exact .ok (hr ▸ hsubmodule)
      · exact .ok vouchedReferent_none
      · split
        · exact .ok vouchedReferent_none
        · exact gives_importedWith hmember (ih _ (Nat.lt_succ_self _)) _ _ _

/-- What a name means at the top of a module. -/
theorem gives_globalWith (moduleName name : String) :
    Gives (globalWith ws member moduleName name) ws.VouchedReferent := by
  have hbuiltin : ws.VouchedReferent (if isBuiltin name then
      some (.symbol (.method (externalMethod "builtins" "builtins" name ("builtins." ++ name))))
      else none) := by
    split
    · exact Vouched.referent (Or.inl rfl)
    · exact vouchedReferent_none
  unfold globalWith
  dsimp only
  split
  · exact .ok hbuiltin
  · rename_i index hindex
    split
    · rename_i s hs
      exact .ok (Vouched.referent (Or.inr (holds_defined? hindex hs)))
    · exact gives_importedWith hmember (gives_inModuleWithin hmember mostHops) _ _ _
    · exact .ok hbuiltin

end With

/-- **What a name means at the top of a module is vouched for.** -/
theorem gives_global (moduleName name : String) :
    Gives (ws.global moduleName name) ws.VouchedReferent :=
  gives_globalWith (gives_memberWithin mostLevels) moduleName name

/-- **What is found as an attribute is vouched for**, whatever it is an attribute of. -/
theorem gives_attributeOf (receiver : Option Referent) (name : String) :
    Gives (ws.attributeOf receiver name) ws.VouchedReferent :=
  gives_stepWith (gives_memberWithin mostLevels)
    (gives_inModuleWithin (gives_memberWithin mostLevels) mostHops) receiver name

/-! ## Constructors -/

/-- **A constructor that is made up** for an indexed class that declares none. -/
def Synthesized (ws : Workspace) (m : MethodSymbol) : Prop :=
  ∃ t index, m = ws.constructorOf t ∧ t.isExternal = false
    ∧ ws.types.get? t.qualifiedName = some index ∧ index.methods.get? "__init__" = none

/-- **A symbol is accounted for**: it is external, or the tables hold it, or it is the
constructor that was made up for a class. -/
def Sound (ws : Workspace) (s : Symbol) : Prop :=
  s.isExternal = true ∨ ws.Holds s ∨ ∃ m, s = .method m ∧ ws.Synthesized m

theorem Vouched.sound {s : Symbol} (h : ws.Vouched s) : ws.Sound s := h.imp id Or.inl

/-- The constructor of a class that is indexed or external. -/
theorem sound_constructorOf {t : TypeSymbol}
    (ht : t.isExternal = true ∨ t.qualifiedName ∈ ws.types.names) :
    ws.Sound (.method (ws.constructorOf t)) := by
  cases hown : (ws.types.get? t.qualifiedName).bind (·.methods.get? "__init__") with
  | some m =>
    -- its own, also when an external class shares the name of an indexed one
    obtain ⟨index, hindex, hm⟩ := Option.bind_eq_some_iff.mp hown
    have hconstructor : ws.constructorOf t = m := by
      unfold constructorOf
      rw [hown]
    rw [hconstructor]
    exact Or.inr (Or.inl (.method (Table.mem_values_of_get? hindex) (Table.mem_values_of_get? hm)))
  | none =>
    cases hexternal : t.isExternal with
    | true =>
      refine Or.inl ?_
      unfold constructorOf
      rw [hown]
      exact hexternal
    | false =>
      obtain ⟨index, hindex⟩ := Table.exists_get?_of_mem_names
        (ht.resolve_left (by rw [hexternal]; exact Bool.false_ne_true))
      rw [hindex] at hown
      exact Or.inr (Or.inr ⟨_, rfl, t, index, rfl, hexternal, hindex, hown⟩)

/-! ## Bodies -/

/-- The types that a body can call without having found them: the class it belongs to. -/
def CalledIn (ws : Workspace) (scope : Scope) (found : Option Referent) : Prop :=
  ∀ s, found = some (.symbol s) → ws.Vouched s ∨ ∃ t, s = .type t ∧ scope.enclosing = some t

/-- **What is called** was found, or is the class that the body belongs to. -/
theorem gives_calleeOf (scope : Scope) (e : Expr) :
    Gives (scope.calleeOf ws e) (ws.CalledIn scope) := by
  have hfound : ∀ {r}, ws.VouchedReferent r → ws.CalledIn scope r := fun h s hs => Or.inl (h s hs)
  cases e with
  | name text =>
    rw [Scope.calleeOf]
    split
    · refine .ok fun s hs => Or.inr ?_
      split at hs
      · obtain ⟨t, ht, heq⟩ := Option.map_eq_some_iff.mp hs
        cases heq
        exact ⟨t, rfl, ht⟩
      · cases hs
    · split
      · exact .ok (hfound vouchedReferent_none)
      · exact (gives_global _ _).imp fun _ h => hfound h
  | access object member =>
    rw [Scope.calleeOf]
    intro r hr
    obtain ⟨receiver, -, hr⟩ := ok_of_bind hr
    exact hfound (gives_attributeOf receiver member r hr)
  | call callee => exact .ok (hfound vouchedReferent_none)
  | group inner => exact .ok (hfound vouchedReferent_none)
  | other => exact .ok (hfound vouchedReferent_none)

/-- A class that the tables hold is indexed. -/
theorem Holds.mem_types (hindexed : ws.WellIndexed) {t : TypeSymbol} (h : ws.Holds (.type t)) :
    t.qualifiedName ∈ ws.types.names := by
  cases h with
  | topClass hindex ht => exact hindexed.classes _ hindex t ht
  | nested hindex ht => exact hindexed.nested _ hindex t ht

theorem VouchedReferent.of_symbol? {found : Option Referent} (h : ws.VouchedReferent found)
    {s : Symbol} (hs : found.bind Referent.symbol? = some s) : ws.Vouched s := by
  obtain ⟨r, rfl, hr⟩ := Option.bind_eq_some_iff.mp hs
  cases r with
  | symbol s' =>
    cases hr
    exact h s rfl
  | module' ref => cases hr

section Resolving

variable (hindexed : ws.WellIndexed) {scope : Scope}
  (hscope : ∀ t, scope.enclosing = some t → t.qualifiedName ∈ ws.types.names)
include hindexed hscope

/-- The method that a call calls. -/
theorem Scope.sound_of_called {callee : Expr} {s : Symbol}
    (h : scope.called ws callee = .ok (some s)) : ws.Sound s := by
  unfold Scope.called at h
  obtain ⟨found, hfound, h⟩ := ok_of_bind h
  have hcalled := gives_calleeOf scope callee found hfound
  split at h
  · cases h
    refine sound_constructorOf ?_
    rcases hcalled _ rfl with (hexternal | hheld) | ⟨t, heq, ht⟩
    · exact Or.inl hexternal
    · exact Or.inr (hheld.mem_types hindexed)
    · cases heq
      exact Or.inr (hscope _ ht)
  · cases h
    rcases hcalled _ rfl with hvouched | ⟨t, heq, -⟩
    · exact hvouched.sound
    · cases heq
  · cases h

/-- **A body is resolved to symbols that are accounted for**, if the class that it belongs to is
indexed. -/
theorem Scope.sound_of_resolve {site : Site} {s : Symbol}
    (h : scope.resolve ws site = .ok (some s)) : ws.Sound s := by
  unfold Scope.resolve at h
  split at h
  · exact Scope.sound_of_called hindexed hscope h
  · obtain ⟨found, hfound, h⟩ := ok_of_bind h
    obtain ⟨receiver, -, hfound⟩ := ok_of_bind hfound
    exact ((gives_attributeOf receiver _ found hfound).of_symbol? (Except.ok.inj h)).sound
  · split at h
    · cases h
    · obtain ⟨found, hfound, h⟩ := ok_of_bind h
      unfold Scope.named at hfound
      split at hfound
      · cases hfound
        cases h
      · exact ((gives_global _ _ found hfound).of_symbol? (Except.ok.inj h)).sound
  · cases h

end Resolving

/-! ## Scopes -/

/-- **The class that a scope belongs to is that of its definition.** -/
theorem gives_scopeFor (d : Definition) : Gives (scopeFor ws d) (·.enclosing = d.enclosing) :=
  (isOf_scopeFor ws d).imp fun _ h => h.enclosing

end CallTree.Workspace
