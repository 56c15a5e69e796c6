import CallTree.Proofs.CutShort
import CallTree.Proofs.Indexing
import CallTree.Workspace.Lookup

/-!
# Look-ups as questions for members

Looking up a name leads from modules to types and from types to their ancestors, and back
again by way of the names of the bases. What the look-ups have in common is that they are
written for any way of finding members, and use it in one manner only: they ask for a member,
and go on from the answer (`Posed`). This module shows that they all have that form, and what
follows from it alone.

Types that are asked about are not just any types. They come from the tables of the
workspace or are external, as long as what is found as a member is, so this is part of the
form. From the form it follows that a look-up keeps its answer when more members are found,
that it fails only as a member does, and hence that a further level of nesting changes no
answer (`memberWithin_mono`).

The list of ancestors is drawn up with a bound on the length of the way, and the bound never
shows (`lineageFrom_eq_lineageWith`): no type is listed twice, and in a workspace that is
well indexed every type on the way but the first and the last takes a name off those that
are left.
-/

namespace CallTree.Workspace

open CallTree.Data (Table)

/-! ## The types that are asked about -/

/-- A type is external, or one of the given ones. -/
def Known (types : List TypeSymbol) (t : TypeSymbol) : Prop := t.isExternal = true ∨ t ∈ types

/-- If a symbol is a type, the type is known. -/
def KnownSymbol (types : List TypeSymbol) (s : Option Symbol) : Prop :=
  ∀ t, s = some (.type t) → Known types t

/-- If a type is found, it is known. -/
def KnownType (types : List TypeSymbol) (found : Option TypeSymbol) : Prop :=
  ∀ t, found = some t → Known types t

/-- If a name stands for a type, the type is known. -/
def KnownReferent (types : List TypeSymbol) (r : Option Referent) : Prop :=
  ∀ t, r = some (.symbol (.type t)) → Known types t

variable {types : List TypeSymbol}

theorem knownType_none : KnownType types none := by
  intro t h
  cases h

/-- A name that stands for no type says nothing about types. -/
theorem knownReferent_of_type?_eq_none {r : Option Referent}
    (h : r.bind Referent.type? = none) : KnownReferent types r := by
  rintro t rfl
  cases h

theorem KnownSymbol.referent {s : Option Symbol} (h : KnownSymbol types s) :
    KnownReferent types (s.map .symbol) := by
  intro t ht
  obtain ⟨s', hs, heq⟩ := Option.map_eq_some_iff.mp ht
  cases heq
  exact h t hs

theorem KnownReferent.type {r : Option Referent} (h : KnownReferent types r) :
    KnownType types (r.bind Referent.type?) := by
  intro t ht
  obtain ⟨r', hr, htype⟩ := Option.bind_eq_some_iff.mp ht
  unfold Referent.type? at htype
  split at htype
  · cases htype
    exact h t hr
  · cases htype

/-- What is external is known. -/
theorem knownReferent_externalName (moduleName name : String) :
    KnownReferent types (some (.symbol (externalName moduleName name))) := by
  intro t ht
  unfold externalName at ht
  split at ht
  · cases ht
    exact Or.inl rfl
  · cases ht

/-! ## Look-ups as questions for members -/

section Asking

variable {α : Type} {t : TypeSymbol} {name : String}
  {next : Option Symbol → MemberLookup → Except Fault α} {member : MemberLookup}

/-- The look-up that asks for a member and goes on with the answer. -/
def asking (t : TypeSymbol) (name : String)
    (next : Option Symbol → MemberLookup → Except Fault α) : MemberLookup → Except Fault α :=
  fun member => member t name >>= fun s => next s member

theorem asking_error {e : Fault} (h : member t name = .error e) :
    asking t name next member = .error e := by
  unfold asking
  rw [h]
  rfl

theorem asking_ok {s : Option Symbol} (h : member t name = .ok s) :
    asking t name next member = next s member := by
  unfold asking
  rw [h]
  rfl

end Asking

/-- **A look-up that is made of questions for members**: it has an answer, or asks for a
member of a known type and goes on with what it is told, as long as that is known too. -/
inductive Posed (types : List TypeSymbol) {α : Type} (P : α → Prop) :
    (MemberLookup → Except Fault α) → Prop
  | answer {a : α} (h : P a) : Posed types P fun _ => .ok a
  | ask {t : TypeSymbol} (name : String)
      {next : Option Symbol → MemberLookup → Except Fault α} (ht : Known types t)
      (hnext : ∀ s, KnownSymbol types s → Posed types P (next s)) :
      Posed types P (asking t name next)

namespace Posed

variable {α β : Type} {P : α → Prop} {Q : β → Prop} {F G : MemberLookup → Except Fault α}

theorem of_eq (h : ∀ member, F member = G member) (hG : Posed types P G) : Posed types P F :=
  funext h ▸ hG

/-- One look-up after another. -/
theorem bind {next : α → MemberLookup → Except Fault β} (hF : Posed types P F)
    (hnext : ∀ a, P a → Posed types Q (next a)) :
    Posed types Q fun member => F member >>= fun a => next a member := by
  induction hF with
  | answer h => exact hnext _ h
  | ask name ht _ ih =>
    refine of_eq (fun member => ?_) (.ask name ht ih)
    exact bind_assoc ..

theorem imp (hF : Posed types P F) {P' : α → Prop} (h : ∀ a, P a → P' a) : Posed types P' F := by
  induction hF with
  | answer ha => exact .answer (h _ ha)
  | ask name ht _ ih => exact .ask name ht ih

/-- One look-up for each item of a list. -/
theorem foldlM {f : MemberLookup → α → β → Except Fault α} {a : α} (ha : P a)
    (hf : ∀ a b, P a → Posed types P fun member => f member a b) (l : List β) :
    Posed types P fun member => l.foldlM (f member) a := by
  induction l generalizing a with
  | nil => exact .answer ha
  | cons b l ih => exact (hf a b ha).bind fun a ha => ih ha

end Posed

/-! ## Every look-up is made of questions -/

section Tables

variable {ws : Workspace}

theorem mem_declared_of_classes {moduleName name : String} {index : ModuleIndex} {t : TypeSymbol}
    (hindex : ws.modules.get? moduleName = some index) (ht : index.classes.get? name = some t) :
    t ∈ ws.declared := by
  refine List.mem_append_left _ (List.mem_flatMap.mpr ⟨index, Table.mem_values_of_get? hindex, ?_⟩)
  exact Table.mem_values_of_get? ht

theorem mem_declared_of_nested {typeName name : String} {index : TypeIndex} {t : TypeSymbol}
    (hindex : ws.types.get? typeName = some index) (ht : index.nested.get? name = some t) :
    t ∈ ws.declared := by
  refine List.mem_append_right _ (List.mem_flatMap.mpr ⟨index, Table.mem_values_of_get? hindex, ?_⟩)
  exact Table.mem_values_of_get? ht

variable (hdeclared : ws.declared ⊆ types)
include hdeclared

/-- A type that a module defines is known. -/
theorem knownSymbol_defined? {moduleName : String} {index : ModuleIndex}
    (hindex : ws.modules.get? moduleName = some index) (name : String) :
    KnownSymbol types (index.defined? name) := by
  intro t ht
  unfold ModuleIndex.defined? at ht
  rcases Option.or_eq_some_iff.mp ht with h | ⟨-, h⟩
  · obtain ⟨t', ht', heq⟩ := Option.map_eq_some_iff.mp h
    cases heq
    exact Or.inr (hdeclared (mem_declared_of_classes hindex ht'))
  · obtain ⟨m, -, heq⟩ := Option.map_eq_some_iff.mp h
    cases heq

/-- A type that a class declares is known. -/
theorem knownSymbol_declares? {typeName : String} {index : TypeIndex}
    (hindex : ws.types.get? typeName = some index) (name : String) :
    KnownSymbol types (index.declares? name) := by
  intro t ht
  unfold TypeIndex.declares? at ht
  simp only [Option.or_eq_some_iff, Option.map_eq_some_iff] at ht
  rcases ht with ⟨_, _, h⟩ | ⟨_, ⟨_, _, h⟩ | ⟨_, ⟨_, _, h⟩ | ⟨_, t', ht', h⟩⟩⟩
  · cases h
  · cases h
  · cases h
  · cases h
    exact Or.inr (hdeclared (mem_declared_of_nested hindex ht'))

end Tables

section Lookups

/-- A step along a dotted name. -/
theorem posed_step {within : MemberLookup → ModuleLookup}
    (hwithin : ∀ ref name, Posed types (KnownReferent types) fun member => within member ref name)
    {current : Option Referent} (hcurrent : KnownReferent types current) (name : String) :
    Posed types (KnownReferent types)
      fun member => stepWith member (within member) current name := by
  rcases current with _ | ((t | _ | _ | _) | m)
  · exact .answer (knownReferent_of_type?_eq_none rfl)
  · refine .of_eq (fun member => ?_) (.ask name (hcurrent t rfl) fun s hs => .answer hs.referent)
    show (member t name).map _ = member t name >>= _
    cases member t name <;> rfl
  · exact .answer (knownReferent_of_type?_eq_none rfl)
  · exact .answer (knownReferent_of_type?_eq_none rfl)
  · exact .answer (knownReferent_of_type?_eq_none rfl)
  · exact hwithin m name

/-- What an imported name stands for. -/
theorem posed_imported (ws : Workspace) {within : MemberLookup → ModuleLookup}
    (hwithin : ∀ ref name, Posed types (KnownReferent types) fun member => within member ref name)
    (index : ModuleIndex) (name target : String) :
    Posed types (KnownReferent types)
      fun member => importedWith ws member (within member) index name target := by
  unfold importedWith
  dsimp only
  split
  · exact .answer (knownReferent_of_type?_eq_none rfl)
  · split
    · exact .answer (knownReferent_of_type?_eq_none rfl)
    · split
      · exact .foldlM (knownReferent_of_type?_eq_none rfl)
          (fun _ part hcurrent => posed_step hwithin hcurrent part) _
      · exact .answer (knownReferent_externalName _ _)

variable {ws : Workspace} (hdeclared : ws.declared ⊆ types)
include hdeclared

/-- **A name of a module is found without a question, or it is imported.** -/
theorem inModule_or_imported (ref : ModuleRef) (name : String) :
    (∃ r, KnownReferent types r ∧ ∀ member hops, inModuleWithin ws member hops ref name = .ok r)
      ∨ ∃ index target, ∀ member, inModuleWithin ws member 0 ref name = .ok none
        ∧ ∀ hops, inModuleWithin ws member (hops + 1) ref name
          = importedWith ws member (inModuleWithin ws member hops) index name target := by
  have hsubmodule : ∀ r, submodule? ws ref name = some r → KnownReferent types (some r) := by
    intro r hr
    unfold submodule? at hr
    dsimp only at hr
    split at hr
    · cases hr
      exact knownReferent_of_type?_eq_none rfl
    · cases hr
  cases hfound : (if ref.isExternal then none else ws.modules.get? ref.name) with
  | none =>
    refine Or.inl ⟨(submodule? ws ref name).or (some (.symbol (externalName ref.name name))),
      ?_, fun member hops => ?_⟩
    · cases hr : submodule? ws ref name with
      | none => exact knownReferent_externalName _ _
      | some r => exact hsubmodule r hr
    · unfold inModuleWithin
      rw [hfound]
  | some index =>
    have hindex : ws.modules.get? ref.name = some index := by
      split at hfound
      · cases hfound
      · exact hfound
    cases hdefined : index.defined? name with
    | some s =>
      refine Or.inl ⟨some (.symbol s), ?_, fun member hops => ?_⟩
      · have hknown := knownSymbol_defined? hdeclared hindex name
        rw [hdefined] at hknown
        exact hknown.referent
      · unfold inModuleWithin
        simp only [hfound, hdefined]
    | none =>
      cases hr : submodule? ws ref name with
      | some r =>
        refine Or.inl ⟨some r, hsubmodule r hr, fun member hops => ?_⟩
        unfold inModuleWithin
        simp only [hfound, hdefined, hr]
      | none =>
        cases htarget : index.imports.get? name with
        | none =>
          refine Or.inl ⟨none, knownReferent_of_type?_eq_none rfl, fun member hops => ?_⟩
          unfold inModuleWithin
          simp only [hfound, hdefined, hr, htarget]
        | some target =>
          refine Or.inr ⟨index, target, fun member => ⟨?_, fun hops => ?_⟩⟩
          · unfold inModuleWithin
            simp only [hfound, hdefined, hr, htarget]
          · rw [inModuleWithin]
            simp only [hfound, hdefined, hr, htarget]

/-- **What a name of a module stands for**, whatever number of imports is followed. -/
theorem posed_inModule (hops : Nat) (ref : ModuleRef) (name : String) :
    Posed types (KnownReferent types)
      fun member => inModuleWithin ws member hops ref name := by
  induction hops generalizing ref name with
  | zero =>
    rcases inModule_or_imported hdeclared ref name with ⟨r, hr, heq⟩ | ⟨index, target, heq⟩
    · exact .of_eq (fun member => heq member 0) (.answer hr)
    · exact .of_eq (fun member => (heq member).1) (.answer (knownReferent_of_type?_eq_none rfl))
  | succ hops ih =>
    rcases inModule_or_imported hdeclared ref name with ⟨r, hr, heq⟩ | ⟨index, target, heq⟩
    · exact .of_eq (fun member => heq member (hops + 1)) (.answer hr)
    · exact .of_eq (fun member => (heq member).2 hops) (posed_imported ws ih index name target)

/-- What a name means at the top of a module. -/
theorem posed_global (moduleName name : String) :
    Posed types (KnownReferent types) fun member => globalWith ws member moduleName name := by
  have hbuiltin : KnownReferent types (if isBuiltin name then
      some (.symbol (.method (externalMethod "builtins" "builtins" name ("builtins." ++ name))))
      else none) := by
    intro t ht
    split at ht <;> cases ht
  unfold globalWith
  dsimp only
  split
  · exact .answer hbuiltin
  · rename_i index hindex
    split
    · rename_i s hs
      have hknown := knownSymbol_defined? hdeclared hindex name
      rw [hs] at hknown
      exact .answer hknown.referent
    · exact posed_imported ws (posed_inModule hdeclared mostHops) index name _
    · exact .answer hbuiltin

/-- What an attribute stands for. -/
theorem posed_attribute {receiver : Option Referent} (hreceiver : KnownReferent types receiver)
    (name : String) :
    Posed types (KnownReferent types) fun member => attributeWith ws member receiver name :=
  posed_step (posed_inModule hdeclared mostHops) hreceiver name

/-- The type that a dotted name means. -/
theorem posed_typeNamed (moduleName : String) (name : Option String) :
    Posed types (KnownType types) fun member => typeNamedWith ws member moduleName name := by
  unfold typeNamedWith
  split
  · exact .answer knownType_none
  · split
    · exact .answer knownType_none
    · split
      · exact .answer knownType_none
      · refine (posed_global hdeclared moduleName _).bind fun first hfirst => ?_
        refine (Posed.foldlM hfirst (fun _ part hcurrent =>
          posed_attribute hdeclared hcurrent part) _).bind fun found hfound => ?_
        exact .answer hfound.type

end Lookups

/-! ## Ancestors -/

section Lineage

variable {ws : Workspace} {member : MemberLookup} {fuel : Nat} {t : TypeSymbol}
  {listed : List TypeSymbol}

/-- A type whose bases are not looked at: it is listed, or external. -/
def IsLeaf (listed : List TypeSymbol) (t : TypeSymbol) : Prop :=
  listed.any (·.qualifiedName = t.qualifiedName) = true ∨ t.isExternal = true

/-- The list with a type on it. -/
def withType (listed : List TypeSymbol) (t : TypeSymbol) : List TypeSymbol :=
  if listed.any (·.qualifiedName = t.qualifiedName) then listed else listed ++ [t]

theorem subset_withType (listed : List TypeSymbol) (t : TypeSymbol) :
    listed ⊆ withType listed t := by
  unfold withType
  split
  · exact List.Subset.refl _
  · exact List.subset_append_left _ _

/-- A type whose bases are not looked at is just put on the list. -/
theorem lineageFrom_of_isLeaf (h : IsLeaf listed t) :
    lineageFrom ws member fuel t listed = .ok (withType listed t) := by
  unfold lineageFrom withType
  split
  · rfl
  · rename_i hlisted
    exact if_pos (h.resolve_left hlisted)

/-- So is one that the way ends at. -/
theorem lineageFrom_zero : lineageFrom ws member 0 t listed = .ok (withType listed t) := by
  unfold lineageFrom withType
  split
  · rfl
  · exact ite_self _

/-- The next base of a type, and what it brings to the list. -/
def baseFrom (ws : Workspace) (member : MemberLookup) (fuel : Nat) (moduleName : String)
    (listed : List TypeSymbol) (name : String) : Except Fault (List TypeSymbol) :=
  typeNamedWith ws member moduleName (some name) >>= fun
    | some base => lineageFrom ws member fuel base listed
    | none => .ok listed

/-- Any other type is followed by its bases. -/
theorem lineageFrom_succ (h : ¬ IsLeaf listed t) :
    lineageFrom ws member (fuel + 1) t listed
      = t.bases.foldlM (baseFrom ws member fuel t.homeModule) (listed ++ [t]) := by
  obtain ⟨hlisted, hexternal⟩ := not_or.mp h
  rw [lineageFrom, if_neg hlisted, if_neg hexternal]
  rfl

/-- **The ancestors of a type.** -/
theorem posed_lineage (hdeclared : ws.declared ⊆ types) (fuel : Nat) (t : TypeSymbol)
    (listed : List TypeSymbol) :
    Posed types (fun _ => True) fun member => lineageFrom ws member fuel t listed := by
  induction fuel generalizing t listed with
  | zero => exact .of_eq (fun _ => lineageFrom_zero) (.answer trivial)
  | succ fuel ih =>
    by_cases hleaf : IsLeaf listed t
    · exact .of_eq (fun _ => lineageFrom_of_isLeaf hleaf) (.answer trivial)
    · refine .of_eq (fun _ => lineageFrom_succ hleaf) (.foldlM trivial (fun listed name _ => ?_) _)
      refine (posed_typeNamed hdeclared t.homeModule (some name)).bind fun base _ => ?_
      cases base with
      | none => exact .answer trivial
      | some base => exact ih base listed

end Lineage

/-! ## Members -/

/-- The member that is found among the ancestors of a type. -/
def memberAmong (ws : Workspace) (lineage : List TypeSymbol) (name : String) : Option Symbol :=
  ((lineage.filter (!·.isExternal)).findSome? fun a =>
      (ws.types.get? a.qualifiedName).bind (·.declares? name)).or
    ((lineage.find? (·.isExternal)).map fun a =>
      .method (externalMethod a.homeModule a.name name (a.qualifiedName ++ "." ++ name)))

/-- Once the ancestors are listed, the member is found without a question. -/
theorem memberWith_eq (ws : Workspace) (member : MemberLookup) (t : TypeSymbol) (name : String) :
    memberWith ws member t name
      = lineageWith ws member t >>= fun lineage => .ok (memberAmong ws lineage name) := by
  unfold memberWith memberAmong
  congr 1
  funext lineage
  dsimp only
  split
  · rename_i s hs
    rw [hs]
    rfl
  · rename_i hs
    rw [hs]
    rfl

section Levels

variable {ws : Workspace} (hdeclared : ws.declared ⊆ types)
include hdeclared

/-- A type that is found as a member is known. -/
theorem knownSymbol_memberAmong (lineage : List TypeSymbol) (name : String) :
    KnownSymbol types (memberAmong ws lineage name) := by
  intro t ht
  unfold memberAmong at ht
  rcases Option.or_eq_some_iff.mp ht with h | ⟨-, h⟩
  · obtain ⟨a, -, ha⟩ := List.exists_of_findSome?_eq_some h
    obtain ⟨index, hindex, hdeclares⟩ := Option.bind_eq_some_iff.mp ha
    exact knownSymbol_declares? hdeclared hindex name t hdeclares
  · obtain ⟨a, -, heq⟩ := Option.map_eq_some_iff.mp h
    cases heq

/-- **The member of a type.** -/
theorem posed_member (t : TypeSymbol) (name : String) :
    Posed types (KnownSymbol types) fun member => memberWith ws member t name := by
  refine .of_eq (fun member => memberWith_eq ws member t name) ?_
  refine (posed_lineage hdeclared _ t []).bind fun lineage _ => ?_
  exact .answer (knownSymbol_memberAmong hdeclared lineage name)

end Levels

/-! ## What follows from the form of a look-up -/

/-- A way of finding members that finds known types only. -/
def Reliable (types : List TypeSymbol) (member : MemberLookup) : Prop :=
  ∀ t name s, member t name = .ok s → KnownSymbol types s

namespace Posed

variable {α : Type} {P : α → Prop} {F : MemberLookup → Except Fault α}
  {member member' : MemberLookup}

/-- An answer is as it should be. -/
theorem holds (hF : Posed types P F) (hmember : Reliable types member) {a : α}
    (ha : F member = .ok a) : P a := by
  induction hF with
  | answer h =>
    cases ha
    exact h
  | @ask t name next ht _ ih =>
    cases hs : member t name with
    | error e => rw [asking_error hs] at ha; cases ha
    | ok s =>
      rw [asking_ok hs] at ha
      exact ih s (hmember t name s hs) ha

/-- **A look-up keeps its answer** when more members are found. -/
theorem upholds (hF : Posed types P F) (hmember : Reliable types member)
    (h : ∀ t name, Upholds (member t name) (member' t name)) : Upholds (F member) (F member') := by
  induction hF with
  | answer => exact .refl _
  | @ask t name next ht _ ih =>
    intro a ha
    cases hs : member t name with
    | error e => rw [asking_error hs] at ha; cases ha
    | ok s =>
      rw [asking_ok hs] at ha
      rw [asking_ok (h t name s hs)]
      exact ih s (hmember t name s hs) a ha

/-- A look-up fails only as a member does. -/
theorem of_error (hF : Posed types P F) (hmember : Reliable types member) {e : Fault}
    (he : F member = .error e) : ∃ t name, member t name = .error e := by
  induction hF with
  | answer => cases he
  | @ask t name next ht _ ih =>
    cases hs : member t name with
    | error e' =>
      rw [asking_error hs] at he
      cases he
      exact ⟨t, name, hs⟩
    | ok s =>
      rw [asking_ok hs] at he
      exact ih s (hmember t name s hs) he

end Posed

/-! ## Levels -/

section Levels

variable {ws : Workspace}

theorem memberWithin_succ (level : Nat) (t : TypeSymbol) (name : String) :
    memberWithin ws (level + 1) t name
      = lineageWith ws (memberWithin ws level) t >>= fun lineage =>
        .ok (memberAmong ws lineage name) :=
  memberWith_eq ws (memberWithin ws level) t name

variable (hdeclared : ws.declared ⊆ types)
include hdeclared

theorem reliable_memberWithin (level : Nat) : Reliable types (memberWithin ws level) := by
  intro t name s hs
  cases level with
  | zero => cases hs
  | succ level =>
    rw [memberWithin_succ] at hs
    cases hlineage : lineageWith ws (memberWithin ws level) t with
    | error e => rw [hlineage] at hs; cases hs
    | ok lineage =>
      rw [hlineage] at hs
      cases hs
      exact knownSymbol_memberAmong hdeclared lineage name

/-- The one thing that can go wrong is that there are too few levels. -/
theorem eq_tooDeep_of_error {level : Nat} {t : TypeSymbol} {name : String} {e : Fault}
    (he : memberWithin ws level t name = .error e) : e = .tooDeep := by
  induction level generalizing t name with
  | zero => exact (Except.error.inj he).symm
  | succ level ih =>
    obtain ⟨t', name', he'⟩ :=
      (posed_member hdeclared t name).of_error (reliable_memberWithin hdeclared level) he
    exact ih he'

/-- **More levels change no answer.** -/
theorem memberWithin_mono {level level' : Nat} (h : level ≤ level') (t : TypeSymbol)
    (name : String) : Upholds (memberWithin ws level t name) (memberWithin ws level' t name) := by
  induction level generalizing level' t name with
  | zero =>
    intro s hs
    cases hs
  | succ level ih =>
    obtain ⟨level', rfl⟩ := Nat.exists_eq_add_of_le' (Nat.lt_of_lt_of_le (Nat.succ_pos level) h)
    exact (posed_member hdeclared t name).upholds (reliable_memberWithin hdeclared level)
      (ih (Nat.le_of_succ_le_succ h))

/-- Two answers to the same question are the same, at whatever levels they were had. -/
theorem memberWithin_unique {level level' : Nat} {t : TypeSymbol} {name : String}
    {s s' : Option Symbol} (hs : memberWithin ws level t name = .ok s)
    (hs' : memberWithin ws level' t name = .ok s') : s = s' := by
  have hmax := memberWithin_mono hdeclared (Nat.le_max_left level level') t name s hs
  have hmax' := memberWithin_mono hdeclared (Nat.le_max_right level level') t name s' hs'
  exact Except.ok.inj (hmax.symm.trans hmax')

end Levels

/-! ## The length of the way to an ancestor -/

/-- How many of the indexed types are not listed yet. -/
def unlisted (ws : Workspace) (listed : List TypeSymbol) : Nat :=
  ws.types.names.countP fun n => !listed.any (·.qualifiedName = n)

section Unlisted

variable {ws : Workspace} {listed listed' : List TypeSymbol}

theorem unlisted_le (ws : Workspace) (listed : List TypeSymbol) :
    ws.unlisted listed ≤ ws.types.length :=
  Nat.le_trans List.countP_le_length (Nat.le_of_eq (List.length_map _))

/-- The more types are listed, the fewer are left. -/
theorem unlisted_mono (h : listed ⊆ listed') : ws.unlisted listed' ≤ ws.unlisted listed := by
  refine List.countP_mono_left fun n _ hn => ?_
  rw [Bool.not_eq_true', List.any_eq_false] at hn ⊢
  exact fun t ht => hn t (h ht)

/-- To list an indexed type leaves fewer. -/
theorem unlisted_lt {t : TypeSymbol} (hmem : t.qualifiedName ∈ ws.types.names)
    (hnew : listed.any (·.qualifiedName = t.qualifiedName) = false) :
    ws.unlisted (listed ++ [t]) < ws.unlisted listed := by
  unfold unlisted
  obtain ⟨before, after, hsplit⟩ := List.append_of_mem hmem
  have hfewer : ∀ names : List String,
      names.countP (fun n => !(listed ++ [t]).any (·.qualifiedName = n))
        ≤ names.countP fun n => !listed.any (·.qualifiedName = n) := by
    refine fun names => List.countP_mono_left fun n _ hn => ?_
    rw [Bool.not_eq_true', List.any_eq_false] at hn ⊢
    exact fun u hu => hn u (List.mem_append_left _ hu)
  rw [hsplit, List.countP_append, List.countP_append, List.countP_cons_of_neg (by simp),
    List.countP_cons_of_pos (by rw [hnew]; rfl)]
  exact Nat.lt_of_le_of_lt (Nat.add_le_add (hfewer before) (hfewer after)) (Nat.lt_succ_self _)

end Unlisted

section Fuel

variable {ws : Workspace} {member : MemberLookup}

/-- What is listed stays listed while bases are gone through, if each base leaves it so. -/
theorem subset_of_foldlM {f : List TypeSymbol → String → Except Fault (List TypeSymbol)}
    (hf : ∀ listed name listed', f listed name = .ok listed' → listed ⊆ listed')
    {names : List String} {listed listed' : List TypeSymbol}
    (h : names.foldlM f listed = .ok listed') : listed ⊆ listed' := by
  induction names generalizing listed with
  | nil =>
    cases h
    exact List.Subset.refl _
  | cons name names ih =>
    rw [List.foldlM_cons] at h
    cases hname : f listed name with
    | error e => rw [hname] at h; cases h
    | ok next =>
      rw [hname] at h
      exact List.Subset.trans (hf listed name next hname) (ih h)

/-- A base leaves listed what is listed, if its ancestors do. -/
theorem subset_baseFrom_of_lineageFrom {fuel : Nat}
    (hfuel : ∀ base listed listed', lineageFrom ws member fuel base listed = .ok listed' →
      listed ⊆ listed')
    {moduleName : String} (listed : List TypeSymbol) (name : String) (listed' : List TypeSymbol)
    (h : baseFrom ws member fuel moduleName listed name = .ok listed') : listed ⊆ listed' := by
  unfold baseFrom at h
  rcases hfound : typeNamedWith ws member moduleName (some name) with e | (_ | base)
  · rw [hfound] at h
    cases h
  · rw [hfound] at h
    cases h
    exact List.Subset.refl _
  · rw [hfound] at h
    exact hfuel base listed listed' h

/-- What is listed stays listed. -/
theorem subset_lineageFrom {fuel : Nat} (t : TypeSymbol) (listed listed' : List TypeSymbol)
    (h : lineageFrom ws member fuel t listed = .ok listed') : listed ⊆ listed' := by
  induction fuel generalizing t listed listed' with
  | zero =>
    cases lineageFrom_zero.symm.trans h
    exact subset_withType listed t
  | succ fuel ih =>
    by_cases hleaf : IsLeaf listed t
    · cases (lineageFrom_of_isLeaf hleaf).symm.trans h
      exact subset_withType listed t
    · rw [lineageFrom_succ hleaf] at h
      exact List.Subset.trans (List.subset_append_left _ _)
        (subset_of_foldlM (subset_baseFrom_of_lineageFrom ih) h)

/-- **There is fuel enough** to list a type and its ancestors: none is needed where the bases
are not looked at, and else as much as there are types left when the type is listed. -/
def Enough (ws : Workspace) (fuel : Nat) (t : TypeSymbol) (listed : List TypeSymbol) : Prop :=
  IsLeaf listed t ∨ ws.unlisted (listed ++ [t]) < fuel

/-- A base that is found needs less than the type that it is a base of. -/
theorem enough_of_known (hindexed : ws.WellIndexed) {base : TypeSymbol}
    (hbase : Known ws.declared base) {fuel : Nat} {listed : List TypeSymbol}
    (hfuel : ws.unlisted listed ≤ fuel) : Enough ws fuel base listed := by
  rcases hbase with hexternal | hmem
  · exact Or.inl (Or.inr hexternal)
  · cases hlisted : listed.any (·.qualifiedName = base.qualifiedName) with
    | true => exact Or.inl (Or.inl hlisted)
    | false =>
      refine Or.inr (Nat.lt_of_lt_of_le ?_ hfuel)
      exact unlisted_lt (hindexed.of_mem_declared hmem) hlisted

/-- Two ways of going through the bases of a type are the same if they are for every list that
comes up. -/
theorem foldlM_congr {f g : List TypeSymbol → String → Except Fault (List TypeSymbol)}
    {start : List TypeSymbol}
    (hf : ∀ listed name listed', f listed name = .ok listed' → listed ⊆ listed')
    (h : ∀ listed name, start ⊆ listed → f listed name = g listed name) (names : List String)
    {listed : List TypeSymbol} (hlisted : start ⊆ listed) :
    names.foldlM f listed = names.foldlM g listed := by
  induction names generalizing listed with
  | nil => rfl
  | cons name names ih =>
    rw [List.foldlM_cons, List.foldlM_cons, ← h listed name hlisted]
    cases hname : f listed name with
    | error e => rfl
    | ok next => exact ih (List.Subset.trans hlisted (hf listed name next hname))

/-- **More fuel makes no difference** where there is enough. -/
theorem lineageFrom_of_enough (hindexed : ws.WellIndexed)
    (hmember : Reliable ws.declared member) {fuel fuel' : Nat} {t : TypeSymbol}
    {listed : List TypeSymbol} (h : Enough ws fuel t listed) (h' : Enough ws fuel' t listed) :
    lineageFrom ws member fuel t listed = lineageFrom ws member fuel' t listed := by
  induction fuel generalizing fuel' t listed with
  | zero =>
    have hleaf := h.resolve_right (Nat.not_lt_zero _)
    rw [lineageFrom_of_isLeaf hleaf, lineageFrom_of_isLeaf hleaf]
  | succ fuel ih =>
    by_cases hleaf : IsLeaf listed t
    · rw [lineageFrom_of_isLeaf hleaf, lineageFrom_of_isLeaf hleaf]
    · have hlt := h.resolve_left hleaf
      have hlt' := h'.resolve_left hleaf
      obtain ⟨fuel', rfl⟩ := Nat.exists_eq_add_of_le' (Nat.lt_of_le_of_lt (Nat.zero_le _) hlt')
      rw [lineageFrom_succ hleaf, lineageFrom_succ hleaf]
      refine foldlM_congr (subset_baseFrom_of_lineageFrom subset_lineageFrom) ?_ t.bases
        (List.Subset.refl _)
      intro current name hcurrent
      -- whatever base is found, fewer types are left for it than there were
      have hleft : ws.unlisted current ≤ ws.unlisted (listed ++ [t]) := unlisted_mono hcurrent
      unfold baseFrom
      rcases hfound : typeNamedWith ws member t.homeModule (some name) with e | (_ | base)
      · rfl
      · rfl
      · have hbase : Known ws.declared base :=
          (posed_typeNamed (List.Subset.refl _) t.homeModule (some name)).holds hmember hfound
            base rfl
        exact ih (enough_of_known hindexed hbase (Nat.le_trans hleft (Nat.le_of_lt_succ hlt)))
          (enough_of_known hindexed hbase (Nat.le_trans hleft (Nat.le_of_lt_succ hlt')))

/-- **The way to an ancestor is never cut short.** -/
theorem lineageFrom_eq_lineageWith (hindexed : ws.WellIndexed)
    (hmember : Reliable ws.declared member) (t : TypeSymbol) (extra : Nat) :
    lineageFrom ws member (ws.types.length + 2 + extra) t [] = lineageWith ws member t := by
  have hle := ws.unlisted_le ([] ++ [t])
  exact lineageFrom_of_enough hindexed hmember (Or.inr (by omega)) (Or.inr (by omega))

end Fuel

end CallTree.Workspace
