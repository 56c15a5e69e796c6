import CallTree.Proofs.DepthFirst
import CallTree.Proofs.RelativeImports
import CallTree.Proofs.SuperLookup

/-!
# Inheritance

The ancestors of a type are listed depth-first: the type, then what its bases name from left to
right, each with its own ancestors. A type that is listed already is passed over. Types are told
apart by their qualified names there, so that the list is what it should be as long as no two types
on the way share one. Of two external types this need not be asked. They are made from the names
that lead to them, and are the same if these are (`IsOutside.eq_of_qualifiedName`).

What the list holds, and in what order, is then known from how it is drawn up
(`lists_lineageFrom`), and a member is what the first type on the list declares. An external type
is asked only when no type of the workspace has anything to say, however far behind it comes.
-/

namespace CallTree.Workspace

open CallTree.Text (segments dotted lastSegment)
open Relation (ReflTransGen TransGen)

variable {ws : Workspace}

/-! ## External types are known by their names -/

/-- **A type that is known by its name only**: it is made from the name of a module and a name
without a dot. -/
def IsOutside (t : TypeSymbol) : Prop :=
  ∃ moduleName name, segments name = [name] ∧ externalName moduleName name = .type t

/-- **Two such types with the same name are the same.** -/
theorem IsOutside.eq_of_qualifiedName {t u : TypeSymbol} (ht : IsOutside t) (hu : IsOutside u)
    (h : t.qualifiedName = u.qualifiedName) : t = u := by
  have hname : ∀ {moduleName name : String} {t : TypeSymbol},
      externalName moduleName name = .type t → t.qualifiedName = moduleName ++ "." ++ name := by
    intro moduleName name t ht
    unfold externalName at ht
    dsimp only at ht
    split at ht <;> cases ht
    rfl
  obtain ⟨moduleName, name, hsegment, ht⟩ := ht
  obtain ⟨moduleName', name', hsegment', hu⟩ := hu
  rw [hname ht, hname hu] at h
  have hsegments := congrArg segments h
  rw [Text.segments_append, Text.segments_append, hsegment, hsegment'] at hsegments
  obtain ⟨hmodule, hlast⟩ := List.append_inj' hsegments rfl
  have hmoduleName : moduleName = moduleName' := by
    rw [← Text.dotted_segments moduleName, hmodule, Text.dotted_segments]
  rw [hmoduleName, List.head_eq_of_cons_eq hlast, hu] at ht
  exact (Symbol.type.inj ht).symm

/-- If a name stands for an external type, the type is known by its name only. -/
def OutsideReferent (found : Option Referent) : Prop :=
  ∀ t, found = some (.symbol (.type t)) → t.isExternal = true → IsOutside t

theorem outsideReferent_of_type?_eq_none {found : Option Referent}
    (h : found.bind Referent.type? = none) : OutsideReferent found := by
  rintro t rfl
  cases h

theorem outsideReferent_externalName (moduleName : String) {name : String}
    (h : segments name = [name]) :
    OutsideReferent (some (.symbol (externalName moduleName name))) := by
  intro t ht _
  exact ⟨moduleName, name, h, Referent.symbol.inj (Option.some.inj ht)⟩

/-- What the tables hold is not external. -/
theorem Holds.isExternal_eq_false (hws : ws.Filed) {s : Symbol} (h : ws.Holds s) :
    s.isExternal = false := by
  cases h with
  | topClass hindex ht => exact hws.classes _ hindex _ ht
  | function hindex hm => exact (hws.functions _ hindex _ hm).1
  | method hindex hm => exact (hws.methods _ hindex _ (Or.inl hm)).1
  | property => rfl
  | field => rfl
  | nested hindex ht => exact hws.nested _ hindex _ ht

theorem Holds.outsideReferent (hws : ws.Filed) {s : Symbol} (h : ws.Holds s) :
    OutsideReferent (some (.symbol s)) := by
  rintro t ht hexternal
  cases ht
  exact absurd hexternal (Bool.eq_false_iff.mp (h.isExternal_eq_false hws))

/-- A way of finding members that finds no external types. -/
def FindsInside (member : MemberLookup) : Prop :=
  ∀ t name, Gives (member t name) fun found => OutsideReferent (found.map .symbol)

theorem findsInside_memberWithin (hws : ws.Filed) (level : Nat) :
    FindsInside (memberWithin ws level) := by
  intro t name
  cases level with
  | zero => exact .error
  | succ level =>
    rw [memberWithin_succ]
    intro found hfound
    obtain ⟨lineage, -, hfound⟩ := ok_of_bind hfound
    cases hfound
    rw [memberAmong_eq]
    cases hdeclared : declaredAmong ws lineage name with
    | some s =>
      obtain ⟨a, -, ha⟩ := List.exists_of_findSome?_eq_some hdeclared
      obtain ⟨index, hindex, hs⟩ := Option.bind_eq_some_iff.mp ha
      exact (holds_declares? hindex hs).outsideReferent hws
    | none =>
      unfold externalAmong
      cases lineage.find? (·.isExternal) with
      | none => exact outsideReferent_of_type?_eq_none rfl
      | some a => exact outsideReferent_of_type?_eq_none rfl

section With

variable {member : MemberLookup} {within : ModuleLookup} (hmember : FindsInside member)

include hmember

theorem gives_outside_stepWith
    (hwithin : ∀ ref name, segments name = [name] → Gives (within ref name) OutsideReferent)
    (current : Option Referent) {name : String} (hname : segments name = [name]) :
    Gives (stepWith member within current name) OutsideReferent := by
  unfold stepWith
  split
  · exact hwithin _ name hname
  · exact (hmember _ name).map fun _ h => h
  · exact .ok (outsideReferent_of_type?_eq_none rfl)

theorem gives_outside_importedWith
    (hwithin : ∀ ref name, segments name = [name] → Gives (within ref name) OutsideReferent)
    (index : ModuleIndex) (name target : String) :
    Gives (importedWith ws member within index name target) OutsideReferent := by
  unfold importedWith
  dsimp only
  split
  · exact .ok (outsideReferent_of_type?_eq_none rfl)
  · split
    · exact .ok (outsideReferent_of_type?_eq_none rfl)
    · split
      · refine .foldlM _ (outsideReferent_of_type?_eq_none rfl) fun current part hpart _ => ?_
        exact gives_outside_stepWith hmember hwithin current
          (Text.segments_of_mem_segments (List.mem_of_mem_drop hpart))
      · exact .ok (outsideReferent_externalName _ (Text.segments_of_mem_segments
          (List.getLast_mem (Text.segments_ne_nil _))))

variable (hws : ws.Filed)

include hws

theorem gives_outside_inModuleWithin (hops : Nat) (ref : ModuleRef) {name : String}
    (hname : segments name = [name]) :
    Gives (inModuleWithin ws member hops ref name) OutsideReferent := by
  induction hops using Nat.strongRecOn generalizing ref name with
  | _ hops ih =>
    have hsubmodule : ∀ r, submodule? ws ref name = some r → OutsideReferent (some r) := by
      intro r hr
      unfold submodule? at hr
      dsimp only at hr
      split at hr <;> cases hr
      exact outsideReferent_of_type?_eq_none rfl
    unfold inModuleWithin
    split
    · cases hr : submodule? ws ref name with
      | none => exact .ok (outsideReferent_externalName _ hname)
      | some r => exact .ok (hsubmodule r hr)
    · rename_i index hfound
      have hindex : ws.modules.get? ref.name = some index := by
        split at hfound
        · cases hfound
        · exact hfound
      split
      · rename_i s hs
        exact .ok ((holds_defined? hindex hs).outsideReferent hws)
      · rename_i r hr
        exact .ok (hsubmodule _ hr)
      · exact .ok (outsideReferent_of_type?_eq_none rfl)
      · split
        · exact .ok (outsideReferent_of_type?_eq_none rfl)
        · exact gives_outside_importedWith hmember
            (fun ref name hname => ih _ (Nat.lt_succ_self _) ref hname) _ _ _

theorem gives_outside_globalWith (moduleName name : String) :
    Gives (globalWith ws member moduleName name) OutsideReferent := by
  have hbuiltin : OutsideReferent (if isBuiltin name then
      some (.symbol (.method (externalMethod "builtins" "builtins" name ("builtins." ++ name))))
      else none) := by
    split <;> exact outsideReferent_of_type?_eq_none rfl
  unfold globalWith
  dsimp only
  split
  · exact .ok hbuiltin
  · rename_i index hindex
    split
    · rename_i s hs
      exact .ok ((holds_defined? hindex hs).outsideReferent hws)
    · exact gives_outside_importedWith hmember
        (fun ref _ hname => gives_outside_inModuleWithin hmember hws mostHops ref hname) _ _ _
    · exact .ok hbuiltin

/-- **An external type that a name means is known by its name only.** -/
theorem gives_outside_typeNamedWith (moduleName : String) (name : Option String) :
    Gives (typeNamedWith ws member moduleName name)
      fun found => ∀ t, found = some t → t.isExternal = true → IsOutside t := by
  have hnone : ∀ t : TypeSymbol, none = some t → t.isExternal = true → IsOutside t := by
    intro t ht
    cases ht
  unfold typeNamedWith
  split
  · exact .ok hnone
  · split
    · exact .ok hnone
    · split
      · exact .ok hnone
      · rename_i head rest hsegments
        refine .bind (gives_outside_globalWith hmember hws moduleName head) fun first hfirst => ?_
        refine .bind (.foldlM (P := OutsideReferent) rest hfirst fun current part hpart _ => ?_) ?_
        · refine gives_outside_stepWith hmember (fun ref _ hname =>
            gives_outside_inModuleWithin hmember hws mostHops ref hname) current ?_
          exact Text.segments_of_mem_segments (hsegments ▸ List.mem_cons_of_mem _ hpart)
        · intro found hfound
          refine .ok fun t ht hexternal => ?_
          rcases found with _ | ((t' | _ | _ | _) | m)
          all_goals cases ht
          exact hfound t rfl hexternal

end With

/-! ## The list of ancestors -/

/-- **The types that the bases of a type name**, from left to right. Nothing is known of the bases
of an external type. -/
def basesOf (ws : Workspace) (t : TypeSymbol) : List TypeSymbol :=
  if t.isExternal then [] else t.bases.filterMap (ws.typeNamed? t.homeModule)

theorem typeNamed?_eq_some_iff {moduleName name : String} {t : TypeSymbol} :
    ws.typeNamed? moduleName name = some t
      ↔ ws.typeNamed moduleName (some name) = .ok (some t) := by
  unfold typeNamed?
  rcases ws.typeNamed moduleName (some name) with e | (_ | u)
  · exact iff_of_false (fun h => by cases h) fun h => by cases h
  · exact iff_of_false (fun h => by cases h) fun h => by cases h
  · exact ⟨fun h => congrArg _ h, fun h => Except.ok.inj h⟩

theorem leadsTo_basesOf : LeadsTo ws.basesOf = ws.Extends := by
  funext t u
  unfold LeadsTo basesOf Extends
  cases t.isExternal with
  | true => simp
  | false => simp [typeNamed?_eq_some_iff]

/-- What a base brings, once it is known what its name means. -/
theorem baseFrom_of_typeNamedWith {member : MemberLookup} {fuel : Nat} {moduleName name : String}
    {listed : List TypeSymbol} {found : Option TypeSymbol}
    (h : typeNamedWith ws member moduleName (some name) = .ok found) :
    baseFrom ws member fuel moduleName listed name
      = found.elim (.ok listed) (lineageFrom ws member fuel · listed) := by
  unfold baseFrom
  rw [h]
  cases found <;> rfl

/-- A base that is external is known by its name only. -/
theorem Extends.isOutside (hws : ws.Filed) {t u : TypeSymbol} (h : ws.Extends t u)
    (hexternal : u.isExternal = true) : IsOutside u := by
  obtain ⟨-, name, -, hnamed⟩ := h
  exact gives_outside_typeNamedWith (findsInside_memberWithin hws mostLevels) hws _ _ _ hnamed u rfl
    hexternal

/-- An external type inherits from nothing. -/
theorem eq_of_external {t u : TypeSymbol} (ht : t.isExternal = true)
    (h : ReflTransGen ws.Extends t u) : u = t := by
  rcases h.cases_head with rfl | ⟨v, hbase, -⟩
  · rfl
  · exact absurd ht (Bool.eq_false_iff.mp hbase.1)

/-- **All that a type inherits from can be told**: the names of the bases have a meaning within so
many levels, and a type of the workspace shares its name with no other type. -/
structure Settled (ws : Workspace) (level : Nat) (t : TypeSymbol) : Prop where
  ends : ∀ u, ReflTransGen ws.Extends t u → u.isExternal = false → ∀ name ∈ u.bases,
    EndsWithin ws (typeNamedWith ws · u.homeModule (some name)) level
  distinct : ∀ u v, ReflTransGen ws.Extends t u → ReflTransGen ws.Extends t v →
    v.isExternal = false → u.qualifiedName = v.qualifiedName → u = v

namespace Settled

variable {level : Nat} {root : TypeSymbol} (h : ws.Settled level root)

include h

/-- The types are told apart by their names, external ones too. -/
theorem eq_of_qualifiedName (hws : ws.Filed) {u v : TypeSymbol}
    (hu : ReflTransGen ws.Extends root u) (hv : ReflTransGen ws.Extends root v)
    (heq : u.qualifiedName = v.qualifiedName) : u = v := by
  cases hroot : root.isExternal with
  | true => rw [eq_of_external hroot hu, eq_of_external hroot hv]
  | false =>
    have houtside : ∀ {u}, ReflTransGen ws.Extends root u → u.isExternal = true →
        IsOutside u := by
      intro u hu hexternal
      rcases hu.cases_tail with rfl | ⟨t, -, hbase⟩
      · exact absurd hexternal (Bool.eq_false_iff.mp hroot)
      · exact hbase.isOutside hws hexternal
    cases hv' : v.isExternal with
    | false => exact h.distinct u v hu hv hv' heq
    | true =>
      cases hu' : u.isExternal with
      | false => exact (h.distinct v u hv hu hu' heq.symm).symm
      | true => exact (houtside hu hu').eq_of_qualifiedName (houtside hv hv') heq

/-- A type that is not looked into is put on the list. -/
theorem lists_of_isLeaf (hws : ws.Filed) {u : TypeSymbol} {listed : List TypeSymbol}
    (hu : ReflTransGen ws.Extends root u)
    (hlisted : ∀ v ∈ listed, ReflTransGen ws.Extends root v) (hleaf : IsLeaf listed u) :
    Lists ws.basesOf [u] listed (withType listed u) := by
  unfold withType
  split
  · rename_i hany
    obtain ⟨v, hv, hname⟩ := List.any_eq_true.mp hany
    have heq : v = u := h.eq_of_qualifiedName hws (hlisted v hv) hu (of_decide_eq_true hname)
    exact .skip (heq ▸ hv) .done
  · rename_i hnone
    have hnew : u ∉ listed := fun hmem =>
      hnone (List.any_eq_true.mpr ⟨u, hmem, decide_eq_true rfl⟩)
    have hbases : ws.basesOf u = [] := if_pos (hleaf.resolve_left hnone)
    refine .visit hnew ?_ .done
    rw [hbases]
    exact .done

variable (hlevel : level ≤ mostLevels) (hindexed : ws.WellIndexed)

include hlevel hindexed

/-- **Going through the bases of a type**, if each of them can be listed. -/
theorem lists_foldlM {fuel : Nat}
    (hfuel : ∀ u listed, ReflTransGen ws.Extends root u →
      (∀ v ∈ listed, ReflTransGen ws.Extends root v) → Enough ws fuel u listed →
      ∃ all, lineageFrom ws (memberWithin ws level) fuel u listed = .ok all
        ∧ Lists ws.basesOf [u] listed all)
    {u : TypeSymbol} (hu : ReflTransGen ws.Extends root u) (hinside : u.isExternal = false)
    {names : List String} (hnames : names ⊆ u.bases) {listed : List TypeSymbol}
    (hlisted : ∀ v ∈ listed, ReflTransGen ws.Extends root v) (hleft : ws.unlisted listed ≤ fuel) :
    ∃ all, names.foldlM (baseFrom ws (memberWithin ws level) fuel u.homeModule) listed = .ok all
      ∧ Lists ws.basesOf (names.filterMap (ws.typeNamed? u.homeModule)) listed all := by
  induction names generalizing listed with
  | nil => exact ⟨listed, rfl, .done⟩
  | cons name names ih =>
    obtain ⟨hname, hnames⟩ := List.cons_subset.mp hnames
    obtain ⟨found, hfound⟩ := h.ends u hu hinside name hname
    dsimp only at hfound
    have hnamed := typeNamed_of_typeNamedWith hlevel hfound
    rw [List.foldlM_cons, baseFrom_of_typeNamedWith hfound]
    cases found with
    | none =>
      rw [List.filterMap_cons_none (by unfold typeNamed?; rw [hnamed]; rfl)]
      exact ih hnames hlisted hleft
    | some base =>
      have hbase : ReflTransGen ws.Extends root base :=
        hu.tail ⟨hinside, name, hname, hnamed⟩
      have hknown : Known ws.declared base :=
        (posed_typeNamed (List.Subset.refl _) u.homeModule (some name)).holds
          (reliable_memberWithin (List.Subset.refl _) level) hfound base rfl
      obtain ⟨mid, hmid, hfirst⟩ :=
        hfuel base listed hbase hlisted (enough_of_known hindexed hknown hleft)
      have hreached : ∀ v ∈ mid, ReflTransGen ws.Extends root v := by
        intro v hv
        rcases hfirst.reached v hv with hv | ⟨base', hbase', hreach⟩
        · exact hlisted v hv
        · rw [List.mem_singleton.mp hbase', leadsTo_basesOf] at hreach
          exact hbase.trans hreach
      obtain ⟨all, hall, hlists⟩ :=
        ih hnames hreached (Nat.le_trans (unlisted_mono hfirst.isPrefix.subset) hleft)
      rw [List.filterMap_cons_some (typeNamed?_eq_some_iff.mpr hnamed), Option.elim_some, hmid]
      exact ⟨all, hall, hfirst.cons hlists⟩

/-- **The ancestors of a type are listed depth-first.** -/
theorem lists_lineageFrom (hws : ws.Filed) (fuel : Nat) {u : TypeSymbol} {listed : List TypeSymbol}
    (hu : ReflTransGen ws.Extends root u)
    (hlisted : ∀ v ∈ listed, ReflTransGen ws.Extends root v) (henough : Enough ws fuel u listed) :
    ∃ all, lineageFrom ws (memberWithin ws level) fuel u listed = .ok all
      ∧ Lists ws.basesOf [u] listed all := by
  induction fuel generalizing u listed with
  | zero =>
    have hleaf := henough.resolve_right (Nat.not_lt_zero _)
    exact ⟨_, lineageFrom_of_isLeaf hleaf, h.lists_of_isLeaf hws hu hlisted hleaf⟩
  | succ fuel ih =>
    by_cases hleaf : IsLeaf listed u
    · exact ⟨_, lineageFrom_of_isLeaf hleaf, h.lists_of_isLeaf hws hu hlisted hleaf⟩
    · obtain ⟨hnone, hinside⟩ := not_or.mp hleaf
      have hnew : u ∉ listed := fun hmem =>
        hnone (List.any_eq_true.mpr ⟨u, hmem, decide_eq_true rfl⟩)
      have hbases : ws.basesOf u = u.bases.filterMap (ws.typeNamed? u.homeModule) := if_neg hinside
      have hreached : ∀ v ∈ listed ++ [u], ReflTransGen ws.Extends root v := by
        intro v hv
        rcases List.mem_append.mp hv with hv | hv
        · exact hlisted v hv
        · rwa [List.mem_singleton.mp hv]
      obtain ⟨all, hall, hlists⟩ := h.lists_foldlM hlevel hindexed
        (fun u listed hu hlisted henough => ih hu hlisted henough) hu (by simpa using hinside)
        (List.Subset.refl _) hreached (Nat.le_of_lt_succ (henough.resolve_left hleaf))
      rw [lineageFrom_succ hleaf]
      exact ⟨all, hall, .visit hnew (hbases ▸ hlists) .done⟩

/-- **The ancestors of the type itself.** -/
theorem lists_lineageWith (hws : ws.Filed) :
    ∃ order, lineageWith ws (memberWithin ws level) root = .ok order
      ∧ Lists ws.basesOf [root] [] order := by
  have hle := ws.unlisted_le ([] ++ [root])
  exact h.lists_lineageFrom hlevel hindexed hws _ .refl (fun _ hv => absurd hv List.not_mem_nil)
    (Or.inr (by omega))

end Settled

/-! ## Members -/

/-- **What a class declares under a name**: a method; else a property; else a field; else a
class. -/
inductive TypeIndex.Declared (index : TypeIndex) (name : String) : Symbol → Prop
  | method {m : MethodSymbol} (h : index.methods.get? name = some m) :
      Declared index name (.method m)
  | property {p : StateSymbol} (hmethod : index.methods.get? name = none)
      (h : index.properties.get? name = some p) : Declared index name (.property p)
  | field {f : StateSymbol} (hmethod : index.methods.get? name = none)
      (hproperty : index.properties.get? name = none)
      (h : index.fields.get? name = some f) : Declared index name (.field f)
  | nested {t : TypeSymbol} (hmethod : index.methods.get? name = none)
      (hproperty : index.properties.get? name = none) (hfield : index.fields.get? name = none)
      (h : index.nested.get? name = some t) : Declared index name (.type t)

theorem TypeIndex.declares?_eq_some_iff {index : TypeIndex} {name : String} {s : Symbol} :
    index.declares? name = some s ↔ index.Declared name s := by
  unfold declares?
  constructor
  · intro h
    simp only [Option.or_eq_some_iff, Option.map_eq_some_iff, Option.map_eq_none_iff] at h
    rcases h with ⟨m, hm, rfl⟩ | ⟨hmethod, ⟨p, hp, rfl⟩ | ⟨hproperty, ⟨f, hf, rfl⟩ |
      ⟨hfield, t, ht, rfl⟩⟩⟩
    · exact .method hm
    · exact .property hmethod hp
    · exact .field hmethod hproperty hf
    · exact .nested hmethod hproperty hfield ht
  · intro h
    cases h with
    | method h => simp [h]
    | property hmethod h => simp [hmethod, h]
    | field hmethod hproperty h => simp [hmethod, hproperty, h]
    | nested hmethod hproperty hfield h => simp [hmethod, hproperty, hfield, h]

/-- **What is found under a name among types in order**: what the first type of the workspace which
declares it says; if there is none, something made up for the first external type; else nothing. -/
inductive Inherited (ws : Workspace) (order : List TypeSymbol) (name : String) :
    Option Symbol → Prop
  | declared {before after : List TypeSymbol} {u : TypeSymbol} {index : TypeIndex} {s : Symbol}
      (horder : order = before ++ u :: after) (hbefore : ∀ v ∈ before, ¬ ws.Declares v name)
      (hu : u.isExternal = false) (hindex : ws.types.get? u.qualifiedName = some index)
      (hs : index.Declared name s) : Inherited ws order name (some s)
  | external {before after : List TypeSymbol} {u : TypeSymbol}
      (hnone : ∀ v ∈ order, ¬ ws.Declares v name) (horder : order = before ++ u :: after)
      (hbefore : ∀ v ∈ before, v.isExternal = false) (hu : u.isExternal = true) :
      Inherited ws order name (some (.method
        (externalMethod u.homeModule u.name name (u.qualifiedName ++ "." ++ name))))
  | nothing (hnone : ∀ v ∈ order, ¬ ws.Declares v name)
      (hinside : ∀ v ∈ order, v.isExternal = false) : Inherited ws order name none

section Members

variable {order : List TypeSymbol} {name : String} {found : Option Symbol}

theorem inherited_memberAmong (ws : Workspace) (order : List TypeSymbol) (name : String) :
    ws.Inherited order name (memberAmong ws order name) := by
  rw [memberAmong_eq]
  cases hfirst : order.find? fun u => ws.Declares u name with
  | some u =>
    obtain ⟨hu, before, after, rfl, hbefore⟩ := List.find?_eq_some_iff_append.mp hfirst
    have hnone : ∀ v ∈ before, ¬ ws.Declares v name := by
      intro v hv
      simpa using hbefore v hv
    obtain ⟨hinside, hdeclares⟩ : ws.Declares u name := of_decide_eq_true hu
    obtain ⟨s, hs⟩ := Option.isSome_iff_exists.mp hdeclares
    obtain ⟨index, hindex, hdeclared⟩ := Option.bind_eq_some_iff.mp hs
    have hbefore' : declaredAmong ws before name = none := by
      rw [← Option.not_isSome_iff_eq_none, isSome_declaredAmong]
      exact fun ⟨v, hv, hdeclares⟩ => hnone v hv hdeclares
    have hthere : declaredAmong ws (before ++ u :: after) name = some s := by
      rw [declaredAmong_append, hbefore', Option.none_or]
      unfold declaredAmong
      rw [List.filter_cons_of_pos (by rw [hinside]; rfl), List.findSome?_cons, hs]
    rw [hthere]
    exact .declared rfl hnone hinside hindex (TypeIndex.declares?_eq_some_iff.mp hdeclared)
  | none =>
    have hnone : ∀ v ∈ order, ¬ ws.Declares v name := by
      simpa using hfirst
    have hdeclared : declaredAmong ws order name = none := by
      rw [← Option.not_isSome_iff_eq_none, isSome_declaredAmong]
      exact fun ⟨v, hv, hdeclares⟩ => hnone v hv hdeclares
    rw [hdeclared, Option.none_or]
    unfold externalAmong
    cases hexternal : order.find? (·.isExternal) with
    | none => exact .nothing hnone (by simpa using hexternal)
    | some u =>
      obtain ⟨hu, before, after, horder, hbefore⟩ := List.find?_eq_some_iff_append.mp hexternal
      exact .external hnone horder (by simpa using hbefore) hu

/-- What is found is of the workspace, external or nothing, each for its own reason. -/
theorem Inherited.cases_of_filed (h : ws.Inherited order name found) (hws : ws.Filed) :
    (∃ s, found = some s ∧ s.isExternal = false ∧ ∃ u ∈ order, ws.Declares u name)
      ∨ (∃ s, found = some s ∧ s.isExternal = true ∧ (¬ ∃ u ∈ order, ws.Declares u name)
        ∧ ∃ u ∈ order, u.isExternal = true)
      ∨ found = none ∧ (¬ ∃ u ∈ order, ws.Declares u name)
        ∧ ¬ ∃ u ∈ order, u.isExternal = true := by
  cases h with
  | @declared before after u index s horder hbefore hu hindex hs =>
    have hdeclares := TypeIndex.declares?_eq_some_iff.mpr hs
    refine .inl ⟨s, rfl, (holds_declares? hindex hdeclares).isExternal_eq_false hws, u, ?_, hu, ?_⟩
    · exact horder ▸ List.mem_append_right _ List.mem_cons_self
    · rw [hindex, Option.bind_some, hdeclares]
      rfl
  | @external before after u hnone horder hbefore hu =>
    refine .inr (.inl ⟨_, rfl, rfl, fun ⟨v, hv, hdeclares⟩ => hnone v hv hdeclares, u, ?_, hu⟩)
    exact horder ▸ List.mem_append_right _ List.mem_cons_self
  | nothing hnone hinside =>
    refine .inr (.inr ⟨rfl, fun ⟨v, hv, hdeclares⟩ => hnone v hv hdeclares, ?_⟩)
    rintro ⟨v, hv, hexternal⟩
    exact absurd hexternal (Bool.eq_false_iff.mp (hinside v hv))

/-- **What is found, and when**: a member of the workspace if some type declares it, something
external if none does and there is an external type, and nothing otherwise. -/
theorem Inherited.found_iff (h : ws.Inherited order name found) (hws : ws.Filed) :
    ((∃ s, found = some s ∧ s.isExternal = false) ↔ ∃ u ∈ order, ws.Declares u name)
      ∧ ((∃ s, found = some s ∧ s.isExternal = true)
        ↔ (¬ ∃ u ∈ order, ws.Declares u name) ∧ ∃ u ∈ order, u.isExternal = true)
      ∧ (found = none
        ↔ (¬ ∃ u ∈ order, ws.Declares u name) ∧ ¬ ∃ u ∈ order, u.isExternal = true) := by
  rcases h.cases_of_filed hws with ⟨s, rfl, hs, hdeclares⟩ | ⟨s, rfl, hs, hnone, hexternal⟩ |
    ⟨rfl, hnone, hinside⟩
  · exact ⟨iff_of_true ⟨s, rfl, hs⟩ hdeclares,
      iff_of_false (by simp [hs]) fun hnot => hnot.1 hdeclares,
      iff_of_false (Option.some_ne_none s) fun hnot => hnot.1 hdeclares⟩
  · exact ⟨iff_of_false (by simp [hs]) hnone, iff_of_true ⟨s, rfl, hs⟩ ⟨hnone, hexternal⟩,
      iff_of_false (Option.some_ne_none s) fun hnot => hnot.2 hexternal⟩
  · exact ⟨iff_of_false (by simp) hnone, iff_of_false (by simp) fun hnot => hinside hnot.2,
      iff_of_true rfl ⟨hnone, hinside⟩⟩

end Members

/-- **Inheritance.** Take a type such that the names of the bases have a meaning, for the type and
for all that it inherits from, and that no type of the workspace among these shares its name with
another one of them. Then the list of its ancestors begins with the type itself, has no name twice,
and holds the types that can be reached by way of the bases. If no type inherits from itself, the
list is the walk over the tree of inheritance from left to right, without the repeats. A member is
what the first type on the list that declares it says it is. If there is none and the list has an
external type, something is made up for the first of these; else there is no such member. -/
theorem inheritance_lookup (ws : Workspace) (t : TypeSymbol) (level : Nat) (hws : Loaded ws)
    (hlevel : level < mostLevels) (hsettled : ws.Settled level t) :
    ∃ order, ws.lineage t = .ok order
      ∧ order.head? = some t
      ∧ (order.map (·.qualifiedName)).Nodup
      ∧ (∀ u, u ∈ order ↔ ReflTransGen ws.Extends t u)
      ∧ ((∀ u, ReflTransGen ws.Extends t u → ¬ TransGen ws.Extends u u) →
        ∃ walk, Walks ws.basesOf [t] walk ∧ order = walk.eraseDups)
      ∧ ∀ name, ∃ found, ws.member t name = .ok found ∧ ws.Inherited order name found
        ∧ ((∃ s, found = some s ∧ s.isExternal = false)
          ↔ ∃ u, ReflTransGen ws.Extends t u ∧ ws.Declares u name)
        ∧ ((∃ s, found = some s ∧ s.isExternal = true)
          ↔ (¬ ∃ u, ReflTransGen ws.Extends t u ∧ ws.Declares u name)
            ∧ ∃ u, ReflTransGen ws.Extends t u ∧ u.isExternal = true)
        ∧ (found = none
          ↔ (¬ ∃ u, ReflTransGen ws.Extends t u ∧ ws.Declares u name)
            ∧ ¬ ∃ u, ReflTransGen ws.Extends t u ∧ u.isExternal = true) := by
  obtain ⟨order, horder, hlists⟩ :=
    hsettled.lists_lineageWith (Nat.le_of_lt hlevel) hws.wellIndexed hws.filed
  have hmem : ∀ u, u ∈ order ↔ ReflTransGen ws.Extends t u := by
    intro u
    rw [hlists.mem_iff, leadsTo_basesOf]
  refine ⟨order, lineage_of_lineageWith (Nat.le_of_lt hlevel) horder, hlists.head?_eq, ?_, hmem,
    fun hacyclic => ?_, fun name => ?_⟩
  · refine List.Nodup.map_on (fun u hu v hv heq => ?_) (hlists.nodup List.nodup_nil)
    exact hsettled.eq_of_qualifiedName hws.filed ((hmem u).mp hu) ((hmem v).mp hv) heq
  · rw [← leadsTo_basesOf] at hacyclic
    obtain ⟨walk, hwalk⟩ := hlists.exists_walks hacyclic
    refine ⟨walk, hwalk, ?_⟩
    rw [← fresh_nil_left]
    refine hlists.eq_append_fresh hwalk (fun a ha => ?_) fun _ hb => absurd hb List.not_mem_nil
    rw [List.mem_singleton.mp ha]
    exact hacyclic
  · -- a level less is left for the ancestors than there is for the member
    have hdeclared := List.Subset.refl ws.declared
    have hfewer : lineageWith ws (memberWithin ws (mostLevels - 1)) t = .ok order :=
      (posed_lineage hdeclared _ t []).upholds (reliable_memberWithin hdeclared level)
        (memberWithin_mono hdeclared (Nat.le_of_lt_succ hlevel)) order horder
    have hinherited := inherited_memberAmong ws order name
    refine ⟨_, member_of_lineageWith hfewer name, hinherited, ?_⟩
    simpa only [hmem] using hinherited.found_iff hws.filed

/-! ## A diamond, and two classes of one name -/

/-- **Types in an order in which bases come later**, so that no way leads back. -/
def Ranked (ws : Workspace) (types : List TypeSymbol) : Prop :=
  ∀ u ∈ types, ∀ v ∈ ws.basesOf u, v ∈ types ∧ types.idxOf u < types.idxOf v

instance decidableRanked (ws : Workspace) (types : List TypeSymbol) : Decidable (ws.Ranked types) :=
  inferInstanceAs (Decidable (∀ _ ∈ _, _))

section Ranked

variable {types : List TypeSymbol} {t u : TypeSymbol} (h : ws.Ranked types) (ht : t ∈ types)

include h ht

theorem Ranked.of_transGen (hreach : TransGen ws.Extends t u) :
    u ∈ types ∧ types.idxOf t < types.idxOf u := by
  rw [← leadsTo_basesOf] at hreach
  induction hreach with
  | single hstep => exact h t ht _ hstep
  | tail _ hstep ih =>
    obtain ⟨hmem, hlt⟩ := h _ ih.1 _ hstep
    exact ⟨hmem, Nat.lt_trans ih.2 hlt⟩

theorem Ranked.mem_of_reflTransGen (hreach : ReflTransGen ws.Extends t u) : u ∈ types := by
  rcases Relation.reflTransGen_iff_eq_or_transGen.mp hreach with rfl | hreach
  · exact ht
  · exact (h.of_transGen ht hreach).1

end Ranked

/-- A class with two bases that have a base in common, which has an external one, and a third base
that is declared in a class. -/
def diamond : Workspace :=
  inTurn [("m.py", "import x\nclass A(x.E):\n def go(self): 0\n class N:\n  def end(self): 0\n"
    ++ "class B(A): 0\nclass C(A):\n def go(self): 0\nclass D(B, C, A.N): 0\n")]

/-- The types of the diamond, bases last. -/
def diamondTypes : List TypeSymbol :=
  ["m.D", "m.B", "m.C", "m.A", "m.A.N"].map (classNamed diamond) ++ [outsider]

theorem inheritance_lookup_diamond :
    ∃ order, diamond.lineage (classNamed diamond "m.D") = .ok order
      ∧ order.map (·.qualifiedName) = ["m.D", "m.B", "m.A", "x.E", "m.C", "m.A.N"]
      ∧ (∃ walk, Walks diamond.basesOf [classNamed diamond "m.D"] walk ∧ order = walk.eraseDups)
      ∧ diamond.Inherited order "end" (some (methodNamed diamond "m.A.N.end")) := by
  have hfacts : diamond.Ranked diamondTypes ∧ classNamed diamond "m.D" ∈ diamondTypes
      ∧ (diamondTypes.map (·.qualifiedName)).Nodup
      ∧ (∀ u ∈ diamondTypes, ∀ name ∈ u.bases,
        (typeNamedWith diamond (memberWithin diamond 1) u.homeModule (some name)).isOk = true)
      ∧ (∃ order ∈ (diamond.lineage (classNamed diamond "m.D")).toOption,
        order.map (·.qualifiedName) = ["m.D", "m.B", "m.A", "x.E", "m.C", "m.A.N"])
      ∧ diamond.member (classNamed diamond "m.D") "end"
        = .ok (some (methodNamed diamond "m.A.N.end")) := by
    decide +kernel
  have hloaded : Loaded diamond := loaded_inTurn (by decide +kernel)
  generalize diamondTypes = types at *
  generalize diamond = ws at *
  obtain ⟨hranked, ht, hnames, hok, ⟨order, horder, horderNames⟩, hmember⟩ := hfacts
  have hsettled : ws.Settled 1 (classNamed ws "m.D") := by
    refine ⟨fun u hu _ name hname => endsWithin_of_isOk ?_, fun u v hu hv _ heq => ?_⟩
    · exact hok u (hranked.mem_of_reflTransGen ht hu) name hname
    · exact List.inj_on_of_nodup_map hnames (hranked.mem_of_reflTransGen ht hu)
        (hranked.mem_of_reflTransGen ht hv) heq
  obtain ⟨order', horder', -, -, -, hwalk, hfound⟩ :=
    inheritance_lookup ws (classNamed ws "m.D") 1 hloaded (by decide) hsettled
  cases horder'.symm.trans (ok_of_toOption horder)
  refine ⟨order, horder', horderNames, hwalk fun u hu hcircle => ?_, ?_⟩
  · have hmem := hranked.mem_of_reflTransGen ht hu
    exact Nat.lt_irrefl _ (hranked.of_transGen hmem hcircle).2
  · obtain ⟨found, hmember', hinherited, -⟩ := hfound "end"
    cases hmember'.symm.trans hmember
    exact hinherited

/-- A class inside a class and a class of a module, both called `a.b.C` in full, and a class that
has both as its bases. -/
def sharedName : List (String × String) :=
  [("a.py", "class b:\n    class C:\n        pass\n"),
    ("a/b.py", "class Q:\n    def go(self):\n        pass\n\n\nclass C(Q):\n    pass\n"),
    ("m.py", "import a\nfrom a.b import C\n\n\nclass T(a.b.C, C):\n    pass\n")]

/-- The class that is called `C` in the last module. -/
def secondBase (ws : Workspace) : TypeSymbol := (ws.typeNamed? "m" "C").getD default

/-- All types that can be reached, bases last. -/
def sharedTypes (ws : Workspace) : List TypeSymbol :=
  [classNamed ws "m.T", (ws.typeNamed? "m" "a.b.C").getD default, secondBase ws,
    classNamed ws "a.b.Q"]

/-- **A class is hidden by another of its name.** The second base and the base of that are not among
the ancestors, and what they declare is not found, though all names have a meaning and no type is
external. -/
theorem shared_name_hides_base :
    ∃ ws, ws = ofSources sharedName
      ∧ (∀ u, ReflTransGen ws.Extends (classNamed ws "m.T") u → u.isExternal = false
        ∧ ∀ name ∈ u.bases, EndsWithin ws (typeNamedWith ws · u.homeModule (some name)) 2)
      ∧ ReflTransGen ws.Extends (classNamed ws "m.T") (classNamed ws "a.b.Q")
      ∧ ws.Declares (classNamed ws "a.b.Q") "go"
      ∧ (∃ order ∈ (ws.lineage (classNamed ws "m.T")).toOption,
        order.map (·.qualifiedName) = ["m.T", "a.b.C"])
      ∧ ws.member (classNamed ws "m.T") "go" = .ok none := by
  have hfacts : ∃ ws ∈ [inTurn sharedName], ws.Ranked (sharedTypes ws)
      ∧ (∀ u ∈ sharedTypes ws, u.isExternal = false ∧ ∀ name ∈ u.bases,
        (typeNamedWith ws (memberWithin ws 2) u.homeModule (some name)).isOk = true)
      ∧ secondBase ws ∈ ws.basesOf (classNamed ws "m.T")
      ∧ classNamed ws "a.b.Q" ∈ ws.basesOf (secondBase ws)
      ∧ ws.Declares (classNamed ws "a.b.Q") "go"
      ∧ (∃ order ∈ (ws.lineage (classNamed ws "m.T")).toOption,
        order.map (·.qualifiedName) = ["m.T", "a.b.C"])
      ∧ ws.member (classNamed ws "m.T") "go" = .ok none := by
    decide +kernel
  obtain ⟨ws, hws, hranked, hok, hfirst, hsecond, hrest⟩ := hfacts
  refine ⟨ws, ?_, fun u hu => ?_, ?_, hrest⟩
  · rw [List.mem_singleton.mp hws, ofSources_eq_inTurn (by decide +kernel)]
  · have hmem := hranked.mem_of_reflTransGen List.mem_cons_self hu
    exact ⟨(hok u hmem).1, fun name hname => endsWithin_of_isOk ((hok u hmem).2 name hname)⟩
  · rw [← leadsTo_basesOf]
    exact .tail (.single hfirst) hsecond

end CallTree.Workspace
