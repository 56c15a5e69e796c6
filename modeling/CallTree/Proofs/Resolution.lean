import CallTree.Proofs.Questions
import Mathlib.Data.List.Perm.Subperm
import Mathlib.Logic.Relation

/-!
# When looking up a name comes to an end

Seven look-ups lead to one another, and one of the questions can come up while it is being
answered: to find a member of a type its ancestors are listed, and a base may be written as a
member of a type. Nothing keeps that from going round. A class whose base is written as a
member of the class itself is enough, and then no number of levels will do
(`lineage_never_ends`). The list of ancestors is kept free of repetitions, but each member
that is looked for starts a list of its own; and imports are counted, but each look-up
starts to count anew.

So the question is which look-ups come to an end, and the answer is: all but those that ask
for a member of a type that is *caught* (`Workspace.Caught`). A type awaits another when a
member of the other is asked for while its ancestors are listed, and it is caught when what
it awaits, and what that awaits, leads round in a circle.

To speak of what a look-up asks, nothing has to be added to the look-ups. They are written
for any way of finding members, so one can be handed in that fails, in a way of its own, for
the type in question (`Workspace.watching`). What stops a look-up is a member that is too
deep, and it asks for that one; and a look-up that has come to its end has had an answer to
all that it asked. As the types that are asked about come from the tables of the workspace,
there are only so many of them, and with as many levels every chain that is not a circle has
come to its end (`caught_of_tooDeep`).
-/

namespace CallTree.Workspace

variable {types : List TypeSymbol}

/-! ## What a look-up asks -/

/-- What is said when a member of a type that is watched is asked for. -/
def noticed : Fault := .raised "noticed"

/-- Finding members with so many levels, while a type is watched: to ask for a member of it
fails, in a way in which nothing else does. -/
def watching (ws : Workspace) (u : TypeSymbol) (level : Nat) : MemberLookup := fun t name =>
  if t = u then .error noticed else memberWithin ws level t name

/-- **A look-up asks for members of a type** when it comes to that, with answers to whatever
it asks before. -/
def Asks {α : Type} (ws : Workspace) (F : MemberLookup → Except Fault α) (u : TypeSymbol) : Prop :=
  ∃ level, F (watching ws u level) = .error noticed

/-- **A look-up comes to an end** within so many levels. -/
def EndsWithin {α : Type} (ws : Workspace) (F : MemberLookup → Except Fault α) (level : Nat) :
    Prop :=
  ∃ a, F (memberWithin ws level) = .ok a

/-- **A type awaits another** when members of the other are asked for while its ancestors are
listed. -/
def Awaits (ws : Workspace) (t u : TypeSymbol) : Prop :=
  Asks ws (lineageWith ws · t) u

/-- **A type is caught** when it leads to a type that awaits itself in the end. -/
def Caught (ws : Workspace) (t : TypeSymbol) : Prop :=
  ∃ u, Relation.ReflTransGen ws.Awaits t u ∧ Relation.TransGen ws.Awaits u u

/-- To find a member is to list the ancestors, with one level less. -/
theorem memberWithin_ok_iff {ws : Workspace} {level : Nat} {t : TypeSymbol} (name : String) :
    (∃ s, memberWithin ws (level + 1) t name = .ok s)
      ↔ EndsWithin ws (lineageWith ws · t) level := by
  show _ ↔ ∃ lineage, lineageWith ws (memberWithin ws level) t = .ok lineage
  rw [memberWithin_succ]
  cases lineageWith ws (memberWithin ws level) t with
  | error e =>
    constructor
    · rintro ⟨s, hs⟩
      cases hs
    · rintro ⟨lineage, hlineage⟩
      cases hlineage
  | ok lineage => exact ⟨fun _ => ⟨lineage, rfl⟩, fun _ => ⟨_, rfl⟩⟩

namespace Posed

variable {α : Type} {P : α → Prop} {F : MemberLookup → Except Fault α} {ws : Workspace}

/-- **What stops a look-up** is a member that is too deep, and it asks for that one. -/
theorem ends_or_stops (hF : Posed types P F) (hdeclared : ws.declared ⊆ types) (level : Nat) :
    EndsWithin ws F level ∨ ∃ u name, Known types u
      ∧ memberWithin ws level u name = .error .tooDeep
      ∧ F (watching ws u level) = .error noticed := by
  induction hF with
  | answer => exact Or.inl ⟨_, rfl⟩
  | @ask t name next ht _ ih =>
    cases hs : memberWithin ws level t name with
    | error e =>
      cases eq_tooDeep_of_error hdeclared hs
      exact Or.inr ⟨t, name, ht, hs, asking_error (if_pos rfl)⟩
    | ok s =>
      rcases ih s (reliable_memberWithin hdeclared level t name s hs) with
        ⟨a, ha⟩ | ⟨u, name', hu, hdeep, hnoticed⟩
      · exact Or.inl ⟨a, (asking_ok hs).trans ha⟩
      · refine Or.inr ⟨u, name', hu, hdeep, ?_⟩
        -- the type may have been asked about before, with better luck
        by_cases htu : t = u
        · exact asking_error (if_pos htu)
        · rw [asking_ok ((if_neg htu).trans hs)]
          exact hnoticed

/-- **A look-up that comes to an end** has found a member of every type it asks about. -/
theorem finds_of_asks (hF : Posed types P F) (hdeclared : ws.declared ⊆ types) {u : TypeSymbol}
    {level : Nat} (hasks : Asks ws F u) (hends : EndsWithin ws F level) :
    ∃ name s, memberWithin ws level u name = .ok s := by
  obtain ⟨level', hnoticed⟩ := hasks
  obtain ⟨a, ha⟩ := hends
  induction hF with
  | answer => cases hnoticed
  | @ask t name next ht _ ih =>
    cases hs : memberWithin ws level t name with
    | error e => rw [asking_error hs] at ha; cases ha
    | ok s =>
      by_cases htu : t = u
      · exact ⟨name, s, htu ▸ hs⟩
      · have hwatching : watching ws u level' t name = memberWithin ws level' t name := if_neg htu
        cases hs' : memberWithin ws level' t name with
        | error e =>
          -- too few levels are not what was noticed
          cases eq_tooDeep_of_error hdeclared hs'
          rw [asking_error (hwatching.trans hs')] at hnoticed
          cases hnoticed
        | ok s' =>
          cases memberWithin_unique hdeclared hs hs'
          rw [asking_ok (hwatching.trans hs')] at hnoticed
          rw [asking_ok hs] at ha
          exact ih s (reliable_memberWithin hdeclared level t name s hs) hnoticed ha

end Posed

/-! ## Circles -/

section Circles

variable {ws : Workspace}

/-- What a type awaits has come to its end before the type. -/
theorem Awaits.ends {t u : TypeSymbol} (h : ws.Awaits t u) {level : Nat}
    (ht : EndsWithin ws (lineageWith ws · t) level) :
    ∃ level' < level, EndsWithin ws (lineageWith ws · u) level' := by
  have hdeclared := List.Subset.refl ws.declared
  obtain ⟨name, s, hs⟩ := (posed_lineage hdeclared _ t []).finds_of_asks hdeclared h ht
  cases level with
  | zero => cases hs
  | succ level => exact ⟨level, Nat.lt_succ_self level, (memberWithin_ok_iff name).mp ⟨s, hs⟩⟩

theorem ends_of_transGen {t u : TypeSymbol} (h : Relation.TransGen ws.Awaits t u) {level : Nat}
    (ht : EndsWithin ws (lineageWith ws · t) level) :
    ∃ level' < level, EndsWithin ws (lineageWith ws · u) level' := by
  induction h with
  | single h => exact h.ends ht
  | tail _ h ih =>
    obtain ⟨level', hlt, hends⟩ := ih
    obtain ⟨level'', hlt', hends'⟩ := h.ends hends
    exact ⟨level'', Nat.lt_trans hlt' hlt, hends'⟩

/-- **Nothing comes to an end in a circle.** -/
theorem not_ends_of_circle {u : TypeSymbol} (h : Relation.TransGen ws.Awaits u u) (level : Nat) :
    ¬ EndsWithin ws (lineageWith ws · u) level := by
  induction level using Nat.strongRecOn with
  | _ level ih =>
    intro hends
    obtain ⟨level', hlt, hends'⟩ := ends_of_transGen h hends
    exact ih level' hlt hends'

/-- **The ancestors of a type that is caught cannot be listed.** -/
theorem Caught.not_ends {t : TypeSymbol} (h : ws.Caught t) (level : Nat) :
    ¬ EndsWithin ws (lineageWith ws · t) level := by
  intro hends
  obtain ⟨u, hreach, hcircle⟩ := h
  rcases Relation.reflTransGen_iff_eq_or_transGen.mp hreach with rfl | hreach
  · exact not_ends_of_circle hcircle level hends
  · obtain ⟨level', -, hends'⟩ := ends_of_transGen hreach hends
    exact not_ends_of_circle hcircle level' hends'

/-- The ancestors of an external type are listed at once. -/
theorem ends_of_external {t : TypeSymbol} (h : t.isExternal = true) (level : Nat) :
    EndsWithin ws (lineageWith ws · t) level :=
  ⟨[t], lineageFrom_of_isLeaf (Or.inr h)⟩

/-- **Where there are too few levels there is a circle.** `path` holds types that lead to
`t`, all of them different and all of them among the given ones, so that it cannot become
longer than the list of these. -/
theorem caught_of_tooDeep (hdeclared : ws.declared ⊆ types) {level : Nat} {t : TypeSymbol}
    {name : String} (hknown : Known types t)
    (hdeep : memberWithin ws level t name = .error .tooDeep) (path : List TypeSymbol)
    (hpath : ∀ u ∈ path, Relation.TransGen ws.Awaits u t) (hnodup : path.Nodup)
    (hsubset : path ⊆ types) (hlength : types.length < path.length + level) : ws.Caught t := by
  induction level generalizing t name path with
  | zero =>
    exact absurd (hnodup.subperm hsubset).length_le (Nat.not_le.mpr hlength)
  | succ level ih =>
    have hnot : ¬ EndsWithin ws (lineageWith ws · t) level := by
      intro hends
      obtain ⟨s, hs⟩ := (memberWithin_ok_iff name).mpr hends
      rw [hdeep] at hs
      cases hs
    by_cases hmem : t ∈ path
    · exact ⟨t, .refl, hpath t hmem⟩
    · obtain hends | ⟨u, name', hu, hdeep', hnoticed⟩ :=
        (posed_lineage hdeclared _ t []).ends_or_stops hdeclared level
      · exact absurd hends hnot
      · have hawaits : ws.Awaits t u := ⟨level, hnoticed⟩
        have ht : t ∈ types := hknown.resolve_left fun hexternal =>
          hnot (ends_of_external hexternal level)
        have hcaught : ws.Caught u := by
          refine ih hu hdeep' (t :: path) ?_ (List.nodup_cons.mpr ⟨hmem, hnodup⟩)
            (List.cons_subset.mpr ⟨ht, hsubset⟩) ?_
          · intro v hv
            rcases List.mem_cons.mp hv with rfl | hv
            · exact .single hawaits
            · exact (hpath v hv).tail hawaits
          · rw [List.length_cons]
            omega
        obtain ⟨w, hreach, hcircle⟩ := hcaught
        exact ⟨w, .head hawaits hreach, hcircle⟩

end Circles

/-! ## The look-ups -/

/-- **A look-up**, with what it is asked. -/
inductive Lookup where
  /-- The type that a dotted name means in a module. -/
  | typeNamed (moduleName : String) (name : Option String)
  /-- What a name means at the top of a module. -/
  | global (moduleName name : String)
  /-- What a name of a module stands for, with so many imports to follow. -/
  | inModule (hops : Nat) (ref : ModuleRef) (name : String)
  /-- What an imported name stands for, with so many further imports to follow. -/
  | imported (hops : Nat) (index : ModuleIndex) (name target : String)
  /-- What an attribute of a module or type stands for. -/
  | attributeOf (receiver : Option Referent) (name : String)
  /-- The member of a type. -/
  | member (t : TypeSymbol) (name : String)
  /-- A type and its ancestors. -/
  | lineage (t : TypeSymbol)

namespace Lookup

/-- What a look-up is an answer to. -/
def Answer : Lookup → Type
  | typeNamed _ _ => Option TypeSymbol
  | global _ _ => Option Referent
  | inModule _ _ _ => Option Referent
  | imported _ _ _ _ => Option Referent
  | attributeOf _ _ => Option Referent
  | member _ _ => Option Symbol
  | lineage _ => List TypeSymbol

/-- **Looking up**, when members are found by `find`. -/
def run (ws : Workspace) : (q : Lookup) → (find : MemberLookup) → Except Fault q.Answer
  | typeNamed moduleName name, find => typeNamedWith ws find moduleName name
  | global moduleName name, find => globalWith ws find moduleName name
  | inModule hops ref name, find => inModuleWithin ws find hops ref name
  | imported hops index name target, find =>
    importedWith ws find (inModuleWithin ws find hops) index name target
  | attributeOf receiver name, find => attributeWith ws find receiver name
  | member t name, find => memberWith ws find t name
  | lineage t, find => lineageWith ws find t

/-- The type that is handed to a look-up. -/
def given : Lookup → List TypeSymbol
  | attributeOf (some (.symbol (.type t))) _ => [t]
  | _ => []

theorem length_given_le (q : Lookup) : q.given.length ≤ 1 := by
  unfold given
  split
  · exact Nat.le_refl 1
  · exact Nat.zero_le 1

/-- **Every look-up is made of questions** for members of classes of the workspace, external
types and the type that was handed to it. -/
theorem posed (q : Lookup) (ws : Workspace) :
    Posed (q.given ++ ws.declared) (fun _ => True) (q.run ws) := by
  have hdeclared : ws.declared ⊆ q.given ++ ws.declared := List.subset_append_right _ _
  cases q with
  | typeNamed moduleName name =>
    exact (posed_typeNamed hdeclared moduleName name).imp fun _ _ => trivial
  | global moduleName name =>
    exact (posed_global hdeclared moduleName name).imp fun _ _ => trivial
  | inModule hops ref name =>
    exact (posed_inModule hdeclared hops ref name).imp fun _ _ => trivial
  | imported hops index name target =>
    exact (posed_imported ws (posed_inModule hdeclared hops) index name target).imp
      fun _ _ => trivial
  | attributeOf receiver name =>
    refine (posed_attribute hdeclared ?_ name).imp fun _ _ => trivial
    rintro t rfl
    exact Or.inr (List.mem_append_left _ List.mem_cons_self)
  | member t name => exact (posed_member hdeclared t name).imp fun _ _ => trivial
  | lineage t => exact posed_lineage hdeclared _ t []

/-- A look-up that comes to an end asks for no type that is caught. -/
theorem not_caught_of_ends {ws : Workspace} {q : Lookup} {level : Nat}
    (h : EndsWithin ws (q.run ws) level) {u : TypeSymbol} (hasks : Asks ws (q.run ws) u) :
    ¬ ws.Caught u := by
  intro hcaught
  obtain ⟨name, s, hs⟩ :=
    (q.posed ws).finds_of_asks (List.subset_append_right _ _) hasks h
  cases level with
  | zero => cases hs
  | succ level => exact hcaught.not_ends level ((memberWithin_ok_iff name).mp ⟨s, hs⟩)

/-- **With a level for each class, and one for the type that was handed to it**, a look-up
comes to an end unless it asks for a type that is caught. -/
theorem endsWithin_iff (ws : Workspace) (q : Lookup) {level : Nat}
    (hlevel : ws.declared.length + 1 < level) :
    EndsWithin ws (q.run ws) level ↔ ∀ u, Asks ws (q.run ws) u → ¬ ws.Caught u := by
  have hdeclared : ws.declared ⊆ q.given ++ ws.declared := List.subset_append_right _ _
  refine ⟨fun hends u hasks => not_caught_of_ends hends hasks, fun h => ?_⟩
  refine ((q.posed ws).ends_or_stops hdeclared level).resolve_right ?_
  rintro ⟨u, name, hknown, hdeep, hnoticed⟩
  refine h u ⟨level, hnoticed⟩ ?_
  refine caught_of_tooDeep hdeclared hknown hdeep [] (fun _ h => absurd h List.not_mem_nil)
    List.nodup_nil (List.nil_subset _) ?_
  have hgiven := q.length_given_le
  rw [List.length_append, List.length_nil]
  omega

end Lookup

/-! ## Which look-ups come to an end -/

/-- **A look-up comes to an end exactly when it asks for no type that is caught.** In a
workspace that was opened from sources, whatever its classes and imports, this holds of every
look-up: names of types, names at the top of a module, names of a module, imported names,
attributes, members and ancestors. A level for each class and two more are enough to tell,
and more of them change no answer; nor does it make a difference how long the way to an
ancestor may be. -/
theorem lookup_ends_iff (sources : List (String × String)) (ws : Workspace)
    (hws : ws = ofSources sources) :
    (∀ q : Lookup,
      ((∃ level, EndsWithin ws (q.run ws) level) ↔ ∀ u, Asks ws (q.run ws) u → ¬ ws.Caught u)
        ∧ (∀ level, ws.declared.length + 1 < level →
          (EndsWithin ws (q.run ws) level ↔ ∀ u, Asks ws (q.run ws) u → ¬ ws.Caught u))
        ∧ ∀ level more a, q.run ws (memberWithin ws level) = .ok a →
          q.run ws (memberWithin ws (level + more)) = .ok a)
      ∧ ∀ level t extra,
        lineageFrom ws (memberWithin ws level) (ws.types.length + 2 + extra) t []
          = lineageWith ws (memberWithin ws level) t := by
  have hindexed : ws.WellIndexed := hws ▸ wellIndexed_ofSources sources
  refine ⟨fun q => ⟨?_, ?_, ?_⟩, fun level t extra => ?_⟩
  · refine ⟨fun ⟨level, hends⟩ u hasks => Lookup.not_caught_of_ends hends hasks, fun h => ?_⟩
    exact ⟨ws.declared.length + 2, (q.endsWithin_iff ws (Nat.lt_succ_self _)).mpr h⟩
  · exact fun level hlevel => q.endsWithin_iff ws hlevel
  · intro level more a ha
    have hdeclared : ws.declared ⊆ q.given ++ ws.declared := List.subset_append_right _ _
    exact (q.posed ws).upholds (reliable_memberWithin hdeclared level)
      (memberWithin_mono hdeclared (Nat.le_add_right level more)) a ha
  · exact lineageFrom_eq_lineageWith hindexed
      (reliable_memberWithin (List.Subset.refl _) level) t extra

/-! ## A circle, and a way through -/

/-- Whether the members of a type that is watched were asked for. -/
def isNoticed {α : Type} : Except Fault α → Bool
  | .error (.raised message) => message = "noticed"
  | _ => false

theorem eq_of_isNoticed {α : Type} {r : Except Fault α} (h : isNoticed r = true) :
    r = .error noticed := by
  unfold isNoticed at h
  split at h
  · rw [of_decide_eq_true h]
    rfl
  · cases h

theorem endsWithin_of_isOk {α : Type} {ws : Workspace} {F : MemberLookup → Except Fault α}
    {level : Nat} (h : (F (memberWithin ws level)).isOk = true) : EndsWithin ws F level := by
  unfold EndsWithin
  cases hr : F (memberWithin ws level) with
  | error e => rw [hr] at h; cases h
  | ok a => exact ⟨a, rfl⟩

/-- A class with a nested class, and another one that has the nested class as its base. -/
def nestedBaseSources : List (String × String) :=
  [("m.py", "class A:\n    class B:\n        pass\nclass C(A.B):\n    pass\n")]

def nestedBase : Workspace := ofSources nestedBaseSources

/-- The symbol of a class of a workspace. -/
def classNamed (ws : Workspace) (qualifiedName : String) : TypeSymbol :=
  ((ws.types.get? qualifiedName).map (·.symbol)).getD default

/-- To list the ancestors of `C`, a member of `A` is asked for, and found. -/
theorem lookup_ends_iff_nestedBase :
    nestedBase.declared.length + 1 < 5
      ∧ Asks nestedBase ((Lookup.lineage (classNamed nestedBase "m.C")).run nestedBase)
        (classNamed nestedBase "m.A")
      ∧ ¬ nestedBase.Caught (classNamed nestedBase "m.A") := by
  have hfacts : nestedBase.declared.length + 1 < 5
      ∧ isNoticed (lineageWith nestedBase (watching nestedBase (classNamed nestedBase "m.A") 0)
        (classNamed nestedBase "m.C")) = true
      ∧ (lineageWith nestedBase (memberWithin nestedBase 5) (classNamed nestedBase "m.C")).isOk
        = true := by
    decide +kernel
  obtain ⟨hlevel, hnoticed, hok⟩ := hfacts
  have hasks : Asks nestedBase ((Lookup.lineage (classNamed nestedBase "m.C")).run nestedBase)
      (classNamed nestedBase "m.A") := ⟨0, eq_of_isNoticed hnoticed⟩
  have hlaw := (lookup_ends_iff nestedBaseSources nestedBase rfl).1
    (.lineage (classNamed nestedBase "m.C"))
  exact ⟨hlevel, hasks, (hlaw.2.1 5 hlevel).mp (endsWithin_of_isOk hok) _ hasks⟩

/-- A class whose base is written as a member of the class itself. -/
def knot : Workspace := ofSources [("m.py", "class A(A.B):\n    pass\n")]

/-- **The ancestors of the class cannot be listed**, with any number of levels. -/
theorem lineage_never_ends :
    ∃ index, knot.types.get? "m.A" = some index
      ∧ ∀ level, lineageWith knot (memberWithin knot level) index.symbol = .error .tooDeep := by
  have hfacts : (knot.types.get? "m.A").isSome = true
      ∧ isNoticed (lineageWith knot (watching knot (classNamed knot "m.A") 0)
        (classNamed knot "m.A")) = true := by
    decide +kernel
  obtain ⟨index, hindex⟩ := Option.isSome_iff_exists.mp hfacts.1
  have hsymbol : classNamed knot "m.A" = index.symbol := by
    unfold classNamed
    rw [hindex]
    rfl
  have hawaits : knot.Awaits index.symbol index.symbol := by
    rw [← hsymbol]
    exact ⟨0, eq_of_isNoticed hfacts.2⟩
  have hcaught : knot.Caught index.symbol := ⟨index.symbol, .refl, .single hawaits⟩
  have hdeclared := List.Subset.refl knot.declared
  refine ⟨index, hindex, fun level => ?_⟩
  cases hr : lineageWith knot (memberWithin knot level) index.symbol with
  | ok lineage => exact absurd ⟨lineage, hr⟩ (hcaught.not_ends level)
  | error e =>
    obtain ⟨t, name, he⟩ := (posed_lineage hdeclared _ index.symbol []).of_error
      (reliable_memberWithin hdeclared level) hr
    rw [eq_tooDeep_of_error hdeclared he]

end CallTree.Workspace
