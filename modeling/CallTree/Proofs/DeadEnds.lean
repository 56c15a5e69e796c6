import CallTree.Proofs.Reachability
import CallTree.Proofs.Resolution
import CallTree.Proofs.Soundness
import CallTree.Proofs.Targets

/-!
# Where a tree ends

A walk says of a method that it is unavailable when there is no definition of it. In a
workspace there are two reasons for that, and no third (`IsDeadEnd`): the method is external, or
it is the constructor that was made up for a class, and neither the class nor any of its
ancestors declares one. A method that the tables of the workspace hold always has a definition.

A walk that begins with such a method goes on with methods that bodies are resolved to, and
these are accounted for, so whatever it comes upon without a definition has one of the two
reasons. The tree knows which methods these are (`Tree.deadEnds`), and the log names them in
order.
-/

namespace CallTree

/-! ## The owner of a constructor -/

namespace Text

/-- A text contains a character that stands in its midst. -/
theorem occursIn_append (c : Char) (before after : List Char) :
    occursIn [c] (before ++ c :: after) = true := by
  induction before with
  | nil => simp [occursIn, List.isPrefixOf]
  | cons b before ih =>
    rw [List.cons_append, occursIn, ih, Bool.or_true]

end Text

namespace Workspace

open CallTree.Data (Table)
open CallTree.Syntax (Site)
open CallTree.Text (segments dotted contains withoutLast)

/-- A member that is named with a dot belongs to what stands before it. -/
theorem ownerName_append (owner : String) {member : String} (hmember : segments member = [member]) :
    ownerName (owner ++ "." ++ member) = owner := by
  have hcontains : contains "." (owner ++ "." ++ member) = true := by
    unfold contains
    rw [String.toList_append, String.toList_append, List.append_assoc]
    exact Text.occursIn_append '.' owner.toList member.toList
  unfold ownerName
  rw [if_pos hcontains, withoutLast, Text.segments_append, hmember, List.dropLast_concat,
    Text.dotted_segments]

/-! ## Ancestors -/

/-- What is listed stays listed, in front. -/
theorem gives_lineageFrom {ws : Workspace} {member : MemberLookup} (fuel : Nat) (t : TypeSymbol)
    (listed : List TypeSymbol) :
    Gives (lineageFrom ws member fuel t listed) (withType listed t <+: ·) := by
  induction fuel generalizing t listed with
  | zero =>
    rw [lineageFrom_zero]
    exact .ok (List.prefix_refl _)
  | succ fuel ih =>
    by_cases hleaf : IsLeaf listed t
    · rw [lineageFrom_of_isLeaf hleaf]
      exact .ok (List.prefix_refl _)
    · have hnew : withType listed t = listed ++ [t] := if_neg (not_or.mp hleaf).1
      rw [lineageFrom_succ hleaf, hnew]
      refine .foldlM _ (List.prefix_refl _) fun listed' name _ hlisted' => ?_
      intro longer hlonger
      obtain ⟨base, -, hlonger⟩ := ok_of_bind hlonger
      cases base with
      | none =>
        cases hlonger
        exact hlisted'
      | some base =>
        refine hlisted'.trans (List.IsPrefix.trans ?_ (ih base listed' longer hlonger))
        unfold withType
        split
        · exact List.prefix_refl _
        · exact List.prefix_append _ _

/-- **A type is the first of its ancestors.** -/
theorem head_of_lineage {ws : Workspace} {t : TypeSymbol} {lineage : List TypeSymbol}
    (h : ws.lineage t = .ok lineage) : ∃ ancestors, lineage = t :: ancestors := by
  obtain ⟨rest, hrest⟩ := gives_lineageFrom _ t [] lineage h
  exact ⟨rest, hrest.symm⟩

/-! ## Definitions -/

variable {ws : Workspace}

/-- **A method that is filed has a definition.** -/
theorem exists_definitionOf {m : MethodSymbol}
    (h : m.isExternal = false ∧ m.qualifiedName ∈ ws.definitions.names) :
    ∃ d, ws.definitionOf m = .ok (some d) := by
  obtain ⟨d, hd⟩ := Table.exists_get?_of_mem_names h.2
  refine ⟨d, ?_⟩
  unfold definitionOf
  rw [h.1, hd]
  rfl

theorem Holds.filed (hws : ws.Filed) {m : MethodSymbol} (h : ws.Holds (.method m)) :
    m.isExternal = false ∧ m.qualifiedName ∈ ws.definitions.names := by
  cases h with
  | function hindex hm => exact hws.functions _ hindex m hm
  | method hindex hm => exact hws.methods _ hindex m (Or.inl hm)

/-- **The reasons for which there is no definition**: the method is external, or it is the
constructor of a class, and none of the class and its ancestors declares one. -/
def IsDeadEnd (ws : Workspace) (m : MethodSymbol) : Prop :=
  m.isExternal = true
    ∨ ∃ t index lineage, m = ws.constructorOf t ∧ ws.types.get? t.qualifiedName = some index
      ∧ ws.lineage index.symbol = .ok lineage
      ∧ ∀ a ∈ lineage, ∀ i, ws.types.get? a.qualifiedName = some i →
        i.methods.get? "__init__" = none

/-- A class without a definition of an inherited constructor has no ancestor that declares
one. -/
theorem init_eq_none_of_inheritedConstructor (hws : ws.Filed) {t : TypeSymbol}
    (h : ws.inheritedConstructor t = .ok none) :
    ∃ ancestors, ws.lineage t = .ok (t :: ancestors) ∧ ∀ a ∈ ancestors, ∀ i,
      ws.types.get? a.qualifiedName = some i → i.methods.get? "__init__" = none := by
  unfold inheritedConstructor at h
  obtain ⟨lineage, hlineage, h⟩ := ok_of_bind h
  obtain ⟨ancestors, rfl⟩ := head_of_lineage hlineage
  refine ⟨ancestors, hlineage, fun a ha i hi => ?_⟩
  cases hfound : ancestors.findSome? fun a =>
      (ws.types.get? a.qualifiedName).bind (·.methods.get? "__init__") with
  | none =>
    have hnone := List.findSome?_eq_none_iff.mp hfound a ha
    rw [hi] at hnone
    exact hnone
  | some m =>
    -- what an ancestor declares has a definition, so one was found
    obtain ⟨a', -, ha'⟩ := List.exists_of_findSome?_eq_some hfound
    obtain ⟨i', hi', hm⟩ := Option.bind_eq_some_iff.mp ha'
    have hmethod : i'.HasMethod m := Or.inl (Table.mem_values_of_get? hm)
    obtain ⟨d, hd⟩ := Table.exists_get?_of_mem_names
      (hws.methods i' (Table.mem_values_of_get? hi') m hmethod).2
    have hsome := Except.ok.inj h
    rw [List.drop_one, List.tail_cons, hfound, Option.bind_some, hd] at hsome
    cases hsome

/-- A constructor that was made up has no definition only if no ancestor declares one. -/
theorem Synthesized.isDeadEnd (hws : ws.Filed) {m : MethodSymbol} (h : ws.Synthesized m)
    (hnone : ws.definitionOf m = .ok none) : ws.IsDeadEnd m := by
  obtain ⟨t, index, rfl, hexternal, hindex, hown⟩ := h
  have hconstructor : (ws.constructorOf t).isExternal = false
      ∧ (ws.constructorOf t).kind = .constructor
      ∧ (ws.constructorOf t).qualifiedName = t.qualifiedName ++ "." ++ "__init__" := by
    unfold constructorOf
    rw [hindex, Option.bind_some, hown]
    refine ⟨hexternal, rfl, ?_⟩
    rw [String.append_assoc]
    rfl
  obtain ⟨hnot, hkind, hname⟩ := hconstructor
  have hinherited : ws.inheritedConstructor index.symbol = .ok none := by
    unfold definitionOf at hnone
    rw [hnot, if_neg Bool.false_ne_true, if_pos hkind, hname,
      ownerName_append t.qualifiedName (by decide), hindex] at hnone
    split at hnone
    · cases hnone
    · exact hnone
  obtain ⟨ancestors, hlineage, hancestors⟩ := init_eq_none_of_inheritedConstructor hws hinherited
  refine Or.inr ⟨t, index, _, rfl, hindex, hlineage, fun a ha i hi => ?_⟩
  rcases List.mem_cons.mp ha with rfl | ha
  · have hsymbol : index.symbol.qualifiedName = t.qualifiedName :=
      hws.typeNames _ (Table.mem_of_get? hindex)
    rw [hsymbol, hindex] at hi
    cases hi
    exact hown
  · exact hancestors a ha i hi

/-- **A method that is accounted for has a definition, or there is a reason.** -/
theorem Sound.isDeadEnd (hws : ws.Filed) {m : MethodSymbol} (h : ws.Sound (.method m))
    (hnone : ws.definitionOf m = .ok none) : ws.IsDeadEnd m := by
  rcases h with hexternal | hheld | ⟨m', heq, hmade⟩
  · exact Or.inl hexternal
  · obtain ⟨d, hd⟩ := exists_definitionOf (hheld.filed hws)
    cases hnone.symm.trans hd
  · cases heq
    exact hmade.isDeadEnd hws hnone

end Workspace

/-! ## Dead ends of a tree -/

namespace Walk

/-- The signature of a method that is unavailable. -/
def Event.unavailable? : Event → Option String
  | .terminal s _ .unavailable _ => some s
  | _ => none

mutual

/-- **The methods that were expanded without a definition.** -/
def Tree.deadEnds : Tree → List MethodSymbol
  | .expanded _ m branches ending =>
    branches.deadEnds ++ if ending = some .unavailable then [m] else []
  | .calledOff _ => []
  | .met _ => []
  | .capped _ => []

/-- The methods that were expanded without a definition below a method. -/
def Branches.deadEnds : Branches → List MethodSymbol
  | .none => []
  | .remark _ rest => rest.deadEnds
  | .call _ callee rest => callee.deadEnds ++ rest.deadEnds

end

/-- Neither a remark nor any other ending says that a method is unavailable. -/
theorem unavailable?_remarkEvent (d : Nat) (r : Remark) :
    (remarkEvent? d r).toList.filterMap Event.unavailable? = [] := by
  cases r <;> rfl

theorem unavailable?_endingEvents (key : String) (d : Nat) (ending : Option Ending) :
    (endingEvents key d ending).filterMap Event.unavailable?
      = if ending = some .unavailable then [key] else [] := by
  rcases ending with _ | (_ | _ | _ | _) <;> rfl

/-- **The log names the dead ends of a tree**, in order. -/
theorem deadEnds_invariant (plan : Plan) :
    plan.Invariant
      (fun _ _ _ _ t _ => ∀ d, (t.events d).filterMap Event.unavailable?
        = t.deadEnds.map plan.key)
      (fun _ _ _ _ bs _ => ∀ d, (bs.events d).filterMap Event.unavailable?
        = bs.deadEnds.map plan.key) where
  calledOff _ _ := rfl
  met _ _ _ := rfl
  capped _ _ _ := rfl
  expanded _ _ _ hB d := by
    rw [Tree.events, List.filterMap_cons_none rfl, List.filterMap_append, hB d,
      unavailable?_endingEvents, Tree.deadEnds, List.map_append]
    exact congrArg _ (apply_ite (List.map plan.key) _ [_] []).symm
  done _ := rfl
  remark hB d := by
    rw [Branches.events, List.filterMap_append, unavailable?_remarkEvent, hB d]
    rfl
  stopped _ hV _ d := by
    rw [Branches.events, List.filterMap_append, hV (d + 1), Branches.deadEnds, List.map_append]
    rfl
  followed _ hV _ _ hB d := by
    rw [Branches.events, List.filterMap_append, hV (d + 1), hB d, Branches.deadEnds,
      List.map_append]

/-- **A dead end is a method that was expanded and is unavailable.** -/
theorem deadEnd_invariant (plan : Plan) :
    plan.Invariant
      (fun _ _ _ _ t _ => ∀ m ∈ t.deadEnds,
        (plan.script m).ending = .unavailable ∧ m ∈ t.expansions.map (·.2))
      (fun _ _ _ _ bs _ => ∀ m ∈ bs.deadEnds,
        (plan.script m).ending = .unavailable ∧ m ∈ bs.expansions.map (·.2)) where
  calledOff _ _ h := absurd h List.not_mem_nil
  met _ _ _ h := absurd h List.not_mem_nil
  capped _ _ _ h := absurd h List.not_mem_nil
  expanded {_ _ m _ _ q} _ _ _ hB m' hm' := by
    rw [Tree.deadEnds, List.mem_append] at hm'
    rw [Tree.expansions, List.map_cons]
    rcases hm' with hm' | hm'
    · exact (hB m' hm').imp id (List.mem_cons_of_mem _)
    · by_cases hending : (if q.halted then none else some (plan.script m).ending)
          = some .unavailable
      · rw [if_pos hending] at hm'
        rw [List.mem_singleton.mp hm']
        refine ⟨?_, List.mem_cons_self⟩
        split at hending
        · cases hending
        · exact Option.some.inj hending
      · rw [if_neg hending] at hm'
        exact absurd hm' List.not_mem_nil
  done _ h := absurd h List.not_mem_nil
  remark hB := hB
  stopped _ hV _ m hm := by
    rw [Branches.deadEnds, Branches.deadEnds, List.append_nil] at hm
    rw [Branches.expansions, Branches.expansions, List.append_nil]
    exact hV m hm
  followed _ hV _ _ hB m hm := by
    rw [Branches.deadEnds, List.mem_append] at hm
    rw [Branches.expansions, List.map_append, List.mem_append]
    rcases hm with hm | hm
    · exact (hV m hm).imp id Or.inl
    · exact (hB m hm).imp id Or.inr

/-- A method is unavailable when there is no definition of it. -/
theorem definition_eq_none_of_ending {Body Scope Expr : Type} {model : CodeModel Body Scope Expr}
    {noise : Noise} {throughProperties : Bool} {m : MethodSymbol}
    (h : (Script.ofMethod model noise throughProperties m).ending = .unavailable) :
    model.definition m = .ok none := by
  unfold Script.ofMethod at h
  split at h
  · cases h
  · rename_i hnone
    exact hnone
  · split at h
    · cases h
    · cases h
    · dsimp only at h
      split at h <;> cases h

end Walk

namespace Workspace

open CallTree.Data (Table)
open CallTree.Syntax (Site)
open CallTree.Walk (Options Plan treeFrom walk)

variable {ws : Workspace}

/-- The scopes of a workspace in which none is kept belong to indexed classes. -/
theorem mem_types_of_scopeOf (hws : ws.Filed) (hscopes : ws.scopes = .empty) {d : Definition}
    (hd : d ∈ ws.definitions.values) {scope : Scope} (hscope : ws.scopeOf d = .ok scope)
    (t : TypeSymbol) (ht : scope.enclosing = some t) : t.qualifiedName ∈ ws.types.names := by
  have hfresh : scopeFor ws d = .ok scope := by
    unfold scopeOf at hscope
    rw [hscopes] at hscope
    exact hscope
  rw [gives_scopeFor d scope hfresh] at ht
  exact (hws.enclosing d hd t ht).2

/-- A method that is filed or accounted for. -/
def Accounted (ws : Workspace) (m : MethodSymbol) : Prop :=
  (m.isExternal = false ∧ m.qualifiedName ∈ ws.definitions.names) ∨ ws.Sound (.method m)

/-- **A walk comes upon nothing that is not accounted for**, if it begins so. -/
theorem accounted_of_reaches (hws : ws.Filed) (hindexed : ws.WellIndexed)
    (hscopes : ws.scopes = .empty) {noise : Noise} {options : Options} {calledOff : Nat → Bool}
    {entry m : MethodSymbol} (hentry : ws.Accounted entry)
    (h : (Plan.ofModel ws.model noise options calledOff).Reaches entry m) : ws.Accounted m := by
  induction h with
  | refl => exact hentry
  | tail _ hfollows _ =>
    obtain ⟨d, scope, hd, hscope, site, hsite⟩ := hfollows.resolved
    have hscope' : ws.scopeOf d = .ok scope := by
      cases hanswer : ws.scopeOf d with
      | error fault =>
        have herror : ws.model.scope d = .error fault := congrArg (Except.map some) hanswer
        cases herror.symm.trans hscope
      | ok scope' =>
        have hok : ws.model.scope d = .ok (some scope') := congrArg (Except.map some) hanswer
        cases hok.symm.trans hscope
        rfl
    obtain ⟨name, hname⟩ := exists_get?_of_definitionOf hd
    exact Or.inr (Scope.sound_of_resolve hindexed
      (mem_types_of_scopeOf hws hscopes (Table.mem_values_of_get? hname) hscope') hsite)

theorem Accounted.isDeadEnd (hws : ws.Filed) {m : MethodSymbol} (h : ws.Accounted m)
    (hnone : ws.definitionOf m = .ok none) : ws.IsDeadEnd m := by
  rcases h with hfiled | hsound
  · obtain ⟨d, hd⟩ := exists_definitionOf hfiled
    cases hnone.symm.trans hd
  · exact hsound.isDeadEnd hws hnone

/-- **Resolution is sound for the index.** In a workspace that is opened from sources, a body is
resolved to external symbols, to symbols that the tables hold, and to constructors made up for
classes that declare none; and a method that the tables hold has a definition. A walk from a
method that a table or a class holds says of methods that they are unavailable only if they are
external or constructors of classes none of whose ancestors declares one. -/
theorem resolution_is_sound (sources : List (String × String)) (ws : Workspace)
    (hws : ws = ofSources sources) :
    (∀ d ∈ ws.definitions.values, ∀ scope, ws.scopeOf d = .ok scope → ∀ site s,
      scope.resolve ws site = .ok (some s) →
        ws.Sound s ∧ ∀ m, s = .method m → ws.Holds s → ∃ d', ws.definitionOf m = .ok (some d'))
      ∧ ∀ (noise : Noise) (options : Options) (calledOff : Nat → Bool) (entry : MethodSymbol),
        (ws.Holds (.method entry) ∨ ∃ index ∈ ws.types.values, .method entry ∈ index.members) →
          (walk ws.model noise options calledOff entry).events.filterMap Walk.Event.unavailable?
              = (treeFrom ws.model noise options calledOff entry).1.deadEnds.map
                (MethodSymbol.key options.overloadAwareKeys)
            ∧ ∀ m ∈ (treeFrom ws.model noise options calledOff entry).1.deadEnds,
              ws.IsDeadEnd m := by
  have hfiled : ws.Filed := hws ▸ filed_ofSources sources
  have hindexed : ws.WellIndexed := hws ▸ wellIndexed_ofSources sources
  have hscopes : ws.scopes = .empty := hws ▸ scopes_openSources {} sources
  refine ⟨fun d hd scope hscope site s hs => ⟨?_, ?_⟩, fun noise options calledOff entry hentry =>
    ⟨?_, fun m hm => ?_⟩⟩
  · exact Scope.sound_of_resolve hindexed (mem_types_of_scopeOf hfiled hscopes hd hscope) hs
  · rintro m rfl hheld
    exact exists_definitionOf (hheld.filed hfiled)
  · exact (Walk.deadEnds_invariant _).grow options.maxDepth [] entry {} 0
  · obtain ⟨hending, hexpanded⟩ :=
      (Walk.deadEnd_invariant _).grow options.maxDepth [] entry {} m hm
    obtain ⟨e, he, rfl⟩ := List.mem_map.mp hexpanded
    have haccounted : ws.Accounted entry := by
      rcases hentry with hheld | ⟨index, hindex, hmember⟩
      · exact Or.inl (hheld.filed hfiled)
      · exact Or.inl (hfiled.methods index hindex entry (Or.inr hmember))
    exact (accounted_of_reaches hfiled hindexed hscopes haccounted
      (Walk.reaches_of_mem_expansions he)).isDeadEnd hfiled
        (Walk.definition_eq_none_of_ending hending)

/-- A method that creates an object of a class without a constructor, and calls into another
library. -/
def yardSources : List (String × String) :=
  [("m.py", "import lib\nclass A:\n    def go(self):\n        B()\n        lib.run()\n"
    ++ "class B:\n    pass\n")]

def yard : Workspace := ofSources yardSources

/-- The method that the walk begins with. -/
def yardEntry : MethodSymbol := ((yard.definitions.get? "m.A.go").map (·.symbol)).getD default

theorem resolution_is_sound_yard :
    (∃ d ∈ yard.definitions.values, ∃ scope ∈ (yard.scopeOf d).toOption,
      ∃ site ∈ (d.body?.map (·.descendantsOf .call)).getD [],
        scope.resolve yard site = .ok (some (.method (yard.constructorOf (classNamed yard "m.B"))))
          ∧ yard.Sound (.method (yard.constructorOf (classNamed yard "m.B"))))
      ∧ (walk yard.model {} {} (fun _ => false) yardEntry).events.filterMap
          Walk.Event.unavailable? = ["lib.run", "B.__init__"]
      ∧ ∀ m ∈ (treeFrom yard.model {} {} (fun _ => false) yardEntry).1.deadEnds,
        yard.IsDeadEnd m := by
  have hfacts : (∃ d ∈ yard.definitions.values, ∃ scope ∈ (yard.scopeOf d).toOption,
        ∃ site ∈ (d.body?.map (·.descendantsOf .call)).getD [], scope.resolve yard site
          = .ok (some (.method (yard.constructorOf (classNamed yard "m.B")))))
      ∧ (∃ index ∈ yard.types.values, yardEntry ∈ index.methods.values)
      ∧ (walk yard.model {} {} (fun _ => false) yardEntry).events.filterMap
          Walk.Event.unavailable? = ["lib.run", "B.__init__"] := by
    decide +kernel
  obtain ⟨⟨d, hd, scope, hscope, site, hsite, hresolved⟩, ⟨index, hindex, hentry⟩, hlog⟩ := hfacts
  have hlaw := resolution_is_sound yardSources yard rfl
  refine ⟨⟨d, hd, scope, hscope, site, hsite, hresolved, ?_⟩, hlog, ?_⟩
  · exact (hlaw.1 d hd scope (ok_of_toOption hscope) site _ hresolved).1
  · exact (hlaw.2 {} {} (fun _ => false) yardEntry (Or.inl (.method hindex hentry))).2

end Workspace

end CallTree
