import CallTree.Workspace.Loading
import CallTree.Workspace.Model

/-!
# What the kept scopes bear upon

A workspace is an index, and beside it the scopes that were built so far. Everything that is
looked up is looked up in the index: what names mean in modules, what members types have, what
the expressions of a body stand for and how the scope of a body is built. Indexing further files
does not look at the scopes either. They bear on two questions of the code model only, which ask
for the scope of a definition and for the calls in it.

The lemmas follow the definitions of the look-ups, one by one, and are all of one form: a
workspace with other scopes kept gives the same.
-/

namespace CallTree

namespace Script

variable {Body Scope Expr : Type}

section Congruence

variable {model : CodeModel Body Scope Expr} {scope : Body → Except Fault (Option Scope)}
  {occurrences : Body → SyntaxKind → Except Fault (List Expr)}

/-- The findings about members ask for neither scopes nor expressions. -/
theorem findingsOfAll_congr (s : Scope) (refs : List Symbol) (accesses : List Expr)
    (through : Bool) (members : List Member) :
    Dependency.findingsOfAll { model with scope := scope, occurrences := occurrences } s refs
        accesses through members
      = Dependency.findingsOfAll model s refs accesses through members := by
  induction members with
  | nil => rfl
  | cons member rest ih =>
    unfold Dependency.findingsOfAll
    rw [ih]
    rfl

/-- The dependencies of a body ask for its names and member accesses. -/
theorem findings_congr {body : Body}
    (hnames : occurrences body .identifier = model.occurrences body .identifier)
    (haccesses : occurrences body .memberAccess = model.occurrences body .memberAccess)
    (throughProperties : Bool) (s : Scope) :
    Dependency.findings { model with scope := scope, occurrences := occurrences }
        throughProperties body s
      = Dependency.findings model throughProperties body s := by
  unfold Dependency.findings Dependency.references
  simp only [hnames, haccesses, findingsOfAll_congr]
  rfl

/-- **The script of a method** asks for the scope and the expressions of its body only. -/
theorem ofMethod_congr
    (hscope : ∀ m body, model.definition m = .ok (some body) → scope body = model.scope body)
    (hoccurrences : ∀ m body, model.definition m = .ok (some body) →
      occurrences body = model.occurrences body) (noise : Noise) (throughProperties : Bool) :
    ofMethod { model with scope := scope, occurrences := occurrences } noise throughProperties
      = ofMethod model noise throughProperties := by
  funext m
  unfold ofMethod
  cases hbody : model.definition m with
  | error fault => rfl
  | ok found =>
    cases found with
    | none => rfl
    | some body =>
      have hsteps (s : Scope) :
          bodySteps { model with scope := scope, occurrences := occurrences } noise
            throughProperties body s = bodySteps model noise throughProperties body s := by
        have hbody' := hoccurrences m body hbody
        unfold bodySteps
        rw [findings_congr (congrFun hbody' _) (congrFun hbody' _)]
        simp only [hbody']
        rfl
      simp only [hscope m body hbody, hsteps]

end Congruence

end Script

namespace Workspace

open CallTree.Data (Table)
open CallTree.Syntax (Node Site)

/-! ## What the kept scopes bear upon -/

/-- The workspace with other scopes kept. -/
def withScopes (ws : Workspace) (kept : Table Scope) : Workspace := { ws with scopes := kept }

variable (ws : Workspace) (kept : Table Scope)

@[simp]
theorem modules_withScopes : (ws.withScopes kept).modules = ws.modules := rfl

theorem submodule?_withScopes : submodule? (ws.withScopes kept) = submodule? ws := rfl

theorem importedWith_withScopes : importedWith (ws.withScopes kept) = importedWith ws := by
  funext member within index name target
  unfold importedWith
  rw [modules_withScopes]

/-- By induction on the imports that may still be followed. -/
theorem inModuleWithin_withScopes (member : MemberLookup) (hops : Nat) :
    inModuleWithin (ws.withScopes kept) member hops = inModuleWithin ws member hops := by
  induction hops with
  | zero =>
    funext ref name
    simp only [inModuleWithin, modules_withScopes, submodule?_withScopes]
  | succ hops ih =>
    funext ref name
    simp only [inModuleWithin, ih, modules_withScopes, submodule?_withScopes,
      importedWith_withScopes]

theorem globalWith_withScopes (member : MemberLookup) :
    globalWith (ws.withScopes kept) member = globalWith ws member := by
  funext moduleName name
  simp only [globalWith, inModuleWith, inModuleWithin_withScopes, modules_withScopes,
    importedWith_withScopes]

theorem typeNamedWith_withScopes (member : MemberLookup) :
    typeNamedWith (ws.withScopes kept) member = typeNamedWith ws member := by
  funext moduleName name
  unfold typeNamedWith attributeWith inModuleWith
  rw [globalWith_withScopes, inModuleWithin_withScopes]

/-- The ancestors are read off the types, which are the same. -/
theorem lineageFrom_withScopes (member : MemberLookup) (fuel : Nat) :
    lineageFrom (ws.withScopes kept) member fuel = lineageFrom ws member fuel := by
  induction fuel with
  | zero =>
    funext t listed
    simp only [lineageFrom]
  | succ fuel ih =>
    funext t listed
    simp only [lineageFrom, ih, typeNamedWith_withScopes]

/-- By induction on the levels, each of which asks the one below it. -/
theorem memberWithin_withScopes (level : Nat) :
    memberWithin (ws.withScopes kept) level = memberWithin ws level := by
  induction level with
  | zero => rfl
  | succ level ih =>
    funext t name
    unfold memberWithin memberWith lineageWith
    rw [ih, lineageFrom_withScopes]
    rfl

@[simp]
theorem member_withScopes : (ws.withScopes kept).member = ws.member :=
  memberWithin_withScopes ws kept mostLevels

@[simp]
theorem lineage_withScopes : (ws.withScopes kept).lineage = ws.lineage := by
  funext t
  unfold lineage lineageWith
  rw [member_withScopes, lineageFrom_withScopes]
  rfl

/-- **What a name stands for** does not depend on the scopes that are kept. -/
@[simp]
theorem global_withScopes : (ws.withScopes kept).global = ws.global := by
  funext moduleName name
  unfold global
  rw [member_withScopes, globalWith_withScopes]

@[simp]
theorem attributeOf_withScopes : (ws.withScopes kept).attributeOf = ws.attributeOf := by
  funext receiver name
  unfold attributeOf attributeWith inModuleWith
  rw [member_withScopes, inModuleWithin_withScopes]

@[simp]
theorem typeNamed_withScopes : (ws.withScopes kept).typeNamed = ws.typeNamed := by
  funext moduleName name
  unfold typeNamed
  rw [member_withScopes, typeNamedWith_withScopes]

/-- Where a method is defined does not depend on them either. -/
@[simp]
theorem definitionOf_withScopes : (ws.withScopes kept).definitionOf = ws.definitionOf := by
  funext m
  unfold definitionOf inheritedConstructor
  rw [lineage_withScopes]
  rfl

namespace Scope

variable (scope : Scope)

theorem superType_withScopes : scope.superType (ws.withScopes kept) = scope.superType ws := by
  have hfirst : ∀ moduleName names,
      superType.first (ws.withScopes kept) moduleName names
        = superType.first ws moduleName names := by
    intro moduleName names
    induction names with
    | nil => rfl
    | cons name rest ih =>
      unfold superType.first
      rw [ih, typeNamed_withScopes]
  unfold superType
  simp only [hfirst]

theorem typeOf_withScopes : typeOf (ws.withScopes kept) = typeOf ws := by
  funext found
  unfold typeOf
  rw [typeNamed_withScopes]

theorem resultOf_withScopes : resultOf (ws.withScopes kept) = resultOf ws := by
  funext found
  unfold resultOf
  rw [typeNamed_withScopes]

/-- What an expression leads to, and what is called by it. -/
theorem receiverOf_calleeOf_withScopes (e : Expr) :
    scope.receiverOf (ws.withScopes kept) e = scope.receiverOf ws e
      ∧ scope.calleeOf (ws.withScopes kept) e = scope.calleeOf ws e := by
  induction e with
  | name text =>
    refine ⟨?_, ?_⟩
    · rw [receiverOf, receiverOf, globalReceiver, globalReceiver, global_withScopes]
    · rw [calleeOf, calleeOf, global_withScopes]
  | access object member ih =>
    refine ⟨?_, ?_⟩
    · rw [receiverOf, receiverOf, ih.1, attributeOf_withScopes, typeOf_withScopes]
    · rw [calleeOf, calleeOf, ih.1, attributeOf_withScopes]
  | call callee ih =>
    refine ⟨?_, ?_⟩
    · by_cases hsuper : callee = .name "super"
      · subst hsuper
        rw [receiverOf, receiverOf, superType_withScopes]
      · rw [receiverOf, receiverOf, ih.2, resultOf_withScopes] <;> exact hsuper
    · simp only [calleeOf]
  | group inner ih =>
    refine ⟨?_, ?_⟩
    · rw [receiverOf, receiverOf, ih.1]
    · simp only [calleeOf]
  | other =>
    refine ⟨?_, ?_⟩
    · rw [receiverOf, receiverOf]
    · simp only [calleeOf]

/-- **What an expression stands for** is found out in its own scope, not in those kept. -/
@[simp]
theorem resolve_withScopes : scope.resolve (ws.withScopes kept) = scope.resolve ws := by
  funext site
  unfold resolve called accessed named
  simp only [receiverOf_calleeOf_withScopes, attributeOf_withScopes, global_withScopes]
  rfl

@[simp]
theorem isCreation_withScopes : scope.isCreation (ws.withScopes kept) = scope.isCreation ws := by
  funext site
  unfold isCreation
  simp only [receiverOf_calleeOf_withScopes]

theorem bindParameter_withScopes :
    scope.bindParameter (ws.withScopes kept) = scope.bindParameter ws := by
  funext src p
  unfold bindParameter
  rw [typeNamed_withScopes]

theorem bindAssignment_withScopes :
    scope.bindAssignment (ws.withScopes kept) = scope.bindAssignment ws := by
  funext src assignment
  unfold bindAssignment assignedType
  simp only [typeNamed_withScopes, receiverOf_calleeOf_withScopes]

end Scope

/-- So a scope that is built anew is the same, whatever was kept. -/
@[simp]
theorem scopeFor_withScopes : scopeFor (ws.withScopes kept) = scopeFor ws := by
  funext d
  unfold scopeFor
  simp only [Scope.bindParameter_withScopes, Scope.bindAssignment_withScopes]

/-- What the scopes that are kept bear upon: the questions for scopes and for expressions. -/
theorem model_withScopes : (ws.withScopes kept).model = { ws.model with
    scope := (ws.withScopes kept).model.scope
    occurrences := (ws.withScopes kept).model.occurrences } := by
  unfold model
  simp only [definitionOf_withScopes, Scope.resolve_withScopes]
  rfl

/-! ## Opening pays no heed to them -/

/-- What is being indexed, with other scopes kept. -/
def Indexing.withScopes (i : Indexing) (kept : Table Scope) : Indexing :=
  { i with workspace := i.workspace.withScopes kept }

namespace Indexing

variable (file : CodeFile) (i : Indexing)

/-- Indexing leaves the scopes alone, and does not ask for them. -/
theorem addImport_withScopes (n : Node) :
    (i.withScopes kept).addImport file n = (i.addImport file n).withScopes kept := by
  unfold addImport
  show (if i.defect.isSome then _ else _) = _
  split
  · rfl
  · split <;> rfl

theorem addClass_withScopes (site : Site) :
    (i.withScopes kept).addClass file site = (i.addClass file site).withScopes kept := by
  unfold addClass
  split
  · rfl
  · dsimp only
    split <;> rfl

theorem addFunction_withScopes (site : Site) :
    (i.withScopes kept).addFunction file site = (i.addFunction file site).withScopes kept := by
  unfold addFunction
  split <;> rfl

theorem addStatement_withScopes (site : Site) :
    (i.withScopes kept).addStatement file site = (i.addStatement file site).withScopes kept := by
  unfold addStatement
  rw [addClass_withScopes, addFunction_withScopes]
  show (if i.defect.isSome then _ else _) = _
  split
  · rfl
  · split
    · rfl
    · split <;> rfl

theorem addFile_withScopes :
    (i.withScopes kept).addFile file = (i.addFile file).withScopes kept := by
  have himports (sites : List Site) :
      sites.foldl (fun i site => i.addImport file site.node) (i.withScopes kept)
        = (sites.foldl (fun i site => i.addImport file site.node) i).withScopes kept :=
    List.foldl_hom (Indexing.withScopes · kept) fun i site =>
      addImport_withScopes kept file i site.node
  unfold addFile
  dsimp only
  rw [himports]
  exact List.foldl_hom (Indexing.withScopes · kept) fun i site =>
    addStatement_withScopes kept file i site

end Indexing

/-- **A file is indexed** beside the scopes that are kept. -/
theorem index_withScopes (file : CodeFile) (isPackage : Bool) :
    (ws.withScopes kept).index file isPackage
      = ((ws.index file isPackage).1.withScopes kept, (ws.index file isPackage).2) := by
  have hfile := Indexing.addFile_withScopes kept file
    { workspace := { ws with files := ws.files ++ [file] }
      module' := { moduleName := file.moduleName, isPackage := isPackage } }
  exact congrArg (fun i : Indexing =>
    ({ i.workspace with modules := i.workspace.modules.put file.moduleName i.module' },
      i.defect)) hfile

/-- What is being opened, with other scopes kept. -/
def Loading.withScopes (l : Loading) (kept : Table Scope) : Loading :=
  { l with workspace := l.workspace.withScopes kept }

/-- One source more, which may also be one that cannot be read. -/
theorem Loading.addSource_withScopes (l : Loading) (source : String × String) :
    (l.withScopes kept).addSource source = (l.addSource source).withScopes kept := by
  unfold addSource
  show (if l.error.isSome then _ else _) = _
  split
  · rfl
  · dsimp only
    unfold add
    split
    · rfl
    · dsimp only
      rw [show (l.withScopes kept).workspace = l.workspace.withScopes kept from rfl,
        index_withScopes]
      rfl

theorem Loading.finish_withScopes (l : Loading) :
    (l.withScopes kept).finish = l.finish.withScopes kept := by
  unfold finish
  show (if l.error.isSome then _ else _) = _
  split <;> rfl

/-- **Opening** pays no heed to the scopes that are kept, and leaves them. -/
theorem openSources_withScopes (sources : List (String × String)) :
    openSources (ws.withScopes kept) sources = (openSources ws sources).withScopes kept := by
  unfold openSources
  dsimp only
  rw [show (⟨ws.withScopes kept, [], none⟩ : Loading)
      = Loading.withScopes ⟨ws, [], none⟩ kept from rfl,
    List.foldl_hom (Loading.withScopes · kept) (Loading.addSource_withScopes kept)]
  exact Loading.finish_withScopes kept _

end Workspace

end CallTree
