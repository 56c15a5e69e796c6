import CallTree.Proofs.Loads
import Mathlib.Data.List.Basic

/-!
# Classes where they are written

The tables of a workspace say what is known of a class or a method under its qualified name. They
do not say which class it is: names are used again, and what came later replaces what came before.
To say that a table holds the right thing one has to go back to the text. A class is known there by
where it is written (`ClassSite`), and from there its members, the definitions of its methods and
the classes inside it are read off.

If everything in the files could be read, the tables are what comes of putting in the classes and
the definitions of all files in the order in which they are written (`Loaded.tables_eq`). The
definitions of a class stand between those of the classes inside it. But a class inside another has
a longer name, so what belongs to classes of one name comes class by class (`filter_definitions`).
-/

namespace CallTree.Workspace

open CallTree.Data (Table)
open CallTree.Syntax (Node Site)

/-! ## Classes and what they declare -/

/-- **A class where it is written.** -/
structure ClassSite where
  file : CodeFile
  symbol : TypeSymbol
  node : Node

/-- The members of a class after one more statement. -/
def CodeFile.declared (file : CodeFile) (symbol : TypeSymbol) (index : TypeIndex) (s : Site) :
    TypeIndex :=
  match file.declaration symbol s with
  | .ok d => (index.declare d).1
  | .error _ => index

/-- The definition that a statement of a class brings. -/
def CodeFile.definitionAt? (file : CodeFile) (symbol : TypeSymbol) (s : Site) :
    Option Definition :=
  match file.declaration symbol s with
  | .ok d => d.definition? file symbol
  | .error _ => none

namespace ClassSite

/-- The members that a class declares. -/
def index (c : ClassSite) : TypeIndex :=
  c.node.bodyStatements.foldl (c.file.declared c.symbol) { symbol := c.symbol }

/-- The definitions of the methods of a class, in the order in which they are written. -/
def definitions (c : ClassSite) : List Definition :=
  c.node.bodyStatements.flatMap fun s => (c.file.definitionAt? c.symbol s).toList

end ClassSite

/-- **A class and the classes inside it**, in the order in which they begin. -/
def CodeFile.classesFrom (file : CodeFile) (symbol : TypeSymbol) (n : Node) : List ClassSite :=
  ⟨file, symbol, n⟩ :: n.bodyStatements.attach.flatMap fun s =>
    match file.declaration symbol s.1 with
    | .ok (.nested inner _) => file.classesFrom inner s.1.node
    | _ => []
termination_by n.size
decreasing_by exact size_lt_of_mem_bodyStatements s.2

/-- The classes that a statement of a class brings. -/
def CodeFile.classesAt (file : CodeFile) (symbol : TypeSymbol) (s : Site) : List ClassSite :=
  match file.declaration symbol s with
  | .ok (.nested inner _) => file.classesFrom inner s.node
  | _ => []

theorem CodeFile.classesFrom_eq (file : CodeFile) (symbol : TypeSymbol) (n : Node) :
    file.classesFrom symbol n
      = ⟨file, symbol, n⟩ :: n.bodyStatements.flatMap (file.classesAt symbol) := by
  have hattach : (n.bodyStatements.attach.map Subtype.val).flatMap (file.classesAt symbol)
      = n.bodyStatements.attach.flatMap fun s => file.classesAt symbol s.1 := List.flatMap_map ..
  rw [List.attach_map_subtype_val] at hattach
  rw [classesFrom, hattach]
  rfl

/-! ## Going through a class that can be read -/

/-- What the class inside it brings that a declaration declares. -/
def CodeFile.below (file : CodeFile) (d : Declaration) (n : Node) : Harvest :=
  match d with
  | .nested inner _ => file.harvest inner n
  | _ => {}

/-- One more statement of a class. -/
def CodeFile.step (file : CodeFile) (symbol : TypeSymbol) (o : Opened) (s : Site) : Opened :=
  if o.inner.defect.isSome then o
  else
    match file.declaration symbol s with
    | .error defect => { o with inner := { o.inner with defect := some defect } }
    | .ok d => o.declare file d (file.below d s.node)

theorem CodeFile.harvest_eq (file : CodeFile) (symbol : TypeSymbol) (n : Node) :
    file.harvest symbol n
      = (n.bodyStatements.foldl (file.step symbol) ⟨{ symbol := symbol }, {}⟩).harvest := by
  have hattach : (n.bodyStatements.attach.map Subtype.val).foldl (file.step symbol)
        ⟨{ symbol := symbol }, {}⟩
      = n.bodyStatements.attach.foldl (fun o s => file.step symbol o s.1)
        ⟨{ symbol := symbol }, {}⟩ := List.foldl_map ..
  rw [List.attach_map_subtype_val] at hattach
  rw [harvest, hattach]
  rfl

/-- What a statement of a class brings from below. -/
def CodeFile.harvestAt (file : CodeFile) (symbol : TypeSymbol) (s : Site) : Harvest :=
  match file.declaration symbol s with
  | .ok d => file.below d s.node
  | .error _ => {}

section Readable

variable {file : CodeFile} {symbol : TypeSymbol}

/-- **A statement that can be read** adds to the members of the class, and brings its definition
and what comes from below. -/
theorem CodeFile.step_eq {o : Opened} (hsymbol : o.index.symbol = symbol) {s : Site}
    (h : (file.step symbol o s).inner.defect = none) :
    o.inner.defect = none ∧ (file.harvestAt symbol s).defect = none
      ∧ file.step symbol o s = ⟨file.declared symbol o.index s,
        { types := o.inner.types ++ (file.harvestAt symbol s).types
          definitions := o.inner.definitions ++ ((file.definitionAt? symbol s).toList
            ++ (file.harvestAt symbol s).definitions) }⟩ := by
  have hnone : o.inner.defect = none := by
    cases hdefect : o.inner.defect with
    | none => rfl
    | some defect =>
      unfold step at h
      rw [if_pos (by rw [hdefect]; rfl), hdefect] at h
      cases h
  unfold step at h ⊢
  unfold declared definitionAt? harvestAt
  rw [if_neg (by rw [hnone]; exact Bool.false_ne_true)] at h ⊢
  cases hd : file.declaration symbol s with
  | error defect =>
    rw [hd] at h
    cases h
  | ok d =>
    rw [hd] at h
    dsimp only at h ⊢
    unfold Opened.declare at h ⊢
    dsimp only at h ⊢
    cases hbelow : (file.below d s.node).defect with
    | some defect =>
      rw [if_pos (by rw [hbelow]; rfl), hbelow] at h
      cases h
    | none =>
      simp only [hbelow, Option.isSome_none, Bool.false_eq_true, if_false] at h ⊢
      rw [hsymbol, h, List.append_assoc]
      exact ⟨hnone, trivial, rfl⟩

theorem CodeFile.symbol_declared (index : TypeIndex) (s : Site) :
    (file.declared symbol index s).symbol = index.symbol := by
  unfold declared
  split
  · exact index.symbol_declare _
  · rfl

/-- **Statements that can be read**, one after the other. -/
theorem CodeFile.foldl_step {o : Opened} (hsymbol : o.index.symbol = symbol) {l : List Site}
    (h : (l.foldl (file.step symbol) o).inner.defect = none) :
    o.inner.defect = none ∧ (∀ s ∈ l, (file.harvestAt symbol s).defect = none)
      ∧ (l.foldl (file.step symbol) o).index = l.foldl (file.declared symbol) o.index
      ∧ (l.foldl (file.step symbol) o).inner.types
        = o.inner.types ++ l.flatMap (fun s => (file.harvestAt symbol s).types)
      ∧ (l.foldl (file.step symbol) o).inner.definitions
        = o.inner.definitions ++ l.flatMap fun s => (file.definitionAt? symbol s).toList
          ++ (file.harvestAt symbol s).definitions := by
  induction l generalizing o with
  | nil =>
    refine ⟨h, fun s hs => absurd hs List.not_mem_nil, rfl, ?_, ?_⟩
    · rw [List.flatMap_nil, List.append_nil]
      rfl
    · rw [List.flatMap_nil, List.append_nil]
      rfl
  | cons s l ih =>
    have hsymbol' : (file.step symbol o s).index.symbol = symbol := by
      unfold step
      split
      · exact hsymbol
      · split
        · exact hsymbol
        · unfold Opened.declare
          dsimp only
          split
          · exact hsymbol
          · exact (o.index.symbol_declare _).trans hsymbol
    obtain ⟨hnext, hbelow, hindex, htypes, hdefinitions⟩ := ih hsymbol' h
    obtain ⟨hnone, hs, hstep⟩ := step_eq hsymbol hnext
    refine ⟨hnone, List.forall_mem_cons.mpr ⟨hs, hbelow⟩, ?_, ?_, ?_⟩
    · rw [List.foldl_cons, hindex, hstep, List.foldl_cons]
    · rw [List.foldl_cons, htypes, hstep, List.flatMap_cons, List.append_assoc]
    · rw [List.foldl_cons, hdefinitions, hstep, List.flatMap_cons, List.append_assoc]

/-- **A class that can be read** brings itself and what its statements bring. -/
theorem CodeFile.harvest_of_readable {n : Node} (h : (file.harvest symbol n).defect = none) :
    (∀ s ∈ n.bodyStatements, (file.harvestAt symbol s).defect = none)
      ∧ (file.harvest symbol n).types = ClassSite.index ⟨file, symbol, n⟩
        :: n.bodyStatements.flatMap (fun s => (file.harvestAt symbol s).types)
      ∧ (file.harvest symbol n).definitions
        = n.bodyStatements.flatMap fun s => (file.definitionAt? symbol s).toList
          ++ (file.harvestAt symbol s).definitions := by
  rw [harvest_eq] at h ⊢
  obtain ⟨-, hbelow, hindex, htypes, hdefinitions⟩ :=
    foldl_step (o := ⟨{ symbol := symbol }, {}⟩) rfl h
  refine ⟨hbelow, ?_, ?_⟩
  · show _ :: _ = _
    rw [hindex, htypes]
    rfl
  · exact hdefinitions

/-- **The types that a class brings** are the classes that begin in it. -/
theorem CodeFile.types_harvest {n : Node} (h : (file.harvest symbol n).defect = none) :
    (file.harvest symbol n).types = (file.classesFrom symbol n).map ClassSite.index := by
  induction hsize : n.size using Nat.strongRecOn generalizing symbol n with
  | _ size ih =>
    obtain ⟨hbelow, htypes, -⟩ := harvest_of_readable h
    rw [htypes, classesFrom_eq, List.map_cons, List.map_flatMap]
    refine congrArg _ (List.flatMap_congr fun s hs => ?_)
    have hs' := hbelow s hs
    unfold harvestAt classesAt at *
    cases hd : file.declaration symbol s with
    | error defect => rfl
    | ok d =>
      rw [hd] at hs'
      cases d with
      | nested inner site =>
        exact ih _ (hsize ▸ size_lt_of_mem_bodyStatements hs) hs' rfl
      | method _ _ _ => rfl
      | property _ => rfl
      | field _ _ => rfl
      | nothing => rfl

/-! ## The definitions of classes of one name -/

/-- A class inside another has the name of the other before its own. -/
theorem CodeFile.qualifiedName_of_nested {s site : Site} {inner : TypeSymbol}
    (h : file.declaration symbol s = .ok (.nested inner site)) :
    inner.qualifiedName = symbol.qualifiedName ++ "." ++ s.node.definedName := by
  unfold declaration at h
  split at h
  · rcases methodDeclaration_cases h with h | ⟨_, h⟩ | ⟨_, _, h, -⟩ <;> cases h
  · split at h
    · cases hsymbol : file.classSymbol (some symbol) s with
      | error defect => rw [hsymbol] at h; cases h
      | ok t =>
        rw [hsymbol] at h
        cases h
        unfold classSymbol at hsymbol
        obtain ⟨decorators, -, hsymbol⟩ := ok_of_bind hsymbol
        obtain ⟨bases, -, hsymbol⟩ := ok_of_bind hsymbol
        cases hsymbol
        rfl
    · split at h
      · rcases fieldDeclaration_cases h with h | ⟨_, _, h⟩ <;> cases h
      · cases h

/-- A method has the name of its class before its own. -/
theorem CodeFile.qualifiedName_of_method {s site : Site} {m : MethodSymbol}
    {assigned : Except Text.Utf8.Defect (List Assigned)}
    (h : file.declaration symbol s = .ok (.method m site assigned)) :
    m.qualifiedName = symbol.qualifiedName ++ "." ++ m.name := by
  unfold declaration at h
  split at h
  · unfold methodDeclaration at h
    obtain ⟨decorators, -, h⟩ := ok_of_bind h
    dsimp only at h
    split at h
    · cases h
    · obtain ⟨returnType, -, h⟩ := ok_of_bind h
      split at h
      · cases h
      · obtain ⟨parameters, -, h⟩ := ok_of_bind h
        cases h
        rfl
  · split at h
    · cases hsymbol : file.classSymbol (some symbol) s <;> rw [hsymbol] at h <;> cases h
    · split at h
      · rcases fieldDeclaration_cases h with h | ⟨_, _, h⟩ <;> cases h
      · cases h

theorem CodeFile.length_le_of_mem_classesFrom {n : Node} {c : ClassSite}
    (h : c ∈ file.classesFrom symbol n) :
    symbol.qualifiedName.length ≤ c.symbol.qualifiedName.length := by
  induction hsize : n.size using Nat.strongRecOn generalizing symbol n with
  | _ size ih =>
    rw [classesFrom_eq, List.mem_cons, List.mem_flatMap] at h
    rcases h with rfl | ⟨s, hs, hc⟩
    · exact Nat.le_refl _
    · unfold classesAt at hc
      split at hc
      · rename_i inner site hd
        refine Nat.le_trans ?_ (ih _ (hsize ▸ size_lt_of_mem_bodyStatements hs) hc rfl)
        rw [qualifiedName_of_nested hd, String.length_append, String.length_append]
        omega
      · exact absurd hc List.not_mem_nil

/-- A class that is written is not external, if the class that it is in is not. -/
theorem CodeFile.isExternal_of_mem_classesFrom {n : Node} {c : ClassSite}
    (hsymbol : symbol.isExternal = false) (h : c ∈ file.classesFrom symbol n) :
    c.symbol.isExternal = false := by
  induction hsize : n.size using Nat.strongRecOn generalizing symbol n with
  | _ size ih =>
    rw [classesFrom_eq, List.mem_cons, List.mem_flatMap] at h
    rcases h with rfl | ⟨s, hs, hc⟩
    · exact hsymbol
    · unfold classesAt at hc
      split at hc
      · rename_i inner site hd
        exact ih _ (hsize ▸ size_lt_of_mem_bodyStatements hs) (tells_of_declaration hd).2.2 hc rfl
      · exact absurd hc List.not_mem_nil

/-- The classes inside a class have other names than the class. -/
theorem CodeFile.ne_of_mem_classesAt {s : Site} {c : ClassSite} (h : c ∈ file.classesAt symbol s) :
    c.symbol.qualifiedName ≠ symbol.qualifiedName := by
  unfold classesAt at h
  split at h
  · rename_i inner site hd
    have hle := length_le_of_mem_classesFrom h
    rw [qualifiedName_of_nested hd, String.length_append, String.length_append] at hle
    intro heq
    have hdot : ".".length = 1 := rfl
    rw [heq, hdot] at hle
    omega
  · exact absurd h List.not_mem_nil

/-- Whether a definition belongs to a class of a given name. -/
def Definition.isIn (name : String) (d : Definition) : Bool :=
  d.enclosing.any (·.qualifiedName = name)

/-- Whether a class has a given name. -/
def ClassSite.isNamed (name : String) (c : ClassSite) : Bool := c.symbol.qualifiedName = name

theorem CodeFile.enclosing_of_definitionAt? {s : Site} {d : Definition}
    (h : file.definitionAt? symbol s = some d) : d.enclosing = some symbol ∧ d.file = file := by
  unfold definitionAt? at h
  split at h
  · rename_i declaration _
    cases declaration <;> cases h
    exact ⟨rfl, rfl⟩
  · cases h

/-- A class keeps all its own definitions when one asks for those of its name, and none else. -/
theorem CodeFile.filter_definitionAt? (name : String) (s : Site) :
    (file.definitionAt? symbol s).toList.filter (·.isIn name)
      = if symbol.qualifiedName = name then (file.definitionAt? symbol s).toList else [] := by
  cases hd : file.definitionAt? symbol s with
  | none => simp
  | some d =>
    have hin : d.isIn name = decide (symbol.qualifiedName = name) := by
      unfold Definition.isIn
      rw [(enclosing_of_definitionAt? hd).1]
      rfl
    by_cases hname : symbol.qualifiedName = name <;> simp [hin, hname]

/-- **The definitions that belong to classes of one name**, of those that a class brings, are the
ones of these classes, class by class. -/
theorem CodeFile.filter_definitions {n : Node} (h : (file.harvest symbol n).defect = none)
    (name : String) :
    (file.harvest symbol n).definitions.filter (·.isIn name)
      = ((file.classesFrom symbol n).filter (·.isNamed name)).flatMap ClassSite.definitions := by
  induction hsize : n.size using Nat.strongRecOn generalizing symbol n with
  | _ size ih =>
    obtain ⟨hbelow, -, hdefinitions⟩ := harvest_of_readable h
    have hinner : ∀ s ∈ n.bodyStatements,
        (file.harvestAt symbol s).definitions.filter (·.isIn name)
          = ((file.classesAt symbol s).filter (·.isNamed name)).flatMap ClassSite.definitions := by
      intro s hs
      have hs' := hbelow s hs
      unfold harvestAt classesAt at *
      cases hd : file.declaration symbol s with
      | error defect => rfl
      | ok d =>
        rw [hd] at hs'
        cases d with
        | nested inner site =>
          exact ih _ (hsize ▸ size_lt_of_mem_bodyStatements hs) hs' rfl
        | method _ _ _ => rfl
        | property _ => rfl
        | field _ _ => rfl
        | nothing => rfl
    have hall : (file.harvest symbol n).definitions.filter (·.isIn name)
        = n.bodyStatements.flatMap fun s =>
          (if symbol.qualifiedName = name then (file.definitionAt? symbol s).toList else [])
            ++ ((file.classesAt symbol s).filter (·.isNamed name)).flatMap
              ClassSite.definitions := by
      rw [hdefinitions, List.filter_flatMap]
      refine List.flatMap_congr fun s hs => ?_
      rw [List.filter_append, filter_definitionAt?, hinner s hs]
    rw [hall, classesFrom_eq, List.filter_cons, List.filter_flatMap]
    by_cases hname : symbol.qualifiedName = name
    · -- the classes inside have longer names
      have hnone : ∀ s, (file.classesAt symbol s).filter (·.isNamed name) = [] := by
        intro s
        rw [List.filter_eq_nil_iff]
        intro c hc hnamed
        exact ne_of_mem_classesAt hc ((of_decide_eq_true hnamed).trans hname.symm)
      have hself : (ClassSite.mk file symbol n).isNamed name = true := decide_eq_true hname
      rw [if_pos hself]
      have hinside : (n.bodyStatements.flatMap fun _ => ([] : List ClassSite)) = [] :=
        List.flatMap_eq_nil_iff.mpr fun _ _ => rfl
      simp only [hnone, if_pos hname, hinside, List.flatMap_nil, List.append_nil,
        List.flatMap_cons]
      rfl
    · have hself : ¬ (ClassSite.mk file symbol n).isNamed name = true := by
        simpa [ClassSite.isNamed] using hname
      rw [if_neg hself, List.flatMap_assoc]
      simp only [if_neg hname, List.nil_append]

end Readable

/-! ## The methods of a class -/

theorem TypeIndex.methods_declareField (index : TypeIndex) (name typeName : String) :
    (index.declareField name typeName).methods = index.methods := by
  unfold declareField
  split <;> rfl

theorem TypeIndex.methods_declareAssigned (index : TypeIndex)
    (assigned : Except Text.Utf8.Defect (List Assigned)) :
    (index.declareAssigned assigned).1.methods = index.methods := by
  unfold declareAssigned
  split
  · rfl
  · refine List.foldlRecOn (motive := fun i : TypeIndex => i.methods = index.methods) _ _ rfl ?_
    rintro index' hmethods ⟨name, typeName⟩ -
    exact (index'.methods_declareField name typeName).trans hmethods

namespace ClassSite

variable {c : ClassSite}

/-- One more statement puts in the method that it declares. -/
theorem methods_declared (file : CodeFile) (symbol : TypeSymbol) (index : TypeIndex) (s : Site) :
    (file.declared symbol index s).methods = index.methods.putAll
      ((file.definitionAt? symbol s).toList.map fun d => (d.symbol.name, d.symbol)) := by
  unfold CodeFile.declared CodeFile.definitionAt?
  cases file.declaration symbol s with
  | error defect => rfl
  | ok d =>
    cases d with
    | method m site assigned => exact TypeIndex.methods_declareAssigned _ assigned
    | property _ => rfl
    | field name typeName => exact index.methods_declareField name typeName
    | nested _ _ => rfl
    | nothing => rfl

/-- **The method that a class holds under a name** is the last that it declares. -/
theorem methods_index (c : ClassSite) :
    c.index.methods
      = Table.putAll .empty (c.definitions.map fun d => (d.symbol.name, d.symbol)) := by
  have hfold : ∀ (l : List Site) (index : TypeIndex),
      (l.foldl (c.file.declared c.symbol) index).methods = index.methods.putAll
        ((l.flatMap fun s => (c.file.definitionAt? c.symbol s).toList).map fun d =>
          (d.symbol.name, d.symbol)) := by
    intro l
    induction l with
    | nil => exact fun _ => rfl
    | cons s l ih =>
      intro index
      rw [List.foldl_cons, ih, methods_declared, List.flatMap_cons, List.map_append,
        Table.putAll_append]
  exact hfold c.node.bodyStatements { symbol := c.symbol }

/-- A definition of a class belongs to it, and its name is that of the class and its own. -/
theorem of_mem_definitions {d : Definition} (h : d ∈ c.definitions) :
    d.enclosing = some c.symbol
      ∧ d.symbol.qualifiedName = c.symbol.qualifiedName ++ "." ++ d.symbol.name := by
  obtain ⟨s, -, hs⟩ := List.mem_flatMap.mp h
  have hd := Option.mem_toList.mp hs
  refine ⟨(CodeFile.enclosing_of_definitionAt? hd).1, ?_⟩
  unfold CodeFile.definitionAt? at hd
  split at hd
  · rename_i declaration hdeclaration
    cases declaration <;> cases hd
    exact CodeFile.qualifiedName_of_method hdeclaration
  · cases hd

end ClassSite

/-! ## Files -/

/-- The classes that a statement at the top of a file brings. -/
def CodeFile.topClasses (file : CodeFile) (site : Site) : List ClassSite :=
  if site.node.isKind .classDefinition then
    match file.classSymbol none site with
    | .ok symbol => file.classesFrom symbol site.node
    | .error _ => []
  else []

/-- The definitions that a statement at the top of a file brings. -/
def CodeFile.topDefinitions (file : CodeFile) (site : Site) : List Definition :=
  if site.node.isKind .classDefinition then
    match file.classSymbol none site with
    | .ok symbol => (file.harvest symbol site.node).definitions
    | .error _ => []
  else if site.node.isKind .functionDefinition then
    match file.functionSymbol site with
    | .ok symbol => [⟨symbol, site, file, none⟩]
    | .error _ => []
  else []

/-- The classes of a file, in the order in which they begin. -/
def CodeFile.classSites (file : CodeFile) : List ClassSite :=
  file.tree.statements.flatMap file.topClasses

/-- The definitions of a file, in the order in which they are written. -/
def CodeFile.definitions (file : CodeFile) : List Definition :=
  file.tree.statements.flatMap file.topDefinitions

/-- **Everything in a file can be read.** -/
def CodeFile.IsReadable (file : CodeFile) : Prop :=
  ∀ isPackage, (file.outline isPackage).defect.isNone = true

/-- A class under its qualified name. -/
def ClassSite.entry (c : ClassSite) : String × TypeIndex := (c.symbol.qualifiedName, c.index)

/-- A definition under its qualified name. -/
def Definition.entry (d : Definition) : String × Definition := (d.symbol.qualifiedName, d)

/-- The members that a class declares are those of the class itself. -/
theorem ClassSite.symbol_index (c : ClassSite) : c.index.symbol = c.symbol :=
  List.foldlRecOn (motive := fun i : TypeIndex => i.symbol = c.symbol) _ _ rfl
    fun index hindex s _ => (CodeFile.symbol_declared index s).trans hindex

namespace Indexing

variable {file : CodeFile} {i : Indexing}

/-- **A statement that can be read** puts in its classes and its definitions. -/
theorem addStatement_eq {site : Site} (h : (i.addStatement file site).defect = none) :
    i.defect = none
      ∧ (i.addStatement file site).workspace.types
        = i.workspace.types.putAll ((file.topClasses site).map ClassSite.entry)
      ∧ (i.addStatement file site).workspace.definitions
        = i.workspace.definitions.putAll ((file.topDefinitions site).map Definition.entry)
      ∧ ∀ name, (file.topDefinitions site).filter (·.isIn name)
        = ((file.topClasses site).filter (·.isNamed name)).flatMap ClassSite.definitions := by
  have hnone : i.defect = none := by
    cases hdefect : i.defect with
    | none => rfl
    | some defect =>
      unfold addStatement at h
      rw [if_pos (by rw [hdefect]; rfl), hdefect] at h
      cases h
  unfold addStatement CodeFile.topClasses CodeFile.topDefinitions at *
  rw [if_neg (by rw [hnone]; exact Bool.false_ne_true)] at h ⊢
  by_cases hclass : site.node.isKind .classDefinition
  · rw [if_pos hclass] at h ⊢
    unfold addClass at h ⊢
    cases hsymbol : file.classSymbol none site with
    | error defect =>
      rw [hsymbol] at h
      cases h
    | ok symbol =>
      rw [hsymbol] at h
      have hread : (file.harvest symbol site.node).defect = none := by
        dsimp only at h
        split at h <;> exact h
      rw [if_pos hclass, if_pos hclass]
      dsimp only
      rw [hread]
      refine ⟨hnone, ?_, rfl, fun name => CodeFile.filter_definitions hread name⟩
      show i.workspace.types.putAll _ = _
      rw [CodeFile.types_harvest hread, List.map_map]
      refine congrArg _ (List.map_congr_left fun c _ => ?_)
      show (c.index.symbol.qualifiedName, c.index) = _
      rw [c.symbol_index]
      rfl
  · rw [if_neg hclass] at h ⊢
    rw [if_neg hclass, if_neg hclass]
    by_cases hfunction : site.node.isKind .functionDefinition
    · rw [if_pos hfunction] at h ⊢
      rw [if_pos hfunction]
      unfold addFunction at h ⊢
      cases hsymbol : file.functionSymbol site with
      | error defect =>
        rw [hsymbol] at h
        cases h
      | ok symbol => exact ⟨hnone, rfl, rfl, fun _ => rfl⟩
    · rw [if_neg hfunction] at h ⊢
      rw [if_neg hfunction]
      exact ⟨hnone, rfl, rfl, fun _ => rfl⟩

/-- **Statements that can be read**, one after the other. -/
theorem foldl_addStatement {sites : List Site}
    (h : (sites.foldl (addStatement file) i).defect = none) :
    i.defect = none
      ∧ (sites.foldl (addStatement file) i).workspace.types
        = i.workspace.types.putAll ((sites.flatMap file.topClasses).map ClassSite.entry)
      ∧ (sites.foldl (addStatement file) i).workspace.definitions
        = i.workspace.definitions.putAll ((sites.flatMap file.topDefinitions).map Definition.entry)
      ∧ ∀ name, (sites.flatMap file.topDefinitions).filter (·.isIn name)
        = ((sites.flatMap file.topClasses).filter (·.isNamed name)).flatMap
          ClassSite.definitions := by
  induction sites generalizing i with
  | nil => exact ⟨h, rfl, rfl, fun _ => rfl⟩
  | cons site sites ih =>
    obtain ⟨hnext, htypes, hdefinitions, hfilter⟩ := ih h
    obtain ⟨hnone, htypes', hdefinitions', hfilter'⟩ := addStatement_eq hnext
    refine ⟨hnone, ?_, ?_, fun name => ?_⟩
    · rw [List.foldl_cons, htypes, htypes', List.flatMap_cons, List.map_append, Table.putAll_append]
    · rw [List.foldl_cons, hdefinitions, hdefinitions', List.flatMap_cons, List.map_append,
        Table.putAll_append]
    · rw [List.flatMap_cons, List.filter_append, hfilter', hfilter, List.flatMap_cons,
        List.filter_append, List.flatMap_append]

/-- Imports bring neither types nor definitions. -/
theorem workspace_addImport (n : Node) : (i.addImport file n).workspace = i.workspace := by
  unfold addImport
  split
  · rfl
  · split <;> rfl

end Indexing

/-- **What a file brings that can be read.** -/
theorem CodeFile.IsReadable.outline_eq {file : CodeFile} (h : file.IsReadable) (isPackage : Bool) :
    (file.outline isPackage).workspace.types
        = Table.putAll .empty (file.classSites.map ClassSite.entry)
      ∧ (file.outline isPackage).workspace.definitions
        = Table.putAll .empty (file.definitions.map Definition.entry)
      ∧ ∀ name, file.definitions.filter (·.isIn name)
        = (file.classSites.filter (·.isNamed name)).flatMap ClassSite.definitions := by
  have hdefect := Option.isNone_iff_eq_none.mp (h isPackage)
  unfold CodeFile.outline Indexing.addFile at hdefect ⊢
  dsimp only at hdefect ⊢
  obtain ⟨-, htypes, hdefinitions, hfilter⟩ := Indexing.foldl_addStatement hdefect
  have himports : ∀ (sites : List Site) (i : Indexing),
      (sites.foldl (fun i site => i.addImport file site.node) i).workspace = i.workspace :=
    fun sites i => List.foldlRecOn (motive := fun i' : Indexing => i'.workspace = i.workspace)
      sites _ rfl fun i' hi' site _ => (Indexing.workspace_addImport site.node).trans hi'
  rw [himports] at htypes hdefinitions
  exact ⟨htypes, hdefinitions, hfilter⟩

/-! ## Workspaces -/

/-- The classes of all files of a workspace. -/
def classSites (ws : Workspace) : List ClassSite := ws.files.flatMap CodeFile.classSites

theorem isExternal_of_mem_classSites {ws : Workspace} {c : ClassSite} (h : c ∈ ws.classSites) :
    c.symbol.isExternal = false := by
  obtain ⟨file, -, hc⟩ := List.mem_flatMap.mp h
  obtain ⟨site, -, hc⟩ := List.mem_flatMap.mp hc
  unfold CodeFile.topClasses at hc
  split at hc
  · split at hc
    · rename_i symbol hsymbol
      exact CodeFile.isExternal_of_mem_classesFrom (CodeFile.isExternal_classSymbol hsymbol) hc
    · exact absurd hc List.not_mem_nil
  · exact absurd hc List.not_mem_nil

/-- The definitions of all files of a workspace. -/
def writtenDefinitions (ws : Workspace) : List Definition := ws.files.flatMap CodeFile.definitions

/-- **What a workspace holds is what is written in its files**, if that can be read: types and
definitions are put in one after the other, and of the definitions those that belong to classes of
one name come class by class. -/
theorem Loaded.tables_eq {ws : Workspace} (h : Loaded ws)
    (hread : ∀ file ∈ ws.files, file.IsReadable) :
    ws.types = Table.putAll .empty (ws.classSites.map ClassSite.entry)
      ∧ ws.definitions = Table.putAll .empty (ws.writtenDefinitions.map Definition.entry)
      ∧ ∀ name, ws.writtenDefinitions.filter (·.isIn name)
        = (ws.classSites.filter (·.isNamed name)).flatMap ClassSite.definitions := by
  revert hread
  refine h.induction (P := fun ws => (∀ file ∈ ws.files, file.IsReadable) →
    ws.types = Table.putAll .empty (ws.classSites.map ClassSite.entry)
      ∧ ws.definitions = Table.putAll .empty (ws.writtenDefinitions.map Definition.entry)
      ∧ ∀ name, ws.writtenDefinitions.filter (·.isIn name)
        = (ws.classSites.filter (·.isNamed name)).flatMap ClassSite.definitions)
    (fun _ => ⟨rfl, rfl, fun _ => rfl⟩) ?_ (fun _ h => h)
  intro ws file isPackage _ ih hread
  rw [index_eq] at hread ⊢
  obtain ⟨hwsRead, hfileRead⟩ := List.forall_mem_append.mp hread
  obtain ⟨htypes, hdefinitions, hfilter⟩ := ih hwsRead
  obtain ⟨htypes', hdefinitions', hfilter'⟩ :=
    (hfileRead file List.mem_cons_self).outline_eq isPackage
  unfold classSites writtenDefinitions at *
  refine ⟨?_, ?_, fun name => ?_⟩
  · rw [htypes', htypes, Table.putAll_putAll_empty, ← Table.putAll_append, ← List.map_append,
      List.flatMap_append, List.flatMap_singleton]
  · rw [hdefinitions', hdefinitions, Table.putAll_putAll_empty, ← Table.putAll_append,
      ← List.map_append, List.flatMap_append, List.flatMap_singleton]
  · rw [List.flatMap_append, List.flatMap_singleton, List.filter_append, hfilter, hfilter',
      List.flatMap_append, List.flatMap_singleton, List.filter_append, List.flatMap_append]

end CallTree.Workspace
