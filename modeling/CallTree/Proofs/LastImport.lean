import CallTree.Proofs.ImportSpellings
import CallTree.Proofs.Placement

/-!
# Several imports of one name

When a module imports a name more than once, the last import says what the name is bound to, and
the ones before it could just as well be left out. That holds of the tables of names: a workspace
answers every question in the same way when its modules hold the same names and types
(`SameNames.global_eq`).

One thing is kept of the imports that were overruled. Once a name has stood for a whole module, it
counts as the name of one for good (`OutOfDate`). If the last import takes something out of a
module, it is then taken for a module outside the workspace and not looked up.
-/

namespace CallTree.Workspace

open CallTree.Data (Table)

/-! ## Modules in which names mean the same -/

/-- **Two modules that define and import the same**, as far as the tables of names tell. -/
structure ModuleIndex.SameImports (m m' : ModuleIndex) : Prop where
  moduleName : m.moduleName = m'.moduleName
  isPackage : m.isPackage = m'.isPackage
  defined : ∀ name, m.defined? name = m'.defined? name
  imports : ∀ name, m.imports.get? name = m'.imports.get? name

/-- **Two modules in which names mean the same**: the same of them have stood for whole modules as
well. -/
structure ModuleIndex.Alike (m m' : ModuleIndex) : Prop extends m.SameImports m' where
  wholeModules : ∀ name, name ∈ m.wholeModules ↔ name ∈ m'.wholeModules

/-- **Two workspaces with the same names and types.** -/
structure SameNames (ws ws' : Workspace) : Prop where
  modules : ∀ name, Option.Rel ModuleIndex.Alike (ws.modules.get? name) (ws'.modules.get? name)
  types : ws.types = ws'.types

section Alike

variable {ws ws' : Workspace} {m m' : ModuleIndex} {member : MemberLookup}

theorem ModuleIndex.Alike.refl (m : ModuleIndex) : m.Alike m :=
  ⟨⟨rfl, rfl, fun _ => rfl, fun _ => rfl⟩, fun _ => Iff.rfl⟩

theorem ModuleIndex.SameImports.absoluteTarget_eq (h : m.SameImports m') (target : String) :
    m.absoluteTarget target = m'.absoluteTarget target := by
  unfold absoluteTarget
  rw [h.moduleName, h.isPackage]

namespace SameNames

variable (h : SameNames ws ws')

include h

theorem has_modules (name : String) : ws.modules.has name = ws'.modules.has name := by
  have hm := h.modules name
  rw [Table.has_eq_isSome, Table.has_eq_isSome]
  generalize ws.modules.get? name = o, ws'.modules.get? name = o' at hm ⊢
  cases hm <;> rfl

theorem submodule?_eq (ref : ModuleRef) (name : String) :
    submodule? ws ref name = submodule? ws' ref name := by
  unfold submodule?
  dsimp only
  rw [h.has_modules]

theorem importedWith_eq (hm : m.Alike m') (within : ModuleLookup) (name target : String) :
    importedWith ws member within m name target
      = importedWith ws' member within m' name target := by
  have hwhole : m.wholeModules.contains name = m'.wholeModules.contains name := by
    rw [Bool.eq_iff_iff, List.contains_iff_mem, List.contains_iff_mem]
    exact hm.wholeModules name
  unfold importedWith
  rw [hm.absoluteTarget_eq, hwhole]
  simp only [h.has_modules]

theorem inModuleWithin_eq (hops : Nat) :
    inModuleWithin ws member hops = inModuleWithin ws' member hops := by
  induction hops using Nat.strongRecOn with
  | ind hops ih =>
    funext ref name
    have hm : Option.Rel ModuleIndex.Alike
        (if ref.isExternal then none else ws.modules.get? ref.name)
        (if ref.isExternal then none else ws'.modules.get? ref.name) := by
      split
      · exact .none
      · exact h.modules ref.name
    unfold inModuleWithin
    rw [h.submodule?_eq]
    generalize (if ref.isExternal then none else ws.modules.get? ref.name) = o,
      (if ref.isExternal then none else ws'.modules.get? ref.name) = o' at hm ⊢
    cases hm with
    | none => rfl
    | some hm =>
      dsimp only
      rw [hm.defined, hm.imports]
      cases hops with
      | zero => rfl
      | succ hops => simp only [ih hops (Nat.lt_succ_self hops), h.importedWith_eq hm]

theorem inModuleWith_eq : inModuleWith ws member = inModuleWith ws' member :=
  h.inModuleWithin_eq mostHops

theorem globalWith_eq (moduleName name : String) :
    globalWith ws member moduleName name = globalWith ws' member moduleName name := by
  have hm := h.modules moduleName
  unfold globalWith
  rw [h.inModuleWith_eq]
  generalize ws.modules.get? moduleName = o, ws'.modules.get? moduleName = o' at hm ⊢
  cases hm with
  | none => rfl
  | some hm => simp only [hm.defined, hm.imports, h.importedWith_eq hm]

theorem typeNamedWith_eq : typeNamedWith ws member = typeNamedWith ws' member := by
  have hattribute : attributeWith ws member = attributeWith ws' member := by
    funext receiver name
    unfold attributeWith
    rw [h.inModuleWith_eq]
  funext moduleName name
  unfold typeNamedWith
  simp only [h.globalWith_eq, hattribute]

theorem lineageFrom_eq (fuel : Nat) (t : TypeSymbol) (listed : List TypeSymbol) :
    lineageFrom ws member fuel t listed = lineageFrom ws' member fuel t listed := by
  induction fuel generalizing t listed with
  | zero =>
    unfold lineageFrom
    rfl
  | succ fuel ih =>
    unfold lineageFrom
    simp only [h.typeNamedWith_eq, ih]

theorem memberWithin_eq (level : Nat) : memberWithin ws level = memberWithin ws' level := by
  induction level with
  | zero => rfl
  | succ level ih =>
    funext t name
    unfold memberWithin memberWith lineageWith
    rw [ih, h.types, h.lineageFrom_eq]

/-- **Where names and types are the same, all names mean the same.** -/
theorem global_eq (moduleName name : String) :
    ws.global moduleName name = ws'.global moduleName name := by
  unfold global member
  rw [h.memberWithin_eq, h.globalWith_eq]

end SameNames

end Alike

/-! ## Leaving out the imports that are overruled -/

/-- **The bindings without those of a name**, but for the last of them. -/
def keepLast (n : String) : List ImportBinding → List ImportBinding
  | [] => []
  | b :: bs => if b.name = n && bs.any (·.name = n) then keepLast n bs else b :: keepLast n bs

/-- The last binding of every name is kept. -/
theorem find?_reverse_keepLast (n : String) (bindings : List ImportBinding) (name : String) :
    (keepLast n bindings).reverse.find? (·.name = name)
      = bindings.reverse.find? (·.name = name) := by
  induction bindings with
  | nil => rfl
  | cons b bs ih =>
    rw [keepLast, List.reverse_cons, List.find?_append]
    split
    case isFalse => rw [List.reverse_cons, List.find?_append, ih]
    case isTrue hdropped =>
      obtain ⟨hname, hlater⟩ := Bool.and_eq_true_iff.mp hdropped
      rw [ih]
      by_cases hn : name = n
      · -- a later binding of the name is there to be found first
        obtain ⟨later, hmem, hlater⟩ := List.any_eq_true.mp hlater
        have hfound : (bs.reverse.find? (·.name = name)).isSome := by
          rw [List.find?_isSome]
          exact ⟨later, List.mem_reverse.mpr hmem, by rw [hn]; exact hlater⟩
        rw [Option.or_of_isSome hfound]
      · have hother : b.name ≠ name := fun h => hn (h.symm.trans (of_decide_eq_true hname))
        rw [List.find?_cons_of_neg (by simpa using hother), List.find?_nil, Option.or_none]

/-- The bindings of other names are kept. -/
theorem mem_keepLast_of_ne {n : String} {b : ImportBinding} (h : b.name ≠ n)
    (bindings : List ImportBinding) : b ∈ keepLast n bindings ↔ b ∈ bindings := by
  induction bindings with
  | nil => rfl
  | cons b' bs ih =>
    rw [keepLast]
    split
    case isFalse => rw [List.mem_cons, List.mem_cons, ih]
    case isTrue hdropped =>
      have hne : b ≠ b' := by
        rintro rfl
        exact h (of_decide_eq_true (Bool.and_eq_true_iff.mp hdropped).1)
      rw [List.mem_cons, ih, or_iff_right hne]

/-- Of the bindings of the name only the last is kept. -/
theorem mem_keepLast_self {b : ImportBinding} (bindings : List ImportBinding) :
    b ∈ keepLast b.name bindings ↔ bindings.reverse.find? (·.name = b.name) = some b := by
  induction bindings with
  | nil => simp [keepLast]
  | cons b' bs ih =>
    rw [keepLast, List.reverse_cons, List.find?_append]
    by_cases hlater : bs.any (·.name = b.name) = true
    · have hfound : (bs.reverse.find? (·.name = b.name)).isSome := by
        simpa using hlater
      rw [Option.or_of_isSome hfound, ← ih, hlater, Bool.and_true]
      split
      case isTrue => rfl
      case isFalse hname =>
        have hne : b ≠ b' := fun h => hname (by rw [h]; exact decide_eq_true rfl)
        rw [List.mem_cons, or_iff_right hne]
    · have hnone : bs.reverse.find? (·.name = b.name) = none := by
        simpa using hlater
      have hnot : b ∉ keepLast b.name bs := by
        rw [ih, hnone]
        exact fun h => by cases h
      rw [if_neg (by simp [hlater]), hnone, Option.none_or, List.mem_cons, or_iff_left hnot]
      by_cases hname : b'.name = b.name
      · rw [List.find?_cons_of_pos (by simpa using hname), Option.some_inj, eq_comm]
      · rw [List.find?_cons_of_neg (by simpa using hname), List.find?_nil]
        refine iff_of_false (fun h => hname (by rw [h])) (fun h => by cases h)

section Binds

variable {m m' : ModuleIndex} {n : String} {bindings : List ImportBinding}
  (h : m.Binds bindings) (h' : m'.Binds (keepLast n bindings))

include h h'

theorem ModuleIndex.Binds.imports_keepLast (name : String) :
    m.imports.get? name = m'.imports.get? name := by
  rw [h.imports, h'.imports, find?_reverse_keepLast]

theorem ModuleIndex.Binds.wholeModules_keepLast_of_ne {name : String} (hname : name ≠ n) :
    name ∈ m.wholeModules ↔ name ∈ m'.wholeModules := by
  rw [h.wholeModules, h'.wholeModules]
  refine exists_congr fun b => and_congr_left fun hb => ?_
  exact (mem_keepLast_of_ne (hb.2 ▸ hname) bindings).symm

omit h in
/-- Without the others, a name stands for a whole module if it did so last. -/
theorem ModuleIndex.Binds.wholeModules_keepLast_self :
    n ∈ m'.wholeModules ↔ ∃ b ∈ bindings.reverse.find? (·.name = n), b.isWhole = true := by
  rw [h'.wholeModules]
  constructor
  · rintro ⟨b, hb, hwhole, rfl⟩
    exact ⟨b, (mem_keepLast_self bindings).mp hb, hwhole⟩
  · rintro ⟨b, hb, hwhole⟩
    have hname : b.name = n := by simpa using List.find?_some hb
    subst hname
    exact ⟨b, (mem_keepLast_self bindings).mpr hb, hwhole, rfl⟩

/-- **Leaving out the imports that are overruled** changes nothing, unless they are all that is
left of a whole module. -/
theorem ModuleIndex.Binds.alike_or_overruled (hsame : m.SameImports m') :
    m.Alike m' ∨ (∃ b ∈ bindings, b.isWhole = true ∧ b.name = n)
      ∧ ∃ b ∈ bindings.reverse.find? (·.name = n), b.isWhole = false := by
  by_cases hwhole : n ∈ m.wholeModules
  · obtain ⟨b, hb, hisWhole, hname⟩ := (h.wholeModules n).mp hwhole
    have hfound : (bindings.reverse.find? (·.name = n)).isSome := by
      rw [List.find?_isSome]
      exact ⟨b, List.mem_reverse.mpr hb, decide_eq_true hname⟩
    obtain ⟨last, hlast⟩ := Option.isSome_iff_exists.mp hfound
    cases hlastWhole : last.isWhole with
    | false => exact .inr ⟨⟨b, hb, hisWhole, hname⟩, last, hlast, hlastWhole⟩
    | true =>
      refine .inl ⟨hsame, fun name => ?_⟩
      by_cases hn : name = n
      · rw [hn]
        exact iff_of_true hwhole (h'.wholeModules_keepLast_self.mpr ⟨last, hlast, hlastWhole⟩)
      · exact h.wholeModules_keepLast_of_ne h' hn
  · refine .inl ⟨hsame, fun name => ?_⟩
    by_cases hn : name = n
    · rw [hn]
      refine iff_of_false hwhole fun hwhole' => hwhole ?_
      obtain ⟨b, hb, hisWhole⟩ := h'.wholeModules_keepLast_self.mp hwhole'
      exact (h.wholeModules n).mpr ⟨b, List.mem_reverse.mp (List.mem_of_find?_eq_some hb),
        hisWhole, by simpa using List.find?_some hb⟩
    · exact h.wholeModules_keepLast_of_ne h' hn

end Binds

/-- **Two workspaces that differ in the file of one module** and in nothing else that names are
looked up in. -/
structure DifferIn (ws ws' : Workspace) (moduleName : String) (file file' : CodeFile) : Prop where
  file : ws.fileOf? moduleName = some file
  file' : ws'.fileOf? moduleName = some file'
  modules : ∀ name, name ≠ moduleName → ws.modules.get? name = ws'.modules.get? name
  types : ws.types = ws'.types
  same : ∀ m ∈ ws.modules.get? moduleName, ∀ m' ∈ ws'.modules.get? moduleName,
    m.isPackage = m'.isPackage ∧ m.classes = m'.classes ∧ m.functions = m'.functions

/-- **A name that has stood for a whole module and does not any more**: the last import takes it
out of a module, as what is called `target` in full. The module that imports it does not define it,
and the workspace has no module `target`. -/
structure OutOfDate (ws : Workspace) (moduleName : String) (bindings : List ImportBinding)
    (name target : String) : Prop where
  undefined : ws.definedIn? moduleName name = none
  whole : ∃ b ∈ bindings, b.isWhole = true ∧ b.name = name
  last : ∃ b ∈ bindings.reverse.find? (·.name = name), b.isWhole = false
    ∧ ∃ m ∈ ws.modules.get? moduleName, m.absoluteTarget b.target = target
  outside : ws.modules.has target = false

/-- The module of a file is called after the file. -/
theorem CodeFile.moduleName_outline (file : CodeFile) (isPackage : Bool) :
    (file.outline isPackage).module'.moduleName = file.moduleName := by
  unfold outline Indexing.addFile
  refine List.foldlRecOn (motive := fun i : Indexing => i.module'.moduleName = file.moduleName)
    _ _ (List.foldlRecOn (motive := fun i : Indexing => i.module'.moduleName = file.moduleName)
      _ _ rfl ?_) ?_
  · intro i hi site _
    unfold Indexing.addImport
    split
    · exact hi
    · split <;> exact hi
  · intro i hi site _
    unfold Indexing.addStatement Indexing.addClass Indexing.addFunction
    grind

section DifferIn

variable {ws ws' : Workspace} {file file' : CodeFile} {moduleName name : String}
  {m m' : ModuleIndex} {bindings : List ImportBinding}

/-- Workspaces that differ in one module have the same names if that module is alike in both. -/
theorem DifferIn.sameNames (h : ws.DifferIn ws' moduleName file file')
    (hm : ws.modules.get? moduleName = some m) (hm' : ws'.modules.get? moduleName = some m')
    (halike : m.Alike m') : ws.SameNames ws' := by
  refine ⟨fun x => ?_, h.types⟩
  by_cases hx : x = moduleName
  · rw [hx, hm, hm']
    exact .some halike
  · rw [h.modules x hx]
    cases ws'.modules.get? x with
    | none => exact .none
    | some _ => exact .some (.refl _)

/-- **The module that two workspaces differ in** defines and imports the same in both, once the
imports that are overruled are left out in the second. -/
theorem DifferIn.exists_sameImports (h : ws.DifferIn ws' moduleName file file') (hws : Loaded ws)
    (hws' : Loaded ws') (hbindings : file.bindings = .ok bindings)
    (hbindings' : file'.bindings = .ok (keepLast name bindings)) :
    ∃ m m', ws.modules.get? moduleName = some m ∧ ws'.modules.get? moduleName = some m'
      ∧ m.Binds bindings ∧ m'.Binds (keepLast name bindings) ∧ m.SameImports m' := by
  obtain ⟨isPackage, hm⟩ := hws.module_eq moduleName file h.file
  obtain ⟨isPackage', hm'⟩ := hws'.module_eq moduleName file' h.file'
  have hbinds := binds_outline hbindings isPackage
  have hbinds' := binds_outline hbindings' isPackage'
  obtain ⟨hpackage, hclasses, hfunctions⟩ := h.same _ hm _ hm'
  refine ⟨_, _, hm, hm', hbinds, hbinds', ?_, hpackage, fun x => ?_,
    hbinds.imports_keepLast hbinds'⟩
  · have hfile : file.moduleName = moduleName := by simpa using List.find?_some h.file
    have hfile' : file'.moduleName = moduleName := by simpa using List.find?_some h.file'
    rw [file.moduleName_outline, file'.moduleName_outline, hfile, hfile']
  · unfold ModuleIndex.defined?
    rw [hclasses, hfunctions]

/-- **A name that is out of date** is a module outside the workspace. -/
theorem OutOfDate.global_eq {target : String} (h : ws.OutOfDate moduleName bindings name target)
    (hm : ws.modules.get? moduleName = some m) (hbinds : m.Binds bindings) :
    ws.global moduleName name = .ok (some (.module' ⟨target, true⟩)) := by
  obtain ⟨b, hb, -, m', hm', htarget⟩ := h.last
  rw [hm] at hm'
  cases hm'
  have hundefined := h.undefined
  unfold definedIn? at hundefined
  rw [hm] at hundefined
  have himport : m.imports.get? name = some b.target := by
    rw [hbinds.imports, hb]
    rfl
  have hwhole : m.wholeModules.contains name = true :=
    List.contains_iff_mem.mpr ((hbinds.wholeModules name).mpr h.whole)
  rw [global_of_imported hm hundefined himport]
  unfold importedWith
  rw [htarget, hwhole]
  simp [h.outside]

/-- **Where it does not matter whether a name has stood for a whole module**: when its own module
defines it, or it is imported as a module of the workspace. -/
theorem DifferIn.global_eq (hdiffer : ws.DifferIn ws' moduleName file file')
    (hm : ws.modules.get? moduleName = some m) (hm' : ws'.modules.get? moduleName = some m')
    (hsame : m.SameImports m')
    (h : (m.defined? name).isSome = true
      ∨ ∃ target ∈ m.imports.get? name, ws.modules.has (m.absoluteTarget target) = true) :
    ws.global moduleName name = ws'.global moduleName name := by
  have hhas : ∀ x, ws.modules.has x = ws'.modules.has x := by
    intro x
    rw [Table.has_eq_isSome, Table.has_eq_isSome]
    by_cases hx : x = moduleName
    · rw [hx, hm, hm']
      rfl
    · rw [hdiffer.modules x hx]
  cases hdefined : m.defined? name with
  | some s =>
    unfold global globalWith
    simp only [hm, hm', ← hsame.defined, hdefined]
  | none =>
    rw [hdefined] at h
    obtain ⟨target, htarget, hmodule⟩ := h.resolve_left Bool.false_ne_true
    rw [global_of_imported hm hdefined htarget, global_of_imported hm' (hsame.defined _ ▸ hdefined)
      (hsame.imports _ ▸ htarget)]
    unfold importedWith
    rw [← hsame.absoluteTarget_eq]
    simp only [← hhas, hmodule, if_true]

end DifferIn

/-- **The last import of a name is the one that counts, but for one case.** Of a module's imports of
a name all but the last are left out. What the name means in the module stays the same, unless it
was bound to a whole module before and is taken out of a module last (`OutOfDate`). Then the name
is taken for a module outside the workspace, which is right only if that is what the last import
alone makes of it. -/
theorem last_import_counts_iff (ws ws' : Workspace) (file file' : CodeFile)
    (bindings : List ImportBinding) (moduleName name : String) (hws : Loaded ws)
    (hws' : Loaded ws') (hdiffer : ws.DifferIn ws' moduleName file file')
    (hbindings : file.bindings = .ok bindings)
    (hbindings' : file'.bindings = .ok (keepLast name bindings)) :
    (ws.global moduleName name = ws'.global moduleName name
        ↔ ∀ target, ws.OutOfDate moduleName bindings name target →
          ws'.global moduleName name = .ok (some (.module' ⟨target, true⟩)))
      ∧ ∀ target, ws.OutOfDate moduleName bindings name target →
        ws.global moduleName name = .ok (some (.module' ⟨target, true⟩)) := by
  obtain ⟨m, m', hm, hm', hbinds, hbinds', hsame⟩ :=
    hdiffer.exists_sameImports hws hws' hbindings hbindings'
  have hvalue : ∀ target, ws.OutOfDate moduleName bindings name target →
      ws.global moduleName name = .ok (some (.module' ⟨target, true⟩)) :=
    fun _ hold => hold.global_eq hm hbinds
  refine ⟨⟨fun heq target hold => heq ▸ hvalue target hold, fun hright => ?_⟩, hvalue⟩
  rcases hbinds.alike_or_overruled hbinds' hsame with halike | ⟨hwhole, b, hb, hlast⟩
  · exact (hdiffer.sameNames hm hm' halike).global_eq moduleName name
  · by_cases hplain : (m.defined? name).isSome = true
      ∨ ∃ target ∈ m.imports.get? name, ws.modules.has (m.absoluteTarget target) = true
    · exact hdiffer.global_eq hm hm' hsame hplain
    · obtain ⟨hdefined, hmodule⟩ := not_or.mp hplain
      have himport : m.imports.get? name = some b.target := by
        rw [hbinds.imports, hb]
        rfl
      have hold : ws.OutOfDate moduleName bindings name (m.absoluteTarget b.target) := by
        refine ⟨?_, hwhole, ⟨b, hb, hlast, m, hm, rfl⟩, ?_⟩
        · unfold definedIn?
          rw [hm]
          exact Option.not_isSome_iff_eq_none.mp hdefined
        · exact Bool.eq_false_iff.mpr fun hhas => hmodule ⟨b.target, himport, hhas⟩
      rw [hvalue _ hold, hright _ hold]

/-! ## A name that is imported twice -/

/-- Two workspaces whose tables are the same but for one module. -/
theorem differIn_of_filter {ws ws' : Workspace} {moduleName : String} {file file' : CodeFile}
    (hfile : ws.fileOf? moduleName = some file) (hfile' : ws'.fileOf? moduleName = some file')
    (h : ws.modules.filter (·.1 ≠ moduleName) = ws'.modules.filter (·.1 ≠ moduleName)
      ∧ ws.types = ws'.types
      ∧ ∀ m ∈ ws.modules.get? moduleName, ∀ m' ∈ ws'.modules.get? moduleName,
        m.isPackage = m'.isPackage ∧ m.classes = m'.classes ∧ m.functions = m'.functions) :
    ws.DifferIn ws' moduleName file file' := by
  refine ⟨hfile, hfile', fun name hname => ?_, h.2.1, h.2.2⟩
  have hget : ∀ table : Table ModuleIndex,
      table.get? name = Table.get? (table.filter (·.1 ≠ moduleName)) name := by
    intro table
    unfold Table.get?
    rw [List.find?_filter]
    congr 2
    funext entry
    by_cases hentry : entry.1 = name <;> simp [hentry, hname]
  rw [hget ws.modules, h.1, ← hget ws'.modules]

/-- A module that imports as the text says, and one that it can import from. -/
def importing (text : String) : Workspace := inTurn [("m.py", text), ("p.py", "def n(): 0\n")]

/-- A module that imports two names twice: one first as a whole module and then out of a module,
and one the other way round. -/
def twice : Workspace :=
  importing "import q.fast as n\nfrom p import n\nfrom p import k\nimport q as k\n"

/-- The module without the first import, of the one name. -/
def onceFromModule : Workspace := importing "from p import n\nfrom p import k\nimport q as k\n"

/-- The module without the third import, of the other name. -/
def onceAsModule : Workspace := importing "import q.fast as n\nfrom p import n\nimport q as k\n"

theorem last_import_counts_iff_twice :
    twice.global "m" "n" ≠ onceFromModule.global "m" "n"
      ∧ twice.global "m" "k" = onceAsModule.global "m" "k" := by
  have hloaded : Loaded twice ∧ Loaded onceFromModule ∧ Loaded onceAsModule :=
    ⟨loaded_inTurn (by decide +kernel), loaded_inTurn (by decide +kernel),
      loaded_inTurn (by decide +kernel)⟩
  have hfacts : (∀ ws ∈ [onceFromModule, onceAsModule],
        twice.modules.filter (·.1 ≠ "m") = ws.modules.filter (·.1 ≠ "m")
          ∧ twice.types = ws.types ∧ ∀ m ∈ twice.modules.get? "m", ∀ m' ∈ ws.modules.get? "m",
            m.isPackage = m'.isPackage ∧ m.classes = m'.classes ∧ m.functions = m'.functions)
      ∧ (∃ file ∈ twice.fileOf? "m", file.bindings = .ok [⟨true, "n", "q.fast"⟩,
        ⟨false, "n", "p.n"⟩, ⟨false, "k", "p.k"⟩, ⟨true, "k", "q"⟩])
      ∧ (∃ file ∈ onceFromModule.fileOf? "m", file.bindings = .ok [⟨false, "n", "p.n"⟩,
        ⟨false, "k", "p.k"⟩, ⟨true, "k", "q"⟩])
      ∧ (∃ file ∈ onceAsModule.fileOf? "m", file.bindings = .ok [⟨true, "n", "q.fast"⟩,
        ⟨false, "n", "p.n"⟩, ⟨true, "k", "q"⟩])
      ∧ twice.definedIn? "m" "n" = none ∧ twice.modules.has "p.n" = false
      ∧ (∃ m ∈ twice.modules.get? "m", m.absoluteTarget "p.n" = "p.n")
      ∧ ¬ onceFromModule.global "m" "n" = .ok (some (.module' ⟨"p.n", true⟩)) := by
    decide +kernel
  generalize twice = ws, onceFromModule = ws', onceAsModule = ws'' at *
  obtain ⟨hws, hws', hws''⟩ := hloaded
  obtain ⟨hdiffer, ⟨file, hfile, hb⟩, ⟨file', hfile', hb'⟩, ⟨file'', hfile'', hb''⟩, hundefined,
    houtside, htarget, hother⟩ := hfacts
  refine ⟨fun heq => hother ?_, ?_⟩
  · refine (last_import_counts_iff ws ws' file file' _ "m" "n" hws hws'
      (differIn_of_filter hfile hfile' (hdiffer ws' (by simp))) hb hb').1.mp heq "p.n" ?_
    exact ⟨hundefined, ⟨⟨true, "n", "q.fast"⟩, by decide, rfl, rfl⟩,
      ⟨⟨false, "n", "p.n"⟩, rfl, rfl, htarget⟩, houtside⟩
  · refine (last_import_counts_iff ws ws'' file file'' _ "m" "k" hws hws''
      (differIn_of_filter hfile hfile'' (hdiffer ws'' (by simp))) hb hb'').1.mpr ?_
    rintro target ⟨-, -, ⟨b, hlast, hb, -⟩, -⟩
    cases hlast
    cases hb

/-- A name that is bound to a whole module, and then taken out of a module. -/
def overruled : List (String × String) :=
  [("m.py", "import q.fast as n\nfrom p import n\n"), ("p.py", "def n():\n    pass\n")]

/-- **An import that is overruled still counts.** The name is imported from a module that defines
it, and is taken for a module outside the workspace. Without the import before it the name is the
function that it is imported as. -/
theorem overruled_import_still_counts :
    ∃ ws ws', ws = ofSources overruled
      ∧ ws' = ofSources [("m.py", "from p import n\n"), ("p.py", "def n():\n    pass\n")]
      ∧ ws.global "m" "n" = .ok (some (.module' ⟨"p.n", true⟩))
      ∧ ∃ s ∈ ws.definedIn? "p" "n", ws'.global "m" "n" = .ok (some (.symbol s)) :=
  ⟨inTurn overruled, inTurn _, (ofSources_eq_inTurn (by decide +kernel)).symm,
    (ofSources_eq_inTurn (by decide +kernel)).symm, by decide +kernel⟩

end CallTree.Workspace
