import CallTree.Proofs.Loads
import CallTree.Proofs.NoiseExclusion
import CallTree.Proofs.Resolution

/-!
# Two spellings of an import

A name `x` of a module `p` can be had in two ways: by `from p import x`, under the name `x`, and
by `import p as q`, as `q.x`. The first is looked up as a dotted name. If `p.x` is a module, it is
that; else it is what is found in `p`. The second is looked up in `p` from the start, where a class
or a function comes before a module of the same name. So there is exactly one case in which the two
part, a package that defines what one of its modules is called.

What a module imports is read off its file (`CodeFile.bindings`), wherever in the file the import
stands. Of several imports that bind a name the last counts, and whether a name stands for a whole
module is remembered apart from that (`binds_outline`).
-/

namespace CallTree.Workspace

open CallTree.Data (Table)
open CallTree.Syntax (Node Site)
open CallTree.Text (segments dotted)
open CallTree.Text.Utf8 (Defect)

/-! ## What a file imports -/

/-- **A name that is bound by an import**, to a whole module or to something that is taken out of
a module. -/
structure ImportBinding where
  isWhole : Bool
  name : String
  target : String
deriving DecidableEq

/-- The names that an import statement binds. -/
def CodeFile.bindingsAt (file : CodeFile) (n : Node) : Except Defect (List ImportBinding) :=
  (file.source.importBindings n).map fun bindings =>
    bindings.map fun (name, target) => ⟨!n.isFromImport, name, target⟩

/-- The import statements of a file. -/
def CodeFile.importSites (file : CodeFile) : List Site :=
  file.tree.descendants fun label =>
    label = .construct .importStatement || label = .construct .importFromStatement

/-- **The names that a file imports**, in the order of its import statements. -/
def CodeFile.bindings (file : CodeFile) : Except Defect (List ImportBinding) :=
  (file.importSites.mapM fun site => file.bindingsAt site.node).map List.flatten

/-- **A module has bound names**: of each the last meaning is kept, and the names that whole
modules were bound to are known. -/
structure ModuleIndex.Binds (m : ModuleIndex) (bindings : List ImportBinding) : Prop where
  imports : ∀ name, m.imports.get? name
    = (bindings.reverse.find? (·.name = name)).map (·.target)
  wholeModules : ∀ name, name ∈ m.wholeModules ↔ ∃ b ∈ bindings, b.isWhole = true ∧ b.name = name

/-- A name that is bound in one way only means what it is bound to. -/
theorem ModuleIndex.Binds.imports_of_only {m : ModuleIndex} {bindings : List ImportBinding}
    (h : m.Binds bindings) {b : ImportBinding} (hb : b ∈ bindings)
    (honly : ∀ b' ∈ bindings, b'.name = b.name → b' = b) :
    m.imports.get? b.name = some b.target := by
  rw [h.imports]
  cases hfound : bindings.reverse.find? (·.name = b.name) with
  | none =>
    have hnone := List.find?_eq_none.mp hfound b (List.mem_reverse.mpr hb)
    exact absurd (decide_eq_true rfl) hnone
  | some b' =>
    have hname : b'.name = b.name := by simpa using List.find?_some hfound
    rw [honly b' (List.mem_reverse.mp (List.mem_of_find?_eq_some hfound)) hname]
    rfl

/-- The names of a table of bindings. -/
theorem get?_reverse_bindings (isWhole : Bool) (table : Table String) (name : String) :
    Table.get? table.reverse name
      = ((table.map fun (name, target) => (⟨isWhole, name, target⟩ : ImportBinding)).reverse.find?
        (·.name = name)).map (·.target) := by
  rw [← List.map_reverse, List.find?_map, Table.get?, Option.map_map]
  rfl

namespace Indexing

variable {file : CodeFile} {i : Indexing} {bindings : List ImportBinding}

/-- **One import statement** adds what it binds. -/
theorem binds_addImport (h : i.module'.Binds bindings) (hdefect : i.defect = none) {n : Node}
    {more : List ImportBinding} (hmore : file.bindingsAt n = .ok more) :
    (i.addImport file n).module'.Binds (bindings ++ more) ∧ (i.addImport file n).defect = none := by
  unfold CodeFile.bindingsAt at hmore
  unfold addImport
  rw [hdefect]
  cases htable : file.source.importBindings n with
  | error defect => rw [htable] at hmore; cases hmore
  | ok table =>
    rw [htable] at hmore
    cases hmore
    refine ⟨⟨fun name => ?_, fun name => ?_⟩, rfl⟩
    · show (i.module'.imports.putAll table).get? name = _
      rw [Table.get?_putAll, List.reverse_append, List.find?_append, get?_reverse_bindings
        (!n.isFromImport), h.imports]
      exact (Option.map_or ..).symm
    · show name ∈ i.module'.wholeModules ++ (if n.isFromImport then [] else table.names).filter
        (!i.module'.wholeModules.contains ·) ↔ _
      have hnames : (∃ b ∈ table.map fun (name, target) =>
            (⟨!n.isFromImport, name, target⟩ : ImportBinding), b.isWhole = true ∧ b.name = name)
          ↔ n.isFromImport = false ∧ name ∈ table.names := by
        simp [Table.names, and_comm]
      rw [List.mem_append, List.mem_filter, h.wholeModules]
      simp only [List.mem_append, or_and_right, exists_or]
      rw [hnames]
      cases n.isFromImport with
      | true => simp
      | false =>
        by_cases hold : name ∈ i.module'.wholeModules
        · simp [(h.wholeModules name).mp hold]
        · simp [hold]

/-- **All import statements** add what they bind, one after the other. -/
theorem binds_foldl {sites : List Site} {more : List (List ImportBinding)}
    (hmore : sites.mapM (fun site => file.bindingsAt site.node) = .ok more)
    (h : i.module'.Binds bindings) (hdefect : i.defect = none) :
    (sites.foldl (fun i site => i.addImport file site.node) i).module'.Binds
      (bindings ++ more.flatten) := by
  induction sites generalizing i bindings more with
  | nil =>
    rw [List.mapM_nil] at hmore
    cases hmore
    rw [List.flatten_nil, List.append_nil]
    exact h
  | cons site sites ih =>
    rw [List.mapM_cons] at hmore
    obtain ⟨first, hfirst, hmore⟩ := ok_of_bind hmore
    obtain ⟨others, hothers, hmore⟩ := ok_of_bind hmore
    cases hmore
    obtain ⟨hbinds, hgood⟩ := binds_addImport h hdefect hfirst
    rw [List.flatten_cons, ← List.append_assoc]
    exact ih hothers hbinds hgood

/-- Classes and functions leave the imports alone. -/
theorem binds_addStatement (h : i.module'.Binds bindings) (site : Site) :
    (i.addStatement file site).module'.Binds bindings := by
  unfold addStatement
  split
  · exact h
  · split
    · unfold addClass
      split
      · exact h
      · dsimp only
        split <;> exact ⟨h.imports, h.wholeModules⟩
    · split
      · unfold addFunction
        split <;> exact ⟨h.imports, h.wholeModules⟩
      · exact h

end Indexing

/-- **A module has bound what its file imports.** -/
theorem binds_outline {file : CodeFile} {bindings : List ImportBinding}
    (h : file.bindings = .ok bindings) (isPackage : Bool) :
    (file.outline isPackage).module'.Binds bindings := by
  unfold CodeFile.bindings at h
  unfold CodeFile.outline Indexing.addFile
  refine List.foldlRecOn (motive := fun i : Indexing => i.module'.Binds bindings) _ _ ?_
    fun i hi site _ => Indexing.binds_addStatement hi site
  cases hmore : file.importSites.mapM fun site => file.bindingsAt site.node with
  | error defect => rw [hmore] at h; cases h
  | ok more =>
    rw [hmore] at h
    cases h
    have hstart : (ModuleIndex.mk file.moduleName isPackage .empty [] .empty .empty).Binds [] :=
      ⟨fun _ => rfl, fun _ => ⟨fun h => absurd h List.not_mem_nil,
        fun ⟨_, h, _⟩ => absurd h List.not_mem_nil⟩⟩
    exact Indexing.binds_foldl (i := { workspace := {}, module' := _ }) hmore hstart rfl

/-! ## The file of a module -/

/-- **The file that a module is known by**: the last one of that name that was indexed. -/
def fileOf? (ws : Workspace) (moduleName : String) : Option CodeFile :=
  ws.files.reverse.find? (·.moduleName = moduleName)

/-- What a module knows is what its file brings. -/
theorem Loaded.module_eq {ws : Workspace} (h : Loaded ws) (moduleName : String) :
    ∀ file, ws.fileOf? moduleName = some file → ∃ isPackage,
      ws.modules.get? moduleName = some (file.outline isPackage).module' := by
  refine h.induction (P := fun ws => ∀ file, ws.fileOf? moduleName = some file → ∃ isPackage,
    ws.modules.get? moduleName = some (file.outline isPackage).module') ?_ ?_ (fun _ h => h)
  · intro file hfile
    cases hfile
  · intro ws file isPackage _ ih file' hfile'
    rw [index_eq]
    unfold fileOf? at hfile'
    rw [index_eq] at hfile'
    dsimp only at hfile' ⊢
    rw [List.reverse_append, List.reverse_singleton, List.singleton_append] at hfile'
    by_cases hname : file.moduleName = moduleName
    · rw [List.find?_cons_of_pos (by simpa using hname)] at hfile'
      cases hfile'
      exact ⟨isPackage, by rw [← hname, Table.get?_put_self]⟩
    · rw [List.find?_cons_of_neg (by simpa using hname)] at hfile'
      rw [Table.get?_put_of_ne _ _ (Ne.symm hname)]
      exact ih file' hfile'

/-! ## Looking up the two spellings -/

/-- The class or function that a module defines under a name. -/
def definedIn? (ws : Workspace) (moduleName name : String) : Option Symbol :=
  (ws.modules.get? moduleName).bind (·.defined? name)

/-- A name that does not begin with a dot. -/
def IsAbsolute (name : String) : Prop := ∃ c ∈ name.toList.head?, c ≠ '.'

instance decidableIsAbsolute (name : String) : Decidable (IsAbsolute name) :=
  decidable_of_iff (name.toList.head?.any (· ≠ '.') = true) (by
    simp [IsAbsolute, Option.any_eq_true])

section Spellings

variable {ws : Workspace} {member : MemberLookup} {m p x q : String} {index : ModuleIndex}

theorem absoluteTarget_of_isAbsolute (index : ModuleIndex) {target : String}
    (h : IsAbsolute target) : index.absoluteTarget target = target := by
  obtain ⟨c, hc, hdot⟩ := h
  obtain ⟨cs, hcs⟩ := List.head?_eq_some_iff.mp hc
  unfold ModuleIndex.absoluteTarget
  rw [hcs, List.takeWhile_cons_of_neg (by simpa using hdot)]
  rfl

theorem isAbsolute_append {p rest : String} (h : IsAbsolute p) : IsAbsolute (p ++ rest) := by
  obtain ⟨c, hc, hdot⟩ := h
  obtain ⟨cs, hcs⟩ := List.head?_eq_some_iff.mp hc
  refine ⟨c, ?_, hdot⟩
  rw [String.toList_append, hcs]
  rfl

/-- A module of the workspace that is imported is that module. -/
theorem importedWith_module {within : ModuleLookup} (index : ModuleIndex) (name : String)
    (habsolute : IsAbsolute p) (hp : ws.modules.has p = true) :
    importedWith ws member within index name p = .ok (some (.module' ⟨p, false⟩)) := by
  unfold importedWith
  rw [absoluteTarget_of_isAbsolute index habsolute]
  dsimp only
  rw [if_pos hp]

/-- **A name that is taken out of a module of the workspace** is looked up there, unless it is a
module itself. -/
theorem importedWith_member {within : ModuleLookup} {index : ModuleIndex}
    (habsolute : IsAbsolute p) (hp : ws.modules.has p = true) (hx : segments x = [x])
    (hwhole : x ∉ index.wholeModules) (hnot : ws.modules.has (p ++ "." ++ x) = false) :
    importedWith ws member within index x (p ++ "." ++ x) = within ⟨p, false⟩ x := by
  have hparts : segments (p ++ "." ++ x) = segments p ++ [x] := by
    rw [Text.segments_append, hx]
  obtain ⟨count, hcount⟩ : ∃ count, (segments p).length = count + 1 :=
    Nat.exists_eq_succ_of_ne_zero (mt List.length_eq_zero_iff.mp (Text.segments_ne_nil p))
  unfold importedWith
  rw [absoluteTarget_of_isAbsolute index
    (String.append_assoc .. ▸ isAbsolute_append habsolute)]
  dsimp only
  rw [hnot, if_neg Bool.false_ne_true, hparts, List.length_append, List.length_singleton, hcount]
  rw [if_neg (by simpa using hwhole)]
  -- the longest beginning that is tried is the module itself
  have hcut : (List.range (count + 1 + 1 - 1)).reverse.map (· + 1)
      = (count + 1) :: (List.range count).reverse.map (· + 1) := by
    rw [Nat.add_sub_cancel, List.range_succ, List.reverse_append]
    rfl
  have htake : (segments p ++ [x]).take (count + 1) = segments p := by
    rw [← hcount, List.take_left']
    rfl
  have hdrop : (segments p ++ [x]).drop (count + 1) = [x] := by
    rw [← hcount, List.drop_left']
    rfl
  rw [hcut, List.find?_cons_of_pos (by rw [htake, Text.dotted_segments]; exact hp)]
  dsimp only
  rw [htake, hdrop, Text.dotted_segments]
  show (stepWith member within (some (.module' ⟨p, false⟩)) x >>= pure) = _
  rw [bind_pure]
  rfl

/-- **What a name means that is imported and not defined.** -/
theorem global_of_imported {target : String} (hindex : ws.modules.get? m = some index)
    (hdefined : index.defined? x = none) (hx : index.imports.get? x = some target) :
    ws.global m x = importedWith ws ws.member ws.inModule index x target := by
  unfold global globalWith
  simp only [hindex, hdefined, hx]
  rfl

/-- A name of a module that the module defines, whatever number of imports is followed. -/
theorem inModuleWithin_of_definedIn? (hops : Nat) {s : Symbol} (h : ws.definedIn? p x = some s) :
    inModuleWithin ws member hops ⟨p, false⟩ x = .ok (some (.symbol s)) := by
  obtain ⟨index, hindex, hs⟩ := Option.bind_eq_some_iff.mp h
  unfold inModuleWithin
  simp [hindex, hs]

theorem inModule_of_definedIn? {s : Symbol} (h : ws.definedIn? p x = some s) :
    ws.inModule ⟨p, false⟩ x = .ok (some (.symbol s)) :=
  inModuleWithin_of_definedIn? mostHops h

/-- A name of a module that is a module and that the module does not define. -/
theorem inModule_of_submodule (hp : ws.modules.has p = true) (h : ws.definedIn? p x = none)
    (hx : ws.modules.has (p ++ "." ++ x) = true) :
    ws.inModule ⟨p, false⟩ x = .ok (some (.module' ⟨p ++ "." ++ x, false⟩)) := by
  obtain ⟨index, hindex⟩ := Table.exists_get?_of_mem_names (Table.has_eq_true_iff.mp hp)
  have hdefined : index.defined? x = none := by
    unfold definedIn? at h
    rw [hindex] at h
    exact h
  unfold inModule inModuleWith inModuleWithin submodule?
  simp [hindex, hdefined, hx]

end Spellings

/-- **The two spellings of an import agree, but for one case.** A module binds `x` by
`from p import x` only and `q` by `import p as q` only, and defines neither, where `p` is a module
of the workspace. Then `x` and `q.x` are the same there, unless `p` defines `x` and there is a
module `p.x` as well: then `x` is the module, and `q.x` is what `p` defines. -/
theorem import_spellings_agree_iff (ws : Workspace) (file : CodeFile)
    (bindings : List ImportBinding) (m p x q : String) (hws : Loaded ws)
    (hfile : ws.fileOf? m = some file) (hbindings : file.bindings = .ok bindings)
    (hx : ⟨false, x, p ++ "." ++ x⟩ ∈ bindings)
    (hxOnly : ∀ b ∈ bindings, b.name = x → b = ⟨false, x, p ++ "." ++ x⟩)
    (hq : ⟨true, q, p⟩ ∈ bindings) (hqOnly : ∀ b ∈ bindings, b.name = q → b = ⟨true, q, p⟩)
    (hxDefined : ws.definedIn? m x = none) (hqDefined : ws.definedIn? m q = none)
    (hp : ws.modules.has p = true) (habsolute : IsAbsolute p) (hsegment : segments x = [x]) :
    (ws.global m x = (ws.global m q >>= fun r => ws.attributeOf r x)
        ↔ ¬ (ws.modules.has (p ++ "." ++ x) = true ∧ (ws.definedIn? p x).isSome = true))
      ∧ (ws.modules.has (p ++ "." ++ x) = true →
        ws.global m x = .ok (some (.module' ⟨p ++ "." ++ x, false⟩)))
      ∧ ∀ s, ws.definedIn? p x = some s →
        (ws.global m q >>= fun r => ws.attributeOf r x) = .ok (some (.symbol s)) := by
  obtain ⟨isPackage, hindex⟩ := hws.module_eq m file hfile
  have hbinds := binds_outline hbindings isPackage
  generalize (file.outline isPackage).module' = index at hindex hbinds
  have hdefined : ∀ name, ws.definedIn? m name = none → index.defined? name = none := by
    intro name hname
    unfold definedIn? at hname
    rw [hindex] at hname
    exact hname
  have hglobal := global_of_imported hindex (hdefined x hxDefined)
    (hbinds.imports_of_only hx hxOnly)
  have hspelled : (ws.global m q >>= fun r => ws.attributeOf r x) = ws.inModule ⟨p, false⟩ x := by
    rw [global_of_imported hindex (hdefined q hqDefined) (hbinds.imports_of_only hq hqOnly),
      importedWith_module index q habsolute hp]
    rfl
  have hmodule : ws.modules.has (p ++ "." ++ x) = true →
      ws.global m x = .ok (some (.module' ⟨p ++ "." ++ x, false⟩)) := fun hsub =>
    hglobal.trans (importedWith_module index x
      (String.append_assoc .. ▸ isAbsolute_append habsolute) hsub)
  rw [hspelled]
  refine ⟨?_, hmodule, fun s hs => inModule_of_definedIn? hs⟩
  cases hsub : ws.modules.has (p ++ "." ++ x) with
  | false =>
    have hwhole : x ∉ index.wholeModules := by
      intro hmem
      obtain ⟨b, hb, hwhole, hname⟩ := (hbinds.wholeModules x).mp hmem
      rw [hxOnly b hb hname] at hwhole
      cases hwhole
    rw [hglobal, importedWith_member habsolute hp hsegment hwhole hsub]
    simp
  | true =>
    rw [hmodule hsub]
    cases hs : ws.definedIn? p x with
    | none =>
      rw [inModule_of_submodule hp hs hsub]
      simp
    | some s =>
      rw [inModule_of_definedIn? hs]
      simp

/-! ## A package that defines what one of its modules is called -/

/-- A package with two modules, one of which has the name of a function of the package, and a
module that imports both. -/
def package : Workspace :=
  inTurn [("m.py", "from p import x\nfrom p import y\nimport p as q\n"),
    ("p/__init__.py", "def x(): 0\n"), ("p/x.py", ""), ("p/y.py", "")]

theorem import_spellings_agree_iff_package :
    ∃ file ∈ package.fileOf? "m",
      file.bindings = .ok [⟨false, "x", "p.x"⟩, ⟨false, "y", "p.y"⟩, ⟨true, "q", "p"⟩]
        ∧ package.global "m" "x" ≠ (package.global "m" "q" >>= fun r => package.attributeOf r "x")
        ∧ package.global "m" "y"
          = package.global "m" "q" >>= fun r => package.attributeOf r "y" := by
  have hfacts : (∃ file ∈ package.fileOf? "m",
        file.bindings = .ok [⟨false, "x", "p.x"⟩, ⟨false, "y", "p.y"⟩, ⟨true, "q", "p"⟩])
      ∧ package.definedIn? "m" "x" = none ∧ package.definedIn? "m" "y" = none
      ∧ package.definedIn? "m" "q" = none ∧ package.modules.has "p" = true
      ∧ (package.modules.has ("p" ++ "." ++ "x") = true
        ∧ (package.definedIn? "p" "x").isSome = true)
      ∧ (package.definedIn? "p" "y").isSome = false := by
    decide +kernel
  have hloaded : Loaded package := loaded_inTurn (by decide +kernel)
  generalize package = ws at *
  obtain ⟨⟨file, hfile, hbindings⟩, hx, hy, hq, hp, hboth, hone⟩ := hfacts
  have hlaw := import_spellings_agree_iff ws file _ "m" "p" "x" "q" hloaded hfile hbindings
    (by decide) (by decide) (by decide) (by decide) hx hq hp (by decide) (by decide)
  have hlaw' := import_spellings_agree_iff ws file _ "m" "p" "y" "q" hloaded hfile hbindings
    (by decide) (by decide) (by decide) (by decide) hy hq hp (by decide) (by decide)
  refine ⟨file, hfile, hbindings, fun heq => hlaw.1.mp heq hboth, hlaw'.1.mpr fun hneither => ?_⟩
  rw [hone] at hneither
  cases hneither.2

/-- A package with a function and a module of the same name, imported in both ways. -/
def namesakes : List (String × String) :=
  [("m.py", "from p import x\nimport p as q\n"), ("p/__init__.py", "def x():\n    pass\n"),
    ("p/x.py", "")]

/-- **Where the two spellings part**: the first is the module, and the second is the function. -/
theorem import_spellings_differ :
    ∃ ws, ws = ofSources namesakes
      ∧ (∃ file ∈ ws.fileOf? "m", file.bindings = .ok [⟨false, "x", "p.x"⟩, ⟨true, "q", "p"⟩])
      ∧ ws.definedIn? "m" "x" = none ∧ ws.definedIn? "m" "q" = none
      ∧ ws.global "m" "x" = .ok (some (.module' ⟨"p.x", false⟩))
      ∧ ∃ s ∈ ws.definedIn? "p" "x",
        (ws.global "m" "q" >>= fun r => ws.attributeOf r "x") = .ok (some (.symbol s)) :=
  ⟨inTurn namesakes, (ofSources_eq_inTurn (by decide +kernel)).symm, by decide +kernel⟩

end CallTree.Workspace
