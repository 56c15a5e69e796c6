import CallTree.Proofs.ClassSites
import CallTree.Proofs.Preorder
import CallTree.Proofs.TreePlaces

/-!
# A file that is a text can be read

What a file is asked for are the texts of nodes: of names, decorators, bases, parameters,
annotations and imports. Each is asked for by itself, at the place where it is needed, and each may
fail. In a file that is a text none of them does: the nodes of its tree lie between characters, and
what lies between two characters of a text is a text. So nothing ends the indexing of such a file
(`CodeFile.isReadable_of_isText`).

The statements below follow the way in which the index is made. That a function has an answer is
stated together with what is needed of the answer later on (`Reads`): the annotations of parameters
lie in the tree, and so do the parts of an annotation that are looked at in its place.
-/

namespace CallTree

/-! ## Answers -/

section Reads

variable {ε α β : Type} {x : Except ε α} {P : α → Prop} {Q : β → Prop}

/-- **There is an answer**, and it has a property. -/
def Reads (x : Except ε α) (P : α → Prop) : Prop := ∃ a, x = .ok a ∧ P a

namespace Reads

theorem ok {a : α} (h : P a) : Reads (.ok a : Except ε α) P := ⟨a, rfl, h⟩

theorem imp {P' : α → Prop} (h : Reads x P) (hP : ∀ a, P a → P' a) : Reads x P' := by
  obtain ⟨a, rfl, ha⟩ := h
  exact ok (hP a ha)

/-- A step after another, which may count on what the first is known to give. -/
theorem bind {f : α → Except ε β} (h : Reads x P) (hf : ∀ a, P a → Reads (f a) Q) :
    Reads (x >>= f) Q := by
  obtain ⟨a, rfl, ha⟩ := h
  exact hf a ha

theorem map {f : α → β} (h : Reads x P) (hf : ∀ a, P a → Q (f a)) : Reads (x.map f) Q := by
  obtain ⟨a, rfl, ha⟩ := h
  exact ok (hf a ha)

/-- One answer for each item of a list. -/
theorem mapM {f : α → Except ε β} {l : List α} (h : ∀ a ∈ l, Reads (f a) Q) :
    Reads (l.mapM f) fun bs => ∀ b ∈ bs, Q b := by
  induction l with
  | nil => exact ok fun _ h => absurd h List.not_mem_nil
  | cons a l ih =>
    obtain ⟨ha, hl⟩ := List.forall_mem_cons.mp h
    rw [List.mapM_cons]
    exact bind ha fun b hb => bind (ih hl) fun bs hbs => ok (List.forall_mem_cons.mpr ⟨hb, hbs⟩)

end Reads

end Reads

namespace Syntax

open CallTree.Text.Utf8

variable {bytes : List UInt8}

/-! ## Parts of nodes -/

namespace Node.On

variable {n : Node} (h : n.On bytes)

include h

theorem child? {role : Role} {child : Node} (hchild : n.child? role = some child) :
    child.On bytes :=
  h.children child (mem_of_child? hchild)

theorem namedChildren : AreOn bytes n.namedChildren :=
  fun child hchild => h.children child (List.mem_filter.mp hchild).1

/-- The inside of a wrapper is one of its children. -/
theorem opened (kind : Kind) : (n.opened kind).On bytes := by
  unfold Node.opened
  split
  · cases hnamed : n.namedChildren with
    | nil => exact h
    | cons child children => exact h.namedChildren child (hnamed ▸ List.mem_cons_self)
  · exact h

end Node.On

/-- A node where it stands, with both it and the node above it between cuts. -/
structure Site.On (bytes : List UInt8) (site : Site) : Prop where
  node : site.node.On bytes
  parent : ∀ parent ∈ site.parent, parent.On bytes

/-- A decorated definition stands below its decorators, and both lie between cuts. -/
theorem Node.On.statements {n : Node} (h : n.On bytes) : ∀ site ∈ n.statements, site.On bytes := by
  intro site hsite
  obtain ⟨statement, hstatement, hsite⟩ := List.mem_filterMap.mp hsite
  have hon := h.namedChildren statement hstatement
  unfold undecorated at hsite
  split at hsite
  · obtain ⟨definition, hdefinition, rfl⟩ := Option.map_eq_some_iff.mp hsite
    exact ⟨hon.child? hdefinition, fun _ hparent => Option.some.inj hparent ▸ hon⟩
  · cases hsite
    exact ⟨hon, fun _ hparent => Option.some.inj hparent ▸ h⟩

theorem Node.On.bodyStatements {n : Node} (h : n.On bytes) :
    ∀ site ∈ n.bodyStatements, site.On bytes := by
  unfold Node.bodyStatements
  split
  · exact fun _ hsite => absurd hsite List.not_mem_nil
  · rename_i body hbody
    exact (h.child? hbody).statements

/-- Everything below a node, by induction on the tree. -/
theorem Node.On.preorder {n : Node} (h : n.On bytes) : ∀ site ∈ n.preorder, site.node.On bytes :=
  Node.preorder_induction (List.forall_mem_map.mpr h.children)
    fun _ hsite => List.forall_mem_map.mpr hsite.children

theorem Node.On.descendants {n : Node} (h : n.On bytes) (wanted : Label → Bool) :
    ∀ site ∈ n.descendants wanted, site.node.On bytes := by
  intro site hsite
  rw [Node.descendants_eq] at hsite
  exact h.preorder site (List.mem_filter.mp hsite).1

/-- The annotation of a parameter lies between cuts. -/
def Parameter.On (bytes : List UInt8) (p : Parameter) : Prop := ∀ hint ∈ p.typeHint, hint.On bytes

/-- A part of an annotation that is looked at in its place lies between cuts. -/
def Reading.On (bytes : List UInt8) {n : Node} : Reading n → Prop
  | .names _ => True
  | .sameAs part _ => part.On bytes

/-! ## Texts of nodes -/

namespace Source

variable {src : Source}

/-- **The text of a node can be read**: it lies between two cuts of a text. -/
theorem reads_text {n : Node} (h : n.On src.bytes.toList) : Reads (src.text n) fun _ => True := by
  obtain ⟨text, htext⟩ := src.exists_decode_slice h.span.start h.span.stop
  exact ⟨text, htext, trivial⟩

theorem reads_textsOf {ns : List Node} (h : AreOn src.bytes.toList ns) :
    Reads (src.textsOf ns) fun _ => True :=
  (Reads.mapM fun n hn => reads_text (h n hn)).imp fun _ _ => trivial

/-- The decorators stand above the definition, so the node above is needed. -/
theorem reads_decorators {site : Site} (h : site.On src.bytes.toList) :
    Reads (src.decorators site) fun _ => True := by
  unfold decorators
  split
  · rename_i wrapper hwrapper
    split
    · refine reads_textsOf fun head hhead => ?_
      obtain ⟨n, hn, hhead⟩ := List.mem_filterMap.mp hhead
      have hon := (h.parent wrapper hwrapper).namedChildren n hn
      unfold Node.decoratorHead? at hhead
      split at hhead
      · obtain ⟨value, hvalue, rfl⟩ := Option.map_eq_some_iff.mp hhead
        have hvalueOn := hon.namedChildren value (List.mem_of_head? hvalue)
        split
        · cases hfunction : value.child? .function with
          | none => exact hvalueOn
          | some function => exact hvalueOn.child? hfunction
        · exact hvalueOn
      · cases hhead
    · exact .ok trivial
  · exact .ok trivial

/-- **A parameter can be read**, and its annotation lies in the tree. -/
theorem reads_parameter? {n : Node} (h : n.On src.bytes.toList) :
    Reads (src.parameter? n) fun found => ∀ p ∈ found, p.On src.bytes.toList := by
  have hbare (text : String) : ∀ p ∈ some (⟨text, none⟩ : Parameter), p.On src.bytes.toList := by
    rintro p ⟨⟩
    exact nofun
  have hdeclared {d : Node}
      (hd : ((n.child? .name).orElse fun _ => n.namedChildren.find? Node.isName) = some d) :
      Reads ((src.text d).map fun text => some (⟨text, n.child? .type⟩ : Parameter))
        fun found => ∀ p ∈ found, p.On src.bytes.toList := by
    have hon : d.On src.bytes.toList := by
      cases hname : n.child? .name with
      | some name =>
        rw [hname] at hd
        exact Option.some.inj hd ▸ h.child? hname
      | none =>
        rw [hname] at hd
        exact h.namedChildren d (List.mem_of_find?_eq_some hd)
    refine (reads_text hon).map fun text _ => ?_
    rintro p ⟨⟩
    exact fun hint hhint => h.child? hhint
  unfold parameter?
  split
  case h_1 => exact .ok (hbare _)
  case h_2 | h_3 | h_4 =>
    dsimp only
    split
    · exact .ok nofun
    · exact hdeclared ‹_›
  case h_5 | h_6 => exact (reads_text h).map fun text _ => hbare text
  case h_7 => exact .ok nofun

theorem reads_parametersOf {n : Node} (h : n.On src.bytes.toList) :
    Reads (src.parametersOf n) fun ps => ∀ p ∈ ps, p.On src.bytes.toList := by
  unfold parametersOf
  split
  · exact .ok fun _ hp => absurd hp List.not_mem_nil
  · rename_i list hlist
    have hnodes := (h.child? hlist).namedChildren
    refine (Reads.mapM fun n hn => reads_parameter? (hnodes n hn)).bind fun found hfound => .ok ?_
    intro p hp
    obtain ⟨p', hp', heq⟩ := List.mem_filterMap.mp hp
    exact hfound p' hp' p heq

/-! ## Annotations -/

/-- Of an annotation with brackets, a name is read or a part is looked at next. -/
theorem reads_readBracketed {n node : Node} (hn : node.size ≤ n.size)
    (h : node.On src.bytes.toList) :
    Reads (src.readBracketed n node hn) (Reading.On src.bytes.toList) := by
  have hnamed := h.namedChildren
  unfold readBracketed
  split
  · exact .ok trivial
  · rename_i head heq
    exact (reads_text (hnamed head (by simp [heq]))).map fun _ _ => trivial
  · rename_i head first rest heq
    refine (reads_text (hnamed head (by simp [heq]))).map fun text _ => ?_
    split
    · exact (hnamed first (by simp [heq])).opened .typeParameter
    · trivial

/-- One step into an annotation ends at a name or at a part of it. -/
theorem reads_readType {n : Node} (h : n.On src.bytes.toList) :
    Reads (src.readType n) (Reading.On src.bytes.toList) := by
  have hnode := h.opened .type
  have htext {f : String → Option String} :
      Reads ((src.text (n.opened .type)).map fun text => (.names (f text) : Reading n))
        (Reading.On src.bytes.toList) :=
    (reads_text hnode).map fun _ _ => trivial
  unfold readType
  dsimp only
  split
  · exact .ok trivial
  · exact htext
  · split
    · exact htext
    · exact htext
    · exact htext
    · split
      · exact .ok trivial
      · rename_i left hleft
        exact .ok (hnode.child? hleft)
    · exact reads_readBracketed _ hnode
    · exact reads_readBracketed _ hnode
    · exact htext

/-- **The principal name of an annotation** can be read. -/
theorem reads_typeName {n : Node} (h : n.On src.bytes.toList) :
    Reads (src.typeName n) fun _ => True := by
  -- on the size of the annotation, of which a part is looked at next
  induction hsize : n.size using Nat.strongRecOn generalizing n with
  | _ size ih =>
    obtain ⟨reading, hread, hon⟩ := reads_readType h
    rw [typeName, hread]
    cases reading with
    | names name => exact .ok trivial
    | sameAs part smaller => exact ih _ (hsize ▸ smaller) hon rfl

theorem reads_returnTypeOf {n : Node} (h : n.On src.bytes.toList) :
    Reads (src.returnTypeOf n) fun _ => True := by
  unfold returnTypeOf
  split
  · exact .ok trivial
  · rename_i hint hhint
    exact reads_typeName (h.child? hhint)

/-- Bases are texts of nodes in the list of arguments. -/
theorem reads_basesOf {n : Node} (h : n.On src.bytes.toList) :
    Reads (src.basesOf n) fun _ => True := by
  unfold basesOf
  split
  · exact .ok trivial
  · rename_i list hlist
    exact reads_textsOf fun base hbase =>
      (h.child? hlist).namedChildren base (List.mem_filter.mp hbase).1

/-! ## Imports -/

theorem reads_importedModule {n : Node} (h : n.On src.bytes.toList) :
    Reads (src.importedModule n) fun _ => True := by
  unfold importedModule
  split
  · split
    · rename_i source hsource
      exact reads_text (h.child? hsource)
    · exact .ok trivial
  · exact .ok trivial

theorem reads_importBinding? (isFrom : Bool) (module' : String) {child : Node}
    (h : child.On src.bytes.toList) :
    Reads (src.importBinding? isFrom module' child) fun _ => True := by
  unfold importBinding?
  split
  · refine (reads_text h).bind fun text _ => ?_
    split
    · exact .ok trivial
    · exact .ok trivial
  · split
    · split
      · rename_i target name htarget hname
        exact (reads_text (h.child? hname)).bind fun _ _ =>
          (reads_text (h.child? htarget)).bind fun _ _ => .ok trivial
      · exact .ok trivial
    · exact .ok trivial

/-- **The names that an import binds** can be read. -/
theorem reads_importBindings {n : Node} (h : n.On src.bytes.toList) :
    Reads (src.importBindings n) fun _ => True := by
  refine (reads_importedModule h).bind fun module' _ => ?_
  refine (Reads.mapM (Q := fun _ => True) fun child hchild => ?_).bind fun _ _ => .ok trivial
  exact reads_importBinding? _ _ (h.namedChildren child (List.mem_filter.mp hchild).1)

end Source

end Syntax

namespace Workspace

open CallTree.Syntax
open CallTree.Data (Table)
open CallTree.Text.Utf8

/-! ## Declarations -/

variable {src : Source}

theorem reads_typeNameOrAny {hint : Node} (h : hint.On src.bytes.toList) :
    Reads (typeNameOrAny src hint) fun _ => True :=
  (Source.reads_typeName h).map fun _ _ => trivial

/-- The class that a call may create is read off its callee. -/
theorem reads_createdClass? {call : Node} (h : call.On src.bytes.toList) :
    Reads (createdClass? src call) fun _ => True := by
  unfold createdClass?
  split
  · exact .ok trivial
  · rename_i callee hcallee
    split
    · exact (Source.reads_text (h.child? hcallee)).map fun _ _ => trivial
    · exact .ok trivial

/-- The type of an assignment comes from its annotation, a call, or a parameter. -/
theorem reads_assignedType (types : Table String) {assignment : Node}
    (h : assignment.On src.bytes.toList) :
    Reads (assignedType src types assignment) fun _ => True := by
  unfold assignedType
  split
  · rename_i hint hhint
    exact reads_typeNameOrAny (h.child? hhint)
  · split
    · exact .ok trivial
    · rename_i right hright
      split
      · exact .ok trivial
      · split
        · exact (reads_createdClass? (h.child? hright)).map fun _ _ => trivial
        · exact .ok trivial

/-- The annotations of parameters, of which it is known that they lie in the tree. -/
theorem reads_parameterTypes {ps : List Syntax.Parameter}
    (h : ∀ p ∈ ps, p.On src.bytes.toList) : Reads (parameterTypes src ps) fun _ => True := by
  refine (Reads.mapM (Q := fun _ => True) fun p hp => ?_).bind fun _ _ => .ok trivial
  unfold parameterType?
  split
  · exact .ok trivial
  · rename_i hint hhint
    exact (Source.reads_typeName (h p hp hint hhint)).map fun _ _ => trivial

variable {file : CodeFile}

/-- Assignments whose types can be read. -/
def AreTyped (assigned : List Assigned) : Prop :=
  ∀ a ∈ assigned, Reads a.typeName fun _ => True

/-- What a method assigns to its receiver, with types that can all be read. -/
theorem CodeFile.reads_assignments {n : Node} (h : n.On file.source.bytes.toList) :
    Reads (file.assignments n) AreTyped := by
  refine (Source.reads_parametersOf h).bind fun ps hps => ?_
  split
  · rename_i receiver others body hbody
    refine (reads_parameterTypes (List.forall_mem_cons.mp hps).2).bind fun types _ => .ok ?_
    intro a ha
    obtain ⟨site, hsite, ha⟩ := List.mem_filterMap.mp ha
    obtain ⟨name, -, rfl⟩ := Option.map_eq_some_iff.mp ha
    exact reads_assignedType types ((h.child? hbody).descendants _ site hsite)
  · exact .ok fun _ ha => absurd ha List.not_mem_nil

/-- A declaration of which everything can be read. -/
def Declaration.IsReadable : Declaration → Prop
  | .method _ _ assigned => Reads assigned AreTyped
  | _ => True

section Statements

variable {site : Site} (h : site.On file.source.bytes.toList)

include h

theorem CodeFile.reads_classSymbol (outer : Option TypeSymbol) :
    Reads (file.classSymbol outer site) fun _ => True :=
  (Source.reads_decorators h).bind fun _ _ => (Source.reads_basesOf h.node).bind fun _ _ =>
    .ok trivial

theorem CodeFile.reads_functionSymbol : Reads (file.functionSymbol site) fun _ => True :=
  (Source.reads_returnTypeOf h.node).bind fun _ _ => (Source.reads_decorators h).bind fun _ _ =>
    (Source.reads_parametersOf h.node).bind fun _ _ => .ok trivial

theorem CodeFile.reads_methodDeclaration (owner : TypeSymbol) :
    Reads (file.methodDeclaration owner site) Declaration.IsReadable := by
  refine (Source.reads_decorators h).bind fun decorators _ => ?_
  dsimp only
  split
  · exact .ok trivial
  · refine (Source.reads_returnTypeOf h.node).bind fun returnType _ => ?_
    split
    · exact .ok trivial
    · refine (Source.reads_parametersOf h.node).bind fun ps _ => .ok ?_
      show Reads _ AreTyped
      split
      · exact CodeFile.reads_assignments h.node
      · exact .ok fun _ ha => absurd ha List.not_mem_nil

theorem CodeFile.reads_fieldDeclaration :
    Reads (file.fieldDeclaration site.node) Declaration.IsReadable := by
  unfold fieldDeclaration
  split
  · rename_i assignment rest hnamed
    have hon : assignment.On file.source.bytes.toList :=
      h.node.namedChildren assignment (by simp [hnamed])
    split
    · exact .ok trivial
    · split
      · rename_i name hint _ hhint
        refine (reads_typeNameOrAny (hon.child? hhint)).bind fun typeName _ => .ok ?_
        split <;> trivial
      · exact .ok trivial
  · exact .ok trivial

/-- **What a statement of a class declares** can be read. -/
theorem CodeFile.reads_declaration (owner : TypeSymbol) :
    Reads (file.declaration owner site) Declaration.IsReadable := by
  unfold declaration
  split
  · exact file.reads_methodDeclaration h owner
  · split
    · exact (file.reads_classSymbol h _).map fun _ _ => trivial
    · split
      · exact file.reads_fieldDeclaration h
      · exact .ok trivial

end Statements

/-! ## Classes -/

/-- Types are read one by one, and none of them is missing. -/
theorem reads_newFields {assigned : List Assigned} (h : AreTyped assigned) (known : List String) :
    Reads (newFields known assigned) fun _ => True := by
  induction assigned generalizing known with
  | nil => exact .ok trivial
  | cons a rest ih =>
    obtain ⟨ha, hrest⟩ := List.forall_mem_cons.mp h
    unfold newFields
    split
    · exact ih hrest known
    · exact ha.bind fun _ _ => (ih hrest _).bind fun _ _ => .ok trivial

/-- **A declaration that can be read** is not stopped half way. -/
theorem TypeIndex.defect_declare (index : TypeIndex) {d : Declaration} (h : d.IsReadable) :
    (index.declare d).2 = none := by
  cases d with
  | method symbol site assigned =>
    obtain ⟨as, rfl, has⟩ := h
    obtain ⟨fields, hfields, -⟩ := reads_newFields has
      ({ index with
        methods := index.methods.put symbol.name symbol
        members := index.members ++ [Symbol.method symbol] } : TypeIndex).fields.names
    unfold TypeIndex.declare TypeIndex.declareAssigned
    dsimp only at hfields ⊢
    rw [show (Except.ok as).bind _ = _ from hfields]
  | property _ => rfl
  | field _ _ => rfl
  | nested _ _ => rfl
  | nothing => rfl

/-- **Nothing ends the indexing of a class**, by induction on what is inside it. -/
theorem CodeFile.defect_harvest (symbol : TypeSymbol) {n : Node}
    (h : n.On file.source.bytes.toList) : (file.harvest symbol n).defect = none := by
  -- on the size of the class, since a class inside it is smaller
  induction hsize : n.size using Nat.strongRecOn generalizing symbol n with
  | _ size ih =>
    rw [harvest_eq]
    refine List.foldlRecOn (motive := fun o : Opened => o.inner.defect = none) _ _ rfl ?_
    intro o ho s hs
    have hon := h.bodyStatements s hs
    obtain ⟨d, hd, hreadable⟩ := file.reads_declaration hon symbol
    have hbelow : (file.below d s.node).defect = none := by
      unfold below
      split
      · exact ih _ (hsize ▸ size_lt_of_mem_bodyStatements hs) _ hon.node rfl
      · rfl
    unfold step
    rw [if_neg (by rw [ho]; exact Bool.false_ne_true), hd]
    dsimp only
    unfold Opened.declare
    dsimp only
    rw [if_neg (by rw [hbelow]; exact Bool.false_ne_true)]
    exact o.index.defect_declare hreadable

/-! ## Files -/

section Indexing

variable {i : Indexing} (hi : i.defect = none)

include hi

/-- An import does not end the indexing. -/
theorem Indexing.defect_addImport {n : Node} (h : n.On file.source.bytes.toList) :
    (i.addImport file n).defect = none := by
  obtain ⟨bindings, hbindings, -⟩ := Source.reads_importBindings h
  unfold addImport
  rw [if_neg (by rw [hi]; exact Bool.false_ne_true), hbindings]
  exact hi

/-- Neither does any other statement. -/
theorem Indexing.defect_addStatement {site : Site} (h : site.On file.source.bytes.toList) :
    (i.addStatement file site).defect = none := by
  unfold addStatement
  split
  · exact hi
  · split
    · obtain ⟨symbol, hsymbol, -⟩ := file.reads_classSymbol h none
      have hharvest := file.defect_harvest symbol h.node
      unfold addClass
      rw [hsymbol]
      dsimp only
      rw [if_neg (by rw [hharvest]; exact Bool.false_ne_true)]
      exact hharvest
    · split
      · obtain ⟨symbol, hsymbol, -⟩ := file.reads_functionSymbol h
        unfold addFunction
        rw [hsymbol]
        exact hi
      · exact hi

end Indexing

/-- **Nothing ends the indexing of a file that is a text.** -/
theorem CodeFile.isReadable_of_isText (htree : file.tree = file.source.tree)
    (h : IsText file.source.bytes.toList) : file.IsReadable := by
  intro isPackage
  have hon : file.tree.On file.source.bytes.toList := htree ▸ file.source.on_tree h
  refine Option.isNone_iff_eq_none.mpr ?_
  unfold outline Indexing.addFile
  dsimp only
  refine List.foldlRecOn (motive := fun i : Indexing => i.defect = none) _ _ ?_ ?_
  · refine List.foldlRecOn (motive := fun i : Indexing => i.defect = none) _ _ rfl ?_
    exact fun i hi site hsite => Indexing.defect_addImport hi (hon.descendants _ site hsite)
  · exact fun i hi site hsite => Indexing.defect_addStatement hi (hon.statements site hsite)

/-- So every file of a workspace that was opened from texts can be read. -/
theorem isReadable_of_mem_ofSources (sources : List (String × String)) :
    ∀ file ∈ (ofSources sources).files, file.IsReadable := by
  refine openSources_induction (P := fun ws => ∀ file ∈ ws.files, file.IsReadable)
    (List.forall_mem_nil _) ?_ (fun _ h => h) sources
  rintro ws file isPackage ⟨text, htext⟩ htree h
  rw [index_eq]
  refine List.forall_mem_append.mpr ⟨h, List.forall_mem_singleton.mpr ?_⟩
  exact file.isReadable_of_isText htree (htext ▸ Source.isText_ofText text)

end Workspace

end CallTree
