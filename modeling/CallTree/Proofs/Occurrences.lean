import CallTree.Proofs.Filing
import CallTree.Proofs.Preorder
import CallTree.Proofs.Suites
import CallTree.Workspace.Model

/-!
# The calls of a body

A body is searched for expressions by kind, and what is found below it is found there together
with the node above. So a member access that is what a call calls leads to that call, and the
call is below the body as well, unless it is the body itself. It never is: a body is a block,
in every file that was opened.

The calls below a body are told apart by whether they create an object, and each is asked about
once more for either list. No call is lost between the two, and none is resolved differently
there than where it is reached through the member access: what a call stands for depends on the
call alone, not on where it stands.
-/

namespace CallTree

namespace Syntax

/-! ## What stands above -/

/-- **What stands above a descendant** is the node itself, or one of its descendants. -/
theorem Node.parent_of_mem_descendants {n : Node} {wanted : Label → Bool} {site : Site}
    {parent : Node} (h : site ∈ n.descendants wanted) (hparent : site.parent = some parent) :
    parent = n ∨ ∀ accepts : Label → Bool, accepts parent.label →
      ∃ above ∈ n.descendants accepts, above.node = parent := by
  rw [Node.descendants_eq] at h
  obtain hroot | ⟨above, habove, heq⟩ := Node.parent_of_mem_preorder (List.mem_filter.mp h).1
  · exact Or.inl (Option.some.inj (hparent.symm.trans hroot))
  · have hnode : above.node = parent := Option.some.inj (heq.symm.trans hparent)
    refine Or.inr fun accepts haccepts => ⟨above, ?_, hnode⟩
    rw [Node.descendants_eq]
    exact List.mem_filter.mpr ⟨habove, by rw [hnode]; exact haccepts⟩

end Syntax

namespace Workspace

open CallTree.Data (Table)
open CallTree.Syntax (Node Site)

/-! ## Where definitions stand -/

/-- **The definitions of a class stand at functions below it.** What holds of the class, and goes
from a class to the statements of its body, holds of them. -/
theorem CodeFile.definitions_harvest (file : CodeFile) {Q : Node → Prop}
    (hbody : ∀ n, Q n → n.isKind .classDefinition → ∀ site ∈ n.bodyStatements, Q site.node)
    (symbol : TypeSymbol) {n : Node} (hn : Q n) (hkind : n.isKind .classDefinition) :
    ∀ d ∈ (file.harvest symbol n).definitions,
      d.file = file ∧ Q d.site.node ∧ d.site.node.isKind .functionDefinition := by
  revert hn hkind
  refine CodeFile.harvest_induction (Q := fun _ n h => Q n → n.isKind .classDefinition →
    ∀ d ∈ h.definitions, d.file = file ∧ Q d.site.node ∧ d.site.node.isKind .functionDefinition)
    ?_ ?_ ?_ symbol n
  · exact fun _ _ _ _ _ h => absurd h List.not_mem_nil
  · exact fun _ _ _ _ ho hn hkind => ho hn hkind
  · intro symbol n o _ ho statement hstatement d hd below hnested hother hn hkind
    have hq := hbody n hn hkind statement hstatement
    have htells := CodeFile.tells_of_declaration hd
    have hbelow : ∀ d ∈ below.definitions,
        d.file = file ∧ Q d.site.node ∧ d.site.node.isKind .functionDefinition := by
      by_cases hinner : ∃ inner site, d = .nested inner site
      · obtain ⟨inner, site, rfl⟩ := hinner
        exact hnested inner site rfl hq htells.2.1
      · rw [hother fun inner site heq => hinner ⟨inner, site, heq⟩]
        exact List.forall_mem_nil _
    obtain ⟨_, -, -, hdefinitions⟩ := o.harvest_declare file d below
    rw [hdefinitions, List.append_assoc]
    refine List.forall_mem_append.mpr ⟨ho hn hkind, List.forall_mem_append.mpr ⟨?_, hbelow⟩⟩
    cases d with
    | method m site assigned =>
      obtain ⟨rfl, hfunction, -⟩ := htells
      exact List.forall_mem_singleton.mpr ⟨rfl, hq, hfunction⟩
    | property _ => exact List.forall_mem_nil _
    | field _ _ => exact List.forall_mem_nil _
    | nested _ _ => exact List.forall_mem_nil _
    | nothing => exact List.forall_mem_nil _

/-- **All definitions stand at functions**, whatever was opened: what holds of the statements of
each file, and goes from a class to the statements of its body, holds of all of them. -/
theorem definitions_openSources {Q : CodeFile → Node → Prop} {P : Definition → Prop}
    (hfile : ∀ file, (∃ text, file.source = .ofText text) → file.tree = file.source.tree →
      ∀ site ∈ file.tree.statements, Q file site.node)
    (hbody : ∀ file n, Q file n → n.isKind .classDefinition →
      ∀ site ∈ n.bodyStatements, Q file site.node)
    (hP : ∀ d, Q d.file d.site.node → d.site.node.isKind .functionDefinition → P d)
    {ws : Workspace} (h : ∀ d ∈ ws.definitions.values, P d) (sources : List (String × String)) :
    ∀ d ∈ (openSources ws sources).workspace.definitions.values, P d := by
  refine openSources_induction (P := fun ws => ∀ d ∈ ws.definitions.values, P d) h
    (fun ws file isPackage htext htree h => ?_) (fun _ h => h) sources
  refine index_induction (P := fun ws => ∀ d ∈ ws.definitions.values, P d)
    (R := fun i => ∀ d ∈ i.workspace.definitions.values, P d) h ?_ ?_ ?_ fun _ hi => hi
  · intro i n hi
    unfold Indexing.addImport
    split
    · exact hi
    · split <;> exact hi
  · intro i site hsite hkind hi
    unfold Indexing.addClass
    split
    · exact hi
    · rename_i symbol _
      have hput : ∀ d ∈ (addHarvest i.workspace
          (file.harvest symbol site.node)).definitions.values, P d := by
        intro d hd
        rcases mem_of_mem_values_putAll hd with hd | hd
        · exact hi d hd
        · obtain ⟨rfl, hq, hfunction⟩ := file.definitions_harvest (hbody file) symbol
            (hfile file htext htree site hsite) hkind d hd
          exact hP d hq hfunction
      dsimp only
      split <;> exact hput
  · intro i site hsite hkind hi
    unfold Indexing.addFunction
    split
    · exact hi
    · intro d hd
      rcases Table.mem_values_put hd with rfl | hd
      · exact hP _ (hfile file htext htree site hsite) hkind
      · exact hi d hd

/-- **A definition whose body is a block**, if it has one. -/
def Definition.HasBlock (d : Definition) : Prop := ∀ body, d.body? = some body → body.isKind .block

/-- **The bodies of all definitions are blocks**, whatever was opened. -/
theorem hasBlock_openSources {ws : Workspace} (h : ∀ d ∈ ws.definitions.values, d.HasBlock)
    (sources : List (String × String)) :
    ∀ d ∈ (openSources ws sources).workspace.definitions.values, d.HasBlock := by
  refine definitions_openSources (Q := fun _ n => n.IsRegular) ?_ ?_ ?_ h sources
  · intro file _ htree site hsite
    rw [htree] at hsite
    exact Node.isRegular_of_mem_statements file.source.areRegular_tree hsite
  · exact fun _ _ hn hkind _ hsite => hn.of_mem_bodyStatements hkind hsite
  · exact fun _ hregular hkind _ hbody => hregular.isKind_block hkind hbody

/-! ## Calls -/

/-- **The call of a member access below a block** is below the block as well. -/
theorem mem_calls_of_invocationSite? {body : Node} (hbody : body.isKind .block) {access call : Site}
    (haccess : access ∈ body.descendantsOf .attributeAccess)
    (hcall : invocationSite? access = some call) :
    ∃ site ∈ body.descendantsOf .call, site.node = call.node := by
  unfold invocationSite? at hcall
  split at hcall
  · rename_i parent hparent
    split at hcall
    · rename_i hkind
      cases hcall
      have hlabel : parent.label = .construct .call := by
        simp only [Node.isKind, Bool.and_eq_true, decide_eq_true_eq] at hkind
        exact hkind.1
      obtain rfl | hbelow := Node.parent_of_mem_descendants haccess hparent
      · simp [Node.isKind, hlabel] at hbody
      · exact hbelow _ (decide_eq_true hlabel)
    · cases hcall
  · cases hcall

theorem Expr.ofNode_call {n : Node} (h : n.label = .construct .call) :
    ∃ callee, Expr.ofNode n = .call callee := by
  unfold Expr.ofNode
  rw [h]
  dsimp only
  split
  · exact ⟨_, rfl⟩
  · exact ⟨_, rfl⟩

variable {ws : Workspace} {scope : Scope}

/-- What a call stands for depends on the call alone. -/
theorem Scope.resolve_of_call {site site' : Site} (h : site.node = site'.node)
    (hcall : site.node.label = .construct .call) :
    scope.resolve ws site = scope.resolve ws site' := by
  obtain ⟨callee, hcallee⟩ := Expr.ofNode_call hcall
  unfold Scope.resolve
  rw [← h, hcallee]

/-- **Each call of a body is an invocation or the creation of an object.** -/
theorem mem_occurrences_of_call {d : Definition} {body : Node} (hbody : d.body? = some body)
    {invocations creations : List Site}
    (hinvocations : ws.occurrencesIn d .invocation = .ok invocations)
    (hcreations : ws.occurrencesIn d .objectCreation = .ok creations) {site : Site}
    (hsite : site ∈ body.descendantsOf .call) : site ∈ invocations ∨ site ∈ creations := by
  unfold occurrencesIn at hinvocations hcreations
  rw [hbody] at hinvocations hcreations
  obtain ⟨scope, hscope, hinvocations⟩ := ok_of_bind hinvocations
  obtain ⟨scope', hscope', hcreations⟩ := ok_of_bind hcreations
  cases hscope.symm.trans hscope'
  obtain ⟨wanted, hwanted, hfound⟩ := mem_filterM hinvocations hsite
  obtain ⟨wanted', hwanted', hfound'⟩ := mem_filterM hcreations hsite
  obtain ⟨creates, hcreates, hwanted⟩ := ok_of_bind hwanted
  obtain ⟨creates', hcreates', hwanted'⟩ := ok_of_bind hwanted'
  cases hcreates.symm.trans hcreates'
  cases hwanted
  cases hwanted'
  cases creates with
  | false => exact Or.inl (hfound rfl)
  | true => exact Or.inr (hfound' rfl)

end Workspace

end CallTree
