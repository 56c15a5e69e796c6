import CallTree.Proofs.DeadEnds
import CallTree.Proofs.DottedNames
import CallTree.Proofs.Loads
import Mathlib.Logic.Relation

/-!
# What `super()` sees

In a method, a member that the class does not declare can be written in two ways: as an attribute
of the receiver, and as an attribute of `super()`. The first is looked for among all ancestors of
the class. The second is looked for among those of one base only, the first whose name means a
type. So the two are the same thing as long as the first base has what is looked for, and a class
with a second base shows the difference: what only the second base declares is found by way of
the receiver and not by way of `super()`.

The ancestors of a class are those of its first base, and then what the other bases add
(`lineage_eq_append`). That is because nothing depends on what is listed already but which types
are passed over, and the class itself is never met again, unless it is among its own ancestors
(`IsCircular`). From there the difference can be told exactly: the two ways part if and only if
the first base and its ancestors do not declare the member while one of those that are added
does, or none declares it and the first external one is among those that are added.
-/

namespace CallTree.Workspace

open CallTree.Syntax (Site)

/-! ## Ancestors with one more in front -/

/-- One of the bases of a type is another one. -/
def Extends (ws : Workspace) (t u : TypeSymbol) : Prop :=
  t.isExternal = false ∧ ∃ name ∈ t.bases, ws.typeNamed t.homeModule (some name) = .ok (some u)

/-- **A class is among its own ancestors**, or at least one of its name is. -/
def IsCircular (ws : Workspace) (c : TypeSymbol) : Prop :=
  ∃ u, Relation.TransGen ws.Extends c u ∧ u.qualifiedName = c.qualifiedName

section Lineage

variable {ws : Workspace} {c t : TypeSymbol} {listed : List TypeSymbol} {level : Nat}

theorem any_cons_of_ne (h : t.qualifiedName ≠ c.qualifiedName) :
    (c :: listed).any (·.qualifiedName = t.qualifiedName)
      = listed.any (·.qualifiedName = t.qualifiedName) := by
  rw [List.any_cons, decide_eq_false (Ne.symm h), Bool.false_or]

theorem withType_cons (h : t.qualifiedName ≠ c.qualifiedName) :
    withType (c :: listed) t = c :: withType listed t := by
  unfold withType
  rw [any_cons_of_ne h]
  split <;> rfl

theorem isLeaf_cons (h : t.qualifiedName ≠ c.qualifiedName) :
    IsLeaf (c :: listed) t ↔ IsLeaf listed t := by
  unfold IsLeaf
  rw [any_cons_of_ne h]

/-- What a name means with fewer levels it means in the workspace. -/
theorem typeNamed_of_typeNamedWith (hlevel : level ≤ mostLevels) {moduleName : String}
    {name : Option String} {found : Option TypeSymbol}
    (h : typeNamedWith ws (memberWithin ws level) moduleName name = .ok found) :
    ws.typeNamed moduleName name = .ok found := by
  have hdeclared := List.Subset.refl ws.declared
  exact (posed_typeNamed hdeclared moduleName name).upholds
    (reliable_memberWithin hdeclared level) (memberWithin_mono hdeclared hlevel) found h

/-- **A type that is never met makes no difference** when it stands in front of those that are
listed. -/
theorem lineageFrom_cons (hlevel : level ≤ mostLevels)
    (h : ∀ u, Relation.ReflTransGen ws.Extends t u → u.qualifiedName ≠ c.qualifiedName)
    (fuel : Nat) (listed : List TypeSymbol) :
    lineageFrom ws (memberWithin ws level) fuel t (c :: listed)
      = (lineageFrom ws (memberWithin ws level) fuel t listed).map (c :: ·) := by
  induction fuel generalizing t listed with
  | zero =>
    rw [lineageFrom_zero, lineageFrom_zero, withType_cons (h t .refl)]
    rfl
  | succ fuel ih =>
    by_cases hleaf : IsLeaf listed t
    · rw [lineageFrom_of_isLeaf hleaf, lineageFrom_of_isLeaf ((isLeaf_cons (h t .refl)).mpr hleaf),
        withType_cons (h t .refl)]
      rfl
    · rw [lineageFrom_succ hleaf, lineageFrom_succ (mt (isLeaf_cons (h t .refl)).mp hleaf),
        List.cons_append]
      refine foldlM_hom (c :: ·) (fun name hname listed' => ?_) _
      unfold baseFrom
      rcases hfound : typeNamedWith ws (memberWithin ws level) t.homeModule (some name) with
        e | (_ | base)
      · rfl
      · rfl
      · have hexternal : t.isExternal = false := by
          simpa using (not_or.mp hleaf).2
        have hbase : ws.Extends t base :=
          ⟨hexternal, name, hname, typeNamed_of_typeNamedWith hlevel hfound⟩
        exact ih (fun u hu => h u (hu.head hbase)) listed'

end Lineage

/-! ## The first base -/

/-- The ancestors of a base, if there is one. -/
def lineageOf (ws : Workspace) (base : Option TypeSymbol) : Except Fault (List TypeSymbol) :=
  match base with
  | none => .ok []
  | some t => ws.lineage t

section FirstBase

variable {ws : Workspace} {level fuel : Nat} {moduleName : String}

/-- Going through bases adds to what is listed. -/
theorem gives_foldlM_baseFrom (names : List String) (listed : List TypeSymbol) :
    Gives (names.foldlM (baseFrom ws (memberWithin ws level) fuel moduleName) listed)
      (listed <+: ·) := by
  refine .foldlM _ (List.prefix_refl _) fun listed' name _ hlisted' longer hlonger => ?_
  obtain ⟨base, -, hlonger⟩ := ok_of_bind hlonger
  cases base with
  | none =>
    cases hlonger
    exact hlisted'
  | some base =>
    obtain ⟨more, hmore⟩ := gives_lineageFrom fuel base listed' longer hlonger
    refine hlisted'.trans (List.IsPrefix.trans ?_ ⟨more, hmore⟩)
    unfold withType
    split
    · exact List.prefix_refl _
    · exact List.prefix_append _ _

/-- **Where bases are gone through, one is the first that means a type**: nothing was listed
before it, and it is listed with its ancestors before the others. -/
theorem first_of_foldlM (hlevel : level ≤ mostLevels) {names : List String}
    {listed lineage : List TypeSymbol}
    (h : names.foldlM (baseFrom ws (memberWithin ws level) fuel moduleName) listed = .ok lineage) :
    (Scope.superType.first ws moduleName names = .ok none ∧ lineage = listed)
      ∨ ∃ base own, Scope.superType.first ws moduleName names = .ok (some base)
        ∧ (∃ name ∈ names, ws.typeNamed moduleName (some name) = .ok (some base))
        ∧ lineageFrom ws (memberWithin ws level) fuel base listed = .ok own ∧ own <+: lineage := by
  induction names with
  | nil =>
    cases h
    exact Or.inl ⟨rfl, rfl⟩
  | cons name names ih =>
    rw [List.foldlM_cons] at h
    obtain ⟨next, hnext, h⟩ := ok_of_bind h
    obtain ⟨found, hfound, hnext⟩ := ok_of_bind hnext
    have hnamed := typeNamed_of_typeNamedWith hlevel hfound
    unfold Scope.superType.first
    rw [hnamed]
    cases found with
    | none =>
      cases hnext
      rcases ih h with hnone | ⟨base, own, hfirst, ⟨other, hother, hbase⟩, hown⟩
      · exact Or.inl hnone
      · exact Or.inr ⟨base, own, hfirst, ⟨other, List.mem_cons_of_mem _ hother, hbase⟩, hown⟩
    | some base =>
      exact Or.inr ⟨base, next, rfl, ⟨name, List.mem_cons_self, hnamed⟩, hnext,
        gives_foldlM_baseFrom names next lineage h⟩

/-- What is listed with fewer levels is listed in the workspace. -/
theorem lineage_of_lineageWith (hlevel : level ≤ mostLevels) {t : TypeSymbol}
    {lineage : List TypeSymbol} (h : lineageWith ws (memberWithin ws level) t = .ok lineage) :
    ws.lineage t = .ok lineage := by
  have hdeclared := List.Subset.refl ws.declared
  exact (posed_lineage hdeclared _ t []).upholds (reliable_memberWithin hdeclared level)
    (memberWithin_mono hdeclared hlevel) lineage h

/-- **The ancestors of a class are those of its first base, followed by others**, unless the class
is among them. -/
theorem lineage_eq_append (hws : ws.WellIndexed) (hlevel : level ≤ mostLevels) {c : TypeSymbol}
    (hc : c.isExternal = false) (hcircle : ¬ ws.IsCircular c) {lineage : List TypeSymbol}
    (h : lineageWith ws (memberWithin ws level) c = .ok lineage) :
    (Scope.superType.first ws c.homeModule c.bases = .ok none ∧ lineage = [c])
      ∨ ∃ base own rest, Scope.superType.first ws c.homeModule c.bases = .ok (some base)
        ∧ lineageWith ws (memberWithin ws level) base = .ok own
        ∧ lineage = c :: (own ++ rest) := by
  have hleaf : ¬ IsLeaf [] c := by
    rintro (hlisted | hexternal)
    · cases hlisted
    · rw [hc] at hexternal
      cases hexternal
  unfold lineageWith at h
  rw [lineageFrom_succ hleaf, List.nil_append] at h
  rcases first_of_foldlM hlevel h with hnone | ⟨base, own, hfirst, hnamed, hown, rest, hlineage⟩
  · exact Or.inl hnone
  · -- the class is not met again, so its base is gone through as if it were not there
    have hbase : ws.Extends c base := ⟨hc, hnamed⟩
    rw [lineageFrom_cons hlevel fun u hu heq => hcircle ⟨u, .head' hbase hu, heq⟩] at hown
    have hreliable : Reliable ws.declared (memberWithin ws level) :=
      reliable_memberWithin (List.Subset.refl _) level
    have henough := ws.unlisted_le ([] ++ [base])
    have hfuel : lineageFrom ws (memberWithin ws level) (ws.types.length + 1) base []
        = lineageWith ws (memberWithin ws level) base :=
      lineageFrom_of_enough hws hreliable (Or.inr (by omega)) (Or.inr (by omega))
    rw [hfuel] at hown
    cases hbaseLineage : lineageWith ws (memberWithin ws level) base with
    | error e =>
      rw [hbaseLineage] at hown
      cases hown
    | ok own' =>
      rw [hbaseLineage] at hown
      cases hown
      exact Or.inr ⟨base, own', rest, hfirst, hbaseLineage, hlineage.symm⟩

end FirstBase

/-! ## Members among some of the ancestors -/

/-- A type of the workspace declares a member under a name. -/
def Declares (ws : Workspace) (t : TypeSymbol) (name : String) : Prop :=
  t.isExternal = false ∧ ((ws.types.get? t.qualifiedName).bind (·.declares? name)).isSome = true

instance decidableDeclares (ws : Workspace) (t : TypeSymbol) (name : String) :
    Decidable (ws.Declares t name) :=
  inferInstanceAs (Decidable (_ ∧ _))

/-- **What some of the ancestors give is what all of them give**: one of the first declares the
member; or none of the others does, and there is an external one among the first or none among
the others. -/
def SameAmong (ws : Workspace) (own rest : List TypeSymbol) (name : String) : Prop :=
  (∃ t ∈ own, ws.Declares t name)
    ∨ (¬ ∃ t ∈ rest, ws.Declares t name)
      ∧ ((∃ t ∈ own, t.isExternal = true) ∨ ¬ ∃ t ∈ rest, t.isExternal = true)

instance decidableSameAmong (ws : Workspace) (own rest : List TypeSymbol) (name : String) :
    Decidable (ws.SameAmong own rest name) :=
  inferInstanceAs (Decidable (_ ∨ _))

section Members

variable {ws : Workspace}

/-- The first member that is declared. -/
def declaredAmong (ws : Workspace) (lineage : List TypeSymbol) (name : String) : Option Symbol :=
  (lineage.filter (!·.isExternal)).findSome? fun a =>
    (ws.types.get? a.qualifiedName).bind (·.declares? name)

/-- What is known of the member by the first external ancestor. -/
def externalAmong (lineage : List TypeSymbol) (name : String) : Option Symbol :=
  (lineage.find? (·.isExternal)).map fun a =>
    .method (externalMethod a.homeModule a.name name (a.qualifiedName ++ "." ++ name))

theorem memberAmong_eq (ws : Workspace) (lineage : List TypeSymbol) (name : String) :
    memberAmong ws lineage name = (declaredAmong ws lineage name).or (externalAmong lineage name) :=
  rfl

theorem declaredAmong_append (ws : Workspace) (own rest : List TypeSymbol) (name : String) :
    declaredAmong ws (own ++ rest) name
      = (declaredAmong ws own name).or (declaredAmong ws rest name) := by
  unfold declaredAmong
  rw [List.filter_append, List.findSome?_append]

theorem externalAmong_append (own rest : List TypeSymbol) (name : String) :
    externalAmong (own ++ rest) name = (externalAmong own name).or (externalAmong rest name) := by
  unfold externalAmong
  rw [List.find?_append]
  cases own.find? (·.isExternal) <;> rfl

theorem isSome_declaredAmong {lineage : List TypeSymbol} {name : String} :
    (declaredAmong ws lineage name).isSome = true ↔ ∃ t ∈ lineage, ws.Declares t name := by
  unfold declaredAmong Declares
  rw [List.findSome?_isSome_iff]
  simp only [List.mem_filter, Bool.not_eq_true', and_assoc]

theorem isSome_externalAmong {lineage : List TypeSymbol} (name : String) :
    (externalAmong lineage name).isSome = true ↔ ∃ t ∈ lineage, t.isExternal = true := by
  unfold externalAmong
  rw [Option.isSome_map, List.find?_isSome]

/-- What is declared is not external. -/
theorem declaredAmong_ne_externalAmong (hws : ws.Filed) (own : List TypeSymbol)
    {rest : List TypeSymbol} {name : String} {s : Symbol}
    (h : declaredAmong ws rest name = some s) : externalAmong own name ≠ some s := by
  intro hexternal
  obtain ⟨a, -, rfl⟩ := Option.map_eq_some_iff.mp hexternal
  obtain ⟨t, -, ht⟩ := List.exists_of_findSome?_eq_some h
  obtain ⟨index, hindex, hdeclares⟩ := Option.bind_eq_some_iff.mp ht
  have hfiled := Holds.filed hws (holds_declares? hindex hdeclares)
  cases hfiled.1

/-- **When some of the ancestors give what all of them give.** -/
theorem memberAmong_append_eq_iff (hws : ws.Filed) (own rest : List TypeSymbol) (name : String) :
    memberAmong ws own name = memberAmong ws (own ++ rest) name ↔ ws.SameAmong own rest name := by
  unfold SameAmong
  rw [← isSome_declaredAmong, ← isSome_declaredAmong, ← isSome_externalAmong name,
    ← isSome_externalAmong name, memberAmong_eq, memberAmong_eq, declaredAmong_append,
    externalAmong_append]
  cases hown : declaredAmong ws own name with
  | some s => simp
  | none =>
    cases hrest : declaredAmong ws rest name with
    | some s =>
      have hne := declaredAmong_ne_externalAmong hws own hrest
      simpa using hne
    | none =>
      cases externalAmong own name with
      | some s => simp
      | none => cases externalAmong rest name <;> simp

/-- A class of the workspace that does not declare a member leaves it to its ancestors. -/
theorem memberAmong_cons {c : TypeSymbol} (hc : c.isExternal = false) {name : String}
    (h : (ws.types.get? c.qualifiedName).bind (·.declares? name) = none)
    (ancestors : List TypeSymbol) :
    memberAmong ws (c :: ancestors) name = memberAmong ws ancestors name := by
  unfold memberAmong
  rw [List.filter_cons_of_pos (by rw [hc]; rfl), List.findSome?_cons, h,
    List.find?_cons_of_neg (by rw [hc]; exact Bool.false_ne_true)]

end Members

/-! ## The receiver and `super()` -/

section Resolving

variable {ws : Workspace} {scope : Scope} {c : TypeSymbol} {s n : String} {site : Site}

/-- An attribute of a type is its member. -/
theorem symbol?_attributeOf (ws : Workspace) (t : TypeSymbol) (name : String) :
    (do return (← ws.attributeOf (some (.symbol (.type t))) name).bind Referent.symbol?)
      = ws.member t name := by
  show ((ws.member t name).map (·.map Referent.symbol)) >>= _ = _
  cases ws.member t name with
  | error e => rfl
  | ok found => cases found <;> rfl

/-- **An attribute of the receiver** is a member of the class. -/
theorem Scope.resolve_receiver (hc : scope.enclosing = some c) (hs : scope.receiver = some s)
    (hsite : Expr.ofNode site.node = .access (.name s) n) :
    scope.resolve ws site = ws.member c n := by
  have hreceiver : scope.receiverOf ws (.name s) = .ok (some (.symbol (.type c))) := by
    rw [receiverOf, if_pos hs, hc]
    rfl
  unfold resolve accessed
  rw [hsite]
  dsimp only
  rw [hreceiver]
  exact symbol?_attributeOf ws c n

/-- **An attribute of `super()`** is a member of the first base. -/
theorem Scope.resolve_super {base : Option TypeSymbol} (hbase : scope.superType ws = .ok base)
    (hsite : Expr.ofNode site.node = .access (.call (.name "super")) n) :
    scope.resolve ws site = (match base with
      | none => .ok none
      | some t => ws.member t n) := by
  have hreceiver : scope.receiverOf ws (.call (.name "super"))
      = .ok (base.map fun t => .symbol (.type t)) := by
    rw [receiverOf, hbase]
    rfl
  unfold resolve accessed
  rw [hsite]
  dsimp only
  rw [hreceiver]
  cases base with
  | none => rfl
  | some t => exact symbol?_attributeOf ws t n

/-- A member is found once the ancestors are listed with one level less. -/
theorem lineageWith_of_member {t : TypeSymbol} {name : String} {found : Option Symbol}
    (h : ws.member t name = .ok found) :
    ∃ lineage, lineageWith ws (memberWithin ws (mostLevels - 1)) t = .ok lineage
      ∧ found = memberAmong ws lineage name := by
  obtain ⟨lineage, hlineage, h⟩ :=
    ok_of_bind ((memberWithin_succ (mostLevels - 1) t name).symm.trans h)
  exact ⟨lineage, hlineage, (Except.ok.inj h).symm⟩

theorem member_of_lineageWith {t : TypeSymbol} {lineage : List TypeSymbol}
    (h : lineageWith ws (memberWithin ws (mostLevels - 1)) t = .ok lineage) (name : String) :
    ws.member t name = .ok (memberAmong ws lineage name) := by
  refine (memberWithin_succ (mostLevels - 1) t name).trans ?_
  rw [h]
  rfl

end Resolving

/-- **What `super()` sees of what the receiver sees.** Take a method of a class, and a member that
the class does not declare and that is found by way of the receiver. If the class is its own first
base, the same is found by way of `super()`. Otherwise, if the class is not among its own
ancestors, these are the ancestors of the first base followed by others, and the same is found by
way of `super()` exactly if the others make no difference. -/
theorem super_sees_first_base (ws : Workspace) (d : Definition) (scope : Scope) (c : TypeSymbol)
    (s n : String) (selfSite superSite : Site) (found : Option Symbol)
    (hws : Loaded ws) (hd : d ∈ ws.definitions.values) (hscope : scopeFor ws d = .ok scope)
    (hc : d.enclosing = some c) (hs : scope.receiver = some s)
    (hself : Expr.ofNode selfSite.node = .access (.name s) n)
    (hsuper : Expr.ofNode superSite.node = .access (.call (.name "super")) n)
    (hn : (ws.types.get? c.qualifiedName).bind (·.declares? n) = none)
    (hfound : scope.resolve ws selfSite = .ok found) :
    (scope.superType ws = .ok (some c) → scope.resolve ws superSite = .ok found)
      ∧ (¬ ws.IsCircular c → ∃ base own rest found', scope.superType ws = .ok base
        ∧ ws.lineageOf base = .ok own ∧ ws.lineage c = .ok (c :: (own ++ rest))
        ∧ (base = none → rest = []) ∧ scope.resolve ws superSite = .ok found'
        ∧ (found' = found ↔ ws.SameAmong own rest n)) := by
  have henclosing : scope.enclosing = some c := (gives_scopeFor d scope hscope).trans hc
  have hexternal : c.isExternal = false := (hws.filed.enclosing d hd c hc).1
  rw [Scope.resolve_receiver henclosing hs hself] at hfound
  refine ⟨fun hbase => (Scope.resolve_super hbase hsuper).trans hfound, fun hcircle => ?_⟩
  have hfirst : scope.superType ws = Scope.superType.first ws c.homeModule c.bases := by
    unfold Scope.superType
    rw [henclosing]
  obtain ⟨lineage, hlineage, rfl⟩ := lineageWith_of_member hfound
  have hall := lineage_of_lineageWith (by decide) hlineage
  rcases lineage_eq_append hws.wellIndexed (by decide) hexternal hcircle hlineage with
    ⟨hnone, rfl⟩ | ⟨base, own, rest, hbase, hown, rfl⟩
  · refine ⟨none, [], [], none, hfirst.trans hnone, rfl, hall, fun _ => rfl,
      Scope.resolve_super (hfirst.trans hnone) hsuper, ?_⟩
    rw [memberAmong_cons hexternal hn]
    exact memberAmong_append_eq_iff hws.filed [] [] n
  · refine ⟨some base, own, rest, memberAmong ws own n, hfirst.trans hbase,
      lineage_of_lineageWith (by decide) hown, hall,
      fun h => absurd h (Option.some_ne_none base), ?_, ?_⟩
    · exact (Scope.resolve_super (hfirst.trans hbase) hsuper).trans (member_of_lineageWith hown n)
    · rw [memberAmong_cons hexternal hn]
      exact memberAmong_append_eq_iff hws.filed own rest n

/-! ## Two classes with more than one base -/

/-- The accesses in a definition to a member of an object. -/
def Definition.accessesTo (d : Definition) (object : Expr) (member : String) : List Site :=
  match d.body? with
  | some body =>
    (body.descendantsOf .attributeAccess).filter fun site =>
      Expr.ofNode site.node = .access object member
  | none => []

/-- The type that a name means, if any. -/
def typeNamed? (ws : Workspace) (moduleName name : String) : Option TypeSymbol :=
  (ws.typeNamed moduleName (some name)).toOption.join

/-- A class is not among its own ancestors if the bases never lead out of a list of other
classes. -/
theorem not_isCircular {ws : Workspace} {c : TypeSymbol} (types : List TypeSymbol)
    (hclosed : ∀ t ∈ c :: types, ∀ name ∈ t.bases, ∀ u ∈ ws.typeNamed? t.homeModule name, u ∈ types)
    (hother : ∀ u ∈ types, u.qualifiedName ≠ c.qualifiedName) : ¬ ws.IsCircular c := by
  rintro ⟨u, hreach, heq⟩
  have hmem : ∀ u, Relation.TransGen ws.Extends c u → u ∈ types := by
    have hstep : ∀ t ∈ c :: types, ∀ u, ws.Extends t u → u ∈ types := by
      rintro t ht u ⟨-, name, hname, hu⟩
      refine hclosed t ht name hname u ?_
      unfold typeNamed?
      rw [hu]
      rfl
    intro u hreach
    induction hreach with
    | single h => exact hstep c List.mem_cons_self _ h
    | tail _ h ih => exact hstep _ (List.mem_cons_of_mem _ ih) _ h
  exact hother u (hmem u hreach) heq

theorem scopeFor_of_scopeAt? {ws : Workspace} {qualifiedName : String} {d : Definition}
    {scope : Scope} (hd : ws.definitions.get? qualifiedName = some d)
    (h : ws.scopeAt? qualifiedName = some scope) : scopeFor ws d = .ok scope := by
  unfold scopeAt? at h
  rw [hd] at h
  exact ok_of_toOption h

/-- The method that is defined under a qualified name. -/
def methodNamed (ws : Workspace) (qualifiedName : String) : Symbol :=
  .method (((ws.definitions.get? qualifiedName).map (·.symbol)).getD default)

/-- A class with a base that means nothing, one with an ancestor, a second one, and an external
one. -/
def mixins : Workspace :=
  ofSources [("m.py", "import x\nclass A:\n def go(self): 0\nclass B(A): 0\n"
    ++ "class C:\n def stop(self): 0\nclass D(No, B, C, x.E):\n def run(self):\n"
    ++ "  super().go\n  self.go\n  super().stop\n  self.stop\n")]

/-- The base outside the workspace. -/
def outsider : TypeSymbol where
  name := "E"
  qualifiedName := "x.E"
  homeModule := "x"
  isExternal := true

theorem super_sees_first_base_mixins :
    ∃ d ∈ mixins.definitions.get? "m.D.run", ∃ scope ∈ mixins.scopeAt? "m.D.run",
      ¬ mixins.IsCircular (classNamed mixins "m.D")
        ∧ (∃ selfSite ∈ d.accessesTo (.name "self") "go",
            ∃ superSite ∈ d.accessesTo (.call (.name "super")) "go",
              scope.resolve mixins selfSite = .ok (some (methodNamed mixins "m.A.go"))
                ∧ scope.resolve mixins superSite = .ok (some (methodNamed mixins "m.A.go")))
        ∧ ∃ selfSite ∈ d.accessesTo (.name "self") "stop",
            ∃ superSite ∈ d.accessesTo (.call (.name "super")) "stop",
              scope.resolve mixins selfSite = .ok (some (methodNamed mixins "m.C.stop"))
                ∧ scope.resolve mixins superSite ≠ .ok (some (methodNamed mixins "m.C.stop")) := by
  have hsites : ∃ d ∈ mixins.definitions.get? "m.D.run", ∃ scope ∈ mixins.scopeAt? "m.D.run",
      d.enclosing = some (classNamed mixins "m.D") ∧ scope.receiver = some "self"
        ∧ scope.superType mixins = .ok (some (classNamed mixins "m.B"))
        ∧ (∃ selfSite ∈ d.accessesTo (.name "self") "go",
            ∃ superSite ∈ d.accessesTo (.call (.name "super")) "go",
              Expr.ofNode selfSite.node = .access (.name "self") "go"
                ∧ Expr.ofNode superSite.node = .access (.call (.name "super")) "go"
                ∧ scope.resolve mixins selfSite = .ok (some (methodNamed mixins "m.A.go")))
        ∧ ∃ selfSite ∈ d.accessesTo (.name "self") "stop",
            ∃ superSite ∈ d.accessesTo (.call (.name "super")) "stop",
              Expr.ofNode selfSite.node = .access (.name "self") "stop"
                ∧ Expr.ofNode superSite.node = .access (.call (.name "super")) "stop"
                ∧ scope.resolve mixins selfSite = .ok (some (methodNamed mixins "m.C.stop")) := by
    decide +kernel
  have htypes : mixins.lineageOf (some (classNamed mixins "m.B"))
        = .ok [classNamed mixins "m.B", classNamed mixins "m.A"]
      ∧ mixins.lineage (classNamed mixins "m.D")
        = .ok (classNamed mixins "m.D" :: ([classNamed mixins "m.B", classNamed mixins "m.A"]
          ++ [classNamed mixins "m.C", outsider]))
      ∧ (∀ t ∈ [classNamed mixins "m.D", classNamed mixins "m.B", classNamed mixins "m.A",
          classNamed mixins "m.C", outsider], ∀ name ∈ t.bases,
        ∀ u ∈ mixins.typeNamed? t.homeModule name, u ∈ [classNamed mixins "m.B",
          classNamed mixins "m.A", classNamed mixins "m.C", outsider])
      ∧ (∀ u ∈ [classNamed mixins "m.B", classNamed mixins "m.A", classNamed mixins "m.C",
        outsider], u.qualifiedName ≠ (classNamed mixins "m.D").qualifiedName)
      ∧ (mixins.types.get? (classNamed mixins "m.D").qualifiedName).bind (·.declares? "go") = none
      ∧ (mixins.types.get? (classNamed mixins "m.D").qualifiedName).bind (·.declares? "stop") = none
      ∧ mixins.SameAmong [classNamed mixins "m.B", classNamed mixins "m.A"]
        [classNamed mixins "m.C", outsider] "go"
      ∧ ¬ mixins.SameAmong [classNamed mixins "m.B", classNamed mixins "m.A"]
        [classNamed mixins "m.C", outsider] "stop" := by
    decide +kernel
  have hloaded : Loaded mixins := loaded_ofSources _
  -- from here on the workspace is not looked into
  generalize mixins = ws at *
  obtain ⟨hown, hall, hclosed, hother, hn, hn', hsame, hdiffer⟩ := htypes
  obtain ⟨d, hd, scope, hscope, hc, hs, hbase, ⟨go, hgo, superGo, hsuperGo, hgoExpr, hsuperGoExpr,
    hgoFound⟩, stop, hstop, superStop, hsuperStop, hstopExpr, hsuperStopExpr, hstopFound⟩ := hsites
  have hcircle := not_isCircular _ hclosed hother
  have hvalues : d ∈ ws.definitions.values := Data.Table.mem_values_of_get? hd
  have hfor : scopeFor ws d = .ok scope := scopeFor_of_scopeAt? hd hscope
  refine ⟨d, hd, scope, hscope, hcircle, ⟨go, hgo, superGo, hsuperGo, hgoFound, ?_⟩,
    ⟨stop, hstop, superStop, hsuperStop, hstopFound, ?_⟩⟩
  · obtain ⟨base, own, rest, found, hbase', hown', hall', -, hfound, hiff⟩ :=
      (super_sees_first_base ws d scope _ "self" "go" go superGo _ hloaded hvalues hfor hc hs
        hgoExpr hsuperGoExpr hn hgoFound).2 hcircle
    obtain rfl := Except.ok.inj (hbase'.symm.trans hbase)
    obtain rfl := Except.ok.inj (hown'.symm.trans hown)
    obtain rfl := List.append_cancel_left (List.cons.inj (Except.ok.inj (hall'.symm.trans hall))).2
    rw [hfound, hiff.mpr hsame]
  · obtain ⟨base, own, rest, found, hbase', hown', hall', -, hfound, hiff⟩ :=
      (super_sees_first_base ws d scope _ "self" "stop" stop superStop _ hloaded hvalues hfor hc hs
        hstopExpr hsuperStopExpr hn' hstopFound).2 hcircle
    obtain rfl := Except.ok.inj (hbase'.symm.trans hbase)
    obtain rfl := Except.ok.inj (hown'.symm.trans hown)
    obtain rfl := List.append_cancel_left (List.cons.inj (Except.ok.inj (hall'.symm.trans hall))).2
    rw [hfound]
    exact fun heq => hdiffer (hiff.mp (Except.ok.inj heq))

/-- A class whose second base declares what its first base does not. -/
def twoBases : Workspace :=
  ofSources [("m.py", "class A:\n    pass\n\n\nclass B:\n    def go(self):\n        pass\n\n\n"
    ++ "class C(A, B):\n    def run(self):\n        super().go()\n        self.go()\n")]

/-- **Where the two ways part**: the receiver has the method of the second base, and `super()` has
nothing. -/
theorem super_misses_second_base :
    (twoBases.types.get? "m.C").bind (·.declares? "go") = none
      ∧ ∃ d ∈ twoBases.definitions.get? "m.C.run", ∃ scope ∈ twoBases.scopeAt? "m.C.run",
        d.enclosing = some (classNamed twoBases "m.C") ∧ scope.receiver = some "self"
          ∧ (∃ site ∈ d.accessesTo (.name "self") "go",
            scope.resolve twoBases site = .ok (some (methodNamed twoBases "m.B.go")))
          ∧ ∃ site ∈ d.accessesTo (.call (.name "super")) "go",
            scope.resolve twoBases site = .ok none := by
  decide +kernel

end CallTree.Workspace
