import CallTree.Entry
import Mathlib.Data.List.Basic

/-!
# Looking for an entry, and listing the entries there are

The search for an entry has two modes. Asked for an action it looks for the method of that name,
and asked for none it lists the methods that look like actions. Both modes first choose the
controller, and they choose it in the same way, so they fail together where there is none
(`resolve_of_no_controller`) and speak of the same type where there is one (`resolve_of_isFirst`).

The modes filter the members of that type differently. A method is found by its name alone, in any
case, whether or not it could be listed; a method is listed if it is public, bound to an instance,
no constructor and looks like an action. So asking for the name of a method that is listed finds
some method of that name, which may be another one: the first of them, and it stands no later among
the members.

The empty name is the name of no action, and no name is empty in lower case only
(`lower_eq_empty_iff`).
-/

namespace CallTree

open CallTree.Text (lower)

/-! ## Names in lower case -/

namespace Text

theorem shiftedChar_ne_nil (table : List CaseTable.Shift) (c : Char) :
    shiftedChar table c ≠ [] := by
  unfold shiftedChar CaseTable.shifted
  cases table.find? (·.run.holds c.toNat) <;> exact List.cons_ne_nil _ _

theorem lowerAfter_eq_nil_iff {before cs : List Char} : lowerAfter before cs = [] ↔ cs = [] := by
  cases cs with
  | nil => exact ⟨fun _ => rfl, fun _ => rfl⟩
  | cons c cs =>
    refine ⟨fun h => absurd (List.append_eq_nil_iff.mp h).1 ?_, fun h => nomatch h⟩
    split
    · split <;> exact List.cons_ne_nil _ _
    · split
      · exact List.cons_ne_nil _ _
      · exact shiftedChar_ne_nil _ c

/-- Only the empty text is empty in lower case. -/
theorem lower_eq_empty_iff {text : String} : lower text = "" ↔ text = "" := by
  rw [lower, ← String.ofList_nil, String.ofList_inj, lowerAfter_eq_nil_iff, String.ofList_nil,
    String.toList_eq_nil_iff]

end Text

namespace Entry

/-! ## What is asked for -/

/-- **A type that is asked for**: its name is the hint, or the hint with the customary ending, in
any case, and it is taken for a controller. -/
structure IsAskedFor (h : Heuristics) (hint : String) (t : TypeSymbol) : Prop where
  named : lower t.name = lower hint ∨ lower t.name = lower (hint ++ h.suffix)
  isController : h.isController t = true

/-- **A method that can be begun with.** -/
structure CanBegin (h : Heuristics) (m : MethodSymbol) : Prop where
  isPublic : m.accessibility = .published
  binds : m.isStatic = false
  notConstructor : m.kind ≠ .constructor
  isAction : h.isAction m = true

/-- A member that can be begun with, which is a method. -/
def Offers (h : Heuristics) : Symbol → Prop
  | .method m => CanBegin h m
  | _ => False

/-- **The first item of a list that has a property.** -/
def IsFirst {α : Type} (P : α → Prop) (l : List α) (a : α) : Prop :=
  ∃ before after, l = before ++ a :: after ∧ P a ∧ ∀ b ∈ before, ¬ P b

variable {h : Heuristics} {types : List TypeSymbol}
  {members : TypeSymbol → Except Fault (List Symbol)} {hint name : String}
  {action : Option String} {t : TypeSymbol} {known : List Symbol}

theorem fits_iff : fits h hint t = true ↔ IsAskedFor h hint t := by
  simp only [fits, Bool.and_eq_true, Bool.or_eq_true, decide_eq_true_eq]
  exact ⟨fun ⟨hnamed, hcontroller⟩ => ⟨hnamed, hcontroller⟩, fun ⟨hnamed, hcontroller⟩ =>
    ⟨hnamed, hcontroller⟩⟩

theorem isCandidate_iff {m : MethodSymbol} : isCandidate h m = true ↔ CanBegin h m := by
  simp only [isCandidate, Bool.and_eq_true, Bool.not_eq_true', decide_eq_true_eq, ne_eq]
  exact ⟨fun ⟨⟨⟨hpublic, hbinds⟩, hkind⟩, haction⟩ => ⟨hpublic, hbinds, hkind, haction⟩,
    fun ⟨hpublic, hbinds, hkind, haction⟩ => ⟨⟨⟨hpublic, hbinds⟩, hkind⟩, haction⟩⟩

instance (h : Heuristics) (s : Symbol) : Decidable (Offers h s) :=
  match s with
  | .method _ => decidable_of_iff _ isCandidate_iff
  | .type _ | .field _ | .property _ => isFalse id

theorem isFirst_iff_find? {α : Type} {P : α → Prop} {p : α → Bool} (hp : ∀ a, p a = true ↔ P a)
    {l : List α} {a : α} : IsFirst P l a ↔ l.find? p = some a := by
  simp only [List.find?_eq_some_iff_append, IsFirst, ← hp, Bool.not_eq_true', Bool.not_eq_true]
  exact ⟨fun ⟨before, after, hl, ha, hbefore⟩ => ⟨ha, before, after, hl, hbefore⟩,
    fun ⟨ha, before, after, hl, hbefore⟩ => ⟨before, after, hl, ha, hbefore⟩⟩

/-! ## The controller -/

/-- Where no type is asked for, there is no entry in either mode. -/
theorem resolve_of_no_controller (hnone : ∀ t ∈ types, ¬ IsAskedFor h hint t) :
    resolve h types members hint action = .error (.noType hint) := by
  have hfind : types.find? (fits h hint) = none :=
    List.find?_eq_none.mpr fun t ht hfits => hnone t ht (fits_iff.mp hfits)
  rw [resolve, controller, hfind]
  rfl

/-- What is done with the members of the controller. -/
def resolveIn (h : Heuristics) (hint : String) (action : Option String) (t : TypeSymbol)
    (known : List Symbol) : Except Refusal Resolution :=
  match action with
  | none => .ok (.discovery t (candidates h known))
  | some name =>
    if name.isEmpty then .ok (.discovery t (candidates h known))
    else
      match methodNamed? known name with
      | some m => .ok (.action t m)
      | none => .error (.noMethod (if hint.isEmpty then t.name else hint) name)

/-- **Both modes take the first type that is asked for**, and look at its members. -/
theorem resolve_of_isFirst (hfirst : IsFirst (IsAskedFor h hint) types t) :
    resolve h types members hint action
      = (members t).mapError Refusal.fault >>= resolveIn h hint action t := by
  rw [resolve, controller, (isFirst_iff_find? fun _ => fits_iff).mp hfirst]
  rfl

/-- Where there are members to look at, what is looked for is a type no longer. -/
theorem resolveIn_ne_noType {label : String} :
    resolveIn h hint action t known ≠ .error (.noType label) := by
  unfold resolveIn
  split
  · exact nofun
  · split
    · exact nofun
    · split <;> exact nofun

theorem resolve_eq_noType_iff :
    (∃ label, resolve h types members hint action = .error (.noType label))
      ↔ ∀ t ∈ types, ¬ IsAskedFor h hint t := by
  refine ⟨fun ⟨label, hlabel⟩ => ?_, fun hnone => ⟨hint, resolve_of_no_controller hnone⟩⟩
  by_contra hsome
  have hfind : types.find? (fits h hint) ≠ none := fun hfind =>
    hsome fun t ht hasked => List.find?_eq_none.mp hfind t ht (fits_iff.mpr hasked)
  obtain ⟨t, ht⟩ := Option.ne_none_iff_exists'.mp hfind
  rw [resolve_of_isFirst ((isFirst_iff_find? fun _ => fits_iff).mpr ht)] at hlabel
  cases hmembers : members t with
  | error fault =>
    rw [hmembers] at hlabel
    cases hlabel
  | ok known =>
    rw [hmembers] at hlabel
    exact resolveIn_ne_noType hlabel

/-! ## The members -/

/-- The methods that are listed are the members that can be begun with, in their order. -/
theorem map_method_candidates (known : List Symbol) :
    (candidates h known).map Symbol.method = known.filter fun s => decide (Offers h s) := by
  induction known with
  | nil => rfl
  | cons s known ih =>
    cases s with
    | method m =>
      have hoffers : decide (Offers h (.method m)) = isCandidate h m :=
        Bool.eq_iff_iff.mpr (decide_eq_true_iff.trans isCandidate_iff.symm)
      rw [List.filter_cons, hoffers, ← ih]
      cases hm : isCandidate h m <;> simp [candidates, Symbol.method?, hm]
    | type t => exact ih
    | field s => exact ih
    | property s => exact ih

theorem mem_of_mem_candidates {m : MethodSymbol} (hm : m ∈ candidates h known) :
    Symbol.method m ∈ known := by
  have hmem : Symbol.method m ∈ (candidates h known).map Symbol.method :=
    List.mem_map.mpr ⟨m, hm, rfl⟩
  rw [map_method_candidates] at hmem
  exact (List.mem_filter.mp hmem).1

/-- No method has a name exactly if none is found. -/
theorem methodNamed?_eq_none_iff :
    methodNamed? known name = none ↔ ∀ m, Symbol.method m ∈ known → lower m.name ≠ lower name := by
  have hmem (m : MethodSymbol) : m ∈ known.filterMap Symbol.method? ↔ Symbol.method m ∈ known := by
    rw [List.mem_filterMap]
    refine ⟨?_, fun hm => ⟨_, hm, rfl⟩⟩
    rintro ⟨s, hs, heq⟩
    cases s with
    | method m' => exact Option.some.inj heq ▸ hs
    | _ => cases heq
  rw [methodNamed?, List.find?_eq_none]
  simp only [hmem, decide_eq_true_eq, ne_eq]

/-- **The method that is found comes first**: it has the name, and stands no later among the members
than any method that has it. -/
theorem methodNamed?_le {m c : MethodSymbol} (hm : methodNamed? known name = some m)
    (hc : lower c.name = lower name) {i : Nat} (hi : known[i]? = some (.method c)) :
    lower m.name = lower name ∧ ∃ j ≤ i, known[j]? = some (.method m) := by
  induction known generalizing i with
  | nil => cases hi
  | cons s known ih =>
    have hlater (hrest : methodNamed? known name = some m) (hs : s ≠ .method c) :
        lower m.name = lower name ∧ ∃ j ≤ i, (s :: known)[j]? = some (.method m) := by
      cases i with
      | zero => exact absurd (Option.some.inj hi) hs
      | succ i =>
        obtain ⟨hname, j, hj, hm⟩ := ih hrest hi
        exact ⟨hname, j + 1, Nat.succ_le_succ hj, hm⟩
    cases s with
    | type t => exact hlater hm nofun
    | field s => exact hlater hm nofun
    | property s => exact hlater hm nofun
    | method m' =>
      by_cases hname : lower m'.name = lower name
      · have heq : m' = m := by simpa [methodNamed?, Symbol.method?, hname] using hm
        exact ⟨heq ▸ hname, 0, Nat.zero_le i, by rw [heq]; rfl⟩
      · refine hlater (by simpa [methodNamed?, Symbol.method?, hname] using hm) fun heq => ?_
        cases heq
        exact hname hc

/-! ## The two modes -/

/-- **The search for an action and the listing of actions agree.** There is no type to begin with in
one mode exactly if there is none in the other, which is when no type is asked for; otherwise both
take the first that is. What is listed are the members of that type that can be begun with, in
their order. Asking for the name of one of them, in any case, finds a method of this name, which is
that one or stands before it; so does asking for the name of a method that is not listed. And a
name is refused exactly if no method has it. -/
theorem resolution_agrees_with_discovery (h : Heuristics) (types : List TypeSymbol)
    (members : TypeSymbol → Except Fault (List Symbol)) (hint : String) :
    (∀ action, (∃ label, resolve h types members hint action = .error (.noType label))
        ↔ ∀ t ∈ types, ¬ IsAskedFor h hint t)
      ∧ ((∃ t ∈ types, IsAskedFor h hint t) ↔ ∃ t, IsFirst (IsAskedFor h hint) types t)
      ∧ ∀ t, IsFirst (IsAskedFor h hint) types t →
        (∀ fault, members t = .error fault →
          ∀ action, resolve h types members hint action = .error (.fault fault))
        ∧ ∀ known, members t = .ok known →
          ∃ listed : List MethodSymbol,
            (∀ action, action = none ∨ action = some "" →
              resolve h types members hint action = .ok (.discovery t listed))
            ∧ listed.map Symbol.method = known.filter (fun s => decide (Offers h s))
            ∧ (∀ c ∈ listed, c.name ≠ "" → ∀ name, lower name = lower c.name →
              ∃ m, resolve h types members hint (some name) = .ok (.action t m)
                ∧ lower m.name = lower c.name
                ∧ ∀ i : Nat, known[i]? = some (Symbol.method c) →
                  ∃ j ≤ i, known[j]? = some (Symbol.method m))
            ∧ (∀ c, Symbol.method c ∈ known → ∀ name, name ≠ "" → lower name = lower c.name →
              ∃ m, resolve h types members hint (some name) = .ok (.action t m)
                ∧ lower m.name = lower c.name
                ∧ ∀ i : Nat, known[i]? = some (Symbol.method c) →
                  ∃ j ≤ i, known[j]? = some (Symbol.method m))
            ∧ (∀ name, name ≠ "" →
              ((∃ label refused,
                  resolve h types members hint (some name) = .error (.noMethod label refused))
                ↔ ∀ m, Symbol.method m ∈ known → lower m.name ≠ lower name)) := by
  refine ⟨fun action => resolve_eq_noType_iff, ⟨?_, ?_⟩, fun t hfirst => ⟨?_, ?_⟩⟩
  · rintro ⟨t, ht, hasked⟩
    have hfind : (types.find? (fits h hint)).isSome :=
      List.find?_isSome.mpr ⟨t, ht, fits_iff.mpr hasked⟩
    obtain ⟨first, hsome⟩ := Option.isSome_iff_exists.mp hfind
    exact ⟨first, (isFirst_iff_find? fun _ => fits_iff).mpr hsome⟩
  · rintro ⟨t, before, after, rfl, hasked, -⟩
    exact ⟨t, by simp, hasked⟩
  · intro fault hfault action
    rw [resolve_of_isFirst hfirst, hfault]
    rfl
  · intro known hknown
    have hresolve (action : Option String) :
        resolve h types members hint action = resolveIn h hint action t known := by
      rw [resolve_of_isFirst hfirst, hknown]
      rfl
    have hnamed {name : String} (hname : name ≠ "") :
        resolve h types members hint (some name)
          = match methodNamed? known name with
            | some m => .ok (.action t m)
            | none => .error (.noMethod (if hint.isEmpty then t.name else hint) name) := by
      rw [hresolve]
      exact if_neg (by simpa using hname)
    have hfinds (c : MethodSymbol) (hc : Symbol.method c ∈ known) (name : String)
        (hne : name ≠ "") (hname : lower name = lower c.name) :
        ∃ m, resolve h types members hint (some name) = .ok (.action t m)
          ∧ lower m.name = lower c.name
          ∧ ∀ i : Nat, known[i]? = some (Symbol.method c) →
            ∃ j ≤ i, known[j]? = some (Symbol.method m) := by
      have hfound : methodNamed? known name ≠ none := fun hnone =>
        methodNamed?_eq_none_iff.mp hnone c hc hname.symm
      obtain ⟨m, hm⟩ := Option.ne_none_iff_exists'.mp hfound
      obtain ⟨i, hi⟩ := List.getElem?_of_mem hc
      refine ⟨m, by rw [hnamed hne, hm], ?_, fun i hi => ?_⟩
      · exact (methodNamed?_le hm hname.symm hi).1.trans hname
      · exact (methodNamed?_le hm hname.symm hi).2
    refine ⟨candidates h known, ?_, map_method_candidates known, ?_, hfinds, ?_⟩
    · rintro action (rfl | rfl)
      · exact hresolve none
      · exact hresolve (some "")
    · intro c hc hempty name hname
      refine hfinds c (mem_of_mem_candidates hc) name (fun heq => hempty ?_) hname
      exact Text.lower_eq_empty_iff.mp (hname.symm.trans (Text.lower_eq_empty_iff.mpr heq))
    · intro name hname
      rw [← methodNamed?_eq_none_iff, hnamed hname]
      cases methodNamed? known name with
      | none => exact ⟨fun _ => rfl, fun _ => ⟨_, _, rfl⟩⟩
      | some m => exact iff_of_false (fun ⟨_, _, heq⟩ => by cases heq) (Option.some_ne_none m)

/-- Two controllers of one name but for its case, of which the first is taken; and in it two methods
of one name but for its case, of which only the second can be listed. Asking for its name finds it,
or the one before it. -/
theorem resolution_agrees_with_discovery_namesakes :
    let static : MethodSymbol :=
      { name := "Show", qualifiedName := "a.UserController.Show", isStatic := true,
        decorators := ["app.route"] }
    let bound : MethodSymbol :=
      { name := "show", qualifiedName := "a.UserController.show", decorators := ["app.route"] }
    let first : TypeSymbol := { name := "UserController", qualifiedName := "a.UserController" }
    let second : TypeSymbol := { name := "USERController", qualifiedName := "b.USERController" }
    let known : List Symbol := [.method static, .method bound]
    let h : Heuristics := .customary
    IsFirst (IsAskedFor h "user") [first, second] first
      ∧ resolve h [first, second] (fun _ => .ok known) "user" none = .ok (.discovery first [bound])
      ∧ ∃ m, resolve h [first, second] (fun _ => .ok known) "user" (some "SHOW")
          = .ok (.action first m)
        ∧ lower m.name = lower "show"
        ∧ ∃ j ≤ 1, known[j]? = some (Symbol.method m) := by
  intro static bound first second known h
  have hfirst : IsFirst (IsAskedFor h "user") [first, second] first :=
    (isFirst_iff_find? fun _ => fits_iff).mpr (by decide +kernel)
  obtain ⟨listed, hlists, hlisted, hfinds, -⟩ := ((resolution_agrees_with_discovery h
    [first, second] (fun _ => .ok known) "user").2.2 first hfirst).2 known rfl
  have hoffered : known.filter (fun s => decide (Offers h s)) = [bound].map Symbol.method := by
    decide +kernel
  have hbound : listed = [bound] :=
    List.map_injective_iff.mpr (fun _ _ heq => Symbol.method.inj heq) (hlisted.trans hoffered)
  subst hbound
  obtain ⟨m, hm, hname, hplace⟩ := hfinds bound List.mem_cons_self (by decide) "SHOW"
    (by decide +kernel)
  exact ⟨hfirst, hlists none (.inl rfl), m, hm, hname, hplace 1 rfl⟩

end Entry

end CallTree
