import Mathlib.Data.List.Forall2

/-!
# What an answer is like, if there is one

Many functions of the library may fail, and what is to be shown of their answers holds
whenever there is one. Such a statement (`Gives`) is put together along the way in which the
function is put together: of one step after the other, and of one step for each item of a
list.
-/

namespace CallTree

variable {ε ε' α β : Type} {x : Except ε α} {f : α → Except ε β} {P : α → Prop} {Q : β → Prop}

/-- Where two steps have an answer, so has the first, and the second for it. -/
theorem ok_of_bind {b : β} (h : x >>= f = .ok b) : ∃ a, x = .ok a ∧ f a = .ok b := by
  cases x with
  | error e => cases h
  | ok a => exact ⟨a, rfl, h⟩

theorem ok_of_map {g : α → β} {b : β} (h : x.map g = .ok b) : ∃ a, x = .ok a ∧ g a = b := by
  cases x with
  | error e => cases h
  | ok a => exact ⟨a, rfl, Except.ok.inj h⟩

/-- Where two steps fail, the first one does, or the second one for its answer. -/
theorem error_of_bind {e : ε} (h : x >>= f = .error e) :
    x = .error e ∨ ∃ a, x = .ok a ∧ f a = .error e := by
  cases x with
  | error e' => exact .inl (congrArg Except.error (Except.error.inj h))
  | ok a => exact .inr ⟨a, rfl, h⟩

theorem error_of_map {g : α → β} {e : ε} (h : x.map g = .error e) : x = .error e := by
  cases x with
  | error e' => exact congrArg Except.error (Except.error.inj h)
  | ok a => cases h

/-- An answer and an error are changed independently of each other. -/
theorem map_mapError (g : α → β) (g' : ε → ε') (x : Except ε α) :
    (x.mapError g').map g = (x.map g).mapError g' := by
  cases x <;> rfl

/-- Where one step after the other fails, it is one of them, after those before it. -/
theorem error_of_foldlM {g : α → β → Except ε α} {l : List β} {a : α} {e : ε}
    (h : l.foldlM g a = .error e) :
    ∃ n b before, l[n]? = some b ∧ (l.take n).foldlM g a = .ok before ∧ g before b = .error e := by
  induction l generalizing a with
  | nil => cases h
  | cons b l ih =>
    rw [List.foldlM_cons] at h
    rcases error_of_bind h with h | ⟨next, hnext, h⟩
    · exact ⟨0, b, a, rfl, rfl, h⟩
    · obtain ⟨n, b', before, hb', hbefore, h⟩ := ih h
      refine ⟨n + 1, b', before, hb', ?_, h⟩
      rw [List.take_succ_cons, List.foldlM_cons, hnext]
      exact hbefore

theorem ok_of_toOption {a : α} (h : x.toOption = some a) : x = .ok a := by
  cases x with
  | error e => cases h
  | ok b => exact congrArg Except.ok (Option.some.inj h)

/-- Where every item of a list has an answer, these are the answers. -/
theorem forall₂_of_mapM {f : α → Except ε β} {l : List α} {bs : List β} (h : l.mapM f = .ok bs) :
    List.Forall₂ (fun a b => f a = .ok b) l bs := by
  induction l generalizing bs with
  | nil =>
    cases h
    exact .nil
  | cons a l ih =>
    rw [List.mapM_cons] at h
    obtain ⟨b, hb, h⟩ := ok_of_bind h
    obtain ⟨rest, hrest, h⟩ := ok_of_bind h
    cases h
    exact .cons hb (ih hrest)

/-- The answers for the items of a list are answers for items of it. -/
theorem mem_mapM_iff {f : α → Except ε β} {l : List α} {bs : List β} (h : l.mapM f = .ok bs)
    {b : β} : b ∈ bs ↔ ∃ a ∈ l, f a = .ok b := by
  have hall := forall₂_of_mapM h
  clear h
  induction hall with
  | nil => simp
  | cons ha _ ih => simp [ih, ha, eq_comm (a := b)]

/-- What goes along with each of several steps goes along with all of them. -/
theorem foldlM_hom {γ : Type} {f : α → γ → Except ε α} {g : β → γ → Except ε β} (φ : α → β)
    {l : List γ} (h : ∀ c ∈ l, ∀ a, g (φ a) c = (f a c).map φ) (a : α) :
    l.foldlM g (φ a) = (l.foldlM f a).map φ := by
  induction l generalizing a with
  | nil => rfl
  | cons c l ih =>
    rw [List.foldlM_cons, List.foldlM_cons, h c List.mem_cons_self]
    cases f a c with
    | error e => rfl
    | ok next => exact ih (fun c hc => h c (List.mem_cons_of_mem _ hc)) next

/-- Items that were chosen stay chosen, and the rest is chosen from in turn. -/
theorem mem_filterAuxM {p : α → Except ε Bool} {l acc found : List α}
    (h : l.filterAuxM p acc = .ok found) :
    acc ⊆ found ∧ ∀ a ∈ l, ∃ wanted, p a = .ok wanted ∧ (wanted = true → a ∈ found) := by
  induction l generalizing acc with
  | nil =>
    cases h
    exact ⟨List.Subset.refl _, fun _ h => absurd h List.not_mem_nil⟩
  | cons a l ih =>
    unfold List.filterAuxM at h
    obtain ⟨wanted, hwanted, h⟩ := ok_of_bind h
    obtain ⟨hacc, hl⟩ := ih h
    refine ⟨?_, List.forall_mem_cons.mpr ⟨⟨wanted, hwanted, ?_⟩, hl⟩⟩
    · cases wanted with
      | true => exact List.Subset.trans (List.subset_cons_self _ _) hacc
      | false => exact hacc
    · rintro rfl
      exact hacc List.mem_cons_self

/-- **Choosing loses nothing**: the choice is made for each item, and what is wanted is found. -/
theorem mem_filterM {p : α → Except ε Bool} {l found : List α} (h : l.filterM p = .ok found) {a : α}
    (ha : a ∈ l) : ∃ wanted, p a = .ok wanted ∧ (wanted = true → a ∈ found) := by
  obtain ⟨chosen, hchosen, h⟩ := ok_of_bind h
  cases h
  obtain ⟨wanted, hwanted, hmem⟩ := (mem_filterAuxM hchosen).2 a ha
  exact ⟨wanted, hwanted, fun h => List.mem_reverse.mpr (hmem h)⟩

/-- It can be told whether something is the answer. -/
instance decidableEqOk [DecidableEq α] (x : Except ε α) (a : α) : Decidable (x = .ok a) :=
  match x with
  | .ok b => decidable_of_iff (b = a) ⟨congrArg Except.ok, Except.ok.inj⟩
  | .error _ => isFalse fun h => by cases h

/-- **Every answer has a property.** -/
def Gives (x : Except ε α) (P : α → Prop) : Prop := ∀ a, x = .ok a → P a

namespace Gives

theorem ok {a : α} (h : P a) : Gives (.ok a : Except ε α) P := by
  intro b hb
  cases hb
  exact h

theorem error {e : ε} : Gives (.error e : Except ε α) P := by
  intro b hb
  cases hb

theorem imp {P' : α → Prop} (h : Gives x P) (hP : ∀ a, P a → P' a) : Gives x P' :=
  fun a ha => hP a (h a ha)

/-- One step after another. -/
theorem bind (h : Gives x P) (hf : ∀ a, P a → Gives (f a) Q) : Gives (x >>= f) Q := by
  intro b hb
  obtain ⟨a, ha, hb⟩ := ok_of_bind hb
  exact hf a (h a ha) b hb

theorem map {g : α → β} (h : Gives x P) (hg : ∀ a, P a → Q (g a)) : Gives (x.map g) Q := by
  intro b hb
  cases x with
  | error e => cases hb
  | ok a =>
    cases hb
    exact hg a (h a rfl)

/-- One step for each item of a list. -/
theorem foldlM {g : α → β → Except ε α} {a : α} (l : List β) (ha : P a)
    (hg : ∀ a, ∀ b ∈ l, P a → Gives (g a b) P) : Gives (l.foldlM g a) P := by
  induction l generalizing a with
  | nil => exact ok ha
  | cons b l ih =>
    refine bind (hg a b List.mem_cons_self ha) fun a' ha' => ?_
    exact ih ha' fun a'' b' hb' => hg a'' b' (List.mem_cons_of_mem _ hb')

end Gives

end CallTree
