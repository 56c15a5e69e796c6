import Mathlib.Data.List.DropRight
import Mathlib.Data.List.Forall2
import Mathlib.Data.List.Perm.Basic
import Mathlib.Order.Lattice

/-!
# Facts about lists

What the proofs need of lists in general: keeping the first of several equal items, looking for an
item from either end, comparing two lists item by item, and the order of words.
-/

namespace CallTree

variable {α β γ : Type}

/-! ## Items that are kept once -/

/-- No item is left twice. -/
theorem nodup_eraseDups [BEq α] [LawfulBEq α] : ∀ l : List α, l.eraseDups.Nodup
  | [] => List.nodup_nil
  | a :: l => by
    rw [List.eraseDups_cons, List.nodup_cons]
    refine ⟨fun hmem => ?_, nodup_eraseDups _⟩
    simpa using List.mem_eraseDups.mp hmem
termination_by l => l.length
decreasing_by exact Nat.lt_succ_of_le (List.length_filter_le _ _)

/-- Where no item is there twice, all are kept. -/
theorem eraseDups_of_nodup [BEq α] [LawfulBEq α] {l : List α} (h : l.Nodup) : l.eraseDups = l := by
  induction l with
  | nil => rfl
  | cons a l ih =>
    obtain ⟨ha, hl⟩ := List.nodup_cons.mp h
    have hkept : l.filter (fun b => !b == a) = l := by
      refine List.filter_eq_self.mpr fun b hb => ?_
      have hne : b ≠ a := fun heq => ha (heq ▸ hb)
      simp [hne]
    rw [List.eraseDups_cons, hkept, ih hl]

/-- What is kept of the beginning of a list is the beginning of what is kept of it. -/
theorem eraseDups_prefix [BEq α] [LawfulBEq α] {l more : List α} (h : l <+: more) :
    l.eraseDups <+: more.eraseDups := by
  obtain ⟨rest, rfl⟩ := h
  rw [List.eraseDups_append]
  exact List.prefix_append _ _

/-- **Items can be taken key by key**: what comes out is the items with these keys, in another
order. -/
theorem perm_flatMap_filter [DecidableEq β] (key : α → β) (l : List α) {keys : List β}
    (h : keys.Nodup) :
    (keys.flatMap fun k => l.filter (key · = k)).Perm (l.filter (key · ∈ keys)) := by
  induction keys with
  | nil => simp
  | cons k keys ih =>
    obtain ⟨hk, hkeys⟩ := List.nodup_cons.mp h
    rw [List.flatMap_cons]
    have hfirst : (l.filter (key · ∈ k :: keys)).filter (key · = k) = l.filter (key · = k) := by
      rw [List.filter_filter]
      exact List.filter_congr fun a _ => by grind
    have hothers : (l.filter (key · ∈ k :: keys)).filter (fun a => !decide (key a = k))
        = l.filter (key · ∈ keys) := by
      rw [List.filter_filter]
      exact List.filter_congr fun a _ => by grind
    refine ((ih hkeys).append_left _).trans ?_
    rw [← hfirst, ← hothers]
    exact List.filter_append_perm _ _

/-! ## Looking for an item -/

theorem filterMap_cons_toList (f : α → Option β) (a : α) (l : List α) :
    (a :: l).filterMap f = (f a).toList ++ l.filterMap f := by
  rw [List.filterMap_cons]
  cases f a with
  | none => rfl
  | some b => rfl

/-- The first item for which there is something. -/
theorem findSome?_eq_bind_find? (f : α → Option β) (l : List α) :
    l.findSome? f = (l.find? fun a => (f a).isSome).bind f := by
  induction l with
  | nil => rfl
  | cons a l ih =>
    cases ha : f a with
    | none => rw [List.findSome?_cons, ha, List.find?_cons_of_neg (by simp [ha]), ih]
    | some b =>
      rw [List.findSome?_cons, ha, List.find?_cons_of_pos (by simp [ha]), Option.bind_some, ha]

section DropWhile

variable {p : α → Bool}

/-- An item that does not fit is not dropped. -/
theorem mem_dropWhile {x : α} {xs : List α} (hx : x ∈ xs) (h : p x = false) :
    x ∈ xs.dropWhile p := by
  rw [← List.takeWhile_append_dropWhile (p := p) (l := xs)] at hx
  refine (List.mem_append.mp hx).resolve_left fun hmem => ?_
  exact absurd (h.symm.trans (List.mem_takeWhile_imp hmem)) Bool.false_ne_true

theorem dropWhile_append_eq_self {xs : List α} (hne : xs ≠ []) (h : ∀ x ∈ xs, p x = false)
    (ys : List α) : (xs ++ ys).dropWhile p = xs ++ ys := by
  cases xs with
  | nil => exact absurd rfl hne
  | cons x xs => exact List.dropWhile_cons_of_neg (by simp [h x])

theorem rdropWhile_eq_self {xs : List α} (h : ∀ x ∈ xs, p x = false) : xs.rdropWhile p = xs := by
  cases xs using List.reverseRecOn with
  | nil => rfl
  | append_singleton xs x =>
    exact List.rdropWhile_concat_neg _ _ _ (by simp [h x])

/-- Items are dropped from the end of the second list, and from that of the first only if nothing
is left of the second. -/
theorem rdropWhile_append (xs ys : List α) :
    (xs ++ ys).rdropWhile p
      = if ys.rdropWhile p = [] then xs.rdropWhile p else xs ++ ys.rdropWhile p := by
  unfold List.rdropWhile
  rw [List.reverse_append, List.dropWhile_append]
  simp only [List.isEmpty_iff, List.reverse_eq_nil_iff]
  split <;> simp

theorem rdropWhile_cons_neg {x : α} (xs : List α) (h : p x = false) :
    (x :: xs).rdropWhile p = x :: xs.rdropWhile p := by
  have hsingle : [x].rdropWhile p = [x] := rdropWhile_eq_self (by simpa using h)
  rw [← List.singleton_append, rdropWhile_append, hsingle]
  split
  · rename_i hnil
    rw [hnil]
  · rfl

end DropWhile

/-! ## Lists that are compared item by item -/

theorem forall₂_getLast? {R : α → β → Prop} {l : List α} {l' : List β}
    (h : List.Forall₂ R l l') : Option.Rel R l.getLast? l'.getLast? := by
  have hreverse : ∀ {m : List α} {m' : List β}, List.Forall₂ R m m' →
      Option.Rel R m.head? m'.head? := by
    rintro _ _ (_ | ⟨h, _⟩)
    · exact .none
    · exact .some h
  rw [← List.head?_reverse, ← List.head?_reverse]
  exact hreverse (List.forall₂_reverse_iff.mpr h)

theorem map_eq_map_of_forall₂ {R : α → β → Prop} {f : α → γ} {g : β → γ}
    {l : List α} {l' : List β} (h : List.Forall₂ R l l') (hR : ∀ a b, R a b → f a = g b) :
    l.map f = l'.map g := by
  induction h with
  | nil => rfl
  | cons h _ ih => rw [List.map_cons, List.map_cons, ih, hR _ _ h]

/-- **Two lists that differ** do so at some item, or one of them goes on after the other. -/
theorem exists_difference {a b : List α} (h : a ≠ b) :
    (∃ start c d w w', c ≠ d ∧ a = start ++ c :: w ∧ b = start ++ d :: w')
      ∨ (∃ c w, b = a ++ c :: w) ∨ ∃ c w, a = b ++ c :: w := by
  induction a generalizing b with
  | nil =>
    cases b with
    | nil => exact absurd rfl h
    | cons d w' => exact Or.inr (Or.inl ⟨d, w', rfl⟩)
  | cons c w ih =>
    cases b with
    | nil => exact Or.inr (Or.inr ⟨c, w, rfl⟩)
    | cons d w' =>
      by_cases hcd : c = d
      · subst hcd
        rcases ih fun heq => h (congrArg (c :: ·) heq) with
          ⟨start, c', d', v, v', hne, rfl, rfl⟩ | ⟨c', v, rfl⟩ | ⟨c', v, rfl⟩
        · exact Or.inl ⟨c :: start, c', d', v, v', hne, rfl, rfl⟩
        · exact Or.inr (Or.inl ⟨c', v, rfl⟩)
        · exact Or.inr (Or.inr ⟨c', v, rfl⟩)
      · exact Or.inl ⟨[], c, d, w, w', hcd, rfl, rfl⟩

/-- The beginnings of a list and of the beginning of it are the same if they are as long. -/
theorem take_eq_take_prefix_iff {long short : List α} (h : short <+: long) {a b : Nat}
    (ha : a ≤ long.length) (hb : b ≤ short.length) : long.take a = short.take b ↔ a = b := by
  have hlength := h.length_le
  obtain ⟨more, rfl⟩ := h
  rw [← List.take_append_of_le_length hb, List.take_eq_take_iff]
  omega

/-- How often an item stands at the beginning of a list can be told from the list, if the rest
begins with another. -/
theorem replicate_append_inj {c : α} {m n : Nat} {a b : List α} (ha : a.head? ≠ some c)
    (hb : b.head? ≠ some c) (h : List.replicate m c ++ a = List.replicate n c ++ b) :
    m = n ∧ a = b := by
  induction m generalizing n with
  | zero =>
    cases n with
    | zero => exact ⟨rfl, h⟩
    | succ n =>
      rw [List.replicate_zero, List.nil_append] at h
      rw [h] at ha
      exact absurd rfl ha
  | succ m ih =>
    cases n with
    | zero =>
      rw [List.replicate_zero, List.nil_append] at h
      rw [← h] at hb
      exact absurd rfl hb
    | succ n =>
      obtain ⟨hmn, hab⟩ := ih (List.cons.inj h).2
      exact ⟨congrArg (· + 1) hmn, hab⟩

/-! ## The order of words -/

section Order

variable [LinearOrder α]

/-- What two lists have in common at the beginning says nothing about their order. -/
theorem append_lt_append_iff (start s t : List α) : start ++ s < start ++ t ↔ s < t := by
  induction start with
  | nil => rfl
  | cons c start ih =>
    rw [List.cons_append, List.cons_append, List.cons_lt_cons_iff, ih]
    simp

/-- The first difference decides, whatever comes behind. -/
theorem lt_iff_of_difference {a b start w w' s t : List α} {c d : α} (hcd : c ≠ d)
    (ha : a = start ++ c :: w) (hb : b = start ++ d :: w') : a ++ s < b ++ t ↔ c < d := by
  subst ha hb
  rw [List.append_assoc, List.append_assoc, append_lt_append_iff, List.cons_append,
    List.cons_append, List.cons_lt_cons_iff]
  exact or_iff_left fun h => hcd h.1

/-- A list that goes on comes later. -/
theorem lt_append_cons (l : List α) (a : α) (rest : List α) : l < l ++ a :: rest := by
  nth_rewrite 1 [← List.append_nil l]
  exact (append_lt_append_iff _ _ _).mpr (List.nil_lt_cons a rest)

theorem lt_or_eq_of_isPrefix {p q : List α} (h : p <+: q) : p < q ∨ p = q := by
  obtain ⟨rest, rfl⟩ := h
  cases rest with
  | nil => exact .inr (List.append_nil p).symm
  | cons a rest => exact .inl (lt_append_cons p a rest)

end Order

end CallTree
