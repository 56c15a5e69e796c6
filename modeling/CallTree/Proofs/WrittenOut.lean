import CallTree.Config
import CallTree.Yaml.Document

/-!
# How far values have to be written out

A document may hold a list or a mapping that is a part of itself. Its value has no end, and what is
given for it is the value written out to some depth. That is as good as the value itself, for two
reasons. Values that are written out to different depths are the same down to the lesser one
(`cut_valueTo`). And settings are looked into no further than three layers: a setting lies in a
section, and the items of a list in a setting (`shallow_ofRecord`).

That a check looks no further than to a depth (`Shallow`) is put together along the way in which
the check is put together. A field of a record lies one layer deeper than the record.
-/

namespace CallTree

open CallTree.Data (Value Checked)

namespace Data

/-! ## Cutting values -/

/-- **A value down to a depth**: the lists and mappings that lie deeper are empty. -/
def Value.cut : (depth : Nat) → Value → Value
  | 0, .list _ => .list []
  | 0, .map _ => .map []
  | n + 1, .list items => .list (items.map (cut n))
  | n + 1, .map entries => .map (entries.map fun e => (cut n e.1, cut n e.2))
  | _, v => v

/-- Of two cuts the one that is less deep counts. -/
theorem Value.cut_cut {n m : Nat} (h : n ≤ m) (v : Value) : (v.cut m).cut n = v.cut n := by
  induction n generalizing m v with
  | zero => cases m <;> cases v <;> rfl
  | succ n ih =>
    obtain ⟨m, rfl⟩ : ∃ k, m = k + 1 := ⟨m - 1, by omega⟩
    have hcut : cut n ∘ cut m = cut n := funext fun w => ih (by omega) w
    cases v with
    | list items => simp only [cut, List.map_map, hcut]
    | map entries => simp [cut, ih (show n ≤ m by omega)]
    | _ => rfl

/-- What is under a key of a record is one layer deeper than the record. -/
theorem Value.get?_cut (n : Nat) (v : Value) (key : String) :
    (v.cut (n + 1)).get? key = (v.get? key).map (cut n) := by
  cases v with
  | map entries =>
    simp only [cut, get?, List.foldl_map]
    rw [← Option.map_none (f := cut n)]
    refine List.foldl_hom (Option.map (cut n)) fun found e => ?_
    obtain ⟨k, w⟩ := e
    cases k with
    | text s => simp only [cut, apply_ite (Option.map (cut n)), Option.map_some]
    | _ => cases n <;> rfl
  | _ => rfl

/-! ## Checks that do not look deep -/

variable {α β : Type} {n m : Nat} {f : Value → α}

/-- **What does not depend on anything below a depth.** -/
def Shallow (n : Nat) (f : Value → α) : Prop := ∀ v, f (v.cut n) = f v

/-- What does not look so far does not look further. -/
theorem Shallow.mono (h : Shallow n f) (hnm : n ≤ m) : Shallow m f := fun v => by
  rw [← h, Value.cut_cut hnm, h]

/-- Values that are the same down to the depth that is looked at are as good as each other. -/
theorem Shallow.congr (h : Shallow n f) {v w : Value} (hvw : v.cut n = w.cut n) : f v = f w := by
  rw [← h v, hvw, h w]

/-- Two checks of one value look as far as the one that looks further. -/
theorem Shallow.ap {f : Value → Checked (α → β)} {g : Value → Checked α} (hf : Shallow n f)
    (hg : Shallow n g) : Shallow n fun v => Checked.ap (f v) (g v) := fun v => by
  simp only [hf v, hg v]

theorem shallow_const (a : α) : Shallow n fun _ => a := fun _ => rfl

/-- A field is looked for one layer further down. -/
theorem Shallow.optional {check : Value → Checked α} (h : Shallow n check) (default : α)
    (name : String) : Shallow (n + 1) (Checked.optional check default name) := fun v => by
  rw [Checked.optional, Checked.optional, Value.get?_cut]
  cases v.get? name with
  | none => rfl
  | some w => exact congrArg (Checked.below (.field name)) (h w)

theorem shallow_asText : Shallow 0 asText := fun v => by cases v <;> rfl

theorem shallow_asBool : Shallow 0 asBool := fun v => by cases v <;> rfl

theorem shallow_asIntBetween (low high : Int) : Shallow 0 (asIntBetween low high) := fun v => by
  cases v <;> rfl

theorem items_map_cut {check : Value → Checked α} (h : Shallow n check) (vs : List Value)
    (start : Nat) :
    Checked.items check (vs.map (Value.cut n)) start = Checked.items check vs start := by
  induction vs generalizing start with
  | nil => rfl
  | cons v vs ih => rw [List.map_cons, Checked.items, Checked.items, h v, ih]

/-- The items of a list are looked at, and nothing below them. -/
theorem shallow_asTexts (flaw : Flaw) : Shallow 1 (asTexts flaw) := fun v => by
  cases v with
  | list items => exact items_map_cut shallow_asText items 0
  | _ => rfl

end Data

open Data

/-! ## Settings -/

/-- The options of a walk are plain values in a section. -/
theorem Walk.Options.shallow_ofRecord : Shallow 1 Walk.Options.ofRecord := by
  refine .ap (.ap (.ap (.ap (shallow_const _) (.optional (fun v => ?_) 64 _))
    (shallow_asBool.optional false _)) (shallow_asBool.optional false _))
    (shallow_asBool.optional false _)
  exact congrArg (Except.map Int.toNat) (shallow_asIntBetween 1 200 v)

namespace Config

theorem shallow_asLogLevel : Shallow 0 asLogLevel := fun v => by cases v <;> rfl

/-- A section is as deep as the record that it has to be. -/
theorem shallow_asSection {α : Type} {n : Nat} {read : Value → Checked α} (h : Shallow n read) :
    Shallow n (asSection read) := fun v => by
  cases v with
  | map entries => cases n <;> exact h (.map entries)
  | _ => cases n <;> rfl

/-- Lists in a section are two levels down. -/
theorem shallow_readNoise : Shallow 2 readNoise :=
  .ap (.ap (.ap (shallow_const _) ((shallow_asTexts _).optional _ _))
    ((shallow_asBool.mono (by omega)).optional _ _)) ((shallow_asTexts _).optional _ _)

theorem shallow_readEntry : Shallow 2 readEntry :=
  .ap (.ap (.ap (.ap (shallow_const _) ((shallow_asText.mono (by omega)).optional _ _))
    ((shallow_asTexts _).optional _ _)) ((shallow_asTexts _).optional _ _))
    ((shallow_asTexts _).optional _ _)

/-- **A configuration is looked into no further than to the items of its lists.** -/
theorem shallow_ofRecord : Shallow Yaml.leastDepth ofRecord := by
  have hwalk : Shallow 2 (asSection Walk.Options.ofRecord) :=
    (shallow_asSection Walk.Options.shallow_ofRecord).mono (by omega)
  have hworkspace : Shallow 2 (asSection readWorkspace) :=
    shallow_asSection ((shallow_asTexts _).optional _ _)
  have hlevel : Shallow 2 asLogLevel := shallow_asLogLevel.mono (by omega)
  exact .ap (.ap (.ap (.ap (.ap (shallow_const _)
    ((shallow_asSection shallow_readNoise).optional _ _))
    ((shallow_asSection shallow_readEntry).optional _ _)) (hwalk.optional _ _))
    (hworkspace.optional _ _)) (hlevel.optional _ _)

end Config

/-! ## Documents -/

namespace Yaml

variable {n : Nat}

/-- Cutting does not make different keys the same, nor the same ones different. -/
theorem sameKey_cut (v w : Value) : sameKey (v.cut n) (w.cut n) = sameKey v w := by
  cases n <;> cases v <;> cases w <;> rfl

theorem distinct_map_cut (vs : List Value) :
    distinct (vs.map (Value.cut n)) = (distinct vs).map (Value.cut n) := by
  rw [distinct, distinct, List.foldl_map]
  change List.foldl _ (List.map (Value.cut n) []) vs = _
  refine List.foldl_hom (List.map (Value.cut n)) fun seen v => ?_
  have hany : (seen.map (Value.cut n)).any (sameKey (v.cut n)) = seen.any (sameKey v) := by
    rw [List.any_map]
    exact congrArg seen.any (funext fun w => sameKey_cut v w)
  rw [hany, apply_ite (List.map (Value.cut n)), List.map_append, List.map_singleton]

/-- What is made of a node is, down to a depth, a matter of what the others are one layer less
deep. -/
theorem Made.cut_value_congr {others others' : Nat → Value}
    (h : ∀ k, (others k).cut n = (others' k).cut n) (m : Made) :
    (m.value others).cut (n + 1) = (m.value others').cut (n + 1) := by
  have hcut : Value.cut n ∘ others = Value.cut n ∘ others' := funext h
  cases m with
  | scalar v => rfl
  | list items => simp only [Made.value, Value.cut, List.map_map, hcut]
  | pairs items =>
    cases n with
    | zero => simp [Made.value, Value.cut, Function.comp_def]
    | succ n =>
      have hless : ∀ k, (others k).cut n = (others' k).cut n := fun k => by
        rw [← Value.cut_cut (Nat.le_succ n), h k, Value.cut_cut (Nat.le_succ n)]
      simp [Made.value, Value.cut, hless]
  | map entries => simp [Made.value, Value.cut, h]
  | set keys =>
    simp only [Made.value, Value.cut]
    rw [← distinct_map_cut, ← distinct_map_cut, List.map_map, List.map_map, hcut]

/-- The outermost layer is there, however far values are written out. -/
theorem Made.cut_value_zero (others others' : Nat → Value) (m : Made) :
    (m.value others).cut 0 = (m.hollow.value others').cut 0 := by
  cases m <;> rfl

theorem getD_map_null (made : Array Made) (f : Made → Value) (k : Nat) :
    (made.map f).getD k .null = (made[k]?.map f).getD .null := by
  rw [Array.getD_eq_getD_getElem?, Array.getElem?_map]

/-- Values that are written out further are the same as far as they were written out before. -/
theorem cut_valuesTo (made : Array Made) {n m : Nat} (h : n ≤ m) (k : Nat) :
    ((valuesTo made m).getD k .null).cut n = ((valuesTo made n).getD k .null).cut n := by
  induction n generalizing m k with
  | zero =>
    cases m with
    | zero => rfl
    | succ m =>
      simp only [valuesTo, getD_map_null]
      cases made[k]? with
      | none => rfl
      | some x => exact x.cut_value_zero _ _
  | succ n ih =>
    obtain ⟨m, rfl⟩ : ∃ j, m = j + 1 := ⟨m - 1, by omega⟩
    simp only [valuesTo, getD_map_null]
    cases made[k]? with
    | none => rfl
    | some x => exact x.cut_value_congr fun j => ih (by omega) j

/-- **How far a document is written out does not matter**, down to the lesser depth. -/
theorem cut_valueTo (d : Document) {n m : Nat} (h : n ≤ m) :
    (d.valueTo m).map (Value.cut n) = (d.valueTo n).map (Value.cut n) := by
  unfold Document.valueTo
  cases (Make.document d.root).run _ with
  | error problem => rfl
  | ok made => exact congrArg Except.ok (cut_valuesTo _ h d.root)

end Yaml

end CallTree
