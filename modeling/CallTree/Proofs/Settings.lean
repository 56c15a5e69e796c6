import CallTree.Config.Load
import CallTree.Proofs.Gives
import CallTree.Proofs.WrittenOut
import Mathlib.Tactic.SplitIfs

/-!
# What becomes of a configuration file

Reading a configuration ends in one of three ways. There is a configuration, and then it is a
sound one; or there is none, and a report says why; or the reading is broken off without a
report. Which of them it is depends on the bytes of the file and on the environment alone, and
it can be said of each failure (`Fails`) what in the file leads to it. All of this holds whatever
the reader of documents makes of a text: what counts is whether it finds a value in it, or a fault
in the way it is written, or runs into something else.

A configuration is had from no file at all, and from a file whose value is a mapping or counts
as nothing, when every setting is under a name and the settings are accepted with the level of
the log that the environment gives. A value counts as nothing when it is null, but also when it
is false, zero or empty.

Four failures are not reported: a path that cannot be the name of a file, bytes that are no text,
something that the reader of documents runs into, such as a scalar that is written as a date and is
none, and a setting that is under something else than a name.
-/

namespace CallTree

open CallTree.Data (Value Checked Complaint)
open CallTree.Files (Path Tree)

/-! ## Checks that are joined -/

namespace Data

variable {α β : Type}

/-- Where two joined checks accept, each of them does. -/
theorem ok_of_ap {f : Checked (α → β)} {c : Checked α} {b : β} (h : Checked.ap f c = .ok b) :
    ∃ g a, f = .ok g ∧ c = .ok a ∧ g a = b := by
  cases f with
  | error es => cases c <;> cases h
  | ok g =>
    cases c with
    | error es => cases h
    | ok a => exact ⟨g, a, rfl, rfl, Except.ok.inj h⟩

/-- A field that may be left out has a property when its default has it, and everything that
the check of the field accepts. -/
theorem gives_optional {check : Value → Checked α} {default : α} {name : String} {r : Value}
    {P : α → Prop} (hdefault : P default) (hcheck : ∀ v, Gives (check v) P) :
    Gives (Checked.optional check default name r) P := by
  intro a ha
  unfold Checked.optional at ha
  cases hget : r.get? name with
  | none =>
    rw [hget] at ha
    cases ha
    exact hdefault
  | some v =>
    rw [hget] at ha
    cases hv : check v with
    | error es => simp [Checked.below, hv, Except.mapError] at ha
    | ok b =>
      simp only [Checked.below, hv, Except.mapError, Except.ok.injEq] at ha
      exact ha ▸ hcheck v b hv

/-- A number is checked against its bounds after it has been understood. -/
theorem gives_asIntBetween (low high : Int) (v : Value) :
    Gives (asIntBetween low high v) fun n => low ≤ n ∧ n ≤ high := by
  intro n hn
  obtain ⟨m, -, hm⟩ := ok_of_bind hn
  split_ifs at hm with hlow hhigh
  · cases hm
  · cases hm
  · cases hm
    omega

/-- An entry that is added under a name hides what was under this name, and nothing else. -/
theorem Value.get?_map_append_text (entries : List (Value × Value)) (name : String) (v : Value)
    (key : String) :
    (Value.map (entries ++ [(.text name, v)])).get? key
      = if name = key then some v else (Value.map entries).get? key := by
  simp only [Value.get?, List.foldl_append, List.foldl_cons, List.foldl_nil]

end Data

namespace Config

/-! ## Sound configurations -/

/-- **A sound configuration**: the depth of the walk is within its bounds, and the level of the
log is one that exists. -/
structure IsSound (c : Config) : Prop where
  depth_pos : 1 ≤ c.walk.maxDepth
  depth_le : c.walk.maxDepth ≤ 200
  level_mem : c.logLevel ∈ logLevels

theorem gives_asSection {α : Type} {read : Value → Checked α} {P : α → Prop}
    (h : ∀ r, Gives (read r) P) (v : Value) : Gives (asSection read v) P := by
  cases v with
  | map entries => exact h (.map entries)
  | _ => exact Gives.error

/-- A level is looked up after it was put into upper case. -/
theorem gives_asLogLevel (v : Value) : Gives (asLogLevel v) (· ∈ logLevels) := by
  intro level hlevel
  obtain ⟨text, -, htext⟩ := ok_of_bind hlevel
  dsimp only at htext
  split_ifs at htext with hmem
  · cases htext
    exact List.contains_iff_mem.mp hmem
  · cases htext

theorem gives_options (r : Value) :
    Gives (Walk.Options.ofRecord r) fun o => 1 ≤ o.maxDepth ∧ o.maxDepth ≤ 200 := by
  intro o ho
  obtain ⟨f, unify, hf, -, rfl⟩ := Data.ok_of_ap ho
  obtain ⟨g, repeats, hg, -, rfl⟩ := Data.ok_of_ap hf
  obtain ⟨k, overloads, hk, -, rfl⟩ := Data.ok_of_ap hg
  obtain ⟨l, depth, hl, hdepth, rfl⟩ := Data.ok_of_ap hk
  cases hl
  have hbounds : Gives (Checked.optional
      (fun v => (Data.asIntBetween 1 200 v).map Int.toNat) 64 "max_depth" r)
      fun n => 1 ≤ n ∧ n ≤ 200 := by
    refine Data.gives_optional (by decide) fun v => ?_
    exact (Data.gives_asIntBetween 1 200 v).map fun n hn => by omega
  exact hbounds depth hdepth

/-- Every configuration that is accepted is sound. -/
theorem gives_ofRecord (r : Value) : Gives (ofRecord r) IsSound := by
  intro c hc
  obtain ⟨f, level, hf, hlevel, rfl⟩ := Data.ok_of_ap hc
  obtain ⟨g, excluded, hg, -, rfl⟩ := Data.ok_of_ap hf
  obtain ⟨k, walk, hk, hwalk, rfl⟩ := Data.ok_of_ap hg
  obtain ⟨l, entry, hl, -, rfl⟩ := Data.ok_of_ap hk
  obtain ⟨m, noise, hm, -, rfl⟩ := Data.ok_of_ap hl
  cases hm
  have hdepth : 1 ≤ walk.maxDepth ∧ walk.maxDepth ≤ 200 :=
    Data.gives_optional (by decide) (gives_asSection gives_options) walk hwalk
  have hlevel : level ∈ logLevels :=
    Data.gives_optional (by decide) gives_asLogLevel level hlevel
  exact ⟨hdepth.1, hdepth.2, hlevel⟩

/-- A configuration depends on what is under the names of the settings, and not on how the
record is written. -/
theorem ofRecord_congr {r r' : Value} (h : ∀ key, r.get? key = r'.get? key) :
    ofRecord r = ofRecord r' := by
  simp only [ofRecord, Checked.optional, h]

/-! ## The word of the environment -/

/-- **A record in which the environment has the last word** on the level of the log, if it says
anything; under every other name is what was there. -/
def Overrides (level : Option String) (old new : Value) : Prop :=
  ∀ key, new.get? key =
    if key = "log_level" then
      ((level.filter (!·.isEmpty)).map Value.text).or (old.get? key)
    else old.get? key

/-- The level that the environment gives goes before one in the file, unless it is empty. -/
theorem overrides_withLogLevel (level : Option String) (entries : List (Value × Value)) :
    Overrides level (.map entries) (.map (withLogLevel level entries)) := by
  intro key
  cases level with
  | none => simp [withLogLevel]
  | some l =>
    by_cases hl : l.isEmpty = true
    · simp [withLogLevel, Option.filter, hl]
    · simp only [withLogLevel, hl, Bool.false_eq_true, if_false, Data.Value.get?_map_append_text,
        eq_comm (a := "log_level")]
      simp [Option.filter, hl]

/-- There is one way only for the environment to have the last word. -/
theorem ofRecord_eq_of_overrides {level : Option String} {entries : List (Value × Value)}
    {r : Value} (h : Overrides level (.map entries) r) :
    ofRecord (.map (withLogLevel level entries)) = ofRecord r :=
  ofRecord_congr fun key => (overrides_withLogLevel level entries key).trans (h key).symm

theorem all_isNamed_withLogLevel (level : Option String) (entries : List (Value × Value)) :
    (withLogLevel level entries).all isNamed = entries.all isNamed := by
  cases level with
  | none => rfl
  | some l =>
    by_cases hl : l.isEmpty = true
    · simp [withLogLevel, hl]
    · simp [withLogLevel, hl, isNamed]

/-! ## What a file holds -/

/-- A path that can be the name of a file: the character zero is not in it. -/
def IsFileName (p : Path) : Prop := Char.ofNat 0 ∉ p.text.toList

/-- The bytes of a file. -/
def HasBytes (tree : Tree) (p : Path) (bytes : List UInt8) : Prop :=
  IsFileName p ∧ ∃ content, tree.read p = .ok content ∧ content.toList = bytes

/-- The text of a file, with every line ended in the same way. -/
def HasText (tree : Tree) (p : Path) (text : List Char) : Prop :=
  ∃ bytes decoded, HasBytes tree p bytes ∧ Text.Utf8.decode bytes = .ok decoded
    ∧ Text.withPlainBreaks decoded.toList = text

/-- The bytes of a file that are no text, and the first defect of them. -/
def HasDefect (tree : Tree) (p : Path) (bytes : List UInt8) (defect : Text.Utf8.Defect) : Prop :=
  HasBytes tree p bytes ∧ Text.Utf8.decode bytes = .error defect

/-- The value that a reader finds in a file, which has to be a text. -/
def HasValue (reader : Yaml.Reader) (tree : Tree) (p : Path) (v : Value) : Prop :=
  ∃ text, HasText tree p text ∧ reader.value text = .ok v

/-- **The problem that a reader meets in a file**: in its text, or in the bytes before those that
are no text. -/
def Meets (reader : Yaml.Reader) (tree : Tree) (p : Path) (problem : Yaml.Problem) : Prop :=
  (∃ text, HasText tree p text ∧ reader.value text = .error problem)
    ∨ ∃ bytes defect, HasDefect tree p bytes defect ∧ reader.early? bytes = some problem

/-- **The settings that are offered**: none without a file, the entries of the mapping that the
file holds, and none if what it holds counts as nothing. -/
def Offers (reader : Yaml.Reader) (tree : Tree) : Option Path → List (Value × Value) → Prop
  | none, entries => entries = []
  | some p, entries =>
    ∃ v, HasValue reader tree p v ∧ (v = .map entries ∨ v.isVoid = true ∧ entries = [])

/-- **What in a file leads to which failure.** -/
inductive Fails (reader : Yaml.Reader) (tree : Tree) (level : Option String) :
    Option Path → LoadError → Prop
  | nameless {p : Path} (h : ¬ IsFileName p) :
    Fails reader tree level (some p) (.unusable (.unusable "embedded null byte"))
  | unreadable {p : Path} {why : Files.Unreadable} (hname : IsFileName p)
    (h : tree.read p = .error why) :
    Fails reader tree level (some p) (.unreadable p why)
  | undecodable {p : Path} {bytes : List UInt8} {defect : Text.Utf8.Defect}
    (hdefect : HasDefect tree p bytes defect) (h : reader.early? bytes = none) :
    Fails reader tree level (some p) (.undecodable defect)
  | malformed {p : Path} {why : String} (h : Meets reader tree p (.malformed why)) :
    Fails reader tree level (some p) (.malformed p why)
  | unusable {p : Path} {problem : Yaml.Problem} (h : Meets reader tree p problem)
    (hproblem : ∀ why, problem ≠ .malformed why) :
    Fails reader tree level (some p) (.unusable problem)
  | noMapping {p : Path} {v : Value} (hv : HasValue reader tree p v) (hvoid : v.isVoid = false)
    (h : ∀ entries, v ≠ .map entries) :
    Fails reader tree level (some p) (.noMapping p)
  | unnamed {path : Option Path} {entries : List (Value × Value)}
    (hoffers : Offers reader tree path entries) (h : entries.all isNamed = false) :
    Fails reader tree level path .unnamed
  | invalid {path : Option Path} {entries : List (Value × Value)} {r : Value}
    {complaints : List Complaint} (hoffers : Offers reader tree path entries)
    (hnamed : entries.all isNamed = true) (hr : Overrides level (.map entries) r)
    (h : ofRecord r = .error complaints) :
    Fails reader tree level path (.invalid path complaints)

section Reading

variable {reader : Yaml.Reader} {tree : Tree} {level : Option String} {p : Path} {v : Value}
  {entries : List (Value × Value)}

/-- The failure for a problem other than a fault in the way a text is written. -/
theorem ofProblem_of_ne {problem : Yaml.Problem} (h : ∀ why, problem ≠ .malformed why) :
    LoadError.ofProblem p problem = .unusable problem := by
  cases problem with
  | malformed why => exact absurd rfl (h why)
  | _ => rfl

/-- Settings are a mapping; a value that is void is read as an empty one. -/
theorem settingsOf_eq_ok_iff :
    settingsOf p v = .ok entries ↔ v = .map entries ∨ v.isVoid = true ∧ entries = [] := by
  by_cases hvoid : v.isVoid = true
  · have hempty : ∀ es, v = .map es → es = [] := by
      rintro es rfl
      exact List.isEmpty_iff.mp hvoid
    simp only [settingsOf, hvoid, if_true, Except.ok.injEq, true_and]
    refine ⟨fun h => .inr h.symm, ?_⟩
    rintro (h | h)
    · exact (hempty entries h).symm
    · exact h.symm
  · cases v <;> simp [settingsOf, hvoid]

/-- Anything else is reported. -/
theorem settingsOf_eq_error_iff {e : LoadError} :
    settingsOf p v = .error e
      ↔ e = .noMapping p ∧ v.isVoid = false ∧ ∀ entries, v ≠ .map entries := by
  by_cases hvoid : v.isVoid = true
  · simp [settingsOf, hvoid]
  · cases v <;> simp [settingsOf, hvoid, eq_comm]

/-- A path that no file can have fails before anything is opened. -/
theorem settingsIn_of_nameless (h : ¬ IsFileName p) :
    settingsIn reader tree (some p) = .error (.unusable (.unusable "embedded null byte")) := by
  rw [settingsIn, bytesAt, if_pos (by simpa [IsFileName] using h)]
  rfl

theorem settingsIn_of_unreadable {why : Files.Unreadable} (hname : IsFileName p)
    (h : tree.read p = .error why) :
    settingsIn reader tree (some p) = .error (.unreadable p why) := by
  rw [settingsIn, bytesAt, if_neg (by simpa [IsFileName] using hname), h]
  rfl

theorem settingsIn_of_hasBytes {bytes : List UInt8} (h : HasBytes tree p bytes) :
    settingsIn reader tree (some p) = valueIn reader p bytes >>= settingsOf p := by
  obtain ⟨hname, content, hread, rfl⟩ := h
  rw [settingsIn, bytesAt, if_neg (by simpa [IsFileName] using hname), hread]
  rfl

/-- Bytes that are no text end the reading, unless the reader was stopped before them. -/
theorem settingsIn_of_undecodable {bytes : List UInt8} {defect : Text.Utf8.Defect}
    (hdefect : HasDefect tree p bytes defect) (h : reader.early? bytes = none) :
    settingsIn reader tree (some p) = .error (.undecodable defect) := by
  rw [settingsIn_of_hasBytes hdefect.1]
  simp only [valueIn, hdefect.2, h, bind, Except.bind]

theorem settingsIn_of_hasText {text : List Char} (h : HasText tree p text) :
    settingsIn reader tree (some p)
      = (reader.value text).mapError (.ofProblem p) >>= settingsOf p := by
  obtain ⟨bytes, decoded, hbytes, hdecode, rfl⟩ := h
  rw [settingsIn_of_hasBytes hbytes]
  simp only [valueIn, hdecode]

/-- **What stops the reader** is reported, or passed on as it is. -/
theorem settingsIn_of_meets {problem : Yaml.Problem} (h : Meets reader tree p problem) :
    settingsIn reader tree (some p) = .error (.ofProblem p problem) := by
  rcases h with ⟨text, htext, hvalue⟩ | ⟨bytes, defect, hdefect, hearly⟩
  · rw [settingsIn_of_hasText htext, hvalue]
    rfl
  · rw [settingsIn_of_hasBytes hdefect.1]
    simp only [valueIn, hdefect.2, hearly, bind, Except.bind]

theorem settingsIn_of_hasValue (h : HasValue reader tree p v) :
    settingsIn reader tree (some p) = settingsOf p v := by
  obtain ⟨text, htext, hvalue⟩ := h
  rw [settingsIn_of_hasText htext, hvalue]
  rfl

/-- A problem that a reader meets is a failure, and which one is a matter of its sort alone. -/
theorem fails_of_meets {problem : Yaml.Problem} (h : Meets reader tree p problem) :
    Fails reader tree level (some p) (.ofProblem p problem) := by
  by_cases hmalformed : ∃ why, problem = .malformed why
  · obtain ⟨why, rfl⟩ := hmalformed
    exact .malformed h
  · have hother : ∀ why, problem ≠ .malformed why := fun why hwhy => hmalformed ⟨why, hwhy⟩
    rw [ofProblem_of_ne hother]
    exact .unusable h hother

/-- **The reader finds a value in a file, or something in it leads to a failure.** -/
theorem hasValue_or_fails (reader : Yaml.Reader) (tree : Tree) (level : Option String) (p : Path) :
    (∃ v, HasValue reader tree p v)
      ∨ ∃ e, Fails reader tree level (some p) e ∧ settingsIn reader tree (some p) = .error e := by
  by_cases hname : IsFileName p
  swap
  · exact .inr ⟨_, .nameless hname, settingsIn_of_nameless hname⟩
  cases hread : tree.read p with
  | error why => exact .inr ⟨_, .unreadable hname hread, settingsIn_of_unreadable hname hread⟩
  | ok content =>
    have hbytes : HasBytes tree p content.toList := ⟨hname, content, hread, rfl⟩
    cases hdecode : Text.Utf8.decode content.toList with
    | error defect =>
      have hdefect : HasDefect tree p content.toList defect := ⟨hbytes, hdecode⟩
      cases hearly : reader.early? content.toList with
      | none =>
        exact .inr ⟨_, .undecodable hdefect hearly, settingsIn_of_undecodable hdefect hearly⟩
      | some problem =>
        have hmeets : Meets reader tree p problem := .inr ⟨_, _, hdefect, hearly⟩
        exact .inr ⟨_, fails_of_meets hmeets, settingsIn_of_meets hmeets⟩
    | ok decoded =>
      have htext : HasText tree p (Text.withPlainBreaks decoded.toList) :=
        ⟨_, decoded, hbytes, hdecode, rfl⟩
      cases hvalue : reader.value (Text.withPlainBreaks decoded.toList) with
      | ok v => exact .inl ⟨v, _, htext, hvalue⟩
      | error problem =>
        have hmeets : Meets reader tree p problem := .inl ⟨_, htext, hvalue⟩
        exact .inr ⟨_, fails_of_meets hmeets, settingsIn_of_meets hmeets⟩

end Reading

/-! ## The outcomes -/

section Outcomes

variable {reader : Yaml.Reader} {tree : Tree} {path : Option Path} {level : Option String}

theorem settingsIn_of_offers {entries : List (Value × Value)}
    (h : Offers reader tree path entries) :
    settingsIn reader tree path = .ok entries := by
  cases path with
  | none => exact congrArg Except.ok h.symm
  | some p =>
    obtain ⟨v, hv, hentries⟩ := h
    exact (settingsIn_of_hasValue hv).trans (settingsOf_eq_ok_iff.mpr hentries)

/-- **A file offers settings, or it fails** in one of the ways that are listed. -/
theorem offers_or_fails (reader : Yaml.Reader) (tree : Tree) (level : Option String)
    (path : Option Path) :
    (∃ entries, Offers reader tree path entries)
      ∨ ∃ e, Fails reader tree level path e ∧ settingsIn reader tree path = .error e := by
  cases path with
  | none => exact .inl ⟨[], rfl⟩
  | some p =>
    rcases hasValue_or_fails reader tree level p with ⟨v, hv⟩ | hfails
    · cases hsettings : settingsOf p v with
      | ok entries => exact .inl ⟨entries, v, hv, settingsOf_eq_ok_iff.mp hsettings⟩
      | error e =>
        obtain ⟨rfl, hvoid, hmap⟩ := settingsOf_eq_error_iff.mp hsettings
        exact .inr ⟨_, .noMapping hv hvoid hmap, (settingsIn_of_hasValue hv).trans hsettings⟩
    · exact .inr hfails

theorem ofFileBy_of_error {e : LoadError} (h : settingsIn reader tree path = .error e) :
    ofFileBy reader tree path level = .error e := by
  rw [ofFileBy, h]
  rfl

/-- Settings are checked if all of them have names. -/
theorem ofFileBy_of_offers {entries : List (Value × Value)} (h : Offers reader tree path entries)
    {r : Value} (hr : Overrides level (.map entries) r) :
    ofFileBy reader tree path level =
      if entries.all isNamed then (ofRecord r).mapError (.invalid path) else .error .unnamed := by
  rw [ofFileBy, settingsIn_of_offers h, ← ofRecord_eq_of_overrides hr]
  change ofSettings path level entries = _
  rw [ofSettings, all_isNamed_withLogLevel]

/-- Either there is a configuration, from settings that are offered and accepted, or there is
a failure and what leads to it. -/
theorem ofFileBy_cases (reader : Yaml.Reader) (tree : Tree) (path : Option Path)
    (level : Option String) :
    (∃ entries r c, Offers reader tree path entries ∧ entries.all isNamed = true
        ∧ Overrides level (.map entries) r ∧ ofRecord r = .ok c
        ∧ ofFileBy reader tree path level = .ok c)
      ∨ ∃ e, Fails reader tree level path e ∧ ofFileBy reader tree path level = .error e := by
  rcases offers_or_fails reader tree level path with ⟨entries, hoffers⟩ | ⟨e, hfails, he⟩
  · have hr := overrides_withLogLevel level entries
    have hfile := ofFileBy_of_offers hoffers hr
    cases hnamed : entries.all isNamed with
    | false =>
      rw [hnamed] at hfile
      exact .inr ⟨_, .unnamed hoffers hnamed, hfile⟩
    | true =>
      rw [hnamed, if_pos rfl] at hfile
      cases hrecord : ofRecord (.map (withLogLevel level entries)) with
      | ok c =>
        rw [hrecord] at hfile
        exact .inl ⟨entries, _, c, hoffers, hnamed, hr, hrecord, hfile⟩
      | error complaints =>
        rw [hrecord] at hfile
        exact .inr ⟨_, .invalid hoffers hnamed hr hrecord, hfile⟩
  · exact .inr ⟨e, hfails, ofFileBy_of_error he⟩

/-- What leads to a failure does lead to it. -/
theorem ofFileBy_of_fails {e : LoadError} (h : Fails reader tree level path e) :
    ofFileBy reader tree path level = .error e := by
  cases h with
  | nameless h => exact ofFileBy_of_error (settingsIn_of_nameless h)
  | unreadable hname h => exact ofFileBy_of_error (settingsIn_of_unreadable hname h)
  | undecodable hdefect h => exact ofFileBy_of_error (settingsIn_of_undecodable hdefect h)
  | malformed h => exact ofFileBy_of_error (settingsIn_of_meets h)
  | unusable h hproblem =>
    exact ofFileBy_of_error ((settingsIn_of_meets h).trans (by rw [ofProblem_of_ne hproblem]))
  | noMapping hv hvoid h =>
    refine ofFileBy_of_error ((settingsIn_of_hasValue hv).trans ?_)
    exact settingsOf_eq_error_iff.mpr ⟨rfl, hvoid, h⟩
  | unnamed hoffers h =>
    rw [ofFileBy_of_offers hoffers (overrides_withLogLevel level _), h]
    rfl
  | invalid hoffers hnamed hr h =>
    rw [ofFileBy_of_offers hoffers hr, hnamed, if_pos rfl, h]
    rfl

/-- **The errors** are those of the failures, and each failure has one. -/
theorem ofFileBy_eq_error_iff {e : LoadError} :
    ofFileBy reader tree path level = .error e ↔ Fails reader tree level path e := by
  refine ⟨fun h => ?_, ofFileBy_of_fails⟩
  rcases ofFileBy_cases reader tree path level with ⟨_, _, c, -, -, -, -, hc⟩ | ⟨e', hfails, he'⟩
  · rw [hc] at h
    cases h
  · rw [he'] at h
    exact Except.error.inj h ▸ hfails

/-- **The configurations** are what the checks make of the settings that are offered. -/
theorem ofFileBy_eq_ok_iff {c : Config} :
    ofFileBy reader tree path level = .ok c
      ↔ ∃ entries r, Offers reader tree path entries ∧ entries.all isNamed = true
        ∧ Overrides level (.map entries) r ∧ ofRecord r = .ok c := by
  constructor
  · intro h
    rcases ofFileBy_cases reader tree path level with
      ⟨entries, r, c', hoffers, hnamed, hr, hc', hfile⟩ | ⟨e, -, he⟩
    · rw [hfile] at h
      exact ⟨entries, r, hoffers, hnamed, hr, Except.ok.inj h ▸ hc'⟩
    · rw [he] at h
      cases h
  · rintro ⟨entries, r, hoffers, hnamed, hr, hc⟩
    rw [ofFileBy_of_offers hoffers hr, hnamed, if_pos rfl, hc]
    rfl

/-- A configuration that is read is sound. -/
theorem isSound_of_ofFileBy {c : Config} (h : ofFileBy reader tree path level = .ok c) :
    c.IsSound := by
  obtain ⟨entries, r, -, -, -, hc⟩ := ofFileBy_eq_ok_iff.mp h
  exact gives_ofRecord r c hc

end Outcomes

/-! ## How far values are written out -/

section Depth

variable {reader reader' : Yaml.Reader}

theorem isNamed_cut (n : Nat) (e : Value × Value) : isNamed (e.1.cut n, e.2.cut n) = isNamed e := by
  obtain ⟨k, v⟩ := e
  cases n <;> cases k <;> rfl

theorem withLogLevel_map_cut (n : Nat) (level : Option String) (entries : List (Value × Value)) :
    withLogLevel level (entries.map fun e => (e.1.cut n, e.2.cut n))
      = (withLogLevel level entries).map fun e => (e.1.cut n, e.2.cut n) := by
  cases level with
  | none => rfl
  | some l =>
    simp only [withLogLevel, apply_ite (List.map _), List.map_append, List.map_singleton]
    cases n <;> rfl

/-- Settings do not depend on what lies deeper than the items of lists. -/
theorem ofSettings_map_cut (path : Option Path) (level : Option String)
    (entries : List (Value × Value)) :
    ofSettings path level (entries.map fun e => (e.1.cut 2, e.2.cut 2))
      = ofSettings path level entries := by
  have hrecord : ofRecord (.map ((withLogLevel level entries).map fun e => (e.1.cut 2, e.2.cut 2)))
      = ofRecord (.map (withLogLevel level entries)) :=
    shallow_ofRecord (.map (withLogLevel level entries))
  have hnamed : isNamed ∘ (fun e => (e.1.cut 2, e.2.cut 2)) = isNamed := funext (isNamed_cut 2)
  simp only [ofSettings, withLogLevel_map_cut, List.all_map, hnamed, hrecord]

/-- The settings in a value are one layer deeper than the value. -/
theorem settingsOf_cut (p : Path) (n : Nat) (v : Value) :
    settingsOf p (v.cut (n + 1))
      = (settingsOf p v).map (List.map fun e => (e.1.cut n, e.2.cut n)) := by
  cases v with
  | map entries => cases entries <;> rfl
  | list items => cases items <;> rfl
  | _ => simp only [Value.cut, settingsOf, apply_ite (Except.map _)]; rfl

/-- What is more than three levels down makes no difference to a configuration. -/
theorem shallow_ofSettings (p : Path) (level : Option String) :
    Data.Shallow Yaml.leastDepth fun v => settingsOf p v >>= ofSettings (some p) level := by
  intro v
  change settingsOf p (v.cut 3) >>= ofSettings (some p) level = _
  rw [settingsOf_cut]
  dsimp only
  cases settingsOf p v with
  | error e => rfl
  | ok entries => exact ofSettings_map_cut (some p) level entries

/-- Two readers **agree** if what they find is the same as far as settings are looked into. -/
structure Agree (reader reader' : Yaml.Reader) : Prop where
  value (text : List Char) : (reader.value text).map (Value.cut Yaml.leastDepth)
    = (reader'.value text).map (Value.cut Yaml.leastDepth)
  early (bytes : List UInt8) : reader.early? bytes = reader'.early? bytes

/-- Readers that agree give the same value down to these levels, or the same error. -/
theorem Agree.map_cut_valueIn (h : Agree reader reader') (p : Path) (bytes : List UInt8) :
    (valueIn reader p bytes).map (Value.cut Yaml.leastDepth)
      = (valueIn reader' p bytes).map (Value.cut Yaml.leastDepth) := by
  unfold valueIn
  rw [h.early]
  cases Text.Utf8.decode bytes with
  | error defect => rfl
  | ok decoded =>
    dsimp only
    rw [map_mapError, map_mapError, h.value]

/-- **Readers that agree lead to the same configuration.** -/
theorem Agree.ofFileBy_eq (h : Agree reader reader') (tree : Tree) (path : Option Path)
    (level : Option String) :
    ofFileBy reader tree path level = ofFileBy reader' tree path level := by
  cases path with
  | none => rfl
  | some p =>
    simp only [ofFileBy, settingsIn, bind_assoc]
    refine bind_congr fun bytes => ?_
    have hvalue := h.map_cut_valueIn p bytes
    cases hv : valueIn reader p bytes <;> cases hw : valueIn reader' p bytes <;>
      rw [hv, hw] at hvalue
    · exact congrArg Except.error (Except.error.inj hvalue)
    · cases hvalue
    · cases hvalue
    · exact (shallow_ofSettings p level).congr (Except.ok.inj hvalue)

/-- However far the usual reader writes values out, it is far enough. -/
theorem agree_readerTo {depth depth' : Yaml.Document → Nat} (h : ∀ d, Yaml.leastDepth ≤ depth d)
    (h' : ∀ d, Yaml.leastDepth ≤ depth' d) :
    Agree (Yaml.readerTo depth) (Yaml.readerTo depth') where
  early _ := rfl
  value text := by
    change (Yaml.valueOf depth text).map _ = (Yaml.valueOf depth' text).map _
    unfold Yaml.valueOf
    cases Yaml.documentOf text none with
    | error problem => rfl
    | ok found =>
      cases found with
      | none => rfl
      | some d => exact (Yaml.cut_valueTo d (h d)).trans (Yaml.cut_valueTo d (h' d)).symm

/-- **Values are written out far enough**: further would make no difference. -/
theorem ofFile_eq_readerTo {depth : Yaml.Document → Nat} (h : ∀ d, Yaml.leastDepth ≤ depth d)
    (tree : Tree) (path : Option Path) (level : Option String) :
    ofFile tree path level = ofFileBy (Yaml.readerTo depth) tree path level :=
  (agree_readerTo (fun _ => Nat.le_add_left _ _) h).ofFileBy_eq tree path level

end Depth

/-- **Reading a configuration has three outcomes**, whatever a reader makes of documents. There is
a configuration exactly if every setting that is offered is under a name and they are accepted with
the level of the log that the environment gives, and this configuration is sound. Otherwise there is
exactly the failure that something in the file leads to. It is reported, unless the path is no name
of a file, or the bytes of the file are no text and nothing else has been found wrong with them
before, or the reader runs into something else than a fault in the way the text is written, or a
setting is not under a name. Nothing else counts about a reader, and of the values that it finds
nothing that lies deeper than settings do. -/
theorem ofFile_outcomes (reader : Yaml.Reader) (tree : Tree) (path : Option Path)
    (level : Option String) :
    (∀ c, ofFileBy reader tree path level = .ok c
        ↔ ∃ entries r, Offers reader tree path entries ∧ entries.all isNamed = true
          ∧ Overrides level (.map entries) r ∧ ofRecord r = .ok c)
      ∧ (∀ c, ofFileBy reader tree path level = .ok c → c.IsSound)
      ∧ (∀ e, ofFileBy reader tree path level = .error e ↔ Fails reader tree level path e)
      ∧ ((∃ e, ofFileBy reader tree path level = .error e ∧ e.report? = none)
        ↔ (∃ p, path = some p ∧ ¬ IsFileName p)
          ∨ (∃ p bytes defect, path = some p ∧ HasDefect tree p bytes defect
            ∧ reader.early? bytes = none)
          ∨ (∃ p problem, path = some p ∧ Meets reader tree p problem
            ∧ ∀ why, problem ≠ .malformed why)
          ∨ ∃ entries, Offers reader tree path entries ∧ entries.all isNamed = false)
      ∧ ∀ reader', Agree reader reader' →
        ofFileBy reader' tree path level = ofFileBy reader tree path level := by
  refine ⟨fun c => ofFileBy_eq_ok_iff, fun c => isSound_of_ofFileBy,
    fun e => ofFileBy_eq_error_iff, ⟨?_, ?_⟩, fun reader' h => (h.ofFileBy_eq tree path level).symm⟩
  · rintro ⟨e, he, hreport⟩
    cases ofFileBy_eq_error_iff.mp he with
    | unreadable hname h => cases hreport
    | malformed h => cases hreport
    | noMapping hv hvoid h => cases hreport
    | invalid hoffers hnamed hr h => cases hreport
    | nameless h => exact .inl ⟨_, rfl, h⟩
    | undecodable hdefect h => exact .inr (.inl ⟨_, _, _, rfl, hdefect, h⟩)
    | unusable h hproblem => exact .inr (.inr (.inl ⟨_, _, rfl, h, hproblem⟩))
    | unnamed hoffers h => exact .inr (.inr (.inr ⟨_, hoffers, h⟩))
  · rintro (⟨p, rfl, h⟩ | ⟨p, bytes, defect, rfl, hdefect, h⟩ | ⟨p, problem, rfl, h, hproblem⟩ |
      ⟨entries, hoffers, h⟩)
    · exact ⟨_, ofFileBy_of_fails (.nameless h), rfl⟩
    · exact ⟨_, ofFileBy_of_fails (.undecodable hdefect h), rfl⟩
    · exact ⟨_, ofFileBy_of_fails (.unusable h hproblem), rfl⟩
    · exact ⟨_, ofFileBy_of_fails (.unnamed hoffers h), rfl⟩

/-- A directory with these bytes in its configuration file. -/
def folderWith (bytes : ByteArray) : Tree := [(["callchain.yaml"], .file bytes)]

/-- **A byte that is no text breaks the reading off without a report, and an empty list passes
for a mapping.** -/
theorem neither_accepted_nor_reported :
    (∃ e, ofFile (folderWith ⟨#[0xFF]⟩) (find? (folderWith ⟨#[0xFF]⟩) {}) none = .error e
        ∧ e.report? = none)
      ∧ ofFile (folderWith "[]".toUTF8) (find? (folderWith "[]".toUTF8) {}) none = .ok {} := by
  refine ⟨⟨.undecodable ⟨0, 1, 0xFF, .invalidStart⟩, ?_, rfl⟩, by decide +kernel⟩
  have hfound : find? (folderWith ⟨#[0xFF]⟩) {} = some { names := ["callchain.yaml"] } := by
    decide +kernel
  have hbytes : (⟨#[0xFF]⟩ : ByteArray).toList = [0xFF] := by decide +kernel
  have hname : IsFileName { names := ["callchain.yaml"] } := by
    unfold IsFileName
    decide +kernel
  rw [hfound]
  exact ofFileBy_of_fails (.undecodable ⟨⟨hname, _, rfl, hbytes⟩, rfl⟩ (by decide +kernel))

/-- A mapping that is its own section is looked into as a section. -/
example : ofFile (folderWith "&a \x7bmax_depth: 7, walker: *a\x7d".toUTF8)
    (some { names := ["callchain.yaml"] }) none = .ok { walk := { maxDepth := 7 } } := by
  decide +kernel

end Config

end CallTree
