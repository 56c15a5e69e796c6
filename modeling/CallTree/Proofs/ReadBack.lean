import CallTree.Proofs.Settings

/-!
# Settings that are read back

The checks of settings are lenient: a number may come as a text, a truth value as a word, a level in
any case, and whole sections may be missing. What is understood is written down in one way only,
with every section and every setting in its place. This is a normal form: the checks accept it, and
understand by it what was understood before.

A check that accepts a value accepts the plain form of what it has understood. For truth values and
texts nothing has to be known of the value. The depth of a walk and the level of the log have to be
within their bounds, which are checked after the value has been understood, so that they hold of
everything that is accepted (`gives_ofRecord`). Hence the configurations that can be read back are
exactly those that can be read at all (`ofRecord_record_iff`).
-/

namespace CallTree

open CallTree.Data (Value Checked)

namespace Data

variable {α : Type}

/-! ## Plain forms -/

theorem asText_text (text : String) : asText (.text text) = .ok text := rfl

theorem asBool_bool (b : Bool) : asBool (.bool b) = .ok b := rfl

theorem items_map_text (texts : List String) (start : Nat) :
    Checked.items asText (texts.map Value.text) start = .ok texts := by
  induction texts generalizing start with
  | nil => rfl
  | cons text texts ih =>
    rw [List.map_cons, Checked.items, ih]
    rfl

/-- A list of texts is accepted as it is. -/
theorem asTexts_texts (flaw : Flaw) (texts : List String) :
    asTexts flaw (.texts texts) = .ok texts :=
  items_map_text texts 0

/-- A number within its bounds is accepted as it is. -/
theorem asIntBetween_int {low high n : Int} (hlow : low ≤ n) (hhigh : n ≤ high) :
    asIntBetween low high (.int n) = .ok n := by
  show (if n < low then Checked.refuse .tooSmall
    else if high < n then Checked.refuse .tooLarge else .ok n) = .ok n
  rw [if_neg (by omega), if_neg (by omega)]

/-- A setting that is there is read, whatever would hold without it. -/
theorem optional_eq_ok {check : Value → Checked α} {default a : α} {name : String} {r v : Value}
    (hget : r.get? name = some v) (hcheck : check v = .ok a) :
    Checked.optional check default name r = .ok a := by
  simp only [Checked.optional, hget, hcheck, Checked.below, Except.mapError]

end Data

open Data

/-! ## Sections -/

/-- The options of a walk are read back, if the depth is within its bounds. -/
theorem Walk.Options.ofRecord_record {o : Walk.Options} (hlow : 1 ≤ o.maxDepth)
    (hhigh : o.maxDepth ≤ 200) : Walk.Options.ofRecord o.record = .ok o := by
  have hdepth : (asIntBetween 1 200 (.int o.maxDepth)).map Int.toNat = .ok o.maxDepth := by
    rw [asIntBetween_int (by omega) (by omega)]
    rfl
  rw [Walk.Options.ofRecord, optional_eq_ok rfl hdepth, optional_eq_ok rfl (asBool_bool _),
    optional_eq_ok rfl (asBool_bool _), optional_eq_ok rfl (asBool_bool _)]
  rfl

namespace Config

/-- A level that exists is accepted as it is. -/
theorem asLogLevel_text {level : String} (h : level ∈ logLevels) :
    asLogLevel (.text level) = .ok level := by
  have hall : ∀ level ∈ logLevels, asLogLevel (.text level) = .ok level := by decide +kernel
  exact hall level h

/-- **A sound configuration is read back.** -/
theorem ofRecord_record {c : Config} (h : c.IsSound) : ofRecord c.record = .ok c := by
  obtain ⟨hlow, hhigh, hlevel⟩ := h
  have hnoise : asSection readNoise (.record [("framework_roots", .texts c.noise.frameworkRoots),
      ("include_stdlib", .bool c.noise.includeStandard),
      ("skip_methods", .texts c.noise.skippedMethods)]) = .ok c.noise := by
    rw [Value.record, asSection, readNoise, optional_eq_ok rfl (asTexts_texts _ _),
      optional_eq_ok rfl (asBool_bool _), optional_eq_ok rfl (asTexts_texts _ _)]
    rfl
  have hentry : asSection readEntry (.record [("controller_marker", .text c.entry.controllerMarker),
      ("route_markers", .texts c.entry.markers.routes),
      ("verb_markers", .texts c.entry.markers.verbs),
      ("action_return_markers", .texts c.entry.markers.returns)]) = .ok c.entry := by
    rw [Value.record, asSection, readEntry, optional_eq_ok rfl (asText_text _),
      optional_eq_ok rfl (asTexts_texts _ _), optional_eq_ok rfl (asTexts_texts _ _),
      optional_eq_ok rfl (asTexts_texts _ _)]
    rfl
  have hwalk : asSection Walk.Options.ofRecord c.walk.record = .ok c.walk :=
    Walk.Options.ofRecord_record hlow hhigh
  have hworkspace : asSection readWorkspace (.record [("exclude_dirs", .texts c.excludedDirs)])
      = .ok c.excludedDirs := by
    rw [Value.record, asSection, readWorkspace, optional_eq_ok rfl (asTexts_texts _ _)]
  rw [ofRecord, optional_eq_ok rfl hnoise, optional_eq_ok rfl hentry, optional_eq_ok rfl hwalk,
    optional_eq_ok rfl hworkspace, optional_eq_ok rfl (asLogLevel_text hlevel)]
  rfl

/-- **The configurations that are read back are the sound ones**, which are those that can be read
at all. -/
theorem ofRecord_record_iff {c : Config} : ofRecord c.record = .ok c ↔ c.IsSound :=
  ⟨gives_ofRecord c.record c, ofRecord_record⟩

/-! ## Idempotence -/

/-- **What has been accepted is accepted again**, as what it was understood, when it is written
down with all its settings; the depth of its walk and the level of its log are within their
bounds. -/
theorem validation_is_idempotent (r : Value) (c : Config) (h : ofRecord r = .ok c) :
    ofRecord c.record = .ok c
      ∧ 1 ≤ c.walk.maxDepth ∧ c.walk.maxDepth ≤ 200
      ∧ c.logLevel ∈ ["DEBUG", "INFO", "WARNING", "ERROR", "CRITICAL"] := by
  have hsound : c.IsSound := gives_ofRecord r c h
  exact ⟨ofRecord_record hsound, hsound.depth_pos, hsound.depth_le, hsound.level_mem⟩

/-- A depth that is a text with a sign, blanks, an underscore and a fraction, truth values that are
words and numbers, a level with a dotless i, a setting that does not exist, and a section that is
missing. -/
theorem validation_is_idempotent_lenient :
    let r : Value := .record [
      ("noise", .record [("include_stdlib", .text "oFF"), ("colour", .text "red")]),
      ("walker", .record [("max_depth", .text " +1_2.00 "), ("overload_aware_keys", .int 1)]),
      ("workspace", .record [("exclude_dirs", .list [.text "venv"])]),
      ("log_level", .text "ınfo")]
    let c : Config :=
      { noise := { includeStandard := false },
        walk := { maxDepth := 12, overloadAwareKeys := true },
        excludedDirs := ["venv"], logLevel := "INFO" }
    ofRecord r = .ok c ∧ ofRecord c.record = .ok c := by
  intro r c
  have h : ofRecord r = .ok c := by decide +kernel
  exact ⟨h, (validation_is_idempotent r c h).1⟩

end Config

end CallTree
