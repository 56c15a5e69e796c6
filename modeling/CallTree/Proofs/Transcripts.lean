import CallTree.Command
import CallTree.Proofs.CallingOff
import CallTree.Proofs.Settings

/-!
# What the command writes

Once the configuration is read and the workspace is opened, all that the command does is to look
for its entry and to act on what it finds, and each of the three things that it can find leads to
one transcript. A method leads to the whole tree of calls and to success. A list of candidates is
written down and is a success as well. A refusal is the one line that is left to write, and it
says that there is no such controller or no such action, because the members of a type are always
at hand.

That a walk always comes back is no assumption here. Whatever fails while a method is gone
through ends the script of this method alone, and leaves a note in the place of what was not
done. So every method that was expanded and whose script was cut short has its note among the
lines of the tree, and the entry is the first method of them.
-/

namespace CallTree

/-! ## Faults leave a note -/

namespace Walk

variable {Body Scope Expr : Type}

/-- **Every fault is noted.** In a walk that is never called off, each method that is expanded
and whose script a fault cuts short has an event that says so. -/
theorem failures_invariant (plan : Plan) (hfree : ∀ n, plan.calledOff n = false) :
    plan.Invariant
      (fun _ _ _ p t q => p.halted = false → q.halted = false ∧ ∀ depth, ∀ x ∈ t.expansions,
        ∀ message, (plan.script x.2).ending = .failed message →
          ∃ d : Nat, Event.terminal x.1 d .providerError (some message) ∈ t.events depth)
      (fun _ _ _ p bs q => p.halted = false → q.halted = false ∧ ∀ depth, ∀ x ∈ bs.expansions,
        ∀ message, (plan.script x.2).ending = .failed message →
          ∃ d : Nat, Event.terminal x.1 d .providerError (some message) ∈ bs.events depth) where
  calledOff h := by
    rw [hfree] at h
    cases h
  met _ _ hp := ⟨hp, fun _ _ hx => nomatch hx⟩
  capped _ _ hp := ⟨hp, fun _ _ hx => nomatch hx⟩
  expanded {_ _ m _ bs q} _ _ _ hB hp := by
    obtain ⟨hq, hbelow⟩ := hB (by rw [Progress.mark_halted, Progress.polled_halted, hp])
    refine ⟨hq, fun depth x hx message hmessage => ?_⟩
    rw [hq, if_neg Bool.false_ne_true]
    rcases List.mem_cons.mp hx with rfl | hx
    · refine ⟨depth, ?_⟩
      rw [Tree.events, show (plan.script m).ending = .failed message from hmessage]
      exact List.mem_cons_of_mem _ (List.mem_append_right _ List.mem_cons_self)
    · obtain ⟨d, hd⟩ := hbelow depth x hx message hmessage
      exact ⟨d, List.mem_cons_of_mem _ (List.mem_append_left _ hd)⟩
  done hp := ⟨hp, fun _ _ hx => nomatch hx⟩
  remark hB hp := by
    obtain ⟨hq, hbelow⟩ := hB hp
    refine ⟨hq, fun depth x hx message hmessage => ?_⟩
    obtain ⟨d, hd⟩ := hbelow depth x hx message hmessage
    exact ⟨d, List.mem_append_right _ hd⟩
  stopped _ hV hq hp := by
    rw [(hV hp).1] at hq
    cases hq
  followed _ hV hq _ hB hp := by
    obtain ⟨hq', hafter⟩ := hB hq
    refine ⟨hq', fun depth x hx message hmessage => ?_⟩
    rcases List.mem_append.mp hx with hx | hx
    · obtain ⟨d, hd⟩ := (hV hp).2 (depth + 1) x hx message hmessage
      exact ⟨d, List.mem_append_left _ hd⟩
    · obtain ⟨d, hd⟩ := hafter depth x hx message hmessage
      exact ⟨d, List.mem_append_right _ hd⟩

/-- A walk with room for it expands the method that it begins with. -/
theorem head?_expansions_treeFrom (model : CodeModel Body Scope Expr) (noise : Noise)
    (options : Options) (entry : MethodSymbol) (hdepth : 1 ≤ options.maxDepth) :
    (treeFrom model noise options (fun _ => false) entry).1.expansions.head?
      = some (entry.key options.overloadAwareKeys, entry) := by
  obtain ⟨room, hroom⟩ := Nat.exists_eq_add_of_le' hdepth
  have hguard : (Plan.ofModel model noise options fun _ => false).guards [] {}
      (entry.key options.overloadAwareKeys) = false := by
    simp [Plan.guards]
  rw [treeFrom, hroom, grow_expanded rfl hguard rfl]
  rfl

end Walk

/-! ## The ways in which an entry is refused -/

namespace Entry

variable {h : Heuristics} {types : List TypeSymbol} {members : TypeSymbol → List Symbol}
  {hint : String} {action : Option String}

/-- Without an action, or with an empty one, the actions of a controller are listed. -/
theorem resolve_of_silent {t : TypeSymbol} (ht : types.find? (fits h hint) = some t)
    (haction : action = none ∨ action = some "") :
    resolve h types (fun t => .ok (members t)) hint action
      = .ok (.discovery t (candidates h (members t))) := by
  rw [resolve, controller, ht]
  rcases haction with rfl | rfl <;> rfl

/-- **An entry is refused for one of two reasons**, where the members of a type are at hand: no
type fits, or the first that fits has no method with the name of the action. -/
theorem refusal_cases {why : Refusal}
    (hwhy : resolve h types (fun t => .ok (members t)) hint action = .error why) :
    (types.find? (fits h hint) = none ∧ why = .noType hint)
      ∨ ∃ t name, types.find? (fits h hint) = some t ∧ action = some name
        ∧ methodNamed? (members t) name = none
        ∧ why = .noMethod (if hint.isEmpty then t.name else hint) name := by
  rw [resolve, controller] at hwhy
  cases ht : types.find? (fits h hint) with
  | none =>
    rw [ht] at hwhy
    cases hwhy
    exact .inl ⟨rfl, rfl⟩
  | some t =>
    rw [ht] at hwhy
    cases action with
    | none => cases hwhy
    | some name =>
      simp only [bind, Except.bind, Except.mapError] at hwhy
      split at hwhy
      · cases hwhy
      · split at hwhy
        · cases hwhy
        · next hmethod =>
          cases hwhy
          exact .inr ⟨t, name, rfl, rfl, hmethod, rfl⟩

/-- Whether a walk can begin at one method. -/
def Resolution.isAction : Resolution → Bool
  | .action _ _ => true
  | .discovery _ _ => false

theorem exists_of_isAction {found : Except Refusal Resolution}
    (h : found.toOption.any Resolution.isAction = true) :
    ∃ controller m, found = .ok (.action controller m) := by
  cases found with
  | error why => cases h
  | ok resolution =>
    cases resolution with
    | action controller m => exact ⟨controller, m, rfl⟩
    | discovery controller candidates => cases h

end Entry

/-! ## The transcript from the entry on -/

namespace Command

open CallTree.Files (Path)
open CallTree.Workspace (Session)

/-- **A request that loads**: there is a configuration for it, and its workspace is opened
without an error. -/
structure Request.Loads (r : Request) (s : Surroundings) (config : Config) (ws : Workspace) :
    Prop where
  config_eq : r.config s = .ok config
  error_eq : (Workspace.openPath {} s.files config.excludedDirs (.ofText r.workspace)).error = none
  workspace_eq :
    (Workspace.openPath {} s.files config.excludedDirs (.ofText r.workspace)).workspace = ws

/-- The lines with which the command begins. -/
def Request.headings (r : Request) : List String :=
  [s!"Analyzing call chain for {r.target}...", s!"Loading workspace: {r.workspace}"]

/-- The entry that a request asks for in a workspace. -/
def Request.entryIn (r : Request) (config : Config) (ws : Workspace) :
    Except Entry.Refusal Entry.Resolution :=
  Entry.resolve config.entry.heuristics ws.typeSymbols (fun t => .ok (ws.membersOf t))
    r.controller r.action

/-- The walk from a method of a workspace. -/
def walkIn (config : Config) (ws : Workspace) (m : MethodSymbol) : Walk.Tree × Walk.Progress :=
  Walk.treeFrom ws.model config.noise config.walk (fun _ => false) m

section Entering

variable {r : Request} {s : Surroundings} {config : Config} {ws : Workspace}

/-- Where a request loads, the command goes on to its entry, with its two headings written. -/
theorem transcript_of_loads (h : r.Loads s config ws) :
    transcript s r =
      ({ lines := r.headings
         log := (Workspace.openPath {} s.files config.excludedDirs (.ofText r.workspace)).log
         logLevel := config.logLevel } : Transcript).enter
        { workspace := ws, excluded := config.excludedDirs } config r := by
  obtain ⟨hconfig, herror, rfl⟩ := h
  rw [transcript, hconfig]
  dsimp only
  rw [Transcript.load, herror]
  rfl

variable {t : Transcript} {excluded : List String}

/-- A workspace that nothing disturbs has the entries that are found in it. -/
theorem entry_eq (r : Request) (config : Config) (ws : Workspace) (excluded : List String) :
    Session.entry { workspace := ws, excluded := excluded } config.entry.heuristics
      ws.typeSymbols r.controller r.action = r.entryIn config ws := rfl

theorem enter_of_action {controller : TypeSymbol} {m : MethodSymbol}
    (h : r.entryIn config ws = .ok (.action controller m)) :
    (t.enter { workspace := ws, excluded := excluded } config r).ending = t.ending
      ∧ (t.enter { workspace := ws, excluded := excluded } config r).lines
        = t.lines ++ ("Call chain:"
          :: (Report.render Report.standardIndent ((walkIn config ws m).1.events 0)
            ++ ["Analysis complete."])) := by
  rw [Transcript.enter]
  dsimp only
  rw [entry_eq, h]
  exact ⟨rfl, rfl⟩

theorem enter_of_discovery {controller : TypeSymbol} {candidates : List MethodSymbol}
    (h : r.entryIn config ws = .ok (.discovery controller candidates)) :
    (t.enter { workspace := ws, excluded := excluded } config r).ending = t.ending
      ∧ (t.enter { workspace := ws, excluded := excluded } config r).lines
        = t.lines ++ (s!"Available actions in {controller.name}:"
          :: candidates.map fun m => "  - " ++ m.name) := by
  rw [Transcript.enter]
  dsimp only
  rw [entry_eq, h]
  exact ⟨rfl, rfl⟩

theorem enter_of_refusal {why : Entry.Refusal} (h : r.entryIn config ws = .error why) :
    (t.enter { workspace := ws, excluded := excluded } config r).ending = .refused
      ∧ (t.enter { workspace := ws, excluded := excluded } config r).lines
        = t.lines ++ [why.message] := by
  rw [Transcript.enter]
  dsimp only
  rw [entry_eq, h]
  rcases Entry.refusal_cases h with ⟨-, rfl⟩ | ⟨_, _, -, -, -, rfl⟩
  · exact ⟨rfl, rfl⟩
  · exact ⟨rfl, rfl⟩

end Entering

/-- **From its entry on, the command does all or nothing.** If the entry is a method, it succeeds,
and below its headings are the tree of calls between its two lines, in which every method that
was expanded and then cut short by a fault has its note, the entry among them. If there is no
entry, it fails, and the only line is the one that says that there is no such controller or no
such action. If no action is asked for and there is such a controller, it succeeds, and its lines
are the candidates below their heading. -/
theorem all_or_nothing (r : Request) (s : Surroundings) (config : Config) (ws : Workspace)
    (hloads : r.Loads s config ws) :
    (∀ controller m, r.entryIn config ws = .ok (.action controller m) →
        (transcript s r).exitCode = 0
        ∧ (transcript s r).lines = r.headings ++ ("Call chain:"
          :: (Report.render Report.standardIndent ((walkIn config ws m).1.events 0)
            ++ ["Analysis complete."]))
        ∧ (walkIn config ws m).1.expansions.head?
          = some (m.key config.walk.overloadAwareKeys, m)
        ∧ ∀ x ∈ (walkIn config ws m).1.expansions, ∀ message,
          (Script.ofMethod ws.model config.noise config.walk.unifyPropertyDependencies x.2).ending
            = .failed message →
          ∃ d : Nat, Report.noteLine Report.standardIndent d
            ("(" ++ Report.terminalNote .providerError (some message) ++ ")")
              ∈ (transcript s r).lines)
      ∧ (∀ why, r.entryIn config ws = .error why →
        (transcript s r).exitCode = 1
        ∧ (transcript s r).lines = r.headings ++ [why.message]
        ∧ (why = .noType r.controller ∨ ∃ label name, why = .noMethod label name))
      ∧ (∀ controller candidates, r.entryIn config ws = .ok (.discovery controller candidates) →
        (transcript s r).exitCode = 0
        ∧ (transcript s r).lines = r.headings ++ (s!"Available actions in {controller.name}:"
          :: candidates.map fun m => "  - " ++ m.name))
      ∧ ∀ t, ws.typeSymbols.find? (Entry.fits config.entry.heuristics r.controller) = some t →
        r.action = none ∨ r.action = some "" →
        r.entryIn config ws
          = .ok (.discovery t (Entry.candidates config.entry.heuristics (ws.membersOf t))) := by
  rw [transcript_of_loads hloads]
  refine ⟨fun controller m h => ?_, fun why h => ?_, fun controller candidates h => ?_, ?_⟩
  · obtain ⟨hending, hlines⟩ := enter_of_action h
    have hsound := Config.isSound_of_ofFileBy hloads.config_eq
    refine ⟨?_, hlines, ?_, fun x hx message hmessage => ?_⟩
    · rw [Transcript.exitCode, hending]
    · exact Walk.head?_expansions_treeFrom _ _ _ _ hsound.depth_pos
    · obtain ⟨-, hnoted⟩ := (Walk.failures_invariant (Walk.Plan.ofModel ws.model config.noise
        config.walk fun _ => false) fun _ => rfl).grow config.walk.maxDepth [] m {} rfl
      obtain ⟨d, hd⟩ := hnoted 0 x hx message hmessage
      refine ⟨d, ?_⟩
      rw [hlines]
      refine List.mem_append_right _ (List.mem_cons_of_mem _ (List.mem_append_left _ ?_))
      exact List.mem_flatMap.mpr ⟨_, hd, List.mem_cons_self⟩
  · obtain ⟨hending, hlines⟩ := enter_of_refusal h
    refine ⟨?_, hlines, ?_⟩
    · rw [Transcript.exitCode, hending]
    · rcases Entry.refusal_cases h with ⟨-, hwhy⟩ | ⟨_, name, -, -, -, hwhy⟩
      · exact .inl hwhy
      · exact .inr ⟨_, name, hwhy⟩
  · obtain ⟨hending, hlines⟩ := enter_of_discovery h
    refine ⟨?_, hlines⟩
    rw [Transcript.exitCode, hending]
  · intro t ht haction
    exact Entry.resolve_of_silent ht haction

/-- A controller whose ancestors cannot be listed, because it is a member of itself. -/
def circular : Surroundings where
  files := [(["shop.py"], .file ("class ShopController(ShopController.Base):\n"
    ++ "    def index(self):\n        self.open()\n").toUTF8)]

/-- The action of this controller. -/
def circularRequest : Request := ⟨"shop.py", "Shop", some "index"⟩

/-- The command comes to its end though its entry cannot be gone through. -/
theorem all_or_nothing_circular : ∃ config ws controller m,
    circularRequest.Loads circular config ws
      ∧ circularRequest.entryIn config ws = .ok (.action controller m)
      ∧ (transcript circular circularRequest).exitCode = 0
      ∧ (transcript circular circularRequest).lines
        = ["Analyzing call chain for Shop.index...", "Loading workspace: shop.py", "Call chain:",
          "→ ShopController.index", "  (analysis failed: maximum recursion depth exceeded)",
          "Analysis complete."] := by
  have hloads : circularRequest.Loads circular {}
      (Workspace.openPath {} circular.files [] (.ofText "shop.py")).workspace :=
    { config_eq := by decide +kernel
      error_eq := Option.isNone_iff_eq_none.mp (by decide +kernel)
      workspace_eq := rfl }
  obtain ⟨controller, m, hentry⟩ : ∃ controller m, circularRequest.entryIn {}
      (Workspace.openPath {} circular.files [] (.ofText "shop.py")).workspace
        = .ok (.action controller m) := Entry.exists_of_isAction (by decide +kernel)
  obtain ⟨hcode, -⟩ := (all_or_nothing _ _ _ _ hloads).1 controller m hentry
  exact ⟨_, _, controller, m, hloads, hentry, hcode, by decide +kernel⟩

end Command

end CallTree
