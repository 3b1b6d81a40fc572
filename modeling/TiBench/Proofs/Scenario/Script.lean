import TiBench.Scenario.Script
import TiBench.Proofs.Result
import Mathlib.Data.List.Basic

/-!
# What happens in a script

What happens in the run of a script besides how it ends: the phases that are entered, the calls of
tools with what they gave, and the check that failed. What holds of each action holds of every
script, by induction over the tree.
-/

namespace TiBench

/-! ## Stages -/

namespace Stage

variable {α β : Type}

/-- What a stage gives, and the run after it. -/
def after (x : Stage α) (r : Run) : Except Failure α × Run := x.run.run r

theorem after_bind (x : Stage α) (f : α → Stage β) (r : Run) : (x >>= f).after r
    = match x.after r with
      | (.ok a, r') => (f a).after r'
      | (.error e, r') => (.error e, r') := by
  change (ExceptT.bindCont f (x.after r).1 : StateM Run (Except Failure β)) (x.after r).2 = _
  rcases x.after r with ⟨_ | _, r'⟩ <;> rfl

theorem get_bind (f : Run → Stage β) (r : Run) : (get >>= f).after r = (f r).after r := rfl

theorem after_require {ε : Type} (check artifact : String) (message : ε → String)
    (result : Except ε α) (r : Run) : (require check artifact message result).after r
    = (result.mapError fun e => ⟨r.phase, check, artifact, message e⟩, r) := by
  cases result <;> rfl

theorem after_writeFile (check name : String) (data : Bytes) (r : Run) :
    (writeFile check name data).after r
      = match r.files.write Workspace.path (Workspace.fileText name) data with
        | .ok files => (.ok (), { r with files := files })
        | .error e => (.error ⟨r.phase, check, name, e.message⟩, r) := by
  rw [writeFile, get_bind, after_bind, after_require]
  cases r.files.write Workspace.path (Workspace.fileText name) data <;> rfl

theorem after_readFile (check name : String) (r : Run) : (readFile check name).after r
    = ((r.files.read Workspace.path (Workspace.fileText name)).mapError fun e =>
        ⟨r.phase, check, name, e.message⟩, r) :=
  after_require _ _ _ _ r

theorem after_invoke (faults : List String) (s : Step) (vars : Variables) (expect : ExitClass)
    (r : Run) : (invoke faults s vars expect).after r
      = ((s.tool.runExpect (s.invocation vars) expect faults r.files).1.mapError fun e =>
          ⟨r.phase, "tool run", s.tool.name, e.message⟩,
        { r with files := (s.tool.runExpect (s.invocation vars) expect faults r.files).2 }) :=
  after_require _ _ _ _ { r with files := _ }

end Stage

namespace Script

variable {α β γ : Type} {faults : List String}

theorem bind_assoc (x : Script α) (f : α → Script β) (g : β → Script γ) :
    (x >>= f) >>= g = x >>= fun a => f a >>= g := by
  induction x with
  | pure a => rfl
  | act a next ih => exact congrArg (Script.act a) (funext ih)

theorem toStage_bind (x : Script α) (f : α → Script β) :
    (x >>= f).toStage faults = x.toStage faults >>= fun a => (f a).toStage faults := by
  induction x with
  | pure a => exact Eq.symm (pure_bind a _)
  | act a next ih =>
      change (a.toStage faults >>= fun b => ((next b) >>= f).toStage faults) = _
      simp only [ih]
      exact Eq.symm (LawfulMonad.bind_assoc _ _ _)

theorem toStage_act (a : Action α) : (Script.act a .pure).toStage faults = a.toStage faults :=
  bind_pure (a.toStage faults)

theorem toStage_writeFile (check name : String) (data : Bytes) :
    (writeFile check name data).toStage faults = Stage.writeFile check name data := toStage_act _

theorem toStage_readFile (check name : String) :
    (readFile check name).toStage faults = Stage.readFile check name := toStage_act _

theorem toStage_invoke (s : Step) (vars : Variables) (expect : ExitClass) :
    (invoke s vars expect).toStage faults = Stage.invoke faults s vars expect := toStage_act _

end Script

/-! ## Events -/

/-- A call of a tool, and what it gave. -/
structure Call where
  step : Step
  expect : ExitClass
  result : Except ToolError ToolOutput

/-- The tool ended with the code that was expected, and no line of its error stream shows a
fault. -/
def Call.Accepted (c : Call) (faults : List String) : Prop :=
  ∃ out, c.result = .ok out ∧ out.code = c.expect.code
    ∧ ∀ line ∈ Text.lines out.stderrText, ∀ fault ∈ faults, Tool.holds fault.toList line = false

/-- What happens in a run. -/
inductive Event where
  | entered (p : Phase)
  | called (c : Call)
  | failed (f : Failure)

namespace Event

/-- The phase that is entered. -/
def phase? : Event → Option Phase
  | entered p => some p
  | _ => none

/-- The event lets the run go on: no check failed, and a call gave what it must. -/
def Passes (faults : List String) : Event → Prop
  | entered _ => True
  | called c => c.Accepted faults
  | failed _ => False

end Event

theorem Tool.judge_eq_ok {tool : String} {expect : ExitClass} {faults : List String}
    {out out' : ToolOutput} : judge tool expect faults out = .ok out' ↔ out = out'
      ∧ out.code = expect.code
      ∧ ∀ line ∈ Text.lines out.stderrText, ∀ fault ∈ faults, holds fault.toList line = false := by
  have hnone : scanFaults out.stderrText faults = none
      ↔ ∀ line ∈ Text.lines out.stderrText, ∀ fault ∈ faults, holds fault.toList line = false := by
    simp only [scanFaults, List.find?_eq_none, List.any_eq_true, not_exists, not_and,
      Bool.not_eq_true]
  rw [← hnone, judge]
  cases scanFaults out.stderrText faults with
  | some line => exact ⟨nofun, fun h => nomatch h.2.2⟩
  | none =>
      by_cases hcode : out.code = expect.code
      · simp only [hcode, if_true, Except.ok.injEq, and_true]
      · simp only [hcode, if_false, reduceCtorEq, false_and, and_false]

/-- A call is accepted exactly if the tool ends as it must and shows no fault. -/
theorem Tool.runExpect_eq_ok {t : Tool} {inv : Invocation} {expect : ExitClass}
    {faults : List String} {files : FileTree} {out : ToolOutput} :
    (t.runExpect inv expect faults files).1 = .ok out
      ↔ (t.run inv files).1 = .ok out ∧ out.code = expect.code
        ∧ ∀ line ∈ Text.lines out.stderrText, ∀ fault ∈ faults,
          holds fault.toList line = false := by
  change (t.run inv files).1.bind (judge t.name expect faults) = .ok out ↔ _
  refine Result.bind_eq_ok.trans ⟨?_, fun ⟨hrun, h⟩ => ⟨out, hrun, judge_eq_ok.2 ⟨rfl, h⟩⟩⟩
  rintro ⟨out', hrun, hjudge⟩
  obtain ⟨rfl, h⟩ := judge_eq_ok.1 hjudge
  exact ⟨hrun, h⟩

theorem Tool.accepted_of_runExpect {s : Step} {vars : Variables} {expect : ExitClass}
    {faults : List String} {files : FileTree} {out : ToolOutput}
    (h : (s.tool.runExpect (s.invocation vars) expect faults files).1 = .ok out) :
    Call.Accepted ⟨s, expect, (s.tool.run (s.invocation vars) files).1⟩ faults :=
  ⟨out, runExpect_eq_ok.1 h⟩

namespace Action

variable {β : Type} {faults : List String} {r r' : Run}

/-- What happens in an action, a failed check apart. -/
def shows : Action β → Run → List Event
  | enter p, _ => [.entered p]
  | invoke s vars expect, r => [.called ⟨s, expect, (s.tool.run (s.invocation vars) r.files).1⟩]
  | _, _ => []

theorem not_failed_of_mem_shows {a : Action β} {f : Failure} : .failed f ∉ a.shows r := by
  cases a <;> simp [shows]

theorem passes_of_ok {a : Action β} {b : β} (h : (a.toStage faults).after r = (.ok b, r')) :
    ∀ e ∈ a.shows r, e.Passes faults := by
  cases a with
  | enter p =>
      intro e he
      rw [List.mem_singleton.1 he]
      trivial
  | invoke s vars expect =>
      intro e he
      rw [List.mem_singleton.1 he]
      rw [toStage, Stage.after_invoke, Prod.mk.injEq] at h
      cases hrun : (s.tool.runExpect (s.invocation vars) expect faults r.files).1 with
      | error err => rw [hrun] at h; cases h.1
      | ok out => exact Tool.accepted_of_runExpect hrun
  | fail check artifact detail => exact fun e he => absurd he List.not_mem_nil
  | write check name data => exact fun e he => absurd he List.not_mem_nil
  | read check name => exact fun e he => absurd he List.not_mem_nil

theorem trace_after (a : Action β) (faults : List String) (r : Run) :
    ((a.toStage faults).after r).2.trace
    = r.trace ++ (a.shows r).filterMap Event.phase? := by
  cases a with
  | enter p => rfl
  | invoke s vars expect =>
      rw [toStage, Stage.after_invoke]
      exact (List.append_nil _).symm
  | fail check artifact detail => exact (List.append_nil _).symm
  | write check name data =>
      rw [toStage, Stage.after_writeFile]
      refine Eq.trans ?_ (List.append_nil _).symm
      split <;> rfl
  | read check name =>
      rw [toStage, Stage.after_readFile]
      exact (List.append_nil _).symm

/-- A check fails in the phase that was entered last. -/
theorem phase_of_error {a : Action β} {f : Failure}
    (h : (a.toStage faults).after r = (.error f, r')) : f.phase = r'.phase := by
  have hmap {ε α : Type} {x : Except ε α} {g : ε → Failure} {s s' : Run}
      (hg : ∀ e, (g e).phase = s.phase) (hx : (x.mapError g, s') = (.error f, r'))
      (hs : s'.phase = s.phase) : f.phase = r'.phase := by
    cases x with
    | ok a => cases (Prod.mk.inj hx).1
    | error e =>
        obtain ⟨he, rfl⟩ := Prod.mk.inj hx
        rw [← Except.error.inj he, hg, hs]
  cases a with
  | enter p => cases (Prod.mk.inj h).1
  | invoke s vars expect =>
      rw [toStage, Stage.after_invoke] at h
      exact hmap (s := r) (fun _ => rfl) h rfl
  | fail check artifact detail =>
      obtain ⟨he, rfl⟩ := Prod.mk.inj h
      rw [← Except.error.inj he]
  | write check name data =>
      rw [toStage, Stage.after_writeFile] at h
      split at h
      · cases (Prod.mk.inj h).1
      · obtain ⟨he, rfl⟩ := Prod.mk.inj h
        rw [← Except.error.inj he]
  | read check name =>
      rw [toStage, Stage.after_readFile] at h
      exact hmap (s := r) (fun _ => rfl) h rfl

end Action

namespace Script

/-- What happens in the run of a script. -/
def events (faults : List String) : Script α → Run → List Event
  | .pure _, _ => []
  | .act a next, r =>
    a.shows r ++ match (a.toStage faults).after r with
      | (.ok b, r') => (next b).events faults r'
      | (.error f, _) => [.failed f]

variable {α : Type} {faults : List String}

/-- A run that passes passes in all that happens. -/
theorem passes_of_ok {x : Script α} {r r' : Run} {a : α}
    (h : (x.toStage faults).after r = (.ok a, r')) : ∀ e ∈ x.events faults r, e.Passes faults := by
  induction x generalizing r with
  | pure a => exact fun e he => absurd he List.not_mem_nil
  | act c next ih =>
      intro e he
      rw [toStage, Stage.after_bind] at h
      rw [events] at he
      cases hc : (c.toStage faults).after r with
      | mk res r₁ =>
          rw [hc] at h he
          cases res with
          | error f => cases (Prod.mk.inj h).1
          | ok b =>
              rcases List.mem_append.1 he with he | he
              · exact Action.passes_of_ok hc e he
              · exact ih b h e he

/-- The failure of a run is the last that happens, and the only failed check. -/
theorem events_of_error {x : Script α} {r r' : Run} {f : Failure}
    (h : (x.toStage faults).after r = (.error f, r')) : f.phase = r'.phase
      ∧ ∃ before, x.events faults r = before ++ [.failed f] ∧ ∀ g, .failed g ∉ before := by
  induction x generalizing r with
  | pure a => cases (Prod.mk.inj h).1
  | act c next ih =>
      rw [toStage, Stage.after_bind] at h
      rw [events]
      cases hc : (c.toStage faults).after r with
      | mk res r₁ =>
          rw [hc] at h
          cases res with
          | error g =>
              obtain ⟨hg, rfl⟩ := Prod.mk.inj h
              obtain rfl := Except.error.inj hg
              exact ⟨Action.phase_of_error hc, c.shows r, rfl,
                fun g => Action.not_failed_of_mem_shows⟩
          | ok b =>
              obtain ⟨hphase, before, hbefore, hnot⟩ := ih b h
              refine ⟨hphase, c.shows r ++ before, ?_, fun g hg => ?_⟩
              · rw [List.append_assoc, ← hbefore]
              · rcases List.mem_append.1 hg with hg | hg
                · exact Action.not_failed_of_mem_shows hg
                · exact hnot g hg

/-- The trace is that of the phases that are entered. -/
theorem trace_after (x : Script α) (faults : List String) (r : Run) :
    ((x.toStage faults).after r).2.trace
    = r.trace ++ (x.events faults r).filterMap Event.phase? := by
  induction x generalizing r with
  | pure a => exact (List.append_nil _).symm
  | act c next ih =>
      have htrace := c.trace_after faults r
      rw [toStage, Stage.after_bind, events, List.filterMap_append, ← List.append_assoc, ← htrace]
      cases hc : (c.toStage faults).after r with
      | mk res r₁ =>
          cases res with
          | error g => exact (List.append_nil _).symm
          | ok b => exact ih b r₁

end Script

end TiBench
