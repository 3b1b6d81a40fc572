import TiBench.Proofs.Scenario.Plan

/-!
# How scenarios end

The outcome of a scenario against what happens in its run, whatever its tools do.
-/

namespace TiBench

/-- Where every run starts. -/
def Run.start : Run := ⟨Workspace.files, [.setup]⟩

namespace Scenario

/-- What a scenario sets out to do. -/
def plan : Scenario → List Mark
  | roundTrip t => t.plan
  | errorPath t => t.plan
  | diskTrip t => t.plan

/-- The phases between setup and teardown. -/
def phases : Scenario → List Phase
  | roundTrip t =>
    [.generate, .invoke] ++ (if t.inverse?.isSome then [.invokeInverse] else []) ++ [.compare]
  | errorPath _ => [.generate, .invoke, .diagnose]
  | diskTrip _ => [.generate, .invoke, .compare]

/-- What happens in the run of a scenario. -/
def events (clock : Timestamp) (faults : List String) (s : Scenario) : List Event :=
  (s.script clock).events faults Run.start

theorem follows_script (s : Scenario) (clock : Timestamp) : (s.script clock).Follows s.plan := by
  cases s with
  | roundTrip t => exact t.follows_script
  | errorPath t => exact t.follows_script
  | diskTrip t => exact t.follows_script clock

theorem phases_plan (s : Scenario) : s.plan.filterMap Mark.phase? = s.phases := by
  cases s with
  | roundTrip t =>
      rw [plan, RoundTrip.plan, phases]
      cases t.inverse? <;> rfl
  | errorPath t => rfl
  | diskTrip t => rfl

theorem events_eq_cons (s : Scenario) (clock : Timestamp) (faults : List String) :
    ∃ rest, s.events clock faults = .entered .generate :: rest := by
  cases s with
  | roundTrip t => exact ⟨_, rfl⟩
  | errorPath t => exact ⟨_, rfl⟩
  | diskTrip t =>
      rw [events, script, DiskTrip.script]
      cases t.direction with
      | extracts => exact ⟨_, rfl⟩
      | adds => exact ⟨_, rfl⟩

theorem phases_events (s : Scenario) (clock : Timestamp) (faults : List String) :
    (s.events clock faults).filterMap Event.phase?
      = ((s.events clock faults).filterMap Event.mark?).filterMap Mark.phase? := by
  rw [List.filterMap_filterMap]
  exact congrArg (List.filterMap · _) (funext Event.phase?_eq)

theorem eq_of_append_eq_append_cons {α : Type} {l l' l'' : List α} {a b : α}
    (h : l ++ [a] = l' ++ b :: l'') (hb : b ∉ l) : l'' = [] ∧ a = b := by
  rcases List.append_eq_append_iff.1 h with ⟨m, -, hm⟩ | ⟨m, hl, hm⟩
  · cases m with
    | nil => exact ⟨(List.cons.inj hm).2.symm, (List.cons.inj hm).1⟩
    | cons x m => cases m <;> cases (List.cons.inj hm).2
  · cases m with
    | nil => exact ⟨(List.cons.inj hm).2, (List.cons.inj hm).1.symm⟩
    | cons x m =>
        rw [hl, (List.cons.inj hm).1] at hb
        exact absurd (List.mem_append_right _ List.mem_cons_self) hb

/-- The outcome of a scenario tells what happened in its run. -/
structure Tells (s : Scenario) (faults : List String) (events : List Event) (o : Outcome) :
    Prop where
  trace_eq : o.trace = .setup :: events.filterMap Event.phase? ++ [.teardown, o.phase]
  phase_eq : o.phase = if o.failure?.isNone then .passed else .failed
  phase_iff : o.phase = .passed ↔ o.failure? = none
  generate : ∃ rest, events = .entered .generate :: rest
  phases : events.filterMap Event.phase? <+: s.phases
  marks : events.filterMap Event.mark? <+: s.plan
  /-- After a failed check nothing happens, no call and no other phase. -/
  stops : ∀ before f after, events = before ++ .failed f :: after →
    after = [] ∧ o.failure? = some f
  failed : ∀ f, o.failure? = some f → .failed f ∈ events
    ∧ (events.filterMap Event.phase?).getLast? = some f.phase
  passed : o.failure? = none → events.filterMap Event.phase? = s.phases
    ∧ events.filterMap Event.mark? = s.plan ∧ ∀ c, .called c ∈ events → c.Accepted faults

theorem run_eq (s : Scenario) (clock : Timestamp) (faults : List String) : s.run clock faults
    = match ((s.script clock).toStage faults).after Run.start with
      | (.ok _, r) => ⟨s.name, .passed, r.trace ++ [.teardown, .passed], none⟩
      | (.error f, r) => ⟨s.name, .failed, r.trace ++ [.teardown, .failed], some f⟩ := by
  rw [run, Stage.outcome]
  change _ = match (s.stage clock faults).run.run ⟨Workspace.files, [.setup]⟩ with
    | (.ok _, r) => _
    | (.error f, r) => _
  rcases (s.stage clock faults).run.run ⟨Workspace.files, [.setup]⟩ with ⟨_ | _, r⟩ <;> rfl

theorem trace_of_after {s : Scenario} {clock : Timestamp} {faults : List String}
    {res : Except Failure Unit} {r : Run}
    (h : ((s.script clock).toStage faults).after Run.start = (res, r)) :
    r.trace = .setup :: (s.events clock faults).filterMap Event.phase? := by
  have htrace := (s.script clock).trace_after faults Run.start
  rw [h] at htrace
  exact htrace

theorem phases_prefix_events (s : Scenario) (clock : Timestamp) (faults : List String) :
    (s.events clock faults).filterMap Event.phase? <+: s.phases
      ∧ (s.events clock faults).filterMap Event.mark? <+: s.plan := by
  have hmarks := ((s.follows_script clock).marks faults Run.start).1
  refine ⟨?_, hmarks⟩
  rw [phases_events, ← phases_plan]
  exact hmarks.filterMap _

theorem tells_of_ok {s : Scenario} {clock : Timestamp} {faults : List String} {u : Unit} {r : Run}
    (h : ((s.script clock).toStage faults).after Run.start = (.ok u, r)) :
    s.Tells faults (s.events clock faults)
      ⟨s.name, .passed, r.trace ++ [.teardown, .passed], none⟩ := by
  have hpasses := Script.passes_of_ok h
  have hdone := ((s.follows_script clock).marks faults Run.start).2 u r h
  constructor
  case trace_eq => exact congrArg (· ++ [Phase.teardown, .passed]) (trace_of_after h)
  case phase_eq => rfl
  case phase_iff => exact ⟨fun _ => rfl, fun _ => rfl⟩
  case generate => exact s.events_eq_cons clock faults
  case phases => exact (s.phases_prefix_events clock faults).1
  case marks => exact (s.phases_prefix_events clock faults).2
  case stops =>
    intro before f after hevents
    refine (hpasses (.failed f) ?_).elim
    change _ ∈ s.events clock faults
    rw [hevents]
    exact List.mem_append_right _ List.mem_cons_self
  case failed => exact nofun
  case passed =>
    refine fun _ => ⟨?_, hdone, fun c hc => hpasses _ hc⟩
    rw [phases_events, ← phases_plan]
    exact congrArg _ hdone

theorem tells_of_error {s : Scenario} {clock : Timestamp} {faults : List String} {f : Failure}
    {r : Run} (h : ((s.script clock).toStage faults).after Run.start = (.error f, r)) :
    s.Tells faults (s.events clock faults)
      ⟨s.name, .failed, r.trace ++ [.teardown, .failed], some f⟩ := by
  obtain ⟨hphase, before, hbefore, hnot⟩ := Script.events_of_error h
  change s.events clock faults = before ++ [.failed f] at hbefore
  constructor
  case trace_eq => exact congrArg (· ++ [Phase.teardown, .failed]) (trace_of_after h)
  case phase_eq => rfl
  case phase_iff => exact ⟨nofun, nofun⟩
  case generate => exact s.events_eq_cons clock faults
  case phases => exact (s.phases_prefix_events clock faults).1
  case marks => exact (s.phases_prefix_events clock faults).2
  case stops =>
    intro before' g after hevents
    rw [hbefore] at hevents
    obtain ⟨hafter, hfailed⟩ := eq_of_append_eq_append_cons hevents (hnot g)
    exact ⟨hafter, congrArg some (Event.failed.inj hfailed)⟩
  case failed =>
    intro g hg
    obtain rfl := Option.some.inj hg
    refine ⟨?_, ?_⟩
    · rw [hbefore]
      exact List.mem_append_right _ List.mem_cons_self
    · -- The first phase is entered before anything can fail, so that setup is never the last.
      obtain ⟨rest, hrest⟩ := s.events_eq_cons clock faults
      rw [hphase, Run.phase, trace_of_after h, hrest]
      exact (List.getLast?_eq_some_getLast (List.cons_ne_nil _ _)).trans rfl
  case passed => exact nofun

/-- Whatever the tools of a scenario do, its run follows its plan up to the first failed check, and
its outcome tells how far. -/
theorem run_tells (s : Scenario) (clock : Timestamp) (faults : List String) :
    (s.script clock).toStage faults = s.stage clock faults
      ∧ s.Tells faults (s.events clock faults) (s.run clock faults) := by
  refine ⟨rfl, ?_⟩
  rw [run_eq]
  cases h : ((s.script clock).toStage faults).after Run.start with
  | mk res r =>
      cases res with
      | ok u => exact tells_of_ok h
      | error f => exact tells_of_error h

end Scenario

end TiBench
