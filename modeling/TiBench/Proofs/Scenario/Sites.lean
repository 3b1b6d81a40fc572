import TiBench.Proofs.Scenario.Outcome
import TiBench.Proofs.Workspace

/-!
# Where tools are called

The calls of a run with the files that the tools find, what a call delivers, and how a script that
calls tools goes on or stops.
-/

namespace TiBench

/-- A call of a tool, with the files that it finds. -/
structure Site where
  step : Step
  vars : Variables
  files : FileTree

namespace Site

/-- What the call gives, and the files after it. -/
def ran (s : Site) : Except ToolError ToolOutput × FileTree :=
  s.step.tool.run (s.step.invocation s.vars) s.files

/-- What a variable stands for. -/
def value (s : Site) (name : String) : String := Template.expand s.vars (Template.hole name)

/-- What the tool finds in the file that a variable stands for. -/
def finds (s : Site) (name : String) : Except FileError Bytes :=
  s.files.read Workspace.path (s.value name)

/-- What the tool leaves in the file that a variable stands for. -/
def leaves (s : Site) (name : String) : Except FileError Bytes :=
  s.ran.2.read Workspace.path (s.value name)

/-- The call ends with code zero, and no line of its error stream shows a fault. -/
def Succeeds (s : Site) (faults : List String) (out : ToolOutput) : Prop :=
  s.ran.1 = .ok out ∧ out.code = 0
    ∧ ∀ line ∈ Text.lines out.stderrText, ∀ fault ∈ faults, Tool.holds fault.toList line = false

/-- The call succeeds, and its result is in its output file if its templates mention one, and else
in its output. -/
def Delivers (s : Site) (faults : List String) (data : Bytes) : Prop :=
  ∃ out, s.Succeeds faults out
    ∧ if s.step.writesFile then s.leaves "out" = .ok data else out.stdout = data

variable {s : Site} {faults : List String} {data data' : Bytes}

theorem Delivers.unique (h : s.Delivers faults data) (h' : s.Delivers faults data') :
    data = data' := by
  obtain ⟨out, hout, hdata⟩ := h
  obtain ⟨out', hout', hdata'⟩ := h'
  obtain rfl := Except.ok.inj (hout.1.symm.trans hout'.1)
  cases hfile : s.step.writesFile with
  | true =>
      rw [hfile, if_pos rfl] at hdata hdata'
      exact Except.ok.inj (hdata.symm.trans hdata')
  | false =>
      rw [hfile, if_neg Bool.false_ne_true] at hdata hdata'
      exact hdata.symm.trans hdata'

theorem succeeds_of_quiet (h : s.ran.1 = .ok ⟨0, data, []⟩) :
    s.Succeeds faults ⟨0, data, []⟩ := by
  have hlines : Text.lines (Text.ofUtf8Lossy []) = [] := by
    rw [Text.ofUtf8Lossy, Text.Utf8.read, Text.Utf8.readAfter]; rfl
  exact ⟨h, rfl, fun _ hline => absurd (hlines ▸ hline) List.not_mem_nil⟩

theorem delivers_of_output (h : s.ran.1 = .ok ⟨0, data, []⟩) (hfile : s.step.writesFile = false) :
    s.Delivers faults data :=
  ⟨_, succeeds_of_quiet h, by rw [hfile, if_neg Bool.false_ne_true]⟩

theorem delivers_of_file (h : s.ran.1 = .ok ⟨0, data', []⟩) (hfile : s.step.writesFile = true)
    (hleaves : s.leaves "out" = .ok data) : s.Delivers faults data :=
  ⟨_, succeeds_of_quiet h, by rw [hfile, if_pos rfl, hleaves]⟩

end Site

namespace Action

/-- The call that an action is. -/
def sites {β : Type} : Action β → Run → List Site
  | invoke s vars _, r => [⟨s, vars, r.files⟩]
  | _, _ => []

end Action

namespace Script

variable {α β : Type} {faults : List String} {files files' files'' : FileTree}
  {calls calls' : List Site}

/-- The calls in the run of a script. -/
def sites (faults : List String) : Script α → Run → List Site
  | .pure _, _ => []
  | .act a next, r =>
    a.sites r ++ match (a.toStage faults).after r with
      | (.ok b, r') => (next b).sites faults r'
      | (.error _, _) => []

theorem sites_bind (x : Script α) (f : α → Script β) (r : Run) : (x >>= f).sites faults r
    = x.sites faults r ++ match (x.toStage faults).after r with
      | (.ok a, r') => (f a).sites faults r'
      | (.error _, _) => [] := by
  induction x generalizing r with
  | pure a => rfl
  | act c next ih =>
      have hact : (Script.act c next >>= f) = .act c fun b => next b >>= f := rfl
      rw [hact, sites, sites, List.append_assoc, toStage, Stage.after_bind]
      congr 1
      rcases (c.toStage faults).after r with ⟨_ | b, r'⟩
      · rfl
      · exact ih b r'

/-- From these files on the script gives a result, leaves these files, and makes these calls. -/
def Gives (x : Script α) (faults : List String) (files : FileTree) (a : α) (files' : FileTree)
    (calls : List Site) : Prop :=
  ∀ trace, ∃ trace', (x.toStage faults).after ⟨files, trace⟩ = (.ok a, ⟨files', trace'⟩)
    ∧ x.sites faults ⟨files, trace⟩ = calls

/-- From these files on the script stops at a failed check, after these calls. -/
def Stops (x : Script α) (faults : List String) (files : FileTree) (calls : List Site) : Prop :=
  ∀ trace, ∃ f r, (x.toStage faults).after ⟨files, trace⟩ = (.error f, r)
    ∧ x.sites faults ⟨files, trace⟩ = calls

theorem gives_pure (a : α) (files : FileTree) :
    Gives (Pure.pure a : Script α) faults files a files [] :=
  fun trace => ⟨trace, rfl, rfl⟩

theorem Gives.bind {x : Script α} {f : α → Script β} {a : α} {b : β}
    (hx : Gives x faults files a files' calls) (hf : Gives (f a) faults files' b files'' calls') :
    Gives (x >>= f) faults files b files'' (calls ++ calls') := by
  intro trace
  obtain ⟨trace', hafter, hsites⟩ := hx trace
  obtain ⟨trace'', hafter', hsites'⟩ := hf trace'
  refine ⟨trace'', ?_, ?_⟩
  · rw [toStage_bind, Stage.after_bind, hafter]; exact hafter'
  · rw [sites_bind, hafter, hsites]; exact congrArg _ hsites'

theorem Gives.bind_stops {x : Script α} {f : α → Script β} {a : α}
    (hx : Gives x faults files a files' calls) (hf : Stops (f a) faults files' calls') :
    Stops (x >>= f) faults files (calls ++ calls') := by
  intro trace
  obtain ⟨trace', hafter, hsites⟩ := hx trace
  obtain ⟨e, r, hafter', hsites'⟩ := hf trace'
  refine ⟨e, r, ?_, ?_⟩
  · rw [toStage_bind, Stage.after_bind, hafter]; exact hafter'
  · rw [sites_bind, hafter, hsites]; exact congrArg _ hsites'

theorem Stops.bind {x : Script α} (hx : Stops x faults files calls) (f : α → Script β) :
    Stops (x >>= f) faults files calls := by
  intro trace
  obtain ⟨e, r, hafter, hsites⟩ := hx trace
  refine ⟨e, r, ?_, ?_⟩
  · rw [toStage_bind, Stage.after_bind, hafter]
  · rw [sites_bind, hafter, hsites]; exact List.append_nil _

/-! ## Actions -/

theorem sites_act (a : Action β) (r : Run) :
    (Script.act a .pure).sites faults r = a.sites r := by
  rw [sites]
  rcases (a.toStage faults).after r with ⟨_ | _, r'⟩ <;> exact List.append_nil _

theorem gives_enter (p : Phase) (files : FileTree) :
    Gives (Script.enter p) faults files () files [] :=
  fun trace => ⟨trace ++ [p], rfl, rfl⟩

theorem stops_fail (check artifact detail : String) (files : FileTree) :
    Stops (fail check artifact detail : Script α) faults files [] :=
  fun _ => ⟨_, _, rfl, rfl⟩

theorem gives_writeFile {check name : String} {data : Bytes}
    (h : files.write Workspace.path (Workspace.fileText name) data = .ok files') :
    Gives (Script.writeFile check name data) faults files () files' [] := by
  intro trace
  refine ⟨trace, ?_, sites_act _ _⟩
  rw [toStage_writeFile, Stage.after_writeFile, h]

theorem gives_readFile {check name : String} {data : Bytes}
    (h : files.read Workspace.path (Workspace.fileText name) = .ok data) :
    Gives (Script.readFile check name) faults files data files [] := by
  intro trace
  refine ⟨trace, ?_, sites_act _ _⟩
  rw [toStage_readFile, Stage.after_readFile, h]; rfl

theorem stops_readFile {check name : String}
    (h : ∀ data, files.read Workspace.path (Workspace.fileText name) ≠ .ok data) :
    Stops (Script.readFile check name) faults files [] := by
  intro trace
  cases hread : files.read Workspace.path (Workspace.fileText name) with
  | ok data => exact absurd hread (h data)
  | error e =>
      refine ⟨⟨(Run.mk files trace).phase, check, name, e.message⟩, ⟨files, trace⟩, ?_,
        sites_act _ _⟩
      rw [toStage_readFile, Stage.after_readFile, hread]; rfl

theorem gives_invoke {s : Site} {out : ToolOutput} (h : s.Succeeds faults out) :
    Gives (Script.invoke s.step s.vars .success) faults s.files out s.ran.2 [s] := by
  intro trace
  have hresult : (s.step.tool.runExpect (s.step.invocation s.vars) .success faults s.files).1
      = .ok out := Tool.runExpect_eq_ok.2 h
  refine ⟨trace, ?_, sites_act _ _⟩
  rw [toStage_invoke, Stage.after_invoke, hresult]; rfl

theorem stops_invoke {s : Site} (h : ∀ out, ¬s.Succeeds faults out) :
    Stops (Script.invoke s.step s.vars .success) faults s.files [s] := by
  intro trace
  cases hresult : (s.step.tool.runExpect (s.step.invocation s.vars) .success faults s.files).1 with
  | ok out => exact absurd (Tool.runExpect_eq_ok.1 hresult) (h out)
  | error e =>
      refine ⟨⟨(Run.mk s.files trace).phase, "tool run", s.step.tool.name, e.message⟩,
        ⟨s.ran.2, trace⟩, ?_, sites_act _ _⟩
      rw [toStage_invoke, Stage.after_invoke, hresult]; rfl

/-! ## Verdicts -/

/-- From these files on the script makes these calls, and then goes through exactly if `p`. -/
def Decides (x : Script Unit) (faults : List String) (files : FileTree) (calls : List Site)
    (p : Prop) : Prop :=
  (p ∧ ∃ files', x.Gives faults files () files' calls) ∨ (¬p ∧ x.Stops faults files calls)

variable {p : Prop}

theorem Gives.bind_decides {x : Script α} {f : α → Script Unit} {a : α}
    (hx : x.Gives faults files a files' calls) (hf : (f a).Decides faults files' calls' p) :
    (x >>= f).Decides faults files (calls ++ calls') p := by
  rcases hf with ⟨hp, files'', hf⟩ | ⟨hp, hf⟩
  · exact .inl ⟨hp, files'', hx.bind hf⟩
  · exact .inr ⟨hp, hx.bind_stops hf⟩

theorem decides_invoke {s : Site} {f : ToolOutput → Script Unit} {p : ToolOutput → Prop}
    (hf : ∀ out, (f out).Decides faults s.ran.2 [] (p out)) :
    (invoke s.step s.vars .success >>= f).Decides faults s.files [s]
      (∃ out, s.Succeeds faults out ∧ p out) := by
  by_cases hsucceeds : ∃ out, s.Succeeds faults out
  · obtain ⟨out, hout⟩ := hsucceeds
    have hiff : (∃ out, s.Succeeds faults out ∧ p out) ↔ p out := by
      refine ⟨fun ⟨out', hout', hp⟩ => ?_, fun hp => ⟨out, hout, hp⟩⟩
      rwa [Except.ok.inj (hout.1.symm.trans hout'.1)]
    rw [hiff]
    exact (gives_invoke hout).bind_decides (hf out)
  · exact .inr ⟨fun ⟨out, hout, _⟩ => hsucceeds ⟨out, hout⟩,
      (stops_invoke fun out hout => hsucceeds ⟨out, hout⟩).bind f⟩

/-! ## Scripts without calls -/

/-- From these files on the script makes no call and leaves the files as they are. It gives the one
value with the property, or it stops if there is none. -/
def Yields (x : Script α) (faults : List String) (files : FileTree) (p : α → Prop) : Prop :=
  (∃ a, (∀ b, p b ↔ b = a) ∧ x.Gives faults files a files [])
    ∨ ((∀ a, ¬p a) ∧ x.Stops faults files [])

theorem yields_pure (a : α) : (pure a : Script α).Yields faults files (· = a) :=
  .inl ⟨a, fun _ => .rfl, gives_pure a files⟩

theorem yields_fail (check artifact detail : String) :
    (fail check artifact detail : Script α).Yields faults files fun _ => False :=
  .inr ⟨fun _ => not_false, stops_fail check artifact detail files⟩

theorem yields_require {ε : Type} (check artifact : String) (message : ε → String)
    (result : Except ε α) :
    (require check artifact message result).Yields faults files (result = .ok ·) := by
  cases result with
  | ok a =>
      exact .inl ⟨a, fun b => ⟨fun h => (Except.ok.inj h).symm, fun h => h ▸ rfl⟩,
        gives_pure a files⟩
  | error e => exact .inr ⟨nofun, stops_fail _ _ _ files⟩

theorem yields_readFile (check name : String) : (readFile check name).Yields faults files
    (files.read Workspace.path (Workspace.fileText name) = .ok ·) := by
  cases hread : files.read Workspace.path (Workspace.fileText name) with
  | ok data =>
      exact .inl ⟨data, fun b => ⟨fun h => (Except.ok.inj h).symm, fun h => h ▸ rfl⟩,
        gives_readFile hread⟩
  | error e => exact .inr ⟨nofun, stops_readFile fun data => by rw [hread]; nofun⟩

namespace Yields

variable {x : Script α} {p : α → Prop}

theorem gives (h : x.Yields faults files p) {a : α} (ha : p a) :
    x.Gives faults files a files [] := by
  rcases h with ⟨b, hp, hgives⟩ | ⟨hnone, -⟩
  · rwa [(hp a).1 ha]
  · exact absurd ha (hnone a)

theorem stops (h : x.Yields faults files p) (hnone : ∀ a, ¬p a) : x.Stops faults files [] := by
  rcases h with ⟨a, hp, -⟩ | ⟨-, hstops⟩
  · exact absurd ((hp a).2 rfl) (hnone a)
  · exact hstops

theorem congr {q : α → Prop} (h : x.Yields faults files p) (hq : ∀ a, p a ↔ q a) :
    x.Yields faults files q := by
  obtain rfl : p = q := funext fun a => propext (hq a)
  exact h

theorem bind {f : α → Script β} {q : α → β → Prop} (hx : x.Yields faults files p)
    (hf : ∀ a, (f a).Yields faults files (q a)) :
    (x >>= f).Yields faults files fun b => ∃ a, p a ∧ q a b := by
  rcases hx with ⟨a, hp, hx⟩ | ⟨hnone, hx⟩
  · simp only [hp, exists_eq_left]
    rcases hf a with ⟨b, hq, hb⟩ | ⟨hnone, hb⟩
    · exact .inl ⟨b, hq, Gives.bind hx hb⟩
    · exact .inr ⟨hnone, Gives.bind_stops hx hb⟩
  · exact .inr ⟨fun b ⟨a, ha, _⟩ => hnone a ha, hx.bind f⟩

theorem when {x : Script Unit} {p c : Prop} [Decidable c] (h : x.Yields faults files fun _ => p) :
    (if c then x else pure ()).Yields faults files fun _ => c → p := by
  split
  · rename_i hc
    exact h.congr fun _ => (imp_iff_right hc).symm
  · rename_i hc
    exact (yields_pure ()).congr fun _ => iff_of_true rfl fun h => absurd h hc

theorem decides {x : Script Unit} {p : Unit → Prop} (h : x.Yields faults files p) :
    x.Decides faults files [] (p ()) := by
  by_cases hp : p ()
  · exact .inl ⟨hp, files, h.gives hp⟩
  · exact .inr ⟨hp, h.stops fun _ => hp⟩

end Yields

/-! ## Calls with a result -/

theorem gives_send {s : Site} {file : String} {data : Bytes}
    (hout : s.value "out" = Workspace.fileText file)
    (h : s.Delivers faults data) :
    Gives (send s.step s.vars file) faults s.files data s.ran.2 [s] := by
  obtain ⟨out, hsucceeds, hdata⟩ := h
  rw [Site.leaves, hout] at hdata
  have hresult : Gives (result s.step file out) faults s.ran.2 data s.ran.2 [] := by
    rw [result]
    cases hfile : s.step.writesFile with
    | true =>
        rw [hfile, if_pos rfl] at hdata
        exact gives_readFile hdata
    | false =>
        rw [hfile, if_neg Bool.false_ne_true] at hdata
        exact hdata ▸ gives_pure out.stdout s.ran.2
  exact (gives_invoke hsucceeds).bind hresult

theorem stops_send {s : Site} {file : String}
    (hout : s.value "out" = Workspace.fileText file)
    (h : ∀ data, ¬s.Delivers faults data) :
    Stops (send s.step s.vars file) faults s.files [s] := by
  by_cases hsucceeds : ∃ out, s.Succeeds faults out
  · obtain ⟨out, hout'⟩ := hsucceeds
    have hresult : Stops (result s.step file out) faults s.ran.2 [] := by
      rw [result]
      cases hfile : s.step.writesFile with
      | true =>
          refine stops_readFile fun data hdata => h data ⟨out, hout', ?_⟩
          rw [hfile, if_pos rfl, Site.leaves, hout, hdata]
      | false =>
          refine absurd ⟨out, hout', ?_⟩ (h out.stdout)
          rw [hfile, if_neg Bool.false_ne_true]
    exact (gives_invoke hout').bind_stops hresult
  · exact (stops_invoke fun out hout' => hsucceeds ⟨out, hout'⟩).bind _

/-- A check on what a call delivers. -/
theorem decides_send {s : Site} {file : String} {f : Bytes → Script Unit} {p : Bytes → Prop}
    (hout : s.value "out" = Workspace.fileText file)
    (hf : ∀ data, (f data).Decides faults s.ran.2 [] (p data)) :
    (send s.step s.vars file >>= f).Decides faults s.files [s]
      (∃ data, s.Delivers faults data ∧ p data) := by
  by_cases hdelivers : ∃ data, s.Delivers faults data
  · obtain ⟨data, hdata⟩ := hdelivers
    have hiff : (∃ data, s.Delivers faults data ∧ p data) ↔ p data :=
      ⟨fun ⟨_, hdata', hp⟩ => hdata'.unique hdata ▸ hp, fun hp => ⟨data, hdata, hp⟩⟩
    rw [hiff]
    exact (gives_send hout hdata).bind_decides (hf data)
  · exact .inr ⟨fun ⟨data, hdata, _⟩ => hdelivers ⟨data, hdata⟩,
      (stops_send hout fun data hdata => hdelivers ⟨data, hdata⟩).bind f⟩

end Script

/-! ## Scenarios -/

namespace Scenario

variable {s : Scenario} {clock : Timestamp} {faults : List String} {calls : List Site}

/-- The calls in the run of a scenario. -/
def sites (clock : Timestamp) (faults : List String) (s : Scenario) : List Site :=
  (s.script clock).sites faults Run.start

theorem passed_iff_of_decides {p : Prop}
    (h : (s.script clock).Decides faults Workspace.files calls p) :
    ((s.run clock faults).hasPassed = true ↔ p) ∧ s.sites clock faults = calls := by
  rcases h with ⟨hp, files', h⟩ | ⟨hp, h⟩
  · obtain ⟨trace, hafter, hsites⟩ := h [.setup]
    refine ⟨iff_of_true ?_ hp, hsites⟩
    change ((s.script clock).toStage faults).after Run.start = _ at hafter
    rw [run_eq, hafter]; rfl
  · obtain ⟨f, r, hafter, hsites⟩ := h [.setup]
    refine ⟨iff_of_false ?_ hp, hsites⟩
    change ((s.script clock).toStage faults).after Run.start = _ at hafter
    rw [run_eq, hafter]; exact Bool.false_ne_true

end Scenario

end TiBench
