import TiBench.Proofs.Compare
import TiBench.Proofs.Scenario.Sites
import TiBench.Proofs.Tool.Script

/-!
# The route of a payload

In a round trip the payload reaches the forward step, what that delivers reaches the inverse step,
and the verdict is on what the last step delivers, whether results go through files or not.
-/

namespace TiBench

/-- The tool finds a payload and no result, in a workspace that is there. -/
structure Site.Ready (s : Site) (payload : Bytes) : Prop where
  present : Workspace.Present s.files
  finds : s.finds "in" = .ok payload
  fresh : s.files.hasPath Workspace.path (s.value "out") = false

/-- The step changes no file but the one of its result, and none if its result is its output. -/
def Step.TouchesOnly (s : Step) (vars : Variables) : Prop :=
  ∀ files p, (s.writesFile = true →
      files.locate Workspace.path (Template.expand vars (Template.hole "out")) ≠ .ok p) →
    (s.tool.run (s.invocation vars) files).2.get? p = files.get? p

namespace RoundTrip

/-- The variables of a step, for a payload that loads at `base`. -/
def varsAt (base : UInt16) (input output : String) : Variables :=
  [("in", Workspace.fileText input), ("out", Workspace.fileText output),
    ("base", Text.hex 4 base.toNat)]

variable {base : UInt16} {input output : String}

theorem expand_varsAt (hi : input ∈ Workspace.fileNames) (ho : output ∈ Workspace.fileNames) :
    Template.expand (varsAt base input output) (Template.hole "in") = Workspace.fileText input
      ∧ Template.expand (varsAt base input output) (Template.hole "out")
        = Workspace.fileText output := by
  have hnames : ∀ other ∈ (varsAt base input output).map Prod.fst, Template.IsName other := by
    have hfixed : ∀ other ∈ ["in", "out", "base"], Template.IsName other := by decide
    exact hfixed
  exact ⟨Template.expand_hole rfl (by decide) hnames (Workspace.plain hi).fixed,
    Template.expand_hole rfl (by decide) hnames (Workspace.plain ho).fixed⟩

/-- What it takes to be ready, in terms of the files. -/
theorem ready_of_files {step : Step} {files : FileTree} {payload : Bytes}
    (hi : input ∈ Workspace.fileNames) (ho : output ∈ Workspace.fileNames)
    (hpresent : Workspace.Present files)
    (hinput : files.get? (Workspace.file input) = some (.file payload))
    (houtput : files.get? (Workspace.file output) = none) :
    Site.Ready ⟨step, varsAt base input output, files⟩ payload := by
  constructor
  case present => exact hpresent
  case finds =>
    rw [Site.finds, Site.value, (expand_varsAt hi ho).1]
    exact (hpresent.read_eq_ok hi).2 hinput
  case fresh =>
    rw [Site.value, (expand_varsAt hi ho).2]
    exact (hpresent.hasPath_eq_false ho).2 houtput

/-! ## The parts of a round trip -/

/-- The steps in their order. -/
def steps (t : RoundTrip) : List Step := t.forward :: t.inverse?.toList

/-- The result is the payload, but for the mask and the tolerance. -/
def Accepts (t : RoundTrip) (result : Bytes) : Prop :=
  Compare.compareBytes t.vector.payload result t.mask t.tolerance = .ok ()

variable {t : RoundTrip} {inverse : Step} {there : Bytes}

theorem script_eq_of_none (h : t.inverse? = none) : t.script = (t.prepare >>= fun _ =>
    Script.send t.forward (t.vars "input.bin" "stage1.out") "stage1.out" >>= t.finish) := by
  rw [script, h]; rfl

theorem script_eq_of_some (h : t.inverse? = some inverse) : t.script = (t.prepare >>= fun _ =>
    Script.send t.forward (t.vars "input.bin" "stage1.out") "stage1.out" >>= fun there =>
    t.bring there >>= fun _ =>
    Script.send inverse (t.vars "stage1.out" "result.bin") "result.bin" >>= t.finish) := by
  simp only [script, h, back, Script.bind_assoc]

theorem decides_finish (result : Bytes) (faults : List String) (files : FileTree) :
    (t.finish result).Decides faults files [] (t.Accepts result) :=
  (Script.gives_enter .compare files).bind_decides (Script.yields_require ..).decides

/-! ## The calls -/

section

variable (t)

/-- The call of the forward step. -/
def forwardSite : Site where
  step := t.forward
  vars := t.vars "input.bin" "stage1.out"
  files := Workspace.files.put (Workspace.file "input.bin") (.file t.vector.payload)

theorem get?_forwardSite {name : String} (h : Workspace.file name ≠ Workspace.file "input.bin") :
    t.forwardSite.files.get? (Workspace.file name) = none :=
  Workspace.get?_put_files h _

theorem ready_forwardSite : t.forwardSite.Ready t.vector.payload :=
  ready_of_files (by decide) (by decide) (Workspace.present_files.put _ _)
    (Workspace.get?_put_self _ _ _) (t.get?_forwardSite (by decide))

theorem gives_prepare :
    t.prepare.Gives faults Workspace.files () t.forwardSite.files [] := by
  refine (Script.gives_enter _ _).bind ((Script.gives_writeFile ?_).bind (Script.gives_enter _ _))
  exact Workspace.present_files.write_new (by decide) (Workspace.get?_files _) _

/-- The files that the inverse step finds. -/
def brought (there : Bytes) : FileTree :=
  if t.forward.writesFile then t.forwardSite.ran.2
  else t.forwardSite.ran.2.put (Workspace.file "stage1.out") (.file there)

/-- The call of the inverse step. -/
def inverseSite (inverse : Step) (there : Bytes) : Site where
  step := inverse
  vars := t.vars "stage1.out" "result.bin"
  files := t.brought there

end

theorem value_forwardSite : t.forwardSite.value "out" = Workspace.fileText "stage1.out" :=
  (expand_varsAt (by decide) (by decide)).2

theorem value_inverseSite :
    (t.inverseSite inverse there).value "out" = Workspace.fileText "result.bin" :=
  (expand_varsAt (by decide) (by decide)).2

/-! ## Steps that touch only their own results -/

section

variable (htouches : t.forward.TouchesOnly (t.vars "input.bin" "stage1.out"))

include htouches

theorem get?_ran_forwardSite {p : Path}
    (hp : t.forward.writesFile = true → p ≠ Workspace.file "stage1.out") :
    t.forwardSite.ran.2.get? p = t.forwardSite.files.get? p := by
  refine htouches t.forwardSite.files p fun hfile heq => hp hfile ?_
  change t.forwardSite.files.locate _ (t.forwardSite.value "out") = _ at heq
  rw [value_forwardSite, t.ready_forwardSite.present.locate_eq (by decide)] at heq
  exact (Except.ok.inj heq).symm

theorem present_ran_forwardSite : Workspace.Present t.forwardSite.ran.2 :=
  t.ready_forwardSite.present.of_same fun _ hp => get?_ran_forwardSite htouches fun _ => hp

theorem gives_bring :
    (t.bring there).Gives faults t.forwardSite.ran.2 () (t.brought there) [] := by
  refine (Script.gives_enter _ _).bind ?_
  rw [brought]
  cases hfile : t.forward.writesFile with
  | true => exact Script.gives_pure _ _
  | false =>
      have hfree : t.forwardSite.ran.2.get? (Workspace.file "stage1.out") = none :=
        (get?_ran_forwardSite htouches fun h => absurd h (hfile ▸ Bool.false_ne_true)).trans
          (t.get?_forwardSite (by decide))
      exact Script.gives_writeFile
        ((present_ran_forwardSite htouches).write_new (by decide) hfree _)

/-- What the forward step delivers is in the file where the inverse step looks for it. -/
theorem ready_inverseSite (h : t.forwardSite.Delivers faults there) :
    (t.inverseSite inverse there).Ready there := by
  have hpresent := present_ran_forwardSite htouches
  have hfree : t.forwardSite.ran.2.get? (Workspace.file "result.bin") = none :=
    (get?_ran_forwardSite htouches fun _ => by decide).trans (t.get?_forwardSite (by decide))
  obtain ⟨out, -, hthere⟩ := h
  cases hfile : t.forward.writesFile with
  | true =>
      have hbrought : t.brought there = t.forwardSite.ran.2 := by rw [brought, hfile, if_pos rfl]
      rw [show t.forwardSite.step.writesFile = true from hfile, if_pos rfl, Site.leaves,
        value_forwardSite, hpresent.read_eq_ok (by decide), ← hbrought] at hthere
      rw [← hbrought] at hpresent hfree
      exact ready_of_files (by decide) (by decide) hpresent hthere hfree
  | false =>
      have hbrought : t.brought there
          = t.forwardSite.ran.2.put (Workspace.file "stage1.out") (.file there) := by
        rw [brought, hfile, if_neg Bool.false_ne_true]
      refine ready_of_files (by decide) (by decide) ?_ ?_ ?_
      · rw [hbrought]; exact hpresent.put _ _
      · rw [hbrought]; exact Workspace.get?_put_self _ _ _
      · rw [hbrought]; exact (FileTree.get?_put_of_ne _ _ (by decide)).trans hfree

end

/-! ## The verdict -/

/-- The calls find the payload and what the call before them delivered, and the verdict tells
whether all of them deliver something, and the last one something that is accepted. -/
structure Routes (t : RoundTrip) (faults : List String) (calls : List Site) (passed : Prop) :
    Prop where
  steps : calls.map Site.step <+: t.steps
  /-- No step is left out unless a step before it delivers nothing. -/
  complete : (∀ s ∈ calls, ∃ data, s.Delivers faults data) → calls.map Site.step = t.steps
  payload : ∀ s ∈ calls.head?, s.finds "in" = .ok t.vector.payload
  handed : ∀ first second, calls = [first, second] →
    ∃ there, first.Delivers faults there ∧ second.finds "in" = .ok there
  /-- No call finds a result that stands there already. -/
  fresh : ∀ s ∈ calls, s.files.hasPath Workspace.path (s.value "out") = false
  passed_iff : passed ↔ (∀ s ∈ calls, ∃ data, s.Delivers faults data)
    ∧ ∃ last ∈ calls.getLast?, ∃ result, last.Delivers faults result ∧ t.Accepts result

theorem routes_single (h : (∃ data, t.forwardSite.Delivers faults data) → t.inverse? = none) :
    t.Routes faults [t.forwardSite]
      (∃ data, t.forwardSite.Delivers faults data ∧ t.Accepts data) := by
  have hall {p : Site → Prop} : (∀ s ∈ [t.forwardSite], p s) ↔ p t.forwardSite :=
    List.forall_mem_singleton
  constructor
  case steps => exact List.prefix_append [t.forward] _
  case complete =>
    intro hdelivers
    rw [RoundTrip.steps, h (hall.1 hdelivers)]; rfl
  case payload =>
    intro s hs
    obtain rfl := Option.some.inj hs
    exact t.ready_forwardSite.finds
  case handed => exact fun _ _ hcalls => nomatch hcalls
  case fresh => exact hall.2 t.ready_forwardSite.fresh
  case passed_iff =>
    rw [hall]
    constructor
    · rintro ⟨data, hdelivers, haccepts⟩
      exact ⟨⟨data, hdelivers⟩, _, rfl, data, hdelivers, haccepts⟩
    · rintro ⟨-, last, hlast, result, hdelivers, haccepts⟩
      obtain rfl := Option.some.inj hlast
      exact ⟨result, hdelivers, haccepts⟩

theorem routes_pair (hinverse : t.inverse? = some inverse)
    (htouches : t.forward.TouchesOnly (t.vars "input.bin" "stage1.out"))
    (hthere : t.forwardSite.Delivers faults there) :
    t.Routes faults [t.forwardSite, t.inverseSite inverse there]
      (∃ data, (t.inverseSite inverse there).Delivers faults data ∧ t.Accepts data) := by
  have hready : (t.inverseSite inverse there).Ready there := ready_inverseSite htouches hthere
  have hsteps : [t.forward, inverse] = t.steps := by rw [RoundTrip.steps, hinverse]; rfl
  have hall {p : Site → Prop} : (∀ s ∈ [t.forwardSite, t.inverseSite inverse there], p s)
      ↔ p t.forwardSite ∧ p (t.inverseSite inverse there) := by
    rw [List.forall_mem_cons, List.forall_mem_singleton]
  constructor
  case steps => exact hsteps ▸ List.prefix_rfl
  case complete => exact fun _ => hsteps
  case payload =>
    intro s hs
    obtain rfl := Option.some.inj hs
    exact t.ready_forwardSite.finds
  case handed =>
    intro first second hcalls
    cases hcalls
    exact ⟨there, hthere, hready.finds⟩
  case fresh => exact hall.2 ⟨t.ready_forwardSite.fresh, hready.fresh⟩
  case passed_iff =>
    rw [hall]
    constructor
    · rintro ⟨data, hdelivers, haccepts⟩
      exact ⟨⟨⟨there, hthere⟩, data, hdelivers⟩, _, rfl, data, hdelivers, haccepts⟩
    · rintro ⟨-, last, hlast, result, hdelivers, haccepts⟩
      obtain rfl := Option.some.inj hlast
      exact ⟨result, hdelivers, haccepts⟩

theorem decides_script_pair (hinverse : t.inverse? = some inverse)
    (htouches : t.forward.TouchesOnly (t.vars "input.bin" "stage1.out"))
    (hthere : t.forwardSite.Delivers faults there) :
    t.script.Decides faults Workspace.files [t.forwardSite, t.inverseSite inverse there]
      (∃ data, (t.inverseSite inverse there).Delivers faults data ∧ t.Accepts data) := by
  rw [script_eq_of_some hinverse]
  refine t.gives_prepare.bind_decides
    ((Script.gives_send value_forwardSite hthere).bind_decides
      ((gives_bring htouches).bind_decides ?_))
  exact Script.decides_send value_inverseSite fun data => decides_finish data _ _

theorem decides_script_single
    (h : (∃ data, t.forwardSite.Delivers faults data) → t.inverse? = none) :
    t.script.Decides faults Workspace.files [t.forwardSite]
      (∃ data, t.forwardSite.Delivers faults data ∧ t.Accepts data) := by
  cases hinverse : t.inverse? with
  | none =>
      rw [script_eq_of_none hinverse]
      exact t.gives_prepare.bind_decides
        (Script.decides_send value_forwardSite fun data => decides_finish data _ _)
  | some inverse =>
      have hnothing (data : Bytes) : ¬t.forwardSite.Delivers faults data := fun hdata => by
        rw [h ⟨data, hdata⟩] at hinverse; cases hinverse
      rw [script_eq_of_some hinverse]
      exact .inr ⟨fun ⟨data, hdata, _⟩ => hnothing data hdata,
        t.gives_prepare.bind_stops ((Script.stops_send value_forwardSite hnothing).bind _)⟩

theorem routes (clock : Timestamp) (faults : List String)
    (htouches : t.forward.TouchesOnly (t.vars "input.bin" "stage1.out")) :
    t.Routes faults ((Scenario.roundTrip t).sites clock faults)
      (((Scenario.roundTrip t).run clock faults).hasPassed = true) := by
  have hroutes {calls : List Site} {p : Prop}
      (h : t.script.Decides faults Workspace.files calls p) (hcalls : t.Routes faults calls p) :
      t.Routes faults ((Scenario.roundTrip t).sites clock faults)
        (((Scenario.roundTrip t).run clock faults).hasPassed = true) := by
    have hscript : ((Scenario.roundTrip t).script clock).Decides faults Workspace.files calls p := h
    obtain ⟨hpassed, hsites⟩ := Scenario.passed_iff_of_decides hscript
    rw [hsites, hpassed]
    exact hcalls
  by_cases hboth : ∃ inverse there, t.inverse? = some inverse ∧ t.forwardSite.Delivers faults there
  · obtain ⟨inverse, there, hinverse, hthere⟩ := hboth
    exact hroutes (decides_script_pair hinverse htouches hthere)
      (routes_pair hinverse htouches hthere)
  · have hsingle : (∃ data, t.forwardSite.Delivers faults data) → t.inverse? = none :=
      fun ⟨data, hdata⟩ => Option.eq_none_iff_forall_ne_some.2 fun inverse hinverse =>
        hboth ⟨inverse, data, hinverse, hdata⟩
    exact hroutes (decides_script_single hsingle) (routes_single hsingle)

end RoundTrip

/-! ## Inverse steps -/

/-- Whatever the payload, the forward step delivers something from which the other step delivers the
payload again. -/
def Step.Undoes (inverse forward : Step) (faults : List String) : Prop :=
  ∀ base payload files,
    let first : Site := ⟨forward, RoundTrip.varsAt base "input.bin" "stage1.out", files⟩
    first.Ready payload → ∃ there, first.Delivers faults there
      ∧ ∀ files',
        let second : Site := ⟨inverse, RoundTrip.varsAt base "stage1.out" "result.bin", files'⟩
        second.Ready there → second.Delivers faults payload

namespace RoundTrip

theorem accepts_payload (t : RoundTrip) : t.Accepts t.vector.payload :=
  Compare.compareBytes_eq_ok_iff.2
    ⟨⟨Nat.le_refl _, Nat.le_add_right _ _⟩, fun _ _ _ hx hy _ => Option.some.inj (hx.symm.trans hy)⟩

theorem passes_of_undoes {t : RoundTrip} {inverse : Step} (clock : Timestamp)
    {faults : List String} (hinverse : t.inverse? = some inverse)
    (htouches : t.forward.TouchesOnly (t.vars "input.bin" "stage1.out"))
    (hundoes : inverse.Undoes t.forward faults) :
    ((Scenario.roundTrip t).run clock faults).hasPassed = true := by
  obtain ⟨there, hthere, hback⟩ := hundoes _ _ _ t.ready_forwardSite
  refine (Scenario.passed_iff_of_decides (s := .roundTrip t)
    (decides_script_pair hinverse htouches hthere)).1.2 ?_
  exact ⟨_, hback _ (ready_inverseSite htouches hthere), t.accepts_payload⟩

/-- What reaches which step of a round trip and when it passes, and that round trips there and back
pass if the inverse step undoes the forward step. -/
theorem payload_routed (clock : Timestamp) (faults : List String) :
    (∀ t : RoundTrip, t.script.toStage faults = t.stage faults
      ∧ (t.forward.TouchesOnly (t.vars "input.bin" "stage1.out") →
        t.Routes faults ((Scenario.roundTrip t).sites clock faults)
          (((Scenario.roundTrip t).run clock faults).hasPassed = true)))
    ∧ ∀ forward inverse : Step,
      (∀ base, forward.TouchesOnly (varsAt base "input.bin" "stage1.out")) →
      inverse.Undoes forward faults →
      (∀ plan, ∀ t ∈ exhaustive plan forward inverse 0,
        ((Scenario.roundTrip t).run clock faults).hasPassed = true)
      ∧ ∀ runs size base, ∀ t ∈ random runs size base forward inverse 0,
        ((Scenario.roundTrip t).run clock faults).hasPassed = true := by
  refine ⟨fun t => ⟨rfl, routes clock faults⟩,
    fun forward inverse htouches hundoes => ⟨?_, ?_⟩⟩
  · intro plan t ht
    obtain ⟨c, -, rfl⟩ := List.mem_map.1 ht
    exact passes_of_undoes clock rfl (htouches _) hundoes
  · intro runs size base t ht
    obtain ⟨i, -, rfl⟩ := List.mem_map.1 ht
    exact passes_of_undoes clock rfl (htouches _) hundoes

/-! ## Complements -/

/-- A step whose result is its input with all bits turned over, and then in the file of the second
argument, if there is one. -/
def complement (args : List String) (target : Option Nat) : Step :=
  ⟨Script.tool "complement" [.copy 0 target ⟨0xff, 0, [], none⟩], args, none⟩

def complementToFile : Step := complement [Template.hole "in", Template.hole "out"] (some 1)

def complementToOutput : Step := complement [Template.hole "in"] none

theorem apply_complement (data : Bytes) :
    Script.Edit.apply ⟨0xff, 0, [], none⟩ data = data.map (· ^^^ 0xff) := by
  simp only [Script.Edit.apply, Nat.sub_zero, List.length_map, List.append_nil]
  exact List.take_of_length_le (Nat.le_of_eq (List.length_map _))

theorem touchesOnly_complementToFile (vars : Variables) : complementToFile.TouchesOnly vars := by
  intro files p hp
  exact Script.get?_tool_copy (hp (by decide +kernel))

theorem undoes_complement (faults : List String) :
    complementToOutput.Undoes complementToFile faults := by
  intro base payload files first hfirst
  have hvalue : first.value "out" = Workspace.fileText "stage1.out" :=
    (expand_varsAt (by decide) (by decide)).2
  have hfree := hfirst.fresh
  rw [hvalue, hfirst.present.hasPath_eq_false (by decide)] at hfree
  have hwrite (data : Bytes) : first.files.write Workspace.path (first.value "out") data
      = .ok (first.files.put (Workspace.file "stage1.out") (.file data)) := by
    rw [hvalue]
    exact hfirst.present.write_new (by decide) hfree data
  have hread : files.read Workspace.path
      (Script.argument (first.step.invocation first.vars) 0) = .ok payload := hfirst.finds
  have hran : first.ran = (.ok ⟨0, [], []⟩, first.files.put (Workspace.file "stage1.out")
      (.file (payload.map (· ^^^ 0xff)))) := by
    refine Script.run_of_file (Script.perform_copy (s := ⟨[], [], files⟩) hread) ?_
    rw [apply_complement]
    exact hwrite _
  have hfiles : complementToFile.writesFile = true ∧ complementToOutput.writesFile = false := by
    decide +kernel
  refine ⟨payload.map (· ^^^ 0xff),
    Site.delivers_of_file (congrArg Prod.fst hran) hfiles.1 ?_, ?_⟩
  · rw [Site.leaves, hran, hvalue]
    exact hfirst.present.read_put (by decide) _
  · intro files' second hsecond
    have hback : (payload.map (· ^^^ 0xff)).map (· ^^^ 0xff) = payload := by
      rw [List.map_map]
      refine (List.map_congr_left fun b _ => ?_).trans (List.map_id payload)
      exact (UInt8.xor_assoc b _ _).trans (by rw [UInt8.xor_self, UInt8.xor_zero]; rfl)
    have hread : files'.read Workspace.path
        (Script.argument (second.step.invocation second.vars) 0)
          = .ok (payload.map (· ^^^ 0xff)) := hsecond.finds
    have hran : second.ran = (.ok ⟨0, payload, []⟩, second.files) := by
      refine Script.run_of_output ((Script.perform_copy (s := ⟨[], [], files'⟩) hread).trans ?_)
      rw [apply_complement, hback]
    exact Site.delivers_of_output (congrArg Prod.fst hran) hfiles.2

/-- A round trip by way of complements, the first one in a file and the second one in an output. -/
def complementTrip : RoundTrip :=
  ofVector ⟨"three bytes", [1, 2, 3], 0, []⟩ complementToFile (some complementToOutput) 0

theorem payload_routed_complement :
    complementToFile.TouchesOnly (complementTrip.vars "input.bin" "stage1.out")
    ∧ complementTrip.Routes Tool.usualFaults
        ((Scenario.roundTrip complementTrip).sites .usual Tool.usualFaults)
        (((Scenario.roundTrip complementTrip).run .usual Tool.usualFaults).hasPassed = true)
    ∧ complementToOutput.Undoes complementToFile Tool.usualFaults
    ∧ ∀ t ∈ random 3 16 0x2000 complementToFile complementToOutput 0,
        ((Scenario.roundTrip t).run .usual Tool.usualFaults).hasPassed = true :=
  ⟨touchesOnly_complementToFile _,
    ((payload_routed .usual Tool.usualFaults).1 _).2 (touchesOnly_complementToFile _),
    undoes_complement _,
    ((payload_routed .usual Tool.usualFaults).2 _ _ (fun _ => touchesOnly_complementToFile _)
      (undoes_complement _)).2 3 16 0x2000⟩

end RoundTrip

end TiBench
