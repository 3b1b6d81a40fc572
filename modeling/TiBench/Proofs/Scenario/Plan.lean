import TiBench.Scenario.Suite
import TiBench.Proofs.Scenario.Script

/-!
# The phases of a scenario

Each kind of scenario follows a plan of phases and calls, as far as its checks do not fail.
-/

namespace TiBench

/-- What a script sets out to do. -/
inductive Mark where
  | enters (p : Phase)
  | calls (s : Step) (expect : ExitClass)

def Mark.phase? : Mark → Option Phase
  | enters p => some p
  | calls _ _ => none

def Event.mark? : Event → Option Mark
  | entered p => some (.enters p)
  | called c => some (.calls c.step c.expect)
  | failed _ => none

theorem Event.phase?_eq (e : Event) : e.phase? = e.mark?.bind Mark.phase? := by
  cases e <;> rfl

def Action.mark? {β : Type} : Action β → Option Mark
  | enter p => some (.enters p)
  | invoke s _ expect => some (.calls s expect)
  | _ => none

theorem Action.marks_shows {β : Type} (a : Action β) (r : Run) :
    (a.shows r).filterMap Event.mark? = a.mark?.toList := by
  cases a <;> rfl

/-! ## Scripts that follow a plan -/

namespace Script

variable {α β : Type}

/-- The script does what the marks say in their order, unless a check fails. -/
inductive Follows {α : Type} : Script α → List Mark → Prop where
  | pure (a : α) : Follows (.pure a) []
  | fail {β : Type} (check artifact detail : String) (next : β → Script α) (ms : List Mark) :
    Follows (.act (.fail check artifact detail) next) ms
  | act {β : Type} (a : Action β) {next : β → Script α} {ms : List Mark}
    (h : ∀ b, Follows (next b) ms) : Follows (.act a next) (a.mark?.toList ++ ms)

namespace Follows

theorem bind {x : Script α} {f : α → Script β} {ms ns : List Mark} (hx : x.Follows ms)
    (hf : ∀ a, (f a).Follows ns) : (x >>= f).Follows (ms ++ ns) := by
  induction hx with
  | pure a => exact hf a
  | fail check artifact detail next ms => exact .fail ..
  | act a h ih =>
      rw [List.append_assoc]
      exact .act a fun b => ih b

theorem skip {x : Script α} {f : α → Script β} {ms : List Mark} (hx : x.Follows [])
    (hf : ∀ a, (f a).Follows ms) : (x >>= f).Follows ms := hx.bind hf

theorem enter {p : Phase} {f : Unit → Script α} {ms : List Mark} (hf : ∀ a, (f a).Follows ms) :
    (Script.enter p >>= f).Follows (.enters p :: ms) := .act (.enter p) hf

theorem invoke {s : Step} {vars : Variables} {expect : ExitClass} {f : ToolOutput → Script α}
    {ms : List Mark} (hf : ∀ out, (f out).Follows ms) :
    (Script.invoke s vars expect >>= f).Follows (.calls s expect :: ms) :=
  .act (.invoke s vars expect) hf

theorem writeFile (check name : String) (data : Bytes) :
    (Script.writeFile check name data).Follows [] := .act _ fun _ => .pure _

theorem readFile (check name : String) : (Script.readFile check name).Follows [] :=
  .act _ fun _ => .pure _

theorem require {ε : Type} (check artifact : String) (message : ε → String)
    (result : Except ε α) : (Script.require check artifact message result).Follows [] := by
  cases result with
  | ok a => exact .pure a
  | error e => exact .fail ..

theorem result (s : Step) (file : String) (out : ToolOutput) :
    (Script.result s file out).Follows [] := by
  rw [Script.result]
  split
  · exact .readFile ..
  · exact .pure _

theorem send (s : Step) (vars : Variables) (file : String) :
    (Script.send s vars file).Follows [.calls s .success] := .invoke fun _ => .result ..

/-- What happens in a run begins what was set out to do, and is all of it if no check fails. -/
theorem marks {x : Script α} {ms : List Mark} (h : x.Follows ms) (faults : List String) (r : Run) :
    (x.events faults r).filterMap Event.mark? <+: ms
      ∧ ∀ a r', (x.toStage faults).after r = (.ok a, r') →
        (x.events faults r).filterMap Event.mark? = ms := by
  induction h generalizing r with
  | pure a => exact ⟨List.prefix_rfl, fun _ _ _ => rfl⟩
  | fail check artifact detail next ms =>
      refine ⟨?_, fun a r' h => by cases (Prod.mk.inj h).1⟩
      exact List.nil_prefix
  | @act β c next ms h ih =>
      rw [toStage, Stage.after_bind, events, List.filterMap_append, c.marks_shows]
      cases hc : (c.toStage faults).after r with
      | mk res r₁ =>
          cases res with
          | error f =>
              refine ⟨?_, fun a r' h => by cases (Prod.mk.inj h).1⟩
              rw [List.prefix_append_right_inj]
              exact List.nil_prefix
          | ok b =>
              obtain ⟨hbegin, hall⟩ := ih b r₁
              refine ⟨?_, fun a r' h => congrArg _ (hall a r' h)⟩
              rw [List.prefix_append_right_inj]
              exact hbegin

end Follows

end Script

/-! ## Scripts that follow the plan of their kind -/

namespace RoundTrip

theorem follows_prepare (t : RoundTrip) :
    t.prepare.Follows [.enters .generate, .enters .invoke] :=
  .enter fun _ => .skip (.writeFile ..) fun _ => .act (.enter .invoke) .pure

theorem follows_bring (t : RoundTrip) (there : Bytes) :
    (t.bring there).Follows [.enters .invokeInverse] := by
  refine .enter fun _ => ?_
  split
  · exact .writeFile ..
  · exact .pure _

theorem follows_back (t : RoundTrip) (inverse : Step) (there : Bytes) :
    (t.back inverse there).Follows [.enters .invokeInverse, .calls inverse .success] :=
  (t.follows_bring there).bind fun _ => .send ..

theorem follows_finish (t : RoundTrip) (result : Bytes) :
    (t.finish result).Follows [.enters .compare] := .enter fun _ => .require ..

/-- What a round trip sets out to do. -/
def plan (t : RoundTrip) : List Mark :=
  .enters .generate :: .enters .invoke :: .calls t.forward .success ::
    match t.inverse? with
    | some inverse => [.enters .invokeInverse, .calls inverse .success, .enters .compare]
    | none => [.enters .compare]

theorem follows_script (t : RoundTrip) : t.script.Follows t.plan := by
  refine t.follows_prepare.bind fun _ => Script.Follows.bind (.send ..) fun there => ?_
  cases t.inverse? with
  | none => exact .skip (.pure there) t.follows_finish
  | some inverse => exact (t.follows_back inverse there).bind t.follows_finish

end RoundTrip

/-- What an error path sets out to do. -/
def ErrorPath.plan (t : ErrorPath) : List Mark :=
  [.enters .generate, .enters .invoke, .calls t.step t.expect, .enters .diagnose]

theorem ErrorPath.follows_script (t : ErrorPath) : t.script.Follows t.plan :=
  .enter fun _ => .skip (.writeFile ..) fun _ => .enter fun _ => .invoke fun _ =>
    .enter fun _ => .require ..

namespace DiskTrip

variable (t : DiskTrip) (clock : Timestamp) (d : Volume.Disk) (image : Bytes)

theorem follows_reference : (t.reference clock).Follows [] := by
  refine .skip (.require ..) fun d => ?_
  dsimp only
  cases (d.add t.file t.payload t.format).error? with
  | none => exact .pure _
  | some e => exact .fail ..

theorem follows_soundDisk : (soundDisk clock image).Follows [] := by
  refine .skip (.require ..) fun d => .skip (.require ..) fun problems => ?_
  cases problems with
  | nil => exact .pure _
  | cons p problems => exact .fail ..

theorem follows_checkFile : (t.checkFile d).Follows [] := by
  refine .skip (.require ..) fun f => ?_
  split
  · exact .fail ..
  · exact .skip (.require ..) fun _ => .require ..

theorem follows_checkImage : (t.checkImage clock d image).Follows [] :=
  .skip (t.follows_reference clock) fun _ => .skip (.require ..) fun _ =>
    .skip (.require ..) fun _ => .require ..

theorem follows_inspect : (t.inspect clock image).Follows [] := by
  refine .skip (follows_soundDisk clock image) fun d => .skip (t.follows_checkFile d) fun _ => ?_
  split
  · exact t.follows_checkImage clock d image
  · exact .pure _

/-- What a disk trip sets out to do, whatever its direction. -/
def plan (t : DiskTrip) : List Mark :=
  [.enters .generate, .enters .invoke, .calls t.step .success, .enters .compare]

theorem follows_extractScript : (t.extractScript clock).Follows t.plan :=
  .enter fun _ => .skip (t.follows_reference clock) fun _ => .skip (.writeFile ..) fun _ =>
    .enter fun _ => Script.Follows.bind (.send ..) fun _ => .enter fun _ => .require ..

theorem follows_prepareAdd : t.prepareAdd.Follows [.enters .generate, .enters .invoke] :=
  .enter fun _ => .skip (.writeFile ..) fun _ => .skip (.writeFile ..) fun _ =>
    .act (.enter .invoke) .pure

theorem follows_addScript : (t.addScript clock).Follows t.plan :=
  t.follows_prepareAdd.bind fun _ => .invoke fun _ => .enter fun _ =>
    .skip (.readFile ..) fun image => t.follows_inspect clock image

theorem follows_script : (t.script clock).Follows t.plan := by
  rw [script]
  cases t.direction with
  | extracts => exact t.follows_extractScript clock
  | adds => exact t.follows_addScript clock

end DiskTrip

end TiBench
