import TiBench.Cli.Run
import TiBench.Proofs.FileTree
import TiBench.Proofs.Disk.Timed

/-!
# Sessions

Calls of the program that change the disk in a file, one after the other. Each loads the disk that
the one before it saved, and yet they do what the same operations do to a disk that stays in memory.
-/

namespace TiBench.Cli

open TiBench.Volume (Disk Operation Timed)

/-- A call of the program: its arguments, what there is to read, and the time. -/
structure Call where
  args : List String
  stdin : Bytes
  now : Timestamp

/-- The file that a command changes a disk in, and the operation that it performs on the disk. To
put nothing into a file, or to put it there in no format, is no operation. -/
def Command.operation? (stdin : Bytes) : Command → Option (String × Operation)
  | .put disk file format =>
    match FileFormat.parse format with
    | .ok f => if stdin.isEmpty then none else some (disk, .add file stdin f)
    | .error _ => none
  | .delete disk file => some (disk, .delete file)
  | .rename disk file name => some (disk, .rename file name)
  | .protect disk file on => some (disk, .protect file on)
  | _ => none

namespace Call

/-- The file that a call changes a disk in, and the operation that it performs on the disk. -/
def operation? (c : Call) : Option (String × Operation) :=
  match Request.parse c.args with
  | .ok (.command command) => command.operation? c.stdin
  | _ => none

/-- The call performs an operation on the disk in the file at `p`. -/
def Performs (w : World) (p : Path) (c : Call) (op : Operation) : Prop :=
  ∃ text, c.operation? = some (text, op) ∧ w.files.LeadsTo w.cwd text p

/-- The operations of calls, at the times of these. -/
def timed (calls : List Call) (ops : List Operation) : List Timed :=
  List.zipWith (fun c op => ⟨c.now, op⟩) calls ops

end Call

namespace World

/-- What a call finds. -/
def under (w : World) (c : Call) : World := { w with stdin := c.stdin, now := c.now }

/-- The exit code of a call, and what it leaves. -/
def answer (w : World) (c : Call) : Nat × Result := (w.under c).respond c.args

/-- What a call leaves to the next one. -/
def next (w : World) (c : Call) : World := { w with files := (w.answer c).2.files }

/-- What calls one after the other leave. -/
def after (w : World) (calls : List Call) : World := calls.foldl next w

/-- The exit code of each call, and why it failed, if it did. -/
def answers (w : World) : List Call → List (Nat × Option Error)
  | [] => []
  | c :: calls => ((w.answer c).1, (w.answer c).2.error?) :: (w.next c).answers calls

/-- What a call tells of the operation that it performed. -/
def told (e : Option Volume.VolumeError) : Nat × Option Error :=
  (if e.isNone then 0 else 1, e.map .volume)

variable {w : World}

/-! ## One call -/

theorem run_of_operation {command : Command} {text : String} {op : Operation}
    (h : command.operation? w.stdin = some (text, op)) :
    w.run command = w.attempt (w.change text fun d => d.apply op) := by
  cases command with
  | put disk file format =>
      rw [Command.operation?] at h
      rw [run, put]
      cases hformat : FileFormat.parse format with
      | error e => rw [hformat] at h; cases h
      | ok f =>
          rw [hformat] at h
          dsimp only at h
          split at h
          · cases h
          · rename_i hstdin
            obtain ⟨rfl, rfl⟩ := Prod.mk.inj (Option.some.inj h)
            change w.attempt (if w.stdin.isEmpty then _ else _) = _
            rw [if_neg hstdin]; rfl
  | delete disk file =>
      obtain ⟨rfl, rfl⟩ := Prod.mk.inj (Option.some.inj h); rfl
  | rename disk file name =>
      obtain ⟨rfl, rfl⟩ := Prod.mk.inj (Option.some.inj h); rfl
  | protect disk file on =>
      obtain ⟨rfl, rfl⟩ := Prod.mk.inj (Option.some.inj h); rfl
  | _ => cases h

theorem answer_of_operation {c : Call} {text : String} {op : Operation}
    (h : c.operation? = some (text, op)) : w.answer c =
      let r := (w.under c).attempt ((w.under c).change text fun d => d.apply op)
      (if r.error?.isNone then 0 else 1, r) := by
  rw [Call.operation?] at h
  split at h
  · rename_i command hparse
    have hrun := run_of_operation (w := w.under c) h
    simp only [answer, respond, hparse, hrun]
  · cases h

/-- A file holds the bytes of a consistent disk, which can be loaded again. -/
structure Keeps (w : World) (p : Path) (d : Disk) : Prop where
  get?_eq : w.files.get? p = some (.file d.toBytes)
  saved : d.Saved
  consistent : d.Consistent

namespace Keeps

variable {p : Path} {d : Disk}

theorem change_eq (h : w.Keeps p d) {text : String} (htext : w.files.LeadsTo w.cwd text p)
    (op : Operation) : w.change text (fun d => d.apply op)
      = match (d.applyAt ⟨w.now, op⟩).error? with
        | some e => .error (.volume e)
        | none => .ok (w.left (w.files.put p (.file (d.applyAt ⟨w.now, op⟩).disk.toBytes))) := by
  have hopen : w.openDisk text = .ok (d.setClock w.now) := by
    rw [openDisk, World.read, htext.read_eq h.get?_eq]
    change (Disk.ofBytes w.now d.toBytes).mapError Error.volume = .ok (d.setClock w.now)
    rw [h.saved.ofBytes_toBytes]; rfl
  have happly : (d.setClock w.now).apply op = d.applyAt ⟨w.now, op⟩ := rfl
  rw [change, hopen, Result.ok_bind, happly]
  dsimp only
  cases (d.applyAt ⟨w.now, op⟩).error? with
  | some e => rfl
  | none =>
      dsimp only
      rw [save, htext.write_eq h.get?_eq]; rfl

theorem under (h : w.Keeps p d) (c : Call) : (w.under c).Keeps p d :=
  ⟨h.get?_eq, h.saved, h.consistent⟩

/-- A call fails if its operation is refused, and changes no file then. Else the file holds what
the operation leaves. -/
theorem answer_eq (h : w.Keeps p d) {c : Call} {op : Operation} (hc : c.Performs w p op) :
    ((w.answer c).1, (w.answer c).2.error?) = told (d.applyAt ⟨c.now, op⟩).error?
      ∧ (w.next c).files = if (d.applyAt ⟨c.now, op⟩).error? = none
        then w.files.put p (.file (d.applyAt ⟨c.now, op⟩).disk.toBytes) else w.files := by
  obtain ⟨text, hop, htext⟩ := hc
  have hchange := (h.under c).change_eq htext op
  rw [show (w.under c).now = c.now from rfl] at hchange
  rw [World.next, answer_of_operation hop, hchange]
  cases (d.applyAt ⟨c.now, op⟩).error? with
  | some e => exact ⟨rfl, rfl⟩
  | none => exact ⟨rfl, rfl⟩

variable {c : Call} {op : Operation}

theorem next (h : w.Keeps p d) (hc : c.Performs w p op) :
    (w.next c).Keeps p (d.applyAt ⟨c.now, op⟩).disk := by
  refine ⟨?_, h.saved.applyAt _, h.consistent.applyAt _⟩
  rw [(h.answer_eq hc).2]
  split
  · exact FileTree.get?_put_self _ _ (FileTree.ne_root_of_file h.get?_eq)
  · rename_i hrefused
    rw [h.consistent.toBytes_applyAt hrefused]; exact h.get?_eq

theorem performs_next (h : w.Keeps p d) (hc : c.Performs w p op) {c' : Call} {op' : Operation}
    (hc' : c'.Performs w p op') : c'.Performs (w.next c) p op' := by
  obtain ⟨text, hop, htext⟩ := hc'
  refine ⟨text, hop, ?_⟩
  change (w.next c).files.LeadsTo w.cwd text p
  rw [(h.answer_eq hc).2]
  split
  · exact htext.put_file h.get?_eq _
  · exact htext

theorem get?_next (h : w.Keeps p d) (hc : c.Performs w p op) {q : Path} (hq : q ≠ p) :
    (w.next c).files.get? q = w.files.get? q := by
  rw [(h.answer_eq hc).2]
  split
  · exact FileTree.get?_put_of_ne _ _ hq
  · rfl

theorem files_of_failed (h : w.Keeps p d) (hc : c.Performs w p op) (hcode : (w.answer c).1 ≠ 0) :
    (w.next c).files = w.files := by
  obtain ⟨htold, hfiles⟩ := h.answer_eq hc
  rw [hfiles, if_neg]
  intro haccepted
  rw [haccepted] at htold
  exact hcode (Prod.mk.inj htold).1

end Keeps

/-! ## Calls one after the other -/

/-- What a session on the disk in a file comes to: the run of its operations. -/
structure Follows (w : World) (p : Path) (calls : List Call) (d : Disk) (steps : List Timed) :
    Prop where
  answers_eq : w.answers calls = (d.errors steps).map told
  get?_eq : (w.after calls).files.get? p = some (.file (d.runAt steps).toBytes)
  others_eq : ∀ q ≠ p, (w.after calls).files.get? q = w.files.get? q
  /-- A call that fails leaves all files as they were. -/
  failed_eq : ∀ k c, calls[k]? = some c → ((w.after (calls.take k)).answer c).1 ≠ 0 →
    (w.after (calls.take (k + 1))).files = (w.after (calls.take k)).files

theorem Keeps.follows {p : Path} {d : Disk} {calls : List Call} {ops : List Operation}
    (h : w.Keeps p d) (hcalls : List.Forall₂ (Call.Performs w p) calls ops) :
    w.Follows p calls d (Call.timed calls ops) := by
  induction calls generalizing w d ops with
  | nil =>
      obtain rfl := List.forall₂_nil_left_iff.1 hcalls
      exact ⟨rfl, h.get?_eq, fun _ _ => rfl, fun _ _ hk => by cases hk⟩
  | cons c calls ih =>
      obtain ⟨op, ops, hc, hrest, rfl⟩ := List.forall₂_cons_left_iff.1 hcalls
      obtain ⟨hanswers, hget, hothers, hfailed⟩ :=
        ih (h.next hc) (hrest.imp fun _ _ => h.performs_next hc)
      have hfirst := (h.answer_eq hc).1
      refine ⟨?_, hget, fun q hq => (hothers q hq).trans (h.get?_next hc hq), ?_⟩
      · rw [answers, hfirst, hanswers]; rfl
      · intro k c' hk hcode
        cases k with
        | zero =>
            obtain rfl := Option.some.inj hk
            exact h.files_of_failed hc hcode
        | succ k => exact hfailed k c' hk hcode

/-- The bytes of a disk make the same disk again, whatever was done to it since it was made or
loaded. So calls on a file that holds a consistent disk, each of which loads the disk and saves it,
do what their operations do to that disk loaded once. -/
theorem session_follows_run :
    (∀ d : Disk, (∃ clock name sectors sides density,
          Disk.init clock name sectors sides density = .ok d)
        ∨ (∃ clock image, Disk.ofImage clock image = .ok d) →
      ∀ ops t, Disk.ofBytes t (d.run ops).toBytes = .ok ((d.run ops).setClock t)
        ∧ (d.run ops).image.read Volume.infoSector = .ok (d.run ops).info.toSector)
    ∧ ∀ (w : World) p data t d, w.files.get? p = some (.file data) →
      Disk.ofBytes t data = .ok d → d.check = .ok [] →
      ∀ calls ops, List.Forall₂ (Call.Performs w p) calls ops →
        w.Follows p calls d (Call.timed calls ops) := by
  refine ⟨fun d hmade ops t => ?_, fun w p data t d hfile hload hcheck calls ops hcalls => ?_⟩
  · have hsaved : d.Saved := by
      rcases hmade with ⟨_, _, _, _, _, hinit⟩ | ⟨_, _, hload⟩
      · exact Disk.saved_init hinit
      · exact (Disk.ofImage_eq_ok.1 hload).1
    have hrun := hsaved.run ops
    exact ⟨hrun.ofBytes_toBytes t, hrun.read_info⟩
  · obtain ⟨hsaved, rfl, -⟩ := Disk.ofBytes_eq_ok.1 hload
    have hkeeps : w.Keeps p d := ⟨hfile, hsaved, Disk.check_eq_nil_iff.1 hcheck⟩
    exact hkeeps.follows hcalls

/-- A file is put on a blank disk, and deleting another one then fails. -/
theorem session_follows_run_put : ∃ d : Disk, ∃ w : World,
    Disk.init .usual "WORK" 40 1 1 = .ok d
    ∧ w.files = FileTree.empty.put ["work.dsk"] (.file d.toBytes)
    ∧ w.Follows ["work.dsk"]
      [⟨["put", "-d", "work.dsk", "-f", "A", "-t", "PROGRAM"], [0x61], .usual⟩,
        ⟨["delete", "-d", "work.dsk", "-f", "B"], [], .usual⟩] d
      [⟨.usual, .add "A" [0x61] .program⟩, ⟨.usual, .delete "B"⟩] := by
  obtain ⟨d, hd, hclock⟩ : ∃ d, Disk.init .usual "WORK" 40 1 1 = .ok d
      ∧ decide (d.clock = .usual) = true := Result.exists_ok_of_any (by decide +kernel)
  let w : World :=
    ⟨FileTree.empty.put ["work.dsk"] (.file d.toBytes), [], [], .usual, fun _ _ => .error .notFound⟩
  have hload : Disk.ofBytes .usual d.toBytes = .ok d :=
    Disk.ofBytes_eq_ok.2 ⟨Disk.saved_init hd, rfl, of_decide_eq_true hclock⟩
  have hcheck : d.check = .ok [] := Disk.check_eq_nil_iff.2 (Disk.consistent_init hd).1
  have hlead : w.files.LeadsTo w.cwd "work.dsk" ["work.dsk"] := ⟨rfl, rfl⟩
  refine ⟨d, w, hd, rfl, ?_⟩
  exact session_follows_run.2 w _ _ _ d (FileTree.get?_put_self _ _ (List.cons_ne_nil _ _)) hload
    hcheck _ [.add "A" [0x61] .program, .delete "B"]
    (.cons ⟨"work.dsk", rfl, hlead⟩ (.cons ⟨"work.dsk", rfl, hlead⟩ .nil))

end World

end TiBench.Cli
