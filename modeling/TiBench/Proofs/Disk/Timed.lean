import TiBench.Proofs.Disk.FileMap
import TiBench.Proofs.Disk.Reload

/-!
# Runs by the clock

Operations one after the other, each at a time of its own.
-/

namespace TiBench.Volume

/-- An operation, and the time to which the clock is set before it. -/
structure Timed where
  time : Timestamp
  operation : Operation

namespace Disk

variable {d : Disk}

/-- What an operation at its time leaves behind. -/
def applyAt (d : Disk) (s : Timed) : Change := (d.setClock s.time).apply s.operation

/-- The disk after operations at their times. One that is refused does not end the run. -/
def runAt (d : Disk) (steps : List Timed) : Disk := steps.foldl (fun d s => (d.applyAt s).disk) d

/-- Why each operation of a run is refused, if it is. -/
def errors (d : Disk) : List Timed → List (Option VolumeError)
  | [] => []
  | s :: steps => (d.applyAt s).error? :: (d.applyAt s).disk.errors steps

theorem errors_cons (d : Disk) (s : Timed) (steps : List Timed) :
    d.errors (s :: steps) = (d.applyAt s).error? :: (d.applyAt s).disk.errors steps := rfl

theorem Consistent.setClock (h : d.Consistent) (t : Timestamp) : (d.setClock t).Consistent :=
  h.apply (.setClock t)

theorem Clean.setClock (h : d.Clean) (t : Timestamp) : (d.setClock t).Clean := h.apply (.setClock t)

theorem Saved.setClock (h : d.Saved) (t : Timestamp) : (d.setClock t).Saved := h.apply (.setClock t)

theorem Consistent.applyAt (h : d.Consistent) (s : Timed) : (d.applyAt s).disk.Consistent :=
  (h.setClock s.time).apply s.operation

theorem Clean.applyAt (h : d.Clean) (s : Timed) : (d.applyAt s).disk.Clean :=
  (h.setClock s.time).apply s.operation

theorem Saved.applyAt (h : d.Saved) (s : Timed) : (d.applyAt s).disk.Saved :=
  (h.setClock s.time).apply s.operation

theorem Clean.runAt (h : d.Clean) (steps : List Timed) : (d.runAt steps).Clean := by
  induction steps generalizing d with
  | nil => exact h
  | cons s steps ih => exact ih (h.applyAt s)

/-- An operation that is refused at its time leaves the image and what is known of the volume. -/
theorem Consistent.toBytes_applyAt (h : d.Consistent) {s : Timed}
    (hs : (d.applyAt s).error? ≠ none) :
    (d.applyAt s).disk.toBytes = d.toBytes := by
  have hindex := (h.setClock s.time).indexSector_not_mem_pointers
  rw [Disk.applyAt, disk_apply_of_refused (fun _ _ _ => hindex) hs]; rfl

end Disk

end TiBench.Volume
