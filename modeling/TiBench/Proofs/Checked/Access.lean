import TiBench.Proofs.Bytes
import TiBench.Proofs.Result

/-!
# Checked accesses

Reading and writing by index, slicing, subtraction and division as a machine does them: out of
range they end the program with a fault. A program over them that has a value meets no fault, so
that one equation says of a loop both what it computes and that no access in it is out of range.
-/

namespace TiBench

/-- What ends a program. -/
inductive Fault where
  /-- An index past the end of a sequence of some length. -/
  | index (place length : Nat)
  /-- A slice that ends past the end of a sequence, or before it starts. -/
  | slice (start stop length : Nat)
  /-- A copy into a slice of another length. -/
  | copy (source target : Nat)
  /-- A block taken from a sequence of another length. -/
  | block (length size : Nat)
  /-- A difference below zero. -/
  | difference (a b : Nat)
  /-- A division by zero. -/
  | division
  /-- A cut into pieces of no elements. -/
  | pieces
deriving DecidableEq, Repr

/-- A value, unless a fault ends the program first. -/
abbrev Checked := Except Fault

namespace Checked

variable {α β ε : Type}

def get (xs : List α) (i : Nat) : Checked α :=
  match xs[i]? with
  | some x => .ok x
  | none => .error (.index i xs.length)

def set (xs : List α) (i : Nat) (x : α) : Checked (List α) :=
  if i < xs.length then .ok (xs.set i x) else .error (.index i xs.length)

/-- The elements from `start` on that are before `stop`. -/
def slice (xs : List α) (start stop : Nat) : Checked (List α) :=
  if start ≤ stop ∧ stop ≤ xs.length then .ok ((xs.drop start).take (stop - start))
  else .error (.slice start stop xs.length)

/-- The list with `ys` copied into a slice. -/
def splice (xs : List α) (start stop : Nat) (ys : List α) : Checked (List α) := do
  let target ← slice xs start stop
  if ys.length = target.length then .ok (xs.take start ++ ys ++ xs.drop stop)
  else .error (.copy ys.length target.length)

def block (n : Nat) (b : Bytes) : Checked (Block n) :=
  if h : b.length = n then .ok ⟨b, h⟩ else .error (.block b.length n)

def sub (a b : Nat) : Checked Nat := if b ≤ a then .ok (a - b) else .error (.difference a b)

def div (a b : Nat) : Checked Nat := if b = 0 then .error .division else .ok (a / b)

def mod (a b : Nat) : Checked Nat := if b = 0 then .error .division else .ok (a % b)

def chunks (n : Nat) (xs : List α) : Checked (List (List α)) :=
  if n = 0 then .error .pieces else .ok (Pieces.chunks n xs)

/-- A loop over a list, each turn with the place of its element and what the turns before made. -/
def loop {m : Type → Type} [Monad m] (xs : List α) (init : β) (body : Nat → α → β → m β) : m β :=
  xs.zipIdx.foldlM (fun b x => body x.2 x.1 b) init

/-! ## Accesses in range -/

theorem get_eq {xs : List α} {i : Nat} {x : α} (h : xs[i]? = some x) : get xs i = .ok x := by
  rw [get, h]

theorem set_eq {xs : List α} {i : Nat} (h : i < xs.length) (x : α) :
    set xs i x = .ok (xs.set i x) := if_pos h

theorem slice_eq {xs : List α} {start stop : Nat} (h : start ≤ stop) (h' : stop ≤ xs.length) :
    slice xs start stop = .ok ((xs.drop start).take (stop - start)) := if_pos ⟨h, h'⟩

theorem slice_zero {xs : List α} {stop : Nat} (h : stop ≤ xs.length) :
    slice xs 0 stop = .ok (xs.take stop) := slice_eq (Nat.zero_le _) h

theorem splice_eq {xs ys : List α} {start stop : Nat} (hlen : start + ys.length = stop)
    (h : stop ≤ xs.length) :
    splice xs start stop ys = .ok (xs.take start ++ ys ++ xs.drop stop) := by
  have htarget : ((xs.drop start).take (stop - start)).length = ys.length := by
    rw [List.length_take, List.length_drop]; omega
  rw [splice, slice_eq (hlen ▸ Nat.le_add_right _ _) h, Result.ok_bind, htarget, if_pos rfl]

theorem block_eq {n : Nat} {b : Bytes} (h : b.length = n) : block n b = .ok ⟨b, h⟩ := dif_pos h

theorem block_bytes {n : Nat} (b : Block n) : block n b.bytes = .ok b := block_eq b.length_eq

theorem sub_eq {a b : Nat} (h : b ≤ a) : sub a b = .ok (a - b) := if_pos h

theorem div_eq {b : Nat} (h : 0 < b) (a : Nat) : div a b = .ok (a / b) :=
  if_neg (Nat.pos_iff_ne_zero.1 h)

theorem mod_eq {b : Nat} (h : 0 < b) (a : Nat) : mod a b = .ok (a % b) :=
  if_neg (Nat.pos_iff_ne_zero.1 h)

theorem chunks_eq {n : Nat} (h : 0 < n) (xs : List α) : chunks n xs = .ok (Pieces.chunks n xs) :=
  if_neg (Nat.pos_iff_ne_zero.1 h)

/-! ## Filling up

A buffer that is written from its start on holds what was written, filled up. -/

theorem splice_fit {pad : UInt8} {n stop : Nat} {b c : Bytes} (hstop : b.length + c.length = stop)
    (h : stop ≤ n) :
    splice (b.fit pad n) b.length stop c = .ok ((b ++ c).fit pad n) := by
  have hb : b.fit pad n = b ++ List.replicate (n - b.length) pad :=
    Bytes.fit_of_length_le (by omega)
  rw [splice_eq hstop (by rw [Bytes.length_fit]; exact h), hb, List.take_left' rfl,
    List.drop_append, List.drop_eq_nil_of_le (by omega), List.nil_append, List.drop_replicate,
    Bytes.fit_of_length_le (by rw [List.length_append]; omega), List.length_append]
  congr 3
  omega

theorem fit_concat {pad : UInt8} {n : Nat} {b : Bytes} (h : b.length < n) (x : UInt8) :
    Bytes.fit pad n (b ++ [x]) = b ++ x :: List.replicate (n - b.length - 1) pad := by
  rw [Bytes.fit_of_length_le (by rw [List.length_append]; exact h), List.length_append,
    List.append_assoc, Nat.sub_sub]
  rfl

theorem fit_concat_pad {pad : UInt8} {n : Nat} {b : Bytes} (h : b.length < n) :
    Bytes.fit pad n (b ++ [pad]) = b.fit pad n := by
  rw [fit_concat h, ← List.replicate_succ, Nat.sub_add_cancel (Nat.sub_pos_of_lt h),
    Bytes.fit_of_length_le (Nat.le_of_lt h)]

theorem get_fit_last {pad : UInt8} {n i : Nat} {b : Bytes} (hi : b.length = i) (h : i < n)
    (x : UInt8) : get (Bytes.fit pad n (b ++ [x])) i = .ok x := by
  refine get_eq ?_
  rw [fit_concat (hi ▸ h), List.getElem?_append_right (Nat.le_of_eq hi), hi, Nat.sub_self]
  rfl

theorem set_fit_last {pad : UInt8} {n i : Nat} {b : Bytes} (hi : b.length = i) (h : i < n)
    (x y : UInt8) :
    set (Bytes.fit pad n (b ++ [x])) i y = .ok (Bytes.fit pad n (b ++ [y])) := by
  rw [set_eq (by rw [Bytes.length_fit]; exact h), fit_concat (hi ▸ h), fit_concat (hi ▸ h),
    List.set_append_right _ _ (Nat.le_of_eq hi), hi, Nat.sub_self]
  rfl

theorem set_fit {pad : UInt8} {n i : Nat} {b : Bytes} (hi : b.length = i) (h : i < n) (x : UInt8) :
    set (b.fit pad n) i x = .ok (Bytes.fit pad n (b ++ [x])) := by
  rw [← fit_concat_pad (hi ▸ h), set_fit_last hi h]

theorem fit_nil (pad : UInt8) (n : Nat) : Bytes.fit pad n [] = List.replicate n pad := by
  rw [Bytes.fit_of_length_le (Nat.zero_le _)]; rfl

theorem splice_replicate {pad : UInt8} {n : Nat} {b : Bytes} (h : b.length ≤ n) :
    splice (List.replicate n pad) 0 b.length b = .ok (b.fit pad n) := by
  rw [← fit_nil]
  exact splice_fit (b := []) (Nat.zero_add _) h

/-! ## Errors

A program that may also give an error, which is no fault. -/

theorem run_lift_bind {c : Checked α} {a : α} (h : c = .ok a) (f : α → ExceptT ε Checked β) :
    ((liftM c : ExceptT ε Checked α) >>= f).run = (f a).run := by
  rw [h]; rfl

theorem run_bind_eq {t : ExceptT ε Checked α} {r : Except ε α} {f : α → ExceptT ε Checked β}
    {g : α → Except ε β} (h : t.run = .ok r) (hf : ∀ a, r = .ok a → (f a).run = .ok (g a)) :
    (t >>= f).run = .ok (r >>= g) := by
  rw [ExceptT.run_bind, h, Result.ok_bind]
  cases r with
  | error e => rfl
  | ok a => exact hf a rfl

theorem run_liftExcept (r : Except ε α) : (liftExcept r : ExceptT ε Checked α).run = .ok r := by
  cases r <;> rfl

theorem run_adapt {ε' : Type} {t : ExceptT ε Checked α} {r : Except ε α} (h : t.run = .ok r)
    (f : ε → ε') : (t.adapt f).run = .ok (r.mapError f) := by
  change Except.mapError f <$> t.run = _
  rw [h]; rfl

/-! ## Loops -/

/-- A loop in which each turn takes what was made of the elements before its own to what is made of
them and its own. -/
theorem loop_eq {xs : List α} {body : Nat → α → β → Checked β} {I : List α → β}
    (h : ∀ done x more, xs = done ++ x :: more → body done.length x (I done)
      = .ok (I (done ++ [x]))) :
    loop xs (I []) body = .ok (I xs) := by
  -- The loop is entered anywhere: `done` has been dealt with.
  have hfrom : ∀ more done, xs = done ++ more →
      (more.zipIdx done.length).foldlM (fun b x => body x.2 x.1 b) (I done) = .ok (I xs) := by
    intro more
    induction more with
    | nil => rintro done rfl; rw [List.append_nil]; rfl
    | cons x more ih =>
        intro done hxs
        rw [List.zipIdx_cons, List.foldlM_cons, h done x more hxs, Result.ok_bind]
        have := ih (done ++ [x]) (by rw [hxs, List.append_assoc]; rfl)
        rwa [List.length_append] at this
  exact hfrom xs [] rfl

/-- A loop over no more elements than there is room for. -/
theorem loop_take_eq {body : Nat → α → β → Checked β} {I : List α → β} (room : Nat) (xs : List α)
    (h : ∀ done x, done.length < room → body done.length x (I done) = .ok (I (done ++ [x]))) :
    loop (xs.take room) (I []) body = .ok (I (xs.take room)) := by
  refine loop_eq fun done x more hdone => h done x ?_
  have hlen := List.length_take_le room xs
  rw [hdone, List.length_append, List.length_cons] at hlen
  omega

/-- A loop that may also be left with an error, as when the elements up to one are in error whatever
follows them. -/
theorem run_loop_eq {xs : List α} {body : Nat → α → β → ExceptT ε Checked β}
    {I : List α → Except ε β} {init : β} (hinit : I [] = .ok init)
    (hstep : ∀ done x more b, xs = done ++ x :: more → I done = .ok b →
      (body done.length x b).run = .ok (I (done ++ [x])))
    (hstop : ∀ done more e, I done = .error e → I (done ++ more) = .error e) :
    (loop xs init body).run = .ok (I xs) := by
  have hfrom : ∀ more done b, xs = done ++ more → I done = .ok b →
      ((more.zipIdx done.length).foldlM (fun b x => body x.2 x.1 b) b).run = .ok (I xs) := by
    intro more
    induction more with
    | nil => rintro done b rfl hb; rw [List.append_nil, hb]; rfl
    | cons x more ih =>
        intro done b hxs hb
        have hrest : xs = (done ++ [x]) ++ more := by rw [hxs, List.append_assoc]; rfl
        rw [List.zipIdx_cons, List.foldlM_cons, ExceptT.run_bind, hstep done x more b hxs hb,
          Result.ok_bind]
        cases hx : I (done ++ [x]) with
        | error e => rw [hrest, hstop _ _ _ hx]; rfl
        | ok c =>
            have := ih (done ++ [x]) c hrest hx
            rwa [List.length_append] at this
  exact hfrom xs [] init rfl hinit

end Checked

end TiBench
