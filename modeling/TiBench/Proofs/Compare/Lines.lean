import TiBench.Proofs.Compare

/-!
# Comparing texts line by line

When two texts match under a mask, and which line is reported if they do not. A line that only one
text has is compared with what stands for a missing line, so that a line which shows just that is
taken for the same.
-/

namespace TiBench.Compare

variable {m : TextMask} {es as : List (List Char)} {i : Nat}

/-! ## One line -/

/-- Both texts have the line, counted from zero, and its compared parts are equal. -/
def LineMatches (m : TextMask) (es as : List (List Char)) (i : Nat) : Prop :=
  ∃ e a, es[i]? = some e ∧ as[i]? = some a ∧ m.key e = m.key a

/-- Only one text has the line, and shows there what stands for a missing line. -/
def PassesAsMissing (m : TextMask) (es as : List (List Char)) (i : Nat) : Prop :=
  (∃ e, es[i]? = some e ∧ as[i]? = none ∧ m.key e = TextMask.missing)
    ∨ ∃ a, es[i]? = none ∧ as[i]? = some a ∧ m.key a = TextMask.missing

/-- The line is left out, or the texts show the same in its place. -/
def Agrees (m : TextMask) (es as : List (List Char)) (i : Nat) : Prop :=
  i + 1 ∈ m.skipped ∨ LineMatches m es as i ∨ PassesAsMissing m es as i

theorem shown_eq_iff (h : i < max es.length as.length) :
    m.shown es[i]? = m.shown as[i]? ↔ LineMatches m es as i ∨ PassesAsMissing m es as i := by
  cases he : es[i]? with
  | none =>
      cases ha : as[i]? with
      | none =>
          rw [List.getElem?_eq_none_iff] at he ha
          omega
      | some a => simp [TextMask.shown, LineMatches, PassesAsMissing, he, ha, eq_comm]
  | some e =>
      cases ha : as[i]? with
      | none => simp [TextMask.shown, LineMatches, PassesAsMissing, he, ha]
      | some a => simp [TextMask.shown, LineMatches, PassesAsMissing, he, ha]

/-! ## The first line that differs -/

theorem firstLineDifference?_eq (m : TextMask) (line : Nat) (es as : List (List Char)) :
    firstLineDifference? m line es as =
      if es = [] ∧ as = [] then none
      else if line ∈ m.skipped ∨ m.shown es[0]? = m.shown as[0]? then
        firstLineDifference? m (line + 1) es.tail as.tail
      else some (line, m.shown es[0]?, m.shown as[0]?) := by
  cases es <;> cases as <;> simp [firstLineDifference?]

/-- The search goes through the lines that either text has, the first ones being number `line`. -/
theorem firstLineDifference?_eq_find? (m : TextMask) (line : Nat) (es as : List (List Char)) :
    firstLineDifference? m line es as = ((List.range (max es.length as.length)).find?
      fun i => line + i ∉ m.skipped ∧ m.shown es[i]? ≠ m.shown as[i]?).map
        fun i => (line + i, m.shown es[i]?, m.shown as[i]?) := by
  induction hn : max es.length as.length generalizing line es as with
  | zero =>
      have hnil : es = [] ∧ as = [] := by
        rw [← List.length_eq_zero_iff, ← List.length_eq_zero_iff]
        omega
      rw [firstLineDifference?_eq, if_pos hnil]
      rfl
  | succ n ih =>
      have hne : ¬(es = [] ∧ as = []) := by
        rintro ⟨rfl, rfl⟩
        cases hn
      have htail : max es.tail.length as.tail.length = n := by
        rw [List.length_tail, List.length_tail]
        omega
      rw [firstLineDifference?_eq, if_neg hne, List.range_succ_eq_map, List.find?_cons]
      by_cases hfirst : line ∈ m.skipped ∨ m.shown es[0]? = m.shown as[0]?
      · have hsame : decide (line + 0 ∉ m.skipped ∧ m.shown es[0]? ≠ m.shown as[0]?) = false := by
          rw [decide_eq_false_iff_not, Nat.add_zero]
          tauto
        rw [if_pos hfirst, ih _ _ _ htail, hsame, List.find?_map, Option.map_map]
        simp [Function.comp_def, Nat.add_assoc, Nat.add_comm 1]
      · have hdiffer : decide (line + 0 ∉ m.skipped ∧ m.shown es[0]? ≠ m.shown as[0]?) = true := by
          rw [decide_eq_true_iff, Nat.add_zero]
          tauto
        rw [if_neg hfirst, hdiffer]
        rfl

/-- The line is the first one where the texts do not agree. -/
structure FirstMismatch (m : TextMask) (es as : List (List Char)) (i : Nat) : Prop where
  lt_length : i < max es.length as.length
  not_agrees : ¬Agrees m es as i
  least : ∀ j < i, Agrees m es as j

theorem agrees_iff (h : i < max es.length as.length) :
    Agrees m es as i ↔ i + 1 ∈ m.skipped ∨ m.shown es[i]? = m.shown as[i]? := by
  rw [Agrees, shown_eq_iff h]

theorem firstLineDifference?_eq_none_iff : firstLineDifference? m 1 es as = none
    ↔ ∀ i < max es.length as.length, Agrees m es as i := by
  rw [firstLineDifference?_eq_find?, Option.map_eq_none_iff, List.find?_eq_none]
  refine forall_congr' fun i => ?_
  rw [List.mem_range]
  refine forall_congr' fun hi => ?_
  rw [agrees_iff hi, Nat.add_comm 1, decide_eq_true_iff]
  tauto

theorem firstMismatch_of_firstLineDifference? {line : Nat} {e a : List Char}
    (h : firstLineDifference? m 1 es as = some (line, e, a)) : ∃ i, FirstMismatch m es as i
      ∧ line = i + 1 ∧ e = m.shown es[i]? ∧ a = m.shown as[i]? := by
  rw [firstLineDifference?_eq_find?, Option.map_eq_some_iff] at h
  obtain ⟨i, hfirst, hshown⟩ := h
  rw [List.find?_range_eq_some, decide_eq_true_iff, Nat.add_comm 1] at hfirst
  obtain ⟨⟨hskipped, hdiffer⟩, hlt, hleast⟩ := hfirst
  rw [List.mem_range] at hlt
  simp only [Prod.mk.injEq] at hshown
  obtain ⟨rfl, rfl, rfl⟩ := hshown
  refine ⟨i, ⟨hlt, ?_, fun j hj => ?_⟩, Nat.add_comm 1 i, rfl, rfl⟩
  · rw [agrees_iff hlt]
    tauto
  · have hbefore := hleast j hj
    rw [Bool.not_eq_true', decide_eq_false_iff_not, Nat.add_comm 1] at hbefore
    rw [agrees_iff (Nat.lt_trans hj hlt)]
    tauto

/-! ## The verdict -/

/-- What comparing two texts under a mask gives. -/
structure ComparesLines (m : TextMask) (expected actual : String) (es as : List (List Char)) :
    Prop where
  ok_iff : compareText expected actual m = .ok ()
    ↔ ∀ i < max es.length as.length, Agrees m es as i
  error : compareText expected actual m ≠ .ok () → ∃ i, FirstMismatch m es as i
    ∧ compareText expected actual m
      = .error (.formatMismatch (i + 1) (.ofList (m.shown es[i]?)) (.ofList (m.shown as[i]?)))

/-- Texts match if and only if each line that is compared matches, or stands in one text alone and
shows what stands for a missing line. Otherwise the first line for which this fails is reported. -/
theorem compareText_lines (expected actual : String) (m : TextMask) :
    ComparesLines m expected actual (Text.lines expected.toList) (Text.lines actual.toList) := by
  cases hfirst : firstLineDifference? m 1 (Text.lines expected.toList)
      (Text.lines actual.toList) with
  | none =>
      have hverdict : compareText expected actual m = .ok () := by
        rw [compareText, hfirst]
      have hagree := firstLineDifference?_eq_none_iff.1 hfirst
      exact ⟨⟨fun _ => hagree, fun _ => hverdict⟩, fun h => absurd hverdict h⟩
  | some d =>
      obtain ⟨line, e, a⟩ := d
      have hverdict : compareText expected actual m
          = .error (.formatMismatch line (.ofList e) (.ofList a)) := by
        rw [compareText, hfirst]
      obtain ⟨i, hi, rfl, rfl, rfl⟩ := firstMismatch_of_firstLineDifference? hfirst
      refine ⟨⟨fun h => ?_, fun h => absurd (h i hi.lt_length) hi.not_agrees⟩,
        fun _ => ⟨i, hi, hverdict⟩⟩
      rw [hverdict] at h
      cases h

/-- A line that only the second text has goes unnoticed if it reads like what stands for a missing
line. -/
theorem compareText_overlooks_missing :
    compareText "" "(missing)" ⟨none, []⟩ = .ok ()
      ∧ (Text.lines "(missing)".toList).length = 1
      ∧ ¬LineMatches ⟨none, []⟩ (Text.lines "".toList) (Text.lines "(missing)".toList) 0 := by
  have hexpected : Text.lines "".toList = [] := by decide
  have hactual : Text.lines "(missing)".toList = [TextMask.missing] := by decide
  have hshown : TextMask.shown ⟨none, []⟩ none
      = TextMask.shown ⟨none, []⟩ (some TextMask.missing) := by decide
  refine ⟨?_, by rw [hactual]; rfl, ?_⟩
  · rw [compareText, hexpected, hactual, firstLineDifference?, if_pos (Or.inr hshown)]
    simp [firstLineDifference?]
  · rintro ⟨e, -, he, -⟩
    cases he

end TiBench.Compare
