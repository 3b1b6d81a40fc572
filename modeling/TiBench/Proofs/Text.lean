import TiBench.Text.Blank
import TiBench.Text.Line
import TiBench.Text.Number
import TiBench.Proofs.Pieces

/-!
# Laws of text

White space around a text, text that stays on one line, and the lines of a text that is put
together line by line.
-/

namespace TiBench.Text

/-! ## Text between blanks -/

section

variable {s t before after : List Char}

theorem trimEnd_eq_self (h : ∀ c, s.getLast? = some c → isBlank c = false) : trimEnd s = s :=
  Pieces.dropEndWhile_eq_self h

theorem trim_eq_self (hfirst : ∀ c, s.head? = some c → isBlank c = false)
    (hlast : ∀ c, s.getLast? = some c → isBlank c = false) : trim s = s := by
  have hstart : s.dropWhile isBlank = s := by
    cases s with
    | nil => rfl
    | cons c s => rw [List.dropWhile_cons, hfirst c rfl]; rfl
  rw [trim, hstart, trimEnd_eq_self hlast]

theorem trim_of_forall (h : ∀ c ∈ s, isBlank c = false) : trim s = s :=
  trim_eq_self (fun c hc => h c (List.mem_of_mem_head? hc))
    fun c hc => h c (List.mem_of_getLast? hc)

/-- Nothing but white space. -/
def Blanks (s : List Char) : Prop := ∀ c ∈ s, isBlank c = true

/-- The first is the second with white space before and after it, or without. -/
def Padded (s t : List Char) : Prop :=
  ∃ before after, Blanks before ∧ Blanks after ∧ s = before ++ (t ++ after)

theorem trimEnd_append_blanks (h : Blanks after) (s : List Char) :
    trimEnd (s ++ after) = trimEnd s := by
  rw [trimEnd, Pieces.dropEndWhile, List.reverse_append, List.dropWhile_append_of_pos]
  · rfl
  · exact fun c hc => h c (List.mem_reverse.1 hc)

theorem trim_append_blanks (h : Blanks after) (s : List Char) : trim (s ++ after) = trim s := by
  rw [trim, List.dropWhile_append]
  split
  · rename_i hnil
    have hafter : after.dropWhile isBlank = [] := List.dropWhile_eq_nil_iff.2 h
    rw [hafter, trim, List.isEmpty_iff.1 hnil]
  · exact trimEnd_append_blanks h _

theorem trim_blanks_append (h : Blanks before) (s : List Char) : trim (before ++ s) = trim s := by
  rw [trim, List.dropWhile_append_of_pos h, trim]

theorem trim_of_padded (h : Padded s t) : trim s = trim t := by
  obtain ⟨before, after, hbefore, hafter, rfl⟩ := h
  rw [trim_blanks_append hbefore, trim_append_blanks hafter]

theorem exists_trimEnd (s : List Char) : ∃ after, Blanks after ∧ s = trimEnd s ++ after := by
  refine ⟨(s.reverse.takeWhile isBlank).reverse, fun c hc => ?_, ?_⟩
  · exact List.mem_takeWhile_imp (List.mem_reverse.1 hc)
  · rw [trimEnd, Pieces.dropEndWhile, ← List.reverse_append, List.takeWhile_append_dropWhile,
      List.reverse_reverse]

theorem padded_trim (s : List Char) : Padded s (trim s) := by
  obtain ⟨after, hafter, hs⟩ := exists_trimEnd (s.dropWhile isBlank)
  refine ⟨s.takeWhile isBlank, after, fun c hc => List.mem_takeWhile_imp hc, hafter, ?_⟩
  rw [trim, ← hs, List.takeWhile_append_dropWhile]

theorem trim_eq_nil_iff : trim s = [] ↔ Blanks s := by
  constructor
  · intro h
    obtain ⟨before, after, hbefore, hafter, hs⟩ := padded_trim s
    rw [h, List.nil_append] at hs
    intro c hc
    rw [hs, List.mem_append] at hc
    exact hc.elim (hbefore c) (hafter c)
  · intro h
    have hnil := trim_blanks_append h []
    rwa [List.append_nil] at hnil

theorem trim_append_cons {c : Char} (hc : isBlank c = false) (s t : List Char) :
    trim (s ++ c :: t) = s.dropWhile isBlank ++ c :: trimEnd t := by
  have hstart : (s ++ c :: t).dropWhile isBlank = s.dropWhile isBlank ++ c :: t := by
    rw [List.dropWhile_append, List.dropWhile_cons, hc]
    split
    · rename_i hnil
      rw [List.isEmpty_iff.1 hnil]
      rfl
    · rfl
  have hrest (u : List Char) : (c :: u).dropWhile isBlank = c :: u := by
    rw [List.dropWhile_cons, hc]
    rfl
  rw [trim, hstart, trimEnd, trimEnd, Pieces.dropEndWhile, Pieces.dropEndWhile,
    List.reverse_append, List.reverse_cons, List.append_assoc, List.singleton_append,
    List.dropWhile_append, hrest]
  split
  · rename_i hnil
    rw [List.isEmpty_iff.1 hnil, List.reverse_cons, List.reverse_reverse]
    rfl
  · simp

theorem isBlank_of_getLast?_trim {c : Char} (h : (trim s).getLast? = some c) :
    isBlank c = false := by
  have hfirst := List.head?_dropWhile_not isBlank (s.dropWhile isBlank).reverse
  rw [trim, trimEnd, Pieces.dropEndWhile, List.getLast?_reverse] at h
  rw [h] at hfirst
  exact Bool.eq_false_iff.2 (by simpa using hfirst)

theorem trim_dropWhile (s : List Char) : trim (s.dropWhile isBlank) = trim s := by
  conv => rhs; rw [← List.takeWhile_append_dropWhile (p := isBlank) (l := s)]
  exact (trim_blanks_append (fun c hc => List.mem_takeWhile_imp hc) _).symm

theorem trim_trimEnd (s : List Char) : trim (trimEnd s) = trim s := by
  obtain ⟨after, hafter, hs⟩ := exists_trimEnd s
  conv => rhs; rw [hs]
  exact (trim_append_blanks hafter _).symm

/-! ## Words -/

variable {c : Char} {word : List Char}

theorem words_blank_cons (h : isBlank c = true) (s : List Char) : words (c :: s) = words s := by
  rw [words, Pieces.splitOn_cons_of_sep h, List.filter_cons]
  rfl

theorem words_append_blank (hne : word ≠ []) (hword : ∀ x ∈ word, isBlank x = false)
    (h : isBlank c = true) (s : List Char) : words (word ++ c :: s) = word :: words s := by
  have hkept : (!word.isEmpty) = true := by rw [List.isEmpty_eq_false_iff.2 hne]; rfl
  rw [words, Pieces.splitOn_append_cons h, Pieces.splitOn_eq_singleton hword, List.singleton_append,
    List.filter_cons, if_pos hkept]
  rfl

theorem words_of_blanks (h : Blanks s) : words s = [] := by
  induction s with
  | nil => rfl
  | cons c s ih =>
      rw [words_blank_cons (h c List.mem_cons_self), ih fun d hd => h d (List.mem_cons_of_mem _ hd)]

end

/-! ## Text on one line -/

/-- All characters come from the space on: none of them ends a line. -/
def Plain (s : String) : Prop := ∀ c ∈ s.toList, ' ' ≤ c

namespace Plain

variable {s t : String}

theorem append (hs : Plain s) (ht : Plain t) : Plain (s ++ t) := by
  intro c hc
  rw [String.toList_append, List.mem_append] at hc
  exact hc.elim (hs c) (ht c)

theorem ofList {cs : List Char} (h : ∀ c ∈ cs, ' ' ≤ c) : Plain (String.ofList cs) := by
  intro c hc
  rw [String.toList_ofList] at hc
  exact h c hc

theorem padRight (hs : Plain s) (width : Nat) : Plain (padRight width s) :=
  hs.append (ofList fun _ hc => (List.mem_replicate.1 hc).2 ▸ Char.le_refl ' ')

theorem padLeft (hs : Plain s) (width : Nat) : Plain (padLeft width s) :=
  Plain.append (ofList fun _ hc => (List.mem_replicate.1 hc).2 ▸ Char.le_refl ' ') hs

end Plain

/-- Text that is written out in a program. -/
theorem plain_of_all {s : String} (h : s.toList.all (' ' ≤ ·) = true) : Plain s :=
  fun c hc => of_decide_eq_true (List.all_eq_true.1 h c hc)

theorem le_of_mem_toDigits {n : Nat} {c : Char} (h : c ∈ Nat.toDigits 10 n) : ' ' ≤ c := by
  have hdigit := Nat.isDigit_of_mem_toDigits (by decide) (by decide) h
  simp only [Char.isDigit, Bool.and_eq_true, decide_eq_true_eq] at hdigit
  exact Nat.le_trans (by decide) hdigit.1

theorem plain_toString (n : Nat) : Plain (toString n) := by
  intro c hc
  rw [Nat.toString_eq_repr, Nat.toList_repr] at hc
  exact le_of_mem_toDigits hc

theorem plain_zeroPadded (width n : Nat) : Plain (zeroPadded width n) := by
  refine .ofList fun c hc => ?_
  rcases List.mem_append.1 hc with hc | hc
  · rw [(List.mem_replicate.1 hc).2]; decide
  · exact le_of_mem_toDigits hc

theorem le_length_padRight (width : Nat) (s : String) : width ≤ (padRight width s).length := by
  rw [padRight, String.length_append, String.length_ofList, List.length_replicate]
  omega

theorem le_length_padLeft (width : Nat) (s : String) : width ≤ (padLeft width s).length := by
  rw [padLeft, String.length_append, String.length_ofList, List.length_replicate]
  omega

/-! ## Lines -/

theorem lines_append_cons (s t : List Char) :
    lines (s ++ '\n' :: t) = (Pieces.splitOn (· == '\n') s).map dropReturn ++ lines t := by
  obtain ⟨pieces, last, ht⟩ : ∃ pieces last, Pieces.splitOn (· == '\n') t = pieces ++ [last] := by
    obtain ⟨piece, more, ht⟩ := Pieces.splitOn_eq_cons (· == '\n') t
    exact ⟨_, _, ht.trans (List.dropLast_concat_getLast (List.cons_ne_nil piece more)).symm⟩
  rw [lines, lines, Pieces.splitOn_append_cons (by decide), ht, ← List.append_assoc]
  simp only [List.dropLast_concat, List.getLast?_concat, List.map_append]
  cases last with
  | nil => rfl
  | cons c last => exact List.append_assoc _ _ _

/-- Ended lines in front of a text are its first lines. -/
theorem lines_ended_append {ls : List (List Char)} (h : ∀ l ∈ ls, '\n' ∉ l) (t : List Char) :
    lines (ls.flatMap (· ++ ['\n']) ++ t) = ls.map dropReturn ++ lines t := by
  induction ls with
  | nil => rfl
  | cons l ls ih =>
      have hline : ∀ c ∈ l, (c == '\n') = false := fun c hc =>
        beq_eq_false_iff_ne.2 fun hfeed => h l List.mem_cons_self (hfeed ▸ hc)
      rw [List.flatMap_cons, List.append_assoc, List.append_assoc, List.singleton_append,
        lines_append_cons, Pieces.splitOn_eq_singleton hline,
        ih fun m hm => h m (List.mem_cons_of_mem _ hm)]
      rfl

theorem dropReturn_eq_self {l : List Char} (h : '\r' ∉ l) : dropReturn l = l :=
  if_neg fun hlast => h (List.mem_of_getLast? hlast)

theorem toList_join_ended (ls : List String) : (String.join (ls.map (· ++ "\n"))).toList
    = (ls.map String.toList).flatMap (· ++ ['\n']) := by
  rw [String.toList_join, List.flatMap_map, List.flatMap_map]
  simp only [String.toList_append]
  rfl

/-- Plain lines are read as they stand. -/
theorem lines_plain_append {ls : List String} (h : ∀ l ∈ ls, Plain l) (t : List Char) :
    lines ((String.join (ls.map (· ++ "\n"))).toList ++ t) = ls.map String.toList ++ lines t := by
  have hfeed : ∀ l ∈ ls.map String.toList, '\n' ∉ l :=
    List.forall_mem_map.2 fun l hl hc => absurd (h l hl _ hc) (by decide)
  have hreturn : ∀ l ∈ ls.map String.toList, dropReturn l = l :=
    List.forall_mem_map.2 fun l hl => dropReturn_eq_self fun hc => absurd (h l hl _ hc) (by decide)
  rw [toList_join_ended, lines_ended_append hfeed, List.map_congr_left hreturn, List.map_id']

end TiBench.Text
