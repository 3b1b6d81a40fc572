import TiBench.Sample.Marker
import TiBench.Proofs.Text
import Mathlib.Data.List.Forall2
import Mathlib.Logic.Basic

/-!
# Markers

A line carries a marker if and only if the comment sign, white space and a tag stand in it one after
the other, and the markers of a source text are those of its lines.
-/

namespace TiBench

namespace Text

variable {a b : Char} {word s rest : List Char}

/-! ## Words without regard to case -/

/-- The characters have the same simple case folding. -/
def SameFolding (a b : Char) : Prop := foldCode a.toNat = foldCode b.toNat

theorem sameLetter_iff : sameLetter a b = true ↔ SameFolding a b := by
  rw [sameLetter, Bool.or_eq_true, beq_iff_eq, beq_iff_eq, SameFolding]
  exact or_iff_right_of_imp fun h => h ▸ rfl

theorem dropWord?_eq_some_iff : dropWord? word s = some rest
    ↔ ∃ start, s = start ++ rest ∧ List.Forall₂ SameFolding word start := by
  induction word generalizing s with
  | nil =>
      rw [dropWord?, Option.some.injEq]
      constructor
      · exact fun h => ⟨[], h, .nil⟩
      · rintro ⟨_, rfl, h⟩
        cases h
        rfl
  | cons w word ih =>
      cases s with
      | nil =>
          rw [dropWord?]
          refine ⟨nofun, ?_⟩
          rintro ⟨_, hs, h⟩
          cases h
          cases hs
      | cons c s =>
          rw [dropWord?]
          constructor
          · intro h
            split at h
            · rename_i hsame
              obtain ⟨start, rfl, hstart⟩ := ih.1 h
              exact ⟨c :: start, rfl, .cons (sameLetter_iff.1 hsame) hstart⟩
            · cases h
          · rintro ⟨_, hs, h⟩
            cases h with
            | cons hsame hstart =>
                obtain ⟨rfl, rfl⟩ := List.cons.inj hs
                rw [if_pos (sameLetter_iff.2 hsame), ih]
                exact ⟨_, rfl, hstart⟩

/-- A word begins or ends between the texts: a character of a word stands on one side only. -/
def WordBoundary (before after : List Char) : Prop :=
  Xor (∃ c, before.getLast? = some c ∧ isWord c = true)
    (∃ c, after.head? = some c ∧ isWord c = true)

theorem isWordEdge_iff (before after : List Char) :
    isWordEdge before.getLast? after.head? = true ↔ WordBoundary before after := by
  have hany (o : Option Char) : o.any isWord = true ↔ ∃ c, o = some c ∧ isWord c = true := by
    cases o <;> simp
  rw [isWordEdge, WordBoundary, ← hany, ← hany, bne_iff_ne, ne_eq, Bool.eq_iff_iff, xor_iff_not_iff]

end Text

namespace Sample.Marker

open Text (SameFolding WordBoundary Blanks)

variable {comment tag before s : List Char}

/-! ## One line -/

/-- The text after `before` starts with the tag, which ends where a word begins or ends. -/
def StartsWithTag (tag before s : List Char) : Prop :=
  ∃ word after, s = word ++ after ∧ List.Forall₂ SameFolding tag word
    ∧ WordBoundary (before ++ word) after

theorem tagHere_iff : tagHere tag before.getLast? s = true ↔ StartsWithTag tag before s := by
  rw [tagHere]
  cases hdrop : Text.dropWord? tag s with
  | none =>
      refine ⟨nofun, ?_⟩
      rintro ⟨word, after, hs, hword, -⟩
      rw [Text.dropWord?_eq_some_iff.2 ⟨word, hs, hword⟩] at hdrop
      cases hdrop
  | some rest =>
      obtain ⟨word, rfl, hword⟩ := Text.dropWord?_eq_some_iff.1 hdrop
      simp only
      rw [List.take_left' hword.length_eq.symm, ← List.getLast?_append, Text.isWordEdge_iff]
      constructor
      · exact fun hedge => ⟨word, rest, rfl, hword, hedge⟩
      · rintro ⟨word', after, hs, hword', hedge⟩
        rw [Text.dropWord?_eq_some_iff.2 ⟨word', hs, hword'⟩] at hdrop
        obtain rfl := Option.some.inj hdrop
        rwa [List.append_cancel_right hs]

theorem tagAfterBlanks_iff : tagAfterBlanks tag before.getLast? s = true
    ↔ ∃ blanks rest, s = blanks ++ rest ∧ Blanks blanks
      ∧ StartsWithTag tag (before ++ blanks) rest := by
  induction s generalizing before with
  | nil =>
      rw [tagAfterBlanks, tagHere_iff]
      constructor
      · exact fun h => ⟨[], [], rfl, nofun, by rwa [List.append_nil]⟩
      · rintro ⟨blanks, rest, hs, -, h⟩
        obtain ⟨rfl, rfl⟩ := List.append_eq_nil_iff.1 hs.symm
        rwa [List.append_nil] at h
  | cons c s ih =>
      rw [tagAfterBlanks, Bool.or_eq_true, Bool.and_eq_true, tagHere_iff,
        ← List.getLast?_concat (l := before), ih]
      constructor
      · rintro (h | ⟨hc, blanks, rest, rfl, hblanks, h⟩)
        · exact ⟨[], c :: s, rfl, nofun, by rwa [List.append_nil]⟩
        · refine ⟨c :: blanks, rest, rfl, List.forall_mem_cons.2 ⟨hc, hblanks⟩, ?_⟩
          rwa [List.append_assoc] at h
      · rintro ⟨blanks, rest, hs, hblanks, h⟩
        cases blanks with
        | nil =>
            rw [List.append_nil] at h
            exact .inl (hs ▸ h)
        | cons d blanks =>
            obtain ⟨rfl, rfl⟩ := List.cons.inj hs
            obtain ⟨hc, hblanks⟩ := List.forall_mem_cons.1 hblanks
            exact .inr ⟨hc, blanks, rest, rfl, hblanks, by rwa [List.append_assoc]⟩

/-- The text after `before` starts with the comment sign, which white space or nothing and then the
tag follow. -/
def StartsWithMark (comment tag before s : List Char) : Prop :=
  ∃ sign blanks rest, s = sign ++ (blanks ++ rest) ∧ List.Forall₂ SameFolding comment sign
    ∧ Blanks blanks ∧ StartsWithTag tag (before ++ sign ++ blanks) rest

theorem markHere_iff :
    markHere comment tag before.getLast? s = true ↔ StartsWithMark comment tag before s := by
  rw [markHere]
  cases hdrop : Text.dropWord? comment s with
  | none =>
      refine ⟨nofun, ?_⟩
      rintro ⟨sign, blanks, rest, hs, hsign, -⟩
      rw [Text.dropWord?_eq_some_iff.2 ⟨sign, hs, hsign⟩] at hdrop
      cases hdrop
  | some rest =>
      obtain ⟨sign, rfl, hsign⟩ := Text.dropWord?_eq_some_iff.1 hdrop
      simp only
      rw [List.take_left' hsign.length_eq.symm, ← List.getLast?_append, tagAfterBlanks_iff]
      constructor
      · rintro ⟨blanks, rest, rfl, hblanks, h⟩
        exact ⟨sign, blanks, rest, rfl, hsign, hblanks, h⟩
      · rintro ⟨sign', blanks, rest', hs, hsign', hblanks, h⟩
        rw [Text.dropWord?_eq_some_iff.2 ⟨sign', hs, hsign'⟩] at hdrop
        obtain rfl := Option.some.inj hdrop
        rw [List.append_cancel_right hs]
        exact ⟨blanks, rest', rfl, hblanks, h⟩

theorem marks_iff : marks comment tag before.getLast? s = true
    ↔ ∃ more rest, s = more ++ rest ∧ StartsWithMark comment tag (before ++ more) rest := by
  induction s generalizing before with
  | nil =>
      rw [marks, markHere_iff]
      constructor
      · exact fun h => ⟨[], [], rfl, by rwa [List.append_nil]⟩
      · rintro ⟨more, rest, hs, h⟩
        obtain ⟨rfl, rfl⟩ := List.append_eq_nil_iff.1 hs.symm
        rwa [List.append_nil] at h
  | cons c s ih =>
      rw [marks, Bool.or_eq_true, markHere_iff, ← List.getLast?_concat (l := before), ih]
      constructor
      · rintro (h | ⟨more, rest, rfl, h⟩)
        · exact ⟨[], c :: s, rfl, by rwa [List.append_nil]⟩
        · exact ⟨c :: more, rest, rfl, by rwa [List.append_assoc] at h⟩
      · rintro ⟨more, rest, hs, h⟩
        cases more with
        | nil =>
            rw [List.append_nil] at h
            exact .inl (hs ▸ h)
        | cons d more =>
            obtain ⟨rfl, rfl⟩ := List.cons.inj hs
            exact .inr ⟨more, rest, rfl, by rwa [List.append_assoc]⟩

/-- The line has the comment sign somewhere, then white space or nothing, then the tag, which ends
where a word begins or ends. -/
def Tagged (comment tag line : List Char) : Prop :=
  ∃ before sign blanks word after, line = before ++ sign ++ blanks ++ word ++ after
    ∧ List.Forall₂ SameFolding comment sign ∧ Blanks blanks ∧ List.Forall₂ SameFolding tag word
    ∧ WordBoundary (before ++ sign ++ blanks ++ word) after

theorem marks_none_iff {line : List Char} :
    marks comment tag none line = true ↔ Tagged comment tag line := by
  have hstart : marks comment tag ([] : List Char).getLast? line = true ↔ _ := marks_iff
  rw [List.getLast?_nil] at hstart
  rw [hstart]
  constructor
  · rintro ⟨before, _, rfl, sign, blanks, _, rfl, hsign, hblanks, word, after, rfl, hword, hedge⟩
    exact ⟨before, sign, blanks, word, after, by simp, hsign, hblanks, hword, hedge⟩
  · rintro ⟨before, sign, blanks, word, after, rfl, hsign, hblanks, hword, hedge⟩
    exact ⟨before, _, by simp, sign, blanks, _, rfl, hsign, hblanks, word, after, rfl, hword, hedge⟩

/-! ## Source texts -/

/-- A line earns a marker by the error tag, or by the warning tag if it does not have the former. -/
def Earns (style : MarkerStyle) (line : List Char) : Severity → Prop
  | .error => Tagged style.comment.toList style.errorTag.toList line
  | .warning => ¬Tagged style.comment.toList style.errorTag.toList line
      ∧ Tagged style.comment.toList style.warningTag.toList line

theorem ofLine?_eq_some_iff {style : MarkerStyle} {line : List Char} {severity : Severity} :
    ofLine? style line = some severity ↔ Earns style line severity := by
  rw [ofLine?, ite_eq_iff, ite_eq_iff]
  simp only [marks_none_iff]
  cases severity with
  | error => simp [Earns]
  | warning => simp [Earns]

/-- The markers of lines, the first of which has `n` lines before it. -/
def ofLines (style : MarkerStyle) (n : Nat) (ls : List (List Char)) : List Marker :=
  (ls.zipIdx n).filterMap fun l => (ofLine? style l.1).map fun severity => ⟨l.2 + 1, severity⟩

theorem ofSource_eq (style : MarkerStyle) (source : String) :
    ofSource style source = ofLines style 0 (Text.lines source.toList) := by
  rw [ofSource, ofLines, List.mapIdx_eq_zipIdx_map, List.filterMap_map]
  rfl

theorem mem_ofLines {style : MarkerStyle} {n : Nat} {ls : List (List Char)} {m : Marker} :
    m ∈ ofLines style n ls
      ↔ ∃ i line, ls[i]? = some line ∧ m.line = n + i + 1 ∧ Earns style line m.severity := by
  simp only [ofLines, List.mem_filterMap, Option.map_eq_some_iff, ofLine?_eq_some_iff]
  constructor
  · rintro ⟨⟨line, k⟩, hmem, severity, hearns, rfl⟩
    obtain ⟨hle, hline⟩ := List.mem_zipIdx_iff_le_and_getElem?_sub.1 hmem
    exact ⟨k - n, line, hline, by dsimp only; omega, hearns⟩
  · rintro ⟨i, line, hline, hm, hearns⟩
    refine ⟨(line, n + i), ?_, m.severity, hearns, ?_⟩
    · exact List.mem_zipIdx_iff_le_and_getElem?_sub.2
        ⟨Nat.le_add_right n i, by rwa [Nat.add_sub_cancel_left]⟩
    · rw [← hm]

theorem ofLines_append (style : MarkerStyle) (n : Nat) (xs ys : List (List Char)) :
    ofLines style n (xs ++ ys) = ofLines style n xs ++ ofLines style (n + xs.length) ys := by
  rw [ofLines, List.zipIdx_append, List.filterMap_append]
  rfl

theorem pairwise_ofLines (style : MarkerStyle) (n : Nat) (ls : List (List Char)) :
    (ofLines style n ls).Pairwise (·.line < ·.line) := by
  induction ls generalizing n with
  | nil => exact .nil
  | cons line ls ih =>
      have hfirst : (ofLines style n [line]).Pairwise (·.line < ·.line) := by
        cases hline : ofLine? style line <;> simp [ofLines, hline]
      rw [← List.singleton_append, ofLines_append]
      refine List.pairwise_append.2 ⟨hfirst, ih _, fun a ha b hb => ?_⟩
      obtain ⟨i, _, hi, ha, -⟩ := mem_ofLines.1 ha
      obtain ⟨j, _, -, hb, -⟩ := mem_ofLines.1 hb
      have hlt := (List.getElem?_eq_some_iff.1 hi).1
      rw [List.length_singleton] at hlt hb
      omega

/-- The marker `k` lines further on. -/
def later (k : Nat) (m : Marker) : Marker := { m with line := m.line + k }

theorem ofLines_eq_map_later (style : MarkerStyle) (n : Nat) (ls : List (List Char)) :
    ofLines style n ls = (ofLines style 0 ls).map (later n) := by
  rw [ofLines, ofLines, List.zipIdx_eq_map_add, List.filterMap_map, List.map_filterMap]
  refine List.filterMap_congr fun l _ => ?_
  have hline : n + l.2 + 1 = l.2 + 1 + n := by omega
  rw [Option.map_map, Function.comp_apply, hline]
  rfl

/-- The lines as a text, each of them ended. -/
def ended (front : List String) : String := String.join (front.map (· ++ "\n"))

theorem lines_ended_source {front : List String} (h : ∀ line ∈ front, '\n' ∉ line.toList)
    (source : String) : Text.lines (ended front ++ source).toList
      = front.map (Text.dropReturn ∘ String.toList) ++ Text.lines source.toList := by
  have hfeed : ∀ line ∈ front.map String.toList, '\n' ∉ line := List.forall_mem_map.2 h
  rw [String.toList_append, ended, Text.toList_join_ended, Text.lines_ended_append hfeed,
    List.map_map]

theorem lines_ended {front : List String} (h : ∀ line ∈ front, '\n' ∉ line.toList) :
    Text.lines (ended front).toList = front.map (Text.dropReturn ∘ String.toList) := by
  have hlines := lines_ended_source h ""
  rw [String.append_empty] at hlines
  exact hlines.trans (List.append_nil _)

/-- The markers of a source text: those that its lines earn, in the order of the lines. -/
structure MarkersOf (style : MarkerStyle) (source : String) (ms : List Marker) : Prop where
  increasing : ms.Pairwise (·.line < ·.line)
  mem_iff : ∀ m, m ∈ ms ↔ ∃ i line, (Text.lines source.toList)[i]? = some line ∧ m.line = i + 1
    ∧ Earns style line m.severity

theorem markersOf_ofSource (style : MarkerStyle) (source : String) :
    MarkersOf style source (ofSource style source) := by
  rw [ofSource_eq]
  refine ⟨pairwise_ofLines style 0 _, fun m => ?_⟩
  rw [mem_ofLines]
  simp only [Nat.zero_add]

theorem ofSource_ended_append (style : MarkerStyle) {front : List String}
    (h : ∀ line ∈ front, '\n' ∉ line.toList) (source : String) :
    ofSource style (ended front ++ source)
      = ofSource style (ended front) ++ (ofSource style source).map (later front.length) := by
  rw [ofSource_eq, ofSource_eq, ofSource_eq, lines_ended_source h, lines_ended h, ofLines_append,
    ofLines_eq_map_later style (0 + _), Nat.zero_add, List.length_map]

theorem le_length_of_mem_ended {style : MarkerStyle} {front : List String} {m : Marker}
    (h : ∀ line ∈ front, '\n' ∉ line.toList) (hm : m ∈ ofSource style (ended front)) :
    m.line ≤ front.length := by
  obtain ⟨i, line, hi, hline, -⟩ := ((markersOf_ofSource style _).mem_iff m).1 hm
  have hlt := (List.getElem?_eq_some_iff.1 hi).1
  rw [lines_ended h, List.length_map] at hlt
  omega

/-- A source text has a marker for each line with a tag, in ascending order. Lines in front of it
move its markers on by their number and add their own. -/
theorem markers_of_tagged_lines (style : MarkerStyle) (source : String) :
    MarkersOf style source (ofSource style source)
      ∧ ∀ front : List String, (∀ line ∈ front, '\n' ∉ line.toList) →
        ofSource style (ended front ++ source)
            = ofSource style (ended front) ++ (ofSource style source).map (later front.length)
          ∧ ∀ m ∈ ofSource style (ended front), m.line ≤ front.length :=
  ⟨markersOf_ofSource style source, fun _ h =>
    ⟨ofSource_ended_append style h source, fun _ hm => le_length_of_mem_ended h hm⟩⟩

/-- The second comment sign of a line is the one that a tag follows, in other letters. -/
theorem markers_of_tagged_lines_second_sign :
    (∀ line ∈ ["X ;WARN"], '\n' ∉ line.toList)
      ∧ ofSource .usual (ended ["X ;WARN"] ++ "A ;ERRORS ; error")
        = [⟨1, .warning⟩] ++ [⟨1, .error⟩].map (later 1) := by
  have hfront : ofSource .usual (ended ["X ;WARN"]) = [⟨1, .warning⟩] := by decide +kernel
  have hsource : ofSource .usual "A ;ERRORS ; error" = [⟨1, .error⟩] := by decide +kernel
  have hplain : ∀ line ∈ ["X ;WARN"], '\n' ∉ line.toList := by decide
  refine ⟨hplain, ?_⟩
  rw [← hfront, ← hsource]
  exact ((markers_of_tagged_lines .usual "A ;ERRORS ; error").2 ["X ;WARN"] hplain).1

end Sample.Marker

end TiBench
