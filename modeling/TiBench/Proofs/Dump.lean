import TiBench.Text.Dump
import TiBench.Proofs.Name
import TiBench.Proofs.Number

/-!
# Dumps

The lines of a dump, the bytes that are read back from their columns, and the lines of a dump that
a window shows.
-/

namespace TiBench.Text

variable {address start offset k : Nat} {data row : Bytes} {line : List Char}

/-! ## One line -/

/-- The address in upper case hexadecimal, four digits of it at least. -/
structure LabelOf (address : Nat) (label : List Char) : Prop where
  digits : Digits 16 label address
  upper : ∀ c ∈ label, c.toUpper = c
  wide : 4 ≤ label.length

/-- Three characters for each byte, the first two of them its digits, and blanks up to the width of
a whole row. -/
structure ColumnsOf (row : Bytes) (columns : List Char) : Prop where
  length_eq : columns.length = 48
  pair : ∀ j b, row[j]? = some b → (columns.drop (3 * j)).take 3
    = [hexDigit (b.toNat / 16), hexDigit (b.toNat % 16), ' ']
  filler : ∀ c ∈ columns.drop (3 * row.length), c = ' '

/-- A printable ASCII character shows itself, and a full stop shows any other byte. -/
inductive ShownAs : UInt8 → Char → Prop where
  | printable {b : UInt8} : 0x20 ≤ b → b < 0x7f → ShownAs b (ofAscii b)
  | other {b : UInt8} : b < 0x20 ∨ 0x7f ≤ b → ShownAs b '.'

/-- The line shows the bytes at the address. -/
def RowLine (address : Nat) (row : Bytes) (line : List Char) : Prop :=
  ∃ label columns shown, line = label ++ " : ".toList ++ columns ++ "| ".toList ++ shown
    ∧ LabelOf address label ∧ ColumnsOf row columns ∧ List.Forall₂ ShownAs row shown

theorem labelOf_hex (address : Nat) : LabelOf address (hex 4 address).toList := by
  refine ⟨digits_hex 4 address, fun c hc => ?_, le_length_hex 4 address⟩
  have hupper : ∀ d < 16, (hexDigit d).toUpper = hexDigit d := by decide
  obtain ⟨d, hd, rfl⟩ := exists_hexDigit_of_mem_hex hc
  exact hupper d hd

theorem shownAs_printable (b : UInt8) : ShownAs b (printable b) := by
  rw [printable]
  split
  · rename_i h
    rw [Bool.and_eq_true, decide_eq_true_iff, decide_eq_true_iff] at h
    exact .printable h.1 h.2
  · rename_i h
    rw [Bool.and_eq_true, decide_eq_true_iff, decide_eq_true_iff, not_and_or] at h
    exact .other (h.imp UInt8.not_le.1 UInt8.not_lt.1)

theorem ShownAs.le {b : UInt8} {c : Char} (h : ShownAs b c) : ' ' ≤ c := by
  cases h with
  | printable hlow hhigh =>
      have hsmall : b < 0x80 := UInt8.lt_trans hhigh (by decide)
      change ' '.toNat ≤ (ofAscii b).toNat
      rw [toNat_ofAscii hsmall]
      exact UInt8.le_iff_toNat_le.1 hlow
  | other => decide

/-- What the columns show of one byte. -/
def pair (b : UInt8) : List Char := [hexDigit (b.toNat / 16), hexDigit (b.toNat % 16), ' ']

/-- The columns of a row. -/
def columns (row : Bytes) : List Char :=
  row.flatMap pair ++ List.replicate (3 * (rowSize - row.length)) ' '

theorem drop_flatMap_pair (j : Nat) (row : Bytes) :
    (row.flatMap pair).drop (3 * j) = (row.drop j).flatMap pair := by
  induction row generalizing j with
  | nil => simp
  | cons b row ih =>
      cases j with
      | zero => rfl
      | succ j => exact ih j

theorem length_flatMap_pair (row : Bytes) : (row.flatMap pair).length = 3 * row.length := by
  induction row with
  | nil => rfl
  | cons b row ih =>
      rw [List.flatMap_cons, List.length_append, ih, List.length_cons, Nat.mul_succ, Nat.add_comm]
      rfl

theorem columnsOf_columns (h : row.length ≤ rowSize) : ColumnsOf row (columns row) := by
  have hlen := length_flatMap_pair row
  refine ⟨?_, fun j b hj => ?_, fun c hc => ?_⟩
  · rw [rowSize] at h
    rw [columns, List.length_append, hlen, List.length_replicate, rowSize]
    omega
  · obtain ⟨hlt, rfl⟩ := List.getElem?_eq_some_iff.1 hj
    rw [columns, List.drop_append_of_le_length (by omega), drop_flatMap_pair,
      List.drop_eq_getElem_cons hlt]
    rfl
  · rw [columns, ← hlen, List.drop_left] at hc
    exact (List.mem_replicate.1 hc).2

/-- The line that shows the bytes at the address. -/
def rowLine (address : Nat) (row : Bytes) : List Char :=
  (hex 4 address).toList ++ " : ".toList ++ columns row ++ "| ".toList ++ row.map printable

theorem rowLine_shows (h : row.length ≤ rowSize) (address : Nat) :
    RowLine address row (rowLine address row) :=
  ⟨_, _, _, rfl, labelOf_hex address, columnsOf_columns h,
    List.forall₂_map_right_iff.2 (List.forall₂_same.2 fun b _ => shownAs_printable b)⟩

theorem toList_dumpRow (address : Nat) (row : Bytes) :
    (dumpRow address row).toList = rowLine address row ++ ['\n'] := by
  have hpair (b : UInt8) : (hex 2 b.toNat ++ " ").toList = pair b := by
    rw [String.toList_append, toList_hex_two b.toNat_lt]
    rfl
  have hblank (n : Nat) : (List.replicate n "   ").flatMap String.toList
      = List.replicate (3 * n) ' ' := by
    rw [List.flatMap_replicate]
    induction n with
    | zero => rfl
    | succ n ih => rw [List.replicate_succ, List.flatten_cons, ih]; rfl
  simp only [dumpRow, rowLine, columns, String.toList_append, String.toList_join, hblank,
    String.toList_ofList, List.flatMap_map, hpair, List.append_assoc]
  rfl

theorem eq_of_mem_columns {c : Char} (h : c ∈ columns row) :
    c = ' ' ∨ ∃ d < 16, c = hexDigit d := by
  rw [columns, List.mem_append, List.mem_flatMap] at h
  rcases h with ⟨b, -, h⟩ | h
  · have hb := b.toNat_lt
    simp only [pair, List.mem_cons, List.not_mem_nil, or_false] at h
    rcases h with rfl | rfl | rfl
    · exact .inr ⟨_, by omega, rfl⟩
    · exact .inr ⟨_, by omega, rfl⟩
    · exact .inl rfl
  · exact .inl (List.mem_replicate.1 h).2

/-- A line of a dump ends in its line feed only. -/
theorem le_of_mem_rowLine {c : Char} (h : c ∈ rowLine address row) : ' ' ≤ c := by
  have hdigit : ∀ d < 16, ' ' ≤ hexDigit d := by decide
  have hmark {mark : List Char} (hall : mark.all (' ' ≤ ·) = true) (hc : c ∈ mark) : ' ' ≤ c :=
    of_decide_eq_true (List.all_eq_true.1 hall c hc)
  simp only [rowLine, List.mem_append, List.mem_map, or_assoc] at h
  rcases h with h | h | h | h | ⟨b, -, rfl⟩
  · obtain ⟨d, hd, rfl⟩ := exists_hexDigit_of_mem_hex h
    exact hdigit d hd
  · exact hmark (by decide) h
  · rcases eq_of_mem_columns h with rfl | ⟨d, hd, rfl⟩
    · exact Char.le_refl ' '
    · exact hdigit d hd
  · exact hmark (by decide) h
  · exact (shownAs_printable b).le

/-! ## Reading a line -/

/-- The bytes whose digits stand between the colon and the bar. -/
def columnBytes (line : List Char) : Bytes :=
  (words (((line.dropWhile (· != ':')).drop 1).takeWhile (· != '|'))).filterMap fun digits =>
    (digits? 16 digits).map UInt8.ofNat

theorem digits?_pair (b : UInt8) :
    digits? 16 [hexDigit (b.toNat / 16), hexDigit (b.toNat % 16)] = some b.toNat := by
  rw [← toList_hex_two b.toNat_lt]
  exact (digits?_eq_some_iff (by decide)).2 (digits_hex 2 b.toNat).2

theorem filterMap_words_columns (row : Bytes) : (words (columns row)).filterMap
    (fun digits => (digits? 16 digits).map UInt8.ofNat) = row := by
  have hblank : ∀ d < 16, isBlank (hexDigit d) = false := by decide
  rw [columns]
  generalize rowSize - row.length = n
  induction row with
  | nil =>
      have hfiller : Blanks (List.replicate (3 * n) ' ') := fun c hc => by
        rw [(List.mem_replicate.1 hc).2]
        rfl
      rw [List.flatMap_nil, List.nil_append, words_of_blanks hfiller]
      rfl
  | cons b row ih =>
      have hb := b.toNat_lt
      have hdigits : ∀ c ∈ [hexDigit (b.toNat / 16), hexDigit (b.toNat % 16)],
          isBlank c = false := by
        simp only [List.forall_mem_cons, hblank _ (show b.toNat / 16 < 16 by omega),
          hblank _ (show b.toNat % 16 < 16 by omega)]
        simp
      have hpair : (b :: row).flatMap pair ++ List.replicate (3 * n) ' '
          = [hexDigit (b.toNat / 16), hexDigit (b.toNat % 16)] ++ ' ' ::
            (row.flatMap pair ++ List.replicate (3 * n) ' ') := rfl
      rw [hpair, words_append_blank (List.cons_ne_nil _ _) hdigits rfl, List.filterMap_cons,
        digits?_pair, ih, Option.map_some, UInt8.ofNat_toNat]

/-- The columns of a line give back its bytes. -/
theorem columnBytes_rowLine (address : Nat) (row : Bytes) :
    columnBytes (rowLine address row) = row := by
  have hdigit : ∀ d < 16, (hexDigit d != ':') = true ∧ (hexDigit d != '|') = true := by decide
  have hlabel : ∀ c ∈ (hex 4 address).toList ++ [' '], (c != ':') = true := by
    intro c hc
    rw [List.mem_append, List.mem_singleton] at hc
    rcases hc with hc | rfl
    · obtain ⟨d, hd, rfl⟩ := exists_hexDigit_of_mem_hex hc
      exact (hdigit d hd).1
    · rfl
  have hcolumns : ∀ c ∈ ' ' :: columns row, (c != '|') = true := by
    intro c hc
    rcases List.mem_cons.1 hc with rfl | hc
    · rfl
    · rcases eq_of_mem_columns hc with rfl | ⟨d, hd, rfl⟩
      · rfl
      · exact (hdigit d hd).2
  have hsplit : rowLine address row = ((hex 4 address).toList ++ [' ']) ++ ':' ::
      ((' ' :: columns row) ++ '|' :: ' ' :: row.map printable) := by
    simp [rowLine]
  rw [columnBytes, hsplit, List.dropWhile_append_of_pos hlabel,
    List.dropWhile_cons_of_neg (by decide), List.drop_one, List.tail_cons,
    List.takeWhile_append_of_pos hcolumns, List.takeWhile_cons_of_neg (by decide),
    List.append_nil, words_blank_cons rfl, filterMap_words_columns]

/-! ## Whole dumps -/

/-- The lines of a dump. -/
def dumpLines (start : Nat) (data : Bytes) : List (List Char) :=
  (Pieces.chunks rowSize data).mapIdx fun k row => rowLine (sizeSum start (rowSize * k)) row

theorem toList_hexBlock (start : Nat) (data : Bytes) :
    (hexBlock start data).toList = (dumpLines start data).flatMap (· ++ ['\n']) := by
  rw [hexBlock, String.toList_join, dumpLines, List.mapIdx_eq_zipIdx_map, List.mapIdx_eq_zipIdx_map]
  simp only [List.flatMap_map, toList_dumpRow]

theorem lines_dump (start : Nat) (data : Bytes) :
    lines ((dumpLines start data).flatMap (· ++ ['\n'])) = dumpLines start data := by
  have hline : ∀ line ∈ dumpLines start data, ∀ c ∈ line, ' ' ≤ c := by
    intro line hline c hc
    obtain ⟨k, hk, rfl⟩ := List.mem_mapIdx.1 hline
    exact le_of_mem_rowLine hc
  have hfeed : ∀ line ∈ dumpLines start data, '\n' ∉ line := fun line hmem hc =>
    absurd (hline line hmem _ hc) (by decide)
  have hreturn : ∀ line ∈ dumpLines start data, dropReturn line = line := fun line hmem =>
    dropReturn_eq_self fun hc => absurd (hline line hmem _ hc) (by decide)
  have hlines := lines_ended_append hfeed []
  rw [List.append_nil] at hlines
  rw [hlines, List.map_congr_left hreturn, List.map_id']
  exact List.append_nil _

theorem lines_hexBlock (start : Nat) (data : Bytes) :
    lines (hexBlock start data).toList = dumpLines start data := by
  rw [toList_hexBlock, lines_dump]

theorem getElem?_dumpLines (start : Nat) (data : Bytes) (k : Nat) : (dumpLines start data)[k]?
    = if k * rowSize < data.length then
        some (rowLine (sizeSum start (rowSize * k)) ((data.drop (k * rowSize)).take rowSize))
      else none := by
  rw [dumpLines, List.getElem?_mapIdx, Pieces.getElem?_chunks (by decide)]
  split <;> rfl

theorem flatMap_columnBytes (start : Nat) (data : Bytes) :
    (dumpLines start data).flatMap columnBytes = data := by
  have hrows : (dumpLines start data).map columnBytes = Pieces.chunks rowSize data := by
    apply List.ext_getElem?
    intro k
    rw [dumpLines, List.getElem?_map, List.getElem?_mapIdx, Option.map_map]
    simp only [Function.comp_def, columnBytes_rowLine, Option.map_id']
  rw [List.flatMap_def, hrows, Pieces.flatten_chunks (by decide)]

/-- The dump of whole rows that follow one another is a stretch of the dump. -/
theorem dumpLines_slice (start n m : Nat) (data : Bytes) :
    dumpLines (start + rowSize * n) ((data.drop (n * rowSize)).take (m * rowSize))
      = ((dumpLines start data).drop n).take m := by
  apply List.ext_getElem?
  intro k
  rw [List.getElem?_take, List.getElem?_drop, getElem?_dumpLines, getElem?_dumpLines,
    List.length_take, List.length_drop, rowSize]
  by_cases hk : k < m
  · have hrow : (((data.drop (n * 16)).take (m * 16)).drop (k * 16)).take 16
        = (data.drop ((n + k) * 16)).take 16 := by
      rw [List.drop_take, List.take_take, List.drop_drop, Nat.add_mul,
        Nat.min_eq_left (by omega)]
    rw [if_pos hk, hrow, sizeSum_add, ← Nat.mul_add]
    by_cases hlt : (n + k) * 16 < data.length
    · rw [if_pos hlt, if_pos (by omega)]
    · rw [if_neg hlt, if_neg (by omega)]
  · rw [if_neg hk, if_neg (by omega)]

/-! ## What a dump and a window show -/

/-- The text is a dump of the bytes, the first of them at the address. -/
structure DumpOf (start : Nat) (data : Bytes) (dump : String) : Prop where
  ended : dump.toList = (lines dump.toList).flatMap (· ++ ['\n'])
  count : (lines dump.toList).length = (data.length + 15) / 16
  /-- Zero comes after the last address of all. -/
  wrapped : ∀ k line, (lines dump.toList)[k]? = some line
    → RowLine (sizeSum start (16 * k)) ((data.drop (16 * k)).take 16) line
  row : start + data.length ≤ 2 ^ 64 → ∀ k line, (lines dump.toList)[k]? = some line
    → RowLine (start + 16 * k) ((data.drop (16 * k)).take 16) line
  bytes : (lines dump.toList).flatMap columnBytes = data

/-- The text shows the row of the byte at the offset, and its neighbours if they exist: of the lines
of the whole dump, the three from the one before the row on. -/
structure WindowOf (data : Bytes) (offset : Nat) (window : String) : Prop where
  ended : window.toList = (lines window.toList).flatMap (· ++ ['\n'])
  rows : lines window.toList
    = ((lines (hexBlock 0 data).toList).drop (offset / 16 - 1)).take 3
  row : data.length ≤ 2 ^ 64 → ∀ k line, (lines window.toList)[k]? = some line
    → RowLine (16 * (offset / 16 - 1 + k)) ((data.drop (16 * (offset / 16 - 1 + k))).take 16) line
  own : ∃ line ∈ lines window.toList, (lines (hexBlock 0 data).toList)[offset / 16]? = some line
  near : ∀ k line, (lines (hexBlock 0 data).toList)[k]? = some line →
    offset / 16 ≤ k + 1 → k ≤ offset / 16 + 1 → line ∈ lines window.toList

theorem dumpOf_hexBlock (start : Nat) (data : Bytes) : DumpOf start data (hexBlock start data) := by
  have hlines := lines_hexBlock start data
  have hrow {k : Nat} {line : List Char}
      (hk : (lines (hexBlock start data).toList)[k]? = some line) : 16 * k < data.length
        ∧ RowLine (sizeSum start (16 * k)) ((data.drop (16 * k)).take 16) line := by
    rw [hlines, getElem?_dumpLines, Nat.mul_comm, rowSize, Option.ite_none_right_eq_some] at hk
    obtain ⟨hlt, hline⟩ := hk
    rw [← Option.some.inj hline]
    exact ⟨hlt, rowLine_shows (List.length_take_le _ _) _⟩
  refine ⟨?_, ?_, fun k line hk => (hrow hk).2, fun hlast k line hk => ?_, ?_⟩
  · rw [hlines, toList_hexBlock]
  · rw [hlines, dumpLines, List.length_mapIdx, Pieces.length_chunks (by decide)]
    rfl
  · obtain ⟨hlt, hline⟩ := hrow hk
    rwa [sizeSum_of_lt (by rw [UInt64.size]; omega)] at hline
  · rw [hlines, flatMap_columnBytes]

theorem hexWindow_eq (h : offset < data.length) : hexWindow data offset
    = hexBlock (rowSize * (offset / 16 - 1)) ((data.drop ((offset / 16 - 1) * rowSize)).take
      (3 * rowSize)) := by
  have hfirst : ¬data.length ≤ (offset / rowSize - 1) * rowSize := by
    rw [rowSize]
    omega
  rw [hexWindow, if_neg hfirst, Nat.mul_comm rowSize]
  rfl

theorem windowOf_hexWindow (h : offset < data.length) :
    WindowOf data offset (hexWindow data offset) := by
  have hrows : lines (hexWindow data offset).toList
      = ((lines (hexBlock 0 data).toList).drop (offset / 16 - 1)).take 3 := by
    rw [hexWindow_eq h, lines_hexBlock, lines_hexBlock, ← dumpLines_slice, Nat.zero_add]
  have hnear : ∀ k line, (lines (hexBlock 0 data).toList)[k]? = some line →
      offset / 16 ≤ k + 1 → k ≤ offset / 16 + 1 → line ∈ lines (hexWindow data offset).toList := by
    intro k line hk hbefore hafter
    refine List.mem_iff_getElem?.2 ⟨k - (offset / 16 - 1), ?_⟩
    rw [hrows, List.getElem?_take_of_lt (by omega), List.getElem?_drop, ← hk]
    congr 1
    omega
  have hown : offset / 16 * 16 < data.length := by omega
  refine ⟨?_, hrows, fun hlast k line hk => ?_, ?_, hnear⟩
  · rw [hexWindow_eq h]
    exact (dumpOf_hexBlock _ _).ended
  · rw [hrows, List.getElem?_take, Option.ite_none_right_eq_some, List.getElem?_drop] at hk
    have hline := (dumpOf_hexBlock 0 data).row (by omega) _ _ hk.2
    rwa [Nat.zero_add] at hline
  · have hline := getElem?_dumpLines 0 data (offset / 16)
    rw [← lines_hexBlock, rowSize, if_pos hown] at hline
    exact ⟨_, hnear _ _ hline (by omega) (by omega), hline⟩

/-- A dump has a line for every sixteen bytes, with their address, from which they are read back. A
window shows the lines around one byte as they stand in the whole dump. -/
theorem dumps_show_bytes : (∀ start data, DumpOf start data (hexBlock start data))
    ∧ ∀ data offset, offset < data.length → WindowOf data offset (hexWindow data offset) :=
  ⟨dumpOf_hexBlock, fun _ _ h => windowOf_hexWindow h⟩

/-- A window at the last byte, which is alone in its row, and the last line of a dump that starts at
another address. -/
theorem dumps_show_bytes_last :
    let data := (List.range 41).map UInt8.ofNat
    40 < data.length ∧ WindowOf data 40 (hexWindow data 40)
      ∧ ∃ line, (lines (hexBlock 0x1000 data).toList)[2]? = some line
        ∧ RowLine 0x1020 ((data.drop 32).take 16) line := by
  intro data
  have hdump := dumps_show_bytes.1 0x1000 data
  have hline : 2 < (lines (hexBlock 0x1000 data).toList).length := by rw [hdump.count]; decide
  exact ⟨by decide, dumps_show_bytes.2 data 40 (by decide), _, List.getElem?_eq_getElem hline,
    hdump.row (by decide) 2 _ (List.getElem?_eq_getElem hline)⟩

end TiBench.Text
