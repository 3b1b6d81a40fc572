import TiBench.FileFormat
import TiBench.Volume.Catalog
import TiBench.Proofs.Compare
import TiBench.Proofs.Text

/-!
# Laws of catalogs

A catalog has a line for each row, and what a row shows before its timestamp is at least fifty
characters wide.
-/

namespace TiBench

open Text (Plain)

theorem Timestamp.plain_text (t : Timestamp) : Plain t.text := by
  have hsign : Plain (if t.year < 0 then "-" else if 9999 < t.year then "+" else "") := by
    split
    · exact Text.plain_of_all (by decide)
    · split <;> exact Text.plain_of_all (by decide)
  have hyear : Plain (yearText t.year) := hsign.append (Text.plain_zeroPadded _ _)
  have hdash : Plain "-" := Text.plain_of_all (by decide)
  have hcolon : Plain ":" := Text.plain_of_all (by decide)
  have hspace : Plain " " := Text.plain_of_all (by decide)
  have hpart (n : Nat) : Plain (Text.zeroPadded 2 n) := Text.plain_zeroPadded 2 n
  exact ((((((((((hyear.append hdash).append (hpart _)).append hdash).append (hpart _)).append
    hspace).append (hpart _)).append hcolon).append (hpart _)).append hcolon).append (hpart _))

theorem FileFormat.plain_text (f : FileFormat) : Plain f.text := by
  cases f with
  | program => exact Text.plain_of_all (by decide)
  | records f =>
      refine Plain.append (Plain.append ?_ ?_) (Text.plain_toString _)
      · cases f.content <;> exact Text.plain_of_all (by decide)
      · cases f.family <;> exact Text.plain_of_all (by decide)

namespace Volume

namespace CatalogRow

/-- The row without its timestamp. -/
def undated (row : CatalogRow) : CatalogRow := { row with updated := none }

theorem text_eq (row : CatalogRow) : row.text
    = row.undated.text ++ (row.updated.map fun t => "  " ++ t.text).getD "" := by
  simp only [text, undated, Option.map_none, Option.getD_none, String.append_empty]
  rfl

theorem le_length_text (row : CatalogRow) : 50 ≤ row.text.length := by
  have hname := Text.le_length_padRight 10 row.name
  have hsectors := Text.le_length_padLeft 4 (toString row.sectors)
  have hformat := Text.le_length_padRight 12 row.format
  have hbytes := Text.le_length_padLeft 7 (toString row.bytes)
  have hrecords := Text.le_length_padLeft 5 (toString row.records)
  have hwords : " ".length = 1 ∧ "  ".length = 2 ∧ " B ".length = 3 ∧ " recs".length = 5 := by
    decide
  simp only [text, String.length_append]
  omega

theorem plain_text {row : CatalogRow} (hname : Plain row.name) (hformat : Plain row.format) :
    Plain row.text := by
  have hword {s : String} (h : s.toList.all (' ' ≤ ·) = true) := Text.plain_of_all h
  have hcolumns := ((((((((hname.padRight 10).append (hword (s := " ") (by decide))).append
    ((Text.plain_toString row.sectors).padLeft 4)).append (hword (s := "  ") (by decide))).append
    (hformat.padRight 12)).append (hword (s := " ") (by decide))).append
    ((Text.plain_toString row.bytes).padLeft 7)).append (hword (s := " B ") (by decide))).append
    ((Text.plain_toString row.records).padLeft 5)
  refine ((hcolumns.append (hword (s := " recs") (by decide))).append ?_).append ?_
  · split <;> exact hword (by decide)
  · cases row.updated with
    | none => exact hword (by decide)
    | some t => exact (hword (s := "  ") (by decide)).append t.plain_text

end CatalogRow

/-! ## Lines -/

theorem lines_rows {rows : List CatalogRow} (h : ∀ row ∈ rows, Plain row.text) (t : List Char) :
    Text.lines ((String.join (rows.map fun row => row.text ++ "\n")).toList ++ t)
      = rows.map (·.text.toList) ++ Text.lines t := by
  have hlines := Text.lines_plain_append (List.forall_mem_map.2 h) t
  rwa [List.map_map, List.map_map] at hlines

/-- The lines of a catalog are those of its rows, between lines that do not depend on them. -/
theorem lines_catalog (volume : String) (used free : Nat) : ∃ before after,
    ∀ rows : List CatalogRow, (∀ row ∈ rows, Plain row.text) →
      Text.lines (catalog volume rows used free).toList
        = before ++ (rows.map (·.text.toList) ++ after) := by
  let head := (Text.padRight 10 volume ++ " (TI disk)").toList
  let counts := Text.padLeft 5 (toString used) ++ " used " ++ Text.padLeft 5 (toString free)
    ++ " free\n"
  refine ⟨(Pieces.splitOn (· == '\n') head).map Text.dropReturn, Text.lines counts.toList,
    fun rows h => ?_⟩
  have htext : (catalog volume rows used free).toList = head ++ '\n' ::
      ((String.join (rows.map fun row => row.text ++ "\n")).toList ++ counts.toList) := by
    have hhead : " (TI disk)\n".toList = " (TI disk)".toList ++ ['\n'] := by decide
    simp only [catalog, head, counts, String.toList_append, hhead, List.append_assoc,
      List.cons_append, List.nil_append]
  rw [htext, Text.lines_append_cons, lines_rows h]

theorem key_text (row : CatalogRow) : (Compare.TextMask.leading 50).key row.text.toList
    = (Compare.TextMask.leading 50).key row.undated.text.toList := by
  have hwide : 50 ≤ row.undated.text.toList.length := by
    rw [String.length_toList]; exact row.undated.le_length_text
  simp only [Compare.TextMask.key, Compare.TextMask.leading]
  rw [row.text_eq, String.toList_append, List.take_append_of_le_length hwide]

/-- Catalogs whose rows are the same up to timestamps match in the first fifty characters. -/
theorem compareText_catalog {rows rows' : List CatalogRow}
    (h : rows'.map CatalogRow.undated = rows.map CatalogRow.undated)
    (hplain : ∀ row ∈ rows ++ rows', Plain row.text) (volume : String) (used free : Nat) :
    Compare.compareText (catalog volume rows used free) (catalog volume rows' used free)
      (.leading 50) = .ok () := by
  obtain ⟨before, after, hlines⟩ := lines_catalog volume used free
  have hrows : List.Forall₂ (fun r r' : CatalogRow => r.undated = r'.undated) rows rows' := by
    rw [← List.forall₂_map_right_iff, ← List.forall₂_map_left_iff, h, List.forall₂_eq_eq_eq]
  have hkeys : List.Forall₂ (fun e a => (Compare.TextMask.leading 50).key e
      = (Compare.TextMask.leading 50).key a) (rows.map (·.text.toList))
      (rows'.map (·.text.toList)) := by
    rw [List.forall₂_map_left_iff, List.forall₂_map_right_iff]
    refine hrows.imp fun r r' hr => ?_
    rw [key_text, hr, ← key_text]
  have hcommon (lines : List (List Char)) : List.Forall₂ (fun e a =>
      (Compare.TextMask.leading 50).key e = (Compare.TextMask.leading 50).key a) lines lines :=
    List.forall₂_same.2 fun _ _ => rfl
  refine Compare.compareText_of_keys ?_
  rw [hlines rows fun r hr => hplain r (List.mem_append_left _ hr),
    hlines rows' fun r hr => hplain r (List.mem_append_right _ hr)]
  exact List.rel_append (hcommon before) (List.rel_append hkeys (hcommon after))

end Volume

end TiBench
