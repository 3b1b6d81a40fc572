import TiBench.Record.Payload
import TiBench.Proofs.Bytes

/-!
# Laws of payloads

The lines of a payload, each with its line feed, are the payload, with one line feed more if its
last line had none.
-/

namespace TiBench.Payload

/-- A stretch of bytes that may be a line or the rest of one holds no line feed. -/
theorem ne_lineFeed_of_mem_splitOn {data piece : Bytes}
    (h : piece ∈ Pieces.splitOn (· == lineFeed) data) {b : UInt8} (hb : b ∈ piece) :
    b ≠ lineFeed := by
  intro he
  have := Pieces.not_sep_of_mem_splitOn h b hb
  rw [he, beq_self_eq_true] at this; cases this

/-- What stands behind the last line feed is empty if and only if the payload is, or ends in a line
feed. -/
theorem splitOn_eq_append (data : Bytes) : ∃ pieces last,
    Pieces.splitOn (· == lineFeed) data = pieces ++ [last]
      ∧ data = pieces.flatMap (· ++ [lineFeed]) ++ last
      ∧ (last = [] ↔ data.getLast?.any (· != lineFeed) = false) := by
  rcases List.eq_nil_or_concat (Pieces.splitOn (· == lineFeed) data) with
    hnil | ⟨pieces, last, hsplit⟩
  · obtain ⟨piece, more, hcons⟩ := Pieces.splitOn_eq_cons (· == lineFeed) data
    rw [hnil] at hcons; cases hcons
  · rw [List.concat_eq_append] at hsplit
    have hdata : pieces.flatMap (· ++ [lineFeed]) ++ last = data := by
      have hjoin := Pieces.flatMap_splitOn lineFeed data
      rw [hsplit, List.flatMap_append, List.flatMap_singleton, ← List.append_assoc] at hjoin
      exact List.append_cancel_right hjoin
    refine ⟨pieces, last, hsplit, hdata.symm, fun hlast => ?_, fun hend => ?_⟩
    · rw [hlast, List.append_nil] at hdata
      rcases List.eq_nil_or_concat pieces with rfl | ⟨before, piece, rfl⟩
      · rw [← hdata]; rfl
      · rw [← hdata, List.concat_eq_append, List.flatMap_append, List.flatMap_singleton,
          ← List.append_assoc, List.getLast?_concat]
        rfl
    · rcases List.eq_nil_or_concat last with hnil | ⟨before, b, hconcat⟩
      · exact hnil
      · rw [List.concat_eq_append] at hconcat
        have hlast : last ∈ Pieces.splitOn (· == lineFeed) data := by
          rw [hsplit]; exact List.mem_append_right _ (List.mem_singleton_self _)
        have hb : b ∈ last := by
          rw [hconcat]; exact List.mem_append_right _ (List.mem_singleton_self _)
        rw [← hdata, hconcat, ← List.append_assoc, List.getLast?_concat, Option.any_some] at hend
        exact absurd (bne_eq_false_iff_eq.1 hend) (ne_lineFeed_of_mem_splitOn hlast hb)

/-- The lines of a payload make it up again, but for a line feed that the last line did not have. -/
theorem flatMap_lines (data : Bytes) : (lines data).flatMap (· ++ [lineFeed])
    = if data.getLast?.any (· != lineFeed) then data ++ [lineFeed] else data := by
  obtain ⟨pieces, last, hsplit, hdata, hend⟩ := splitOn_eq_append data
  rw [lines, hsplit]
  simp only [List.getLast?_concat, Option.some.injEq]
  by_cases hlast : last = []
  · rw [if_pos hlast, hend.1 hlast, List.dropLast_concat]
    rw [hlast, List.append_nil] at hdata
    exact hdata.symm
  · have hnot : data.getLast?.any (· != lineFeed) = true :=
      Bool.of_not_eq_false fun h => hlast (hend.2 h)
    rw [if_neg hlast, hnot, if_pos rfl, List.flatMap_append, List.flatMap_singleton,
      ← List.append_assoc, ← hdata]

/-! ## Splitting -/

/-- The records that a payload is split into, whether or not they can be stored. -/
def pieces (f : RecordFormat) (data : Bytes) : List Bytes :=
  match f.content with
  | .internal => Pieces.chunks f.length data
  | .display => lines data

/-- The line would lose its last character among the padding of a slot. -/
def Padded (f : RecordFormat) (line : Bytes) : Prop :=
  f.content = .display ∧ f.family = .fixed ∧ line.getLast? = some Padding.space.byte

theorem split_eq_of_fixed {f : RecordFormat} (hc : f.content = .display) (hf : f.family = .fixed)
    (data : Bytes) : split (.records f) data
      = match (pieces f data).findIdx? (fun l => l.getLast? == some Padding.space.byte) with
        | some i => .error ⟨i + 1⟩
        | none => .ok (pieces f data) := by
  obtain ⟨content, family, _, _, _⟩ := f
  obtain rfl : content = .display := hc
  obtain rfl : family = .fixed := hf
  rfl

theorem split_eq_of_not_fixed {f : RecordFormat} (h : ¬(f.content = .display ∧ f.family = .fixed))
    (data : Bytes) : split (.records f) data = .ok (pieces f data) := by
  rcases hc : f.content with _ | _
  · rcases hf : f.family with _ | _
    · exact absurd ⟨hc, hf⟩ h
    · simp only [split, pieces, hc, hf]
  · simp only [split, pieces, hc]

/-- A payload is split if no line ends in padding. -/
theorem split_eq_ok {f : RecordFormat} {data : Bytes} {records : List Bytes} :
    split (.records f) data = .ok records
      ↔ (∀ l ∈ pieces f data, ¬Padded f l) ∧ records = pieces f data := by
  by_cases h : f.content = .display ∧ f.family = .fixed
  · have hnone : (pieces f data).findIdx? (fun l => l.getLast? == some Padding.space.byte) = none
        ↔ ∀ l ∈ pieces f data, ¬Padded f l := by
      rw [List.findIdx?_eq_none_iff]
      exact forall₂_congr fun l _ => by
        rw [beq_eq_false_iff_ne]
        exact ⟨fun hne hp => hne hp.2.2, fun hp heq => hp ⟨h.1, h.2, heq⟩⟩
    rw [split_eq_of_fixed h.1 h.2, ← hnone]
    cases (pieces f data).findIdx? fun l => l.getLast? == some Padding.space.byte with
    | none => exact ⟨fun he => ⟨rfl, (Except.ok.inj he).symm⟩, fun he => congrArg _ he.2.symm⟩
    | some i => exact ⟨fun he => (nomatch he), fun he => (nomatch he.1)⟩
  · rw [split_eq_of_not_fixed h]
    exact ⟨fun he => ⟨fun l _ hp => h ⟨hp.1, hp.2.1⟩, (Except.ok.inj he).symm⟩,
      fun he => congrArg _ he.2.symm⟩

/-- If a payload is refused, it is for its first line that ends in padding. -/
theorem split_eq_error {f : RecordFormat} {data : Bytes} {n : Nat} :
    split (.records f) data = .error ⟨n⟩ ↔ ∃ i l, n = i + 1 ∧ (pieces f data)[i]? = some l
      ∧ Padded f l ∧ ∀ j < i, ∀ m, (pieces f data)[j]? = some m → ¬Padded f m := by
  by_cases h : f.content = .display ∧ f.family = .fixed
  · have hfirst {i : Nat} :
        (pieces f data).findIdx? (fun l => l.getLast? == some Padding.space.byte) = some i
          ↔ ∃ l, (pieces f data)[i]? = some l ∧ Padded f l
            ∧ ∀ j < i, ∀ m, (pieces f data)[j]? = some m → ¬Padded f m := by
      rw [List.findIdx?_eq_some_iff_getElem]
      constructor
      · rintro ⟨hi, hpadded, hleast⟩
        refine ⟨_, List.getElem?_eq_getElem hi, ⟨h.1, h.2, beq_iff_eq.1 hpadded⟩, ?_⟩
        intro j hj m hm hp
        obtain ⟨hjlt, rfl⟩ := List.getElem?_eq_some_iff.1 hm
        exact hleast j hj (beq_iff_eq.2 hp.2.2)
      · rintro ⟨l, hl, hpadded, hleast⟩
        obtain ⟨hi, rfl⟩ := List.getElem?_eq_some_iff.1 hl
        refine ⟨hi, beq_iff_eq.2 hpadded.2.2, fun j hj hp => ?_⟩
        exact hleast j hj _ (List.getElem?_eq_getElem (Nat.lt_trans hj hi))
          ⟨h.1, h.2, beq_iff_eq.1 hp⟩
    rw [split_eq_of_fixed h.1 h.2]
    cases hfind : (pieces f data).findIdx? fun l => l.getLast? == some Padding.space.byte with
    | none =>
        refine ⟨fun he => (nomatch he), ?_⟩
        rintro ⟨i, l, -, hl⟩
        rw [hfirst.2 ⟨l, hl⟩] at hfind; cases hfind
    | some i =>
        constructor
        · intro he
          obtain ⟨l, hl⟩ := hfirst.1 hfind
          exact ⟨i, l, (PaddedLine.mk.inj (Except.error.inj he)).symm, hl⟩
        · rintro ⟨k, l, rfl, hl⟩
          rw [hfirst.2 ⟨l, hl⟩] at hfind
          rw [Option.some.inj hfind]
  · rw [split_eq_of_not_fixed h]
    refine ⟨fun he => (nomatch he), ?_⟩
    rintro ⟨i, l, -, -, hp, -⟩
    exact absurd ⟨hp.1, hp.2.1⟩ h

/-! ## Joining -/

/-- Lines, each with its line feed, are the lines of what they make up. -/
theorem lines_flatMap {records : List Bytes} (h : ∀ r ∈ records, lineFeed ∉ r) :
    lines (records.flatMap (· ++ [lineFeed])) = records := by
  have hsplit : Pieces.splitOn (· == lineFeed) (records.flatMap (· ++ [lineFeed]))
      = records ++ [[]] :=
    Pieces.splitOn_flatMap (by exact beq_self_eq_true lineFeed) fun r hr b hb =>
      beq_false_of_ne fun hfeed => h r hr (hfeed ▸ hb)
  rw [lines, hsplit]
  simp only [List.getLast?_concat, if_true, List.dropLast_concat]

theorem lineFeed_not_mem_of_mem_lines {data line : Bytes} (h : line ∈ lines data) :
    lineFeed ∉ line := by
  have hmem : line ∈ Pieces.splitOn (· == lineFeed) data := by
    rw [lines] at h
    split at h
    · exact (List.dropLast_sublist _).mem h
    · exact h
  exact fun hfeed => ne_lineFeed_of_mem_splitOn hmem hfeed rfl

/-- The text of a display file whose last line has not ended. -/
def Unended (f : FileFormat) (data : Bytes) : Prop :=
  (∃ r, f = .records r ∧ r.content = .display) ∧ data ≠ [] ∧ data.getLast? ≠ some lineFeed

/-- The records that a payload of a format can be split into: the payload of a program itself,
slices that are whole but perhaps for the last, or lines, which do not end in the padding of their
slots. -/
inductive Splits : FileFormat → List Bytes → Prop where
  | program (record : Bytes) : Splits .program [record]
  | slices {f : RecordFormat} {records : List Bytes} (hc : f.content = .internal)
      (whole : ∀ r ∈ records.dropLast, r.length = f.length)
      (last : ∀ r, records.getLast? = some r → 1 ≤ r.length ∧ r.length ≤ f.length) :
      Splits (.records f) records
  | lines {f : RecordFormat} {records : List Bytes} (hc : f.content = .display)
      (unbroken : ∀ r ∈ records, lineFeed ∉ r)
      (unpadded : f.family = .fixed → ∀ r ∈ records, r.getLast? ≠ some 0x20) :
      Splits (.records f) records

theorem join_pieces_internal {f : RecordFormat} (hc : f.content = .internal) (data : Bytes) :
    join (.records f) (pieces f data) = data := by
  simp only [join, pieces, hc]
  exact Pieces.flatten_chunks f.length_pos data

theorem join_pieces_display {f : RecordFormat} (hc : f.content = .display) (data : Bytes) :
    join (.records f) (pieces f data)
      = if data.getLast?.any (· != lineFeed) then data ++ [lineFeed] else data := by
  simp only [join, pieces, hc]
  exact flatMap_lines data

theorem unended_iff {f : RecordFormat} (hc : f.content = .display) {data : Bytes} :
    Unended (.records f) data ↔ data.getLast?.any (· != lineFeed) = true := by
  rcases List.eq_nil_or_concat data with rfl | ⟨before, b, rfl⟩
  · simp [Unended]
  · simp [Unended, hc]

theorem join_split {f : FileFormat} {data : Bytes} {records : List Bytes}
    (h : split f data = .ok records) : (Unended f data → join f records = data ++ [lineFeed])
      ∧ (¬Unended f data → join f records = data) := by
  cases f with
  | program =>
      obtain rfl : [data] = records := Except.ok.inj h
      refine ⟨fun hu => ?_, fun _ => List.flatten_singleton⟩
      obtain ⟨⟨r, hr, -⟩, -⟩ := hu
      cases hr
  | records f =>
      obtain ⟨-, rfl⟩ := split_eq_ok.1 h
      cases hc : f.content with
      | internal =>
          refine ⟨fun hu => ?_, fun _ => join_pieces_internal hc data⟩
          obtain ⟨⟨r, hr, hdisplay⟩, -⟩ := hu
          cases hr
          rw [hc] at hdisplay; cases hdisplay
      | display =>
          rw [join_pieces_display hc, unended_iff hc]
          exact ⟨fun hu => if_pos hu, fun hu => if_neg hu⟩

theorem split_join {f : FileFormat} {records : List Bytes} (h : Splits f records) :
    split f (join f records) = .ok records := by
  cases h with
  | program record => simp only [split, join, List.flatten_singleton]
  | @slices f records hc whole last =>
      refine split_eq_ok.2 ⟨fun l _ hl => ?_, ?_⟩
      · rw [hl.1] at hc; cases hc
      · simp only [join, pieces, hc]
        exact (Pieces.chunks_flatten_of_last f.length_pos whole last).symm
  | @lines f records hc unbroken unpadded =>
      have hpieces : pieces f (join (.records f) records) = records := by
        simp only [join, pieces, hc]
        exact lines_flatMap unbroken
      rw [split_eq_ok, hpieces]
      exact ⟨fun l hl hp => unpadded hp.2.1 l hl hp.2.2, rfl⟩

theorem splits_of_split {f : FileFormat} {data : Bytes} {records : List Bytes}
    (h : split f data = .ok records) : Splits f records := by
  cases f with
  | program =>
      obtain rfl : [data] = records := Except.ok.inj h
      exact .program data
  | records f =>
      obtain ⟨hpadded, rfl⟩ := split_eq_ok.1 h
      cases hc : f.content with
      | internal =>
          have hpieces : pieces f data = Pieces.chunks f.length data := by simp only [pieces, hc]
          rw [hpieces]
          refine .slices hc (fun r => Pieces.length_eq_of_mem_dropLast_chunks f.length_pos)
            fun r hr => ?_
          have hmem := List.mem_of_getLast? hr
          exact ⟨Pieces.length_pos_of_mem_chunks f.length_pos hmem,
            Pieces.length_le_of_mem_chunks f.length_pos hmem⟩
      | display =>
          have hpieces : pieces f data = lines data := by simp only [pieces, hc]
          rw [hpieces] at hpadded ⊢
          exact .lines hc (fun r => lineFeed_not_mem_of_mem_lines)
            fun hf r hr hlast => hpadded r hr ⟨hc, hf, hlast⟩

/-- The records of a payload make it up again, with one line feed more if it is a text whose last
line has not ended. They are what the format allows, and whatever the format allows is split again
as it was joined. -/
theorem payloads_split_and_joined :
    (∀ f data records, split f data = .ok records →
      (Unended f data → join f records = data ++ [lineFeed])
      ∧ (¬Unended f data → join f records = data) ∧ Splits f records)
    ∧ ∀ f records, Splits f records → split f (join f records) = .ok records := by
  refine ⟨fun f data records h => ?_, fun f records => split_join⟩
  obtain ⟨hunended, hended⟩ := join_split h
  exact ⟨hunended, hended, splits_of_split h⟩

/-- A text with an empty line whose last line has not ended, and a slice that is not whole. -/
theorem payloads_split_and_joined_unended :
    split (.records ⟨.display, .variable, 80, by decide, by decide⟩) [0x61, 0x0a, 0x0a, 0x62]
        = .ok [[0x61], [], [0x62]]
      ∧ join (.records ⟨.display, .variable, 80, by decide, by decide⟩) [[0x61], [], [0x62]]
        = [0x61, 0x0a, 0x0a, 0x62, 0x0a]
      ∧ split (.records ⟨.internal, .fixed, 2, by decide, by decide⟩)
          (join (.records ⟨.internal, .fixed, 2, by decide, by decide⟩) [[1, 2], [3]])
        = .ok [[1, 2], [3]] := by
  have hsplit : split (.records ⟨.display, .variable, 80, by decide, by decide⟩)
      [0x61, 0x0a, 0x0a, 0x62] = .ok [[0x61], [], [0x62]] := rfl
  refine ⟨hsplit, (payloads_split_and_joined.1 _ _ _ hsplit).1 ⟨⟨_, rfl, rfl⟩, by decide, by decide⟩,
    payloads_split_and_joined.2 _ _ (.slices rfl (by decide) fun r hr => ?_)⟩
  obtain rfl := Option.some.inj hr
  decide

end TiBench.Payload
