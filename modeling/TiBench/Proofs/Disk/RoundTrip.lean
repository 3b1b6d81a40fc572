import TiBench.Proofs.Disk.FileMap
import TiBench.Proofs.Record
import TiBench.Proofs.Payload

/-!
# Round trip of a payload

The payload of a file that was added is read again byte for byte, in the format it was added in, and
a payload is refused for the contents of its lines, their length, or their number only.
-/

namespace TiBench.Volume.Disk

variable {d : Disk}

/-! ## Contents of a payload -/

/-- The payload has lines, and the last one has no line feed. -/
def unterminated (data : Bytes) : Bool := data.getLast?.any (· != Payload.lineFeed)

/-- What a descriptor keeps of a payload whose records are encoded. -/
def contentsWith (r : RecordFormat) (data : Bytes) (e : Record.Encoded) : Contents :=
  match r.content, r.family with
  | .internal, .fixed => ⟨e.sectors, UInt8.ofNat (data.length % r.length), e.count, 0⟩
  | .internal, .variable => ⟨e.sectors, e.eof, e.count, 0⟩
  | .display, _ =>
    ⟨e.sectors, e.eof, e.count, if unterminated data then Descriptor.unterminatedFlag else 0⟩

theorem contentsOf_records (r : RecordFormat) (data : Bytes) : contentsOf (.records r) data =
    match Payload.split (.records r) data with
    | .error p => .error (.paddedLine p.line)
    | .ok records => match r.encode records with
      | .error e => .error (.record e)
      | .ok e => .ok (contentsWith r data e) := by
  rw [contentsOf]
  cases Payload.split (.records r) data with
  | error p => rfl
  | ok records =>
      change ((r.encode records).mapError VolumeError.record >>= _)
        = match r.encode records with
          | .error e => .error (.record e)
          | .ok e => .ok (contentsWith r data e)
      cases r.encode records with
      | error e => rfl
      | ok e =>
          dsimp only
          unfold contentsWith
          rcases r.content with _ | _
          · rfl
          · rcases r.family with _ | _ <;> rfl

theorem contentsOf_records_eq_ok {r : RecordFormat} {data : Bytes} {c : Contents}
    (h : contentsOf (.records r) data = .ok c) :
    ∃ e, (∀ l ∈ Payload.pieces r data, ¬Payload.Padded r l)
      ∧ r.encode (Payload.pieces r data) = .ok e ∧ c = contentsWith r data e := by
  rw [contentsOf_records] at h
  split at h
  · cases h
  · rename_i records hsplit
    obtain ⟨hpadded, rfl⟩ := Payload.split_eq_ok.1 hsplit
    split at h
    · cases h
    · rename_i e he
      exact ⟨e, hpadded, he, (Except.ok.inj h).symm⟩

/-! ## Refused payloads -/

theorem length_le_of_internal {r : RecordFormat} (h : r.content = .internal) {data l : Bytes}
    (hl : l ∈ Payload.pieces r data) : l.length ≤ r.length := by
  simp only [Payload.pieces, h] at hl
  exact Pieces.length_le_of_mem_chunks r.length_pos hl

/-- The payload does not fit the format: a line ends in padding or is too long, or there are too
many records, or too many sectors of them. -/
def Unfit (r : RecordFormat) (data : Bytes) : Prop :=
  (∃ l ∈ Payload.pieces r data, Payload.Padded r l)
    ∨ (r.content = .display ∧ ∃ l ∈ Payload.lines data, r.length < l.length)
    ∨ 65535 < r.countOf (Payload.pieces r data)

theorem exists_contentsOf_error_iff {r : RecordFormat} {data : Bytes} :
    (∃ e, contentsOf (.records r) data = .error e) ↔ Unfit r data := by
  have hlong : (∀ l ∈ Payload.pieces r data, l.length ≤ r.length)
      ↔ ¬(r.content = .display ∧ ∃ l ∈ Payload.lines data, r.length < l.length) := by
    rcases hc : r.content with _ | _
    · simp only [Payload.pieces, hc, true_and, not_exists, not_and, Nat.not_lt]
    · refine ⟨fun _ h => ?_, fun _ l hl => length_le_of_internal hc hl⟩
      cases h.1
  have hok : (∃ c, contentsOf (.records r) data = .ok c) ↔ ¬Unfit r data := by
    rw [Unfit, not_or, not_or, ← hlong, Nat.not_lt]
    constructor
    · rintro ⟨c, hc⟩
      obtain ⟨e, hpadded, he, -⟩ := contentsOf_records_eq_ok hc
      obtain ⟨hlengths, hcount⟩ := RecordFormat.exists_encode_iff.1 ⟨e, he⟩
      refine ⟨?_, hlengths, Nat.le_of_lt_succ hcount⟩
      rintro ⟨l, hl, hp⟩
      exact hpadded l hl hp
    · rintro ⟨hpadded, hlengths, hcount⟩
      obtain ⟨e, he⟩ := RecordFormat.exists_encode_iff.2 ⟨hlengths, Nat.lt_succ_of_le hcount⟩
      have hsplit := Payload.split_eq_ok.2 ⟨fun l hl hp => hpadded ⟨l, hl, hp⟩, rfl⟩
      refine ⟨contentsWith r data e, ?_⟩
      rw [contentsOf_records, hsplit]
      dsimp only
      rw [he]
  cases hc : contentsOf (.records r) data with
  | error e =>
      refine ⟨fun _ => Classical.byContradiction fun hfit => ?_, fun _ => ⟨e, rfl⟩⟩
      obtain ⟨c, hc'⟩ := hok.2 hfit
      rw [hc] at hc'; cases hc'
  | ok c =>
      refine ⟨?_, fun hunfit => absurd hunfit (hok.1 ⟨c, hc⟩)⟩
      rintro ⟨e, he⟩
      cases he

theorem contentsOf_eq_paddedLine {r : RecordFormat} {data : Bytes} {n : Nat} :
    contentsOf (.records r) data = .error (.paddedLine n) ↔
      Payload.split (.records r) data = .error ⟨n⟩ := by
  rw [contentsOf_records]
  cases Payload.split (.records r) data with
  | error p =>
      constructor
      · intro h
        rw [← VolumeError.paddedLine.inj (Except.error.inj h)]
      · intro h
        rw [Except.error.inj h]
  | ok records =>
      dsimp only
      refine ⟨fun h => ?_, fun h => (nomatch h)⟩
      split at h <;> cases h

/-! ## Programs -/

theorem length_sectorsOf (data : Bytes) :
    (sectorsOf data).length = (data.length + (sectorSize - 1)) / sectorSize := by
  rw [sectorsOf, List.length_map, Pieces.length_chunks (by decide)]

/-- The number of sectors and the end of the last one give the length of a program. -/
theorem programSize_eq (data : Bytes) :
    programSize (sectorsOf data).length (eofOf data) = data.length := by
  have heof : (eofOf data).toNat = data.length % sectorSize :=
    UInt8.toNat_ofNat_of_lt' (Nat.mod_lt _ (by decide))
  have hzero : eofOf data = 0 ↔ data.length % sectorSize = 0 := by
    rw [← heof, ← UInt8.toNat_inj]; rfl
  have hsize := length_sectorsOf data
  simp only [sectorSize] at heof hzero hsize
  rw [programSize, heof]
  simp only [sectorSize]
  by_cases hnone : (sectorsOf data).length = 0
  · rw [if_pos hnone]; omega
  · rw [if_neg hnone]
    by_cases hwhole : data.length % 256 = 0
    · rw [if_pos (hzero.2 hwhole)]; omega
    · rw [if_neg fun h => hwhole (hzero.1 h)]; omega

theorem reading_program {data : Bytes} (h : (sectorsOf data).length < 65536) (count : UInt16)
    (name : String) :
    (Contents.stored .program ⟨sectorsOf data, eofOf data, count, 0⟩).reading name
      = ⟨.ok data, .error (.record .notRecords), .ok .program⟩ := by
  let s := Contents.stored .program ⟨sectorsOf data, eofOf data, count, 0⟩
  have hflags : s.file.flags = Descriptor.newFlags .program false := rfl
  have hformat : s.file.format? = some .program := Descriptor.format?_of_newFlags hflags rfl
  have hcount : s.file.dataSectors.toNat = (sectorsOf data).length :=
    UInt16.toNat_ofNat_of_lt' h
  have hdata : ∃ k, s.data.flatten = data ++ List.replicate k 0 := by
    obtain ⟨k, hk⟩ := Bytes.flatMap_fit_chunks 0 (n := sectorSize) (by decide) data
    refine ⟨k, ?_⟩
    rw [← hk, List.flatMap_def]
    change (((Pieces.chunks sectorSize data).map (Block.fit 0 sectorSize)).map Block.bytes).flatten
      = _
    rw [List.map_map]; rfl
  obtain ⟨k, hdata⟩ := hdata
  change s.reading name = _
  rw [Stored.reading_of_program hformat, hcount, hdata]
  change Reading.mk (.ok ((data ++ List.replicate k 0).take
    (programSize (sectorsOf data).length (eofOf data)))) _ _ = _
  rw [programSize_eq, List.take_left]

/-! ## Files of records -/

theorem sectors_contentsWith (r : RecordFormat) (data : Bytes) (e : Record.Encoded) :
    (contentsWith r data e).sectors = e.sectors := by
  unfold contentsWith; split <;> rfl

theorem count_contentsWith (r : RecordFormat) (data : Bytes) (e : Record.Encoded) :
    (contentsWith r data e).count = e.count := by
  unfold contentsWith; split <;> rfl

theorem flags_contentsWith (r : RecordFormat) (data : Bytes) (e : Record.Encoded) :
    (contentsWith r data e).flags
      = if r.content = .display ∧ unterminated data = true then Descriptor.unterminatedFlag
        else 0 := by
  unfold contentsWith
  rcases hc : r.content with _ | _
  · simp only [true_and]
  · rcases r.family with _ | _
    · exact (if_neg fun h => (nomatch h.1)).symm
    · exact (if_neg fun h => (nomatch h.1)).symm

/-- Pieces in slots of one length are the payload with padding that does not fill a slot. -/
theorem join_fixed {r : RecordFormat} (hc : r.content = .internal) (hf : r.family = .fixed)
    (data : Bytes) : ∃ k, Payload.join (.records r) ((Payload.pieces r data).map r.reread)
        = data ++ List.replicate k 0
      ∧ k < r.length ∧ r.length ∣ data.length + k := by
  have hpos := r.length_pos
  obtain ⟨k, hk⟩ := Bytes.flatMap_fit_chunks 0 hpos data
  have hjoin : Payload.join (.records r) ((Payload.pieces r data).map r.reread)
      = (Pieces.chunks r.length data).flatMap (Bytes.fit 0 r.length) := by
    simp only [Payload.join, Payload.pieces, hc]
    rw [List.flatMap_def]
    congr 1
    refine List.map_congr_left fun l _ => ?_
    simp only [RecordFormat.reread, RecordFormat.padding, hc, hf]
    rfl
  have hlen := congrArg List.length hk
  rw [Bytes.length_flatMap_fit, List.length_append, List.length_replicate,
    Pieces.length_chunks hpos] at hlen
  have hle := Nat.div_mul_le_self (data.length + (r.length - 1)) r.length
  exact ⟨k, hjoin.trans hk, by omega, hlen ▸ Nat.dvd_mul_left _ _⟩

/-- The length of the last piece tells how much of the padding to cut off. -/
theorem cutPayload_fixed {r : RecordFormat} (hc : r.content = .internal) (hf : r.family = .fixed)
    {file : Descriptor} {data : Bytes}
    (heof : file.eof = UInt8.ofNat (data.length % r.length)) :
    cutPayload file r ((Payload.pieces r data).map r.reread)
      (Payload.join (.records r) ((Payload.pieces r data).map r.reread)) = data := by
  obtain ⟨k, hjoin, hk, hdvd⟩ := join_fixed hc hf data
  have hle : r.length ≤ 255 := by have := r.length_le; rwa [hf] at this
  have hmod := Nat.mod_lt data.length r.length_pos
  have htoNat : file.eof.toNat = data.length % r.length := by
    rw [heof]; exact UInt8.toNat_ofNat_of_lt' (Nat.lt_of_lt_of_le hmod (Nat.le_succ_of_le hle))
  have hrest : r.length ∣ data.length % r.length + k := by
    have hsplit := Nat.mod_add_div data.length r.length
    have hall : r.length ∣ data.length % r.length + k + r.length * (data.length / r.length) := by
      rwa [Nat.add_right_comm, hsplit]
    exact (Nat.dvd_add_left (Nat.dvd_mul_right _ _)).1 hall
  rw [hjoin]
  simp only [cutPayload, hc, hf, htoNat]
  -- The end is zero for a payload that fills its last slot, and for one without records.
  by_cases hzero : data.length % r.length = 0
  · have hk0 : k = 0 := Nat.eq_zero_of_dvd_of_lt (by rwa [hzero, Nat.zero_add] at hrest) hk
    rw [if_neg fun h => absurd h.1 (by omega), hk0, List.replicate_zero, List.append_nil]
  · have hsum : data.length % r.length + k = r.length :=
      Nat.eq_of_dvd_of_lt_two_mul (by omega) hrest (by omega)
    have hne : (Payload.pieces r data).map r.reread ≠ [] := by
      intro hnil
      rw [List.map_eq_nil_iff] at hnil
      simp only [Payload.pieces, hc] at hnil
      have hflat := Pieces.flatten_chunks r.length_pos data
      rw [hnil, List.flatten_nil] at hflat
      rw [← hflat, List.length_nil, Nat.zero_mod] at hzero
      exact hzero rfl
    rw [if_pos ⟨by omega, by omega, hne⟩, List.length_append, List.length_replicate,
      show data.length + k - (r.length - data.length % r.length) = data.length by omega,
      List.take_left]

theorem cutPayload_variable {r : RecordFormat} (hc : r.content = .internal)
    (hf : r.family = .variable) (file : Descriptor) (data : Bytes) :
    cutPayload file r ((Payload.pieces r data).map r.reread)
      (Payload.join (.records r) ((Payload.pieces r data).map r.reread)) = data := by
  have hreread : r.reread = id := by
    funext l
    simp only [RecordFormat.reread, hf, id]
  rw [hreread, List.map_id, Payload.join_pieces_internal hc]
  simp only [cutPayload, hc, hf]

/-- The mark of a line that did not end tells whether to cut off the last line feed. -/
theorem cutPayload_display {r : RecordFormat} (hc : r.content = .display) {file : Descriptor}
    {data : Bytes} (hflag : file.has Descriptor.unterminatedFlag = unterminated data)
    (hpadded : ∀ l ∈ Payload.pieces r data, ¬Payload.Padded r l)
    (hlengths : ∀ l ∈ Payload.pieces r data, l.length ≤ r.length) :
    cutPayload file r ((Payload.pieces r data).map r.reread)
      (Payload.join (.records r) ((Payload.pieces r data).map r.reread)) = data := by
  have hreread : (Payload.pieces r data).map r.reread = Payload.pieces r data := by
    refine (List.map_congr_left fun l hl => ?_).trans (List.map_id _)
    exact RecordFormat.reread_eq_self (hlengths l hl) fun hf =>
      ⟨hc, fun hlast => hpadded l hl ⟨hc, hf, hlast⟩⟩
  have hjoin : Payload.join (.records r) (Payload.pieces r data)
      = if unterminated data then data ++ [Payload.lineFeed] else data :=
    Payload.join_pieces_display hc data
  rw [hreread, hjoin]
  simp only [cutPayload, hc, hflag]
  by_cases hend : unterminated data = true
  · rw [if_pos hend, List.getLast?_concat, if_pos ⟨hend, rfl⟩, List.dropLast_concat]
  · rw [if_neg hend, if_neg fun h => hend h.1]

/-- Contents made of a payload give it back, and its format. -/
theorem reading_of_contentsOf {f : FileFormat} {data : Bytes} {c : Contents}
    (h : contentsOf f data = .ok c) (hsmall : c.sectors.length < 65536) (name : String) :
    ((c.stored f).reading name).payload = .ok data
      ∧ ((c.stored f).reading name).format = .ok f := by
  cases f with
  | program =>
      obtain rfl := Except.ok.inj h
      rw [reading_program hsmall 0]
      exact ⟨rfl, rfl⟩
  | records r =>
      obtain ⟨e, hpadded, he, rfl⟩ := contentsOf_records_eq_ok h
      obtain ⟨hlengths, -⟩ := RecordFormat.exists_encode_iff.1 ⟨e, he⟩
      let s := (contentsWith r data e).stored (.records r)
      have hflags : s.file.flags = Descriptor.newFlags (.records r)
          (decide (r.content = .display ∧ unterminated data = true)) := by
        change Descriptor.formatFlags (.records r) ||| (contentsWith r data e).flags = _
        rw [flags_contentsWith, Descriptor.newFlags]
        simp only [decide_eq_true_eq]
      have hformat : s.file.format? = some (.records r) := Descriptor.format?_of_newFlags hflags rfl
      have hdecode : r.decode s.file.count.toNat s.data
          = ((Payload.pieces r data).map r.reread).map .ok := by
        change r.decode (contentsWith r data e).count.toNat
          ((contentsWith r data e).sectors.map Block.bytes) = _
        rw [count_contentsWith, sectors_contentsWith, RecordFormat.decode_of_encode he,
          List.map_map]
        rfl
      have hcut : cutPayload s.file r ((Payload.pieces r data).map r.reread)
          (Payload.join (.records r) ((Payload.pieces r data).map r.reread)) = data := by
        rcases hc : r.content with _ | _
        · refine cutPayload_display hc ?_ hpadded hlengths
          rw [Descriptor.has_unterminatedFlag hflags]
          simp only [hc, true_and, Bool.decide_eq_true]
        · rcases hf : r.family with _ | _
          · refine cutPayload_fixed hc hf ?_
            change (contentsWith r data e).eof = _
            simp only [contentsWith, hc, hf]
          · exact cutPayload_variable hc hf _ _
      change (s.reading name).payload = .ok data ∧ (s.reading name).format = .ok (.records r)
      rw [Stored.reading_of_records hformat, hdecode, Record.collect_map_ok]
      exact ⟨congrArg Except.ok hcut, rfl⟩

/-! ## Adding and extracting -/

/-- A file that was added reads as its contents say, also if files before it share their names. -/
theorem reading_adding (hd : d.Consistent) {name : String} {f : FileFormat}
    {c : Except VolumeError Contents} (h : (d.adding name f c).error? = none) :
    ∃ contents, c = .ok contents ∧ contents.sectors.length ≤ maxSectors
      ∧ (d.adding name f c).disk.reading name = (contents.stored f).reading name := by
  have hd' := hd.adding name f c
  obtain ⟨contents, x, hc, hlen, hname, hnew, hex, hreading⟩ := adding_exchanges hd h
  refine ⟨contents, hc, hlen, ?_⟩
  have hfind := hex.find_new hd' fun e he hen => hnew (mem_names.2 ⟨e, he, hen.trans hname⟩)
  rw [hname] at hfind
  rw [reading_of_find hd' hfind, hreading]

/-- On a disk that passes its check, a payload that was added is extracted again, in the format it
was added in. Whatever the disk, a payload is refused before its name is looked at if and only if it
does not fit its format, and for its first line that ends in padding if it has one. -/
theorem extract_add :
    (∀ d : Disk, d.check = .ok [] → ∀ name data f, (d.add name data f).error? = none →
      (d.add name data f).disk.extract name = .ok data
        ∧ (d.add name data f).disk.formatOf name = .ok f)
    ∧ (∀ f data e, contentsOf f data = .error e →
      ∀ (d : Disk) name, d.add name data f = .refused d e)
    ∧ (∀ data, ∃ c, contentsOf .program data = .ok c)
    ∧ ∀ r data, ((∃ e, contentsOf (.records r) data = .error e) ↔ Unfit r data)
      ∧ ∀ n, contentsOf (.records r) data = .error (.paddedLine n)
        ↔ ∃ i l, n = i + 1 ∧ (Payload.pieces r data)[i]? = some l ∧ Payload.Padded r l
          ∧ ∀ j < i, ∀ m, (Payload.pieces r data)[j]? = some m → ¬Payload.Padded r m := by
  refine ⟨fun d hcheck name data f h => ?_, fun f data e he d name => ?_,
    fun data => ⟨_, rfl⟩, fun r data => ⟨exists_contentsOf_error_iff,
      fun n => contentsOf_eq_paddedLine.trans Payload.split_eq_error⟩⟩
  · obtain ⟨contents, hc, hlen, hreading⟩ := reading_adding (check_eq_nil_iff.1 hcheck) h
    have hback := reading_of_contentsOf hc (Nat.lt_of_le_of_lt hlen (by decide)) name
    rw [← hreading] at hback
    exact hback
  · rw [add_eq, he]; rfl

theorem extract_add_blank : ∃ d, init .usual "WORK" 40 1 1 = .ok d
    ∧ (d.add "A" [0x61, 0x0a, 0x62]
        (.records ⟨.display, .fixed, 8, by decide, by decide⟩)).disk.extract "A"
      = .ok [0x61, 0x0a, 0x62] := by
  obtain ⟨d, hd, hadded⟩ : ∃ d, init .usual "WORK" 40 1 1 = .ok d
      ∧ (d.add "A" [0x61, 0x0a, 0x62]
          (.records ⟨.display, .fixed, 8, by decide, by decide⟩)).error?.isNone = true :=
    Result.exists_ok_of_any (by decide +kernel)
  exact ⟨d, hd, (extract_add.1 d (check_eq_nil_iff.2 (consistent_init hd).1) _ _ _
    (Option.isNone_iff_eq_none.1 hadded)).1⟩

end TiBench.Volume.Disk
