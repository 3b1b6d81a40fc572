import TiBench.Proofs.Disk.Ledger

/-!
# Records on a disk

Records that were added are read again one by one, and raw sectors are read as the records they
hold, whatever their count says and wherever on the volume they lie.
-/

namespace TiBench.Volume.Disk

/-! ## Contents without flags -/

theorem records_of_contents {c : Contents} (hflags : c.flags = 0) (f : RecordFormat)
    (name : String) :
    ((c.stored (.records f)).reading name).records
      = .ok (f.decode c.count.toNat (c.sectors.map Block.bytes)) := by
  have hformat := (Contents.format?_stored (u := false) hflags (.records f)).2
  rw [Stored.reading_of_records hformat]
  rfl

/-- Nothing is cut off a payload whose descriptor has no end and no flag. -/
theorem cutPayload_of_unmarked {f : RecordFormat} {file : Descriptor}
    (hflag : file.has Descriptor.unterminatedFlag = false) (heof : f.family = .fixed → file.eof = 0)
    (records : List Bytes) (data : Bytes) : cutPayload file f records data = data := by
  rcases hc : f.content with _ | _
  · simp [cutPayload, hc, hflag]
  · rcases hf : f.family with _ | _
    · simp [cutPayload, hc, hf, heof hf]
    · simp [cutPayload, hc, hf]

/-- Encoded records are read one by one, and joined they are the payload. -/
theorem reading_of_encode {f : RecordFormat} {records : List Bytes} {e : Record.Encoded}
    (h : f.encode records = .ok e) (name : String) :
    ((Contents.mk e.sectors e.eof e.count 0).stored (.records f)).reading name
      = ⟨.ok (Payload.join (.records f) (records.map f.reread)),
        .ok ((records.map f.reread).map .ok), .ok (.records f)⟩ := by
  let c : Contents := ⟨e.sectors, e.eof, e.count, 0⟩
  obtain ⟨hflags, hformat⟩ := Contents.format?_stored (c := c) (u := false) rfl (.records f)
  have hcut : ∀ records data, cutPayload (c.stored (.records f)).file f records data = data :=
    cutPayload_of_unmarked (Descriptor.has_unterminatedFlag hflags) (RecordFormat.eof_of_encode h)
  have hdecode : f.decode (c.stored (.records f)).file.count.toNat (c.stored (.records f)).data
      = (records.map f.reread).map .ok := by
    rw [List.map_map]
    exact RecordFormat.decode_of_encode h
  change (c.stored (.records f)).reading name = _
  rw [Stored.reading_of_records hformat, hdecode, Record.collect_map_ok]
  simp only [hcut]
  rfl

/-! ## Adding and reading records -/

theorem reading_addRecords {d : Disk} (hd : d.Consistent) {name : String} {f : RecordFormat}
    {records : List Bytes} (h : (d.addRecords name records (.records f)).error? = none) :
    (∀ r ∈ records, r.length ≤ f.length)
      ∧ (d.addRecords name records (.records f)).disk.reading name
        = ⟨.ok (Payload.join (.records f) (records.map f.reread)),
          .ok ((records.map f.reread).map .ok), .ok (.records f)⟩ := by
  rw [addRecords_eq] at h ⊢
  obtain ⟨c, hc, -, hreading⟩ := reading_adding hd h
  obtain ⟨e, he, rfl⟩ := contentsOfRecords_eq_ok.1 hc
  exact ⟨(RecordFormat.exists_encode_iff.1 ⟨e, he⟩).1, hreading.trans (reading_of_encode he name)⟩

/-- Records that do not depend on what fills up their slots are read as they were. -/
theorem extractRecords_addRecords {d : Disk} (hcheck : d.check = .ok []) {name : String}
    {f : RecordFormat} {records : List Bytes}
    (hkept : f.family = .fixed → f.content = .display ∧ ∀ r ∈ records, r.getLast? ≠ some 0x20)
    (h : (d.addRecords name records (.records f)).error? = none) :
    (d.addRecords name records (.records f)).disk.extractRecords name
      = .ok (records.map .ok) := by
  obtain ⟨hlengths, hreading⟩ := reading_addRecords (check_eq_nil_iff.1 hcheck) h
  have hreread : records.map f.reread = records :=
    (List.map_congr_left fun r hr => RecordFormat.reread_eq_self (hlengths r hr) fun hf =>
      ⟨(hkept hf).1, (hkept hf).2 r hr⟩).trans (List.map_id _)
  rw [hreread] at hreading
  exact congrArg Reading.records hreading

/-- On a disk that passes its check, records that were added are read again as their format has it,
and raw sectors are read as they are: as the records they hold, good and bad, or as a program. -/
theorem records_read_back :
    ∀ d : Disk, d.check = .ok [] → ∀ name,
      (∀ (f : RecordFormat) records, (d.addRecords name records (.records f)).error? = none →
        ∃ xs, List.Forall₂ f.Rereads records xs
          ∧ (d.addRecords name records (.records f)).disk.extractRecords name = .ok (xs.map .ok)
          ∧ (d.addRecords name records (.records f)).disk.extract name
            = .ok (Payload.join (.records f) xs))
      ∧ (∀ raw (f : RecordFormat) count, (d.addSpecial name raw (.records f) count).error? = none →
        ∃ decoded, (FileFormat.records f).decode count.toNat
            ((Pieces.chunks 256 raw).map (Bytes.fit 0 256)) = .ok decoded
          ∧ (d.addSpecial name raw (.records f) count).disk.extractRecords name = .ok decoded)
      ∧ ∀ raw count, (d.addSpecial name raw .program count).error? = none →
        (d.addSpecial name raw .program count).disk.extract name = .ok raw := by
  intro d hcheck name
  have hd := check_eq_nil_iff.1 hcheck
  refine ⟨fun f records h => ?_, fun raw f count h => ?_, fun raw count h => ?_⟩
  · rw [addRecords_eq] at h ⊢
    obtain ⟨c, hc, -, hreading⟩ := reading_adding hd h
    obtain ⟨e, he, rfl⟩ := contentsOfRecords_eq_ok.1 hc
    obtain ⟨hlengths, -⟩ := RecordFormat.exists_encode_iff.1 ⟨e, he⟩
    rw [reading_of_encode he] at hreading
    exact ⟨records.map f.reread, RecordFormat.rereads_map_reread hlengths,
      congrArg Reading.records hreading, congrArg Reading.payload hreading⟩
  · rw [addSpecial_eq] at h ⊢
    obtain ⟨c, hc, -, hreading⟩ := reading_adding hd h
    obtain rfl := Except.ok.inj hc
    refine ⟨_, rfl, (congrArg Reading.records hreading).trans ?_⟩
    rw [records_of_contents rfl, sectorsOf, List.map_map]
    rfl
  · rw [addSpecial_eq] at h ⊢
    obtain ⟨c, hc, hlen, hreading⟩ := reading_adding hd h
    obtain rfl := Except.ok.inj hc
    rw [reading_program (Nat.lt_of_le_of_lt hlen (by decide))] at hreading
    exact congrArg Reading.payload hreading

/-- Records on a blank disk, one of them empty, and a sector with a record that is too long and one
that is cut off, with a count that is too large. -/
theorem records_read_back_blank :
    ∃ d, init .usual "WORK" 40 1 1 = .ok d
      ∧ (d.addRecords "A" [[0x61], []] (.records ⟨.internal, .variable, 8, by decide, by decide⟩)
        ).disk.extractRecords "A" = .ok [.ok [0x61], .ok []]
      ∧ (d.addSpecial "B" (200 :: List.replicate 255 99)
          (.records ⟨.internal, .variable, 8, by decide, by decide⟩) 5).disk.extractRecords "B"
        = .ok [.error (.badLength 0 200 8), .error (.overrun 1)]
      ∧ (d.addSpecial "C" [1, 2, 3] .program 7).disk.extract "C" = .ok [1, 2, 3] := by
  obtain ⟨d, hd, hadded⟩ : ∃ d, init .usual "WORK" 40 1 1 = .ok d
      ∧ ((d.addRecords "A" [[0x61], []] (.records ⟨.internal, .variable, 8, by decide, by decide⟩)
          ).error?.isNone
        && (d.addSpecial "B" (200 :: List.replicate 255 99)
          (.records ⟨.internal, .variable, 8, by decide, by decide⟩) 5).error?.isNone
        && (d.addSpecial "C" [1, 2, 3] .program 7).error?.isNone) = true :=
    Result.exists_ok_of_any (by decide +kernel)
  simp only [Bool.and_eq_true, Option.isNone_iff_eq_none] at hadded
  obtain ⟨⟨hA, hB⟩, hC⟩ := hadded
  have hcheck := check_eq_nil_iff.2 (consistent_init hd).1
  obtain ⟨xs, hxs, hrecords, -⟩ := (records_read_back d hcheck "A").1 _ _ hA
  obtain ⟨decoded, hdecoded, hspecial⟩ := (records_read_back d hcheck "B").2.1 _ _ _ hB
  have hsame : [[0x61], []] = xs :=
    List.forall₂_eq_eq_eq ▸ hxs.imp fun _ _ h => Eq.symm h
  refine ⟨d, hd, ?_, ?_, (records_read_back d hcheck "C").2.2 _ _ hC⟩
  · rw [hrecords, ← hsame]
    rfl
  · rw [hspecial, ← Except.ok.inj hdecoded]
    decide +kernel

end TiBench.Volume.Disk
