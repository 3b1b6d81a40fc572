import TiBench.Volume.Descriptor
import TiBench.Proofs.Bytes
import Mathlib.Data.Nat.Bitwise

/-!
# Laws of descriptor records

A descriptor record that was written says what was written, and its flags do not depend on each
other.
-/

namespace TiBench.Volume.Descriptor

theorem ofSector_toSector (f : Descriptor) : ofSector f.toSector = f := by
  have h0 : f.toSector.bytes.drop 0 = f.name.bytes ++ (Bytes.ofWordBE f.extendedLength
      ++ ([f.flags, f.perSector] ++ (Bytes.ofWordBE f.dataSectors ++ ([f.eof, f.recordLength]
      ++ (Bytes.ofWordLE f.count ++ (f.created.bytes ++ (f.updated.bytes
      ++ (f.clusters.bytes ++ [])))))))) := by
    simp only [toSector, List.drop_zero, List.append_assoc, List.append_nil]
  have h10 := Bytes.drop_part h0 f.name.length_eq
  have h12 := Bytes.drop_part h10 (n := 2) rfl
  have h14 := Bytes.drop_part h12 (n := 2) rfl
  have h16 := Bytes.drop_part h14 (n := 2) rfl
  have h18 := Bytes.drop_part h16 (n := 2) rfl
  have h20 := Bytes.drop_part h18 (n := 2) rfl
  have h24 := Bytes.drop_part h20 f.created.length_eq
  have h28 := Bytes.drop_part h24 f.updated.length_eq
  have h13 := Bytes.drop_part (p := [f.flags]) h12 rfl
  have h17 := Bytes.drop_part (p := [f.eof]) h16 rfl
  exact (mk.injEq ..).mpr ⟨Block.slice_of_drop h0, Block.wordBE_of_drop h10,
    Block.byte_of_drop h12, Block.byte_of_drop h13, Block.wordBE_of_drop h14,
    Block.byte_of_drop h16, Block.byte_of_drop h17, Block.wordLE_of_drop h18,
    Block.slice_of_drop h20, Block.slice_of_drop h24, Block.slice_of_drop h28⟩

theorem toSector_ofSector (s : Sector) : (ofSector s).toSector = s := by
  apply Block.ext
  have h0 := s.drop_eq_slice 0 10 (by decide)
  rw [s.drop_eq_wordBE 10 (by decide), s.drop_eq_byte 12 (by decide), s.drop_eq_byte 13 (by decide),
    s.drop_eq_wordBE 14 (by decide), s.drop_eq_byte 16 (by decide), s.drop_eq_byte 17 (by decide),
    s.drop_eq_wordLE 18 (by decide), s.drop_eq_slice 20 4 (by decide),
    s.drop_eq_slice 24 4 (by decide), s.drop_eq_slice 28 228 (by decide),
    s.drop_eq_nil 256 (by decide), List.drop_zero] at h0
  rw [h0]
  simp only [toSector, ofSector, List.append_assoc, List.cons_append, List.nil_append,
    List.append_nil]

/-! ## Timestamps -/

/-- The descriptor without its timestamps. -/
def undated (f : Descriptor) : Descriptor :=
  { f with created := Block.zero 4, updated := Block.zero 4 }

theorem fileName_undated (f : Descriptor) : f.undated.fileName = f.fileName := rfl

theorem isProtected_undated (f : Descriptor) : f.undated.isProtected = f.isProtected := rfl

theorem sectors_undated (f : Descriptor) : f.undated.sectors = f.sectors := rfl

theorem bytes_toSector (f : Descriptor) : ∃ before after : Bytes,
    before.length = timestampOffset ∧ ∀ g : Descriptor, g.undated = f.undated →
      g.toSector.bytes = before ++ ((g.created.bytes ++ g.updated.bytes) ++ after) := by
  refine ⟨f.name.bytes ++ (Bytes.ofWordBE f.extendedLength ++ ([f.flags, f.perSector]
    ++ (Bytes.ofWordBE f.dataSectors ++ ([f.eof, f.recordLength] ++ Bytes.ofWordLE f.count)))),
    f.clusters.bytes, ?_, fun g hg => ?_⟩
  · simp only [List.length_append, f.name.length_eq, Bytes.ofWordBE, Bytes.ofWordLE,
      List.length_cons, List.length_nil]
    rfl
  · obtain ⟨h0, h1, h2, h3, h4, h5, h6, h7, -, -, h8⟩ := (mk.injEq ..).mp hg
    simp only [toSector, h0, h1, h2, h3, h4, h5, h6, h7, h8, List.append_assoc]

/-- Sectors that say the same of a file up to its timestamps are the same outside these. -/
theorem getElem?_of_undated_eq {s t : Sector} (h : (ofSector t).undated = (ofSector s).undated)
    {i : Nat} (hi : i < timestampOffset ∨ timestampOffset + timestampSize ≤ i) :
    t.bytes[i]? = s.bytes[i]? := by
  obtain ⟨before, after, hbefore, hbytes⟩ := bytes_toSector (ofSector s)
  have hs := hbytes (ofSector s) rfl
  have ht := hbytes (ofSector t) h
  rw [toSector_ofSector] at hs ht
  rw [hs, ht]
  have hstamps (f : Descriptor) : (f.created.bytes ++ f.updated.bytes).length = timestampSize := by
    rw [List.length_append, f.created.length_eq, f.updated.length_eq]; rfl
  rcases hi with hi | hi
  · rw [List.getElem?_append_left (hbefore ▸ hi), List.getElem?_append_left (hbefore ▸ hi)]
  · have hpast : before.length ≤ i := by omega
    have hmore (f : Descriptor) :
        (f.created.bytes ++ f.updated.bytes).length ≤ i - before.length := by
      rw [hstamps]; omega
    rw [List.getElem?_append_right hpast, List.getElem?_append_right hpast,
      List.getElem?_append_right (hmore _), List.getElem?_append_right (hmore _), hstamps, hstamps]

/-! ## Flags -/

theorem or_and (a b c : UInt8) : (a ||| b) &&& c = (a &&& c) ||| (b &&& c) :=
  UInt8.toBitVec_inj.1 BitVec.and_or_distrib_right

/-- Flags, one of them set or taken off. -/
def withFlag (mark flags : UInt8) (on : Bool) : UInt8 :=
  if on then flags ||| mark else flags &&& ~~~mark

theorem withFlag_and {mark flag : UInt8} (h : ~~~mark &&& flag = flag) (flags : UInt8)
    (on : Bool) : withFlag mark flags on &&& flag = flags &&& flag := by
  have hzero : mark &&& flag = 0 := by
    rw [← h, ← UInt8.and_assoc, UInt8.and_not_self, UInt8.zero_and]
  cases on with
  | true =>
      change (flags ||| mark) &&& flag = flags &&& flag
      rw [or_and, hzero, UInt8.or_zero]
  | false =>
      change (flags &&& ~~~mark) &&& flag = flags &&& flag
      rw [UInt8.and_assoc, h]

/-- The flags of a file whose protection is set or taken off. -/
def withProtection (flags : UInt8) (on : Bool) : UInt8 :=
  if on then flags ||| protectedFlag else flags &&& ~~~protectedFlag

theorem withProtection_and {flag : UInt8} (h : ~~~protectedFlag &&& flag = flag) (flags : UInt8)
    (on : Bool) : withProtection flags on &&& flag = flags &&& flag :=
  withFlag_and h flags on

/-- The descriptor with protection set or taken off. -/
def protect (d : Descriptor) (on : Bool) : Descriptor :=
  { d with flags := withProtection d.flags on }

theorem has_protect {flag : UInt8} (h : ~~~protectedFlag &&& flag = flag) (d : Descriptor)
    (on : Bool) : (d.protect on).has flag = d.has flag := by
  rw [has, has, protect, withProtection_and h]

theorem isProtected_protect (d : Descriptor) (on : Bool) : (d.protect on).isProtected = on := by
  cases on with
  | true =>
      have habsorb : (d.flags ||| protectedFlag) &&& protectedFlag = protectedFlag :=
        UInt8.toBitVec_inj.1 (BitVec.eq_of_getElem_eq (by simp +contextual))
      change ((d.flags ||| protectedFlag) &&& protectedFlag != 0) = true
      rw [habsorb]; decide
  | false =>
      change ((d.flags &&& ~~~protectedFlag) &&& protectedFlag != 0) = false
      rw [UInt8.and_assoc, UInt8.not_and_self, UInt8.and_zero]; decide

theorem and_protectedFlag (flags : UInt8) :
    flags &&& protectedFlag = 0 ∨ flags &&& protectedFlag = protectedFlag := by
  have hbit : (flags &&& protectedFlag).toNat = (flags.toNat.testBit 3).toNat * 2 ^ 3 := by
    rw [UInt8.toNat_and]
    exact Nat.and_two_pow flags.toNat 3
  cases hset : flags.toNat.testBit 3 with
  | false =>
      rw [hset] at hbit
      exact Or.inl (UInt8.toNat_inj.1 hbit)
  | true =>
      rw [hset] at hbit
      exact Or.inr (UInt8.toNat_inj.1 hbit)

/-- Protection that is turned and turned back leaves the flags as they were. -/
theorem withProtection_withProtection {flags : UInt8} {on : Bool}
    (h : (flags &&& protectedFlag != 0) = on) :
    withProtection (withProtection flags !on) on = flags := by
  have hsplit : (flags &&& protectedFlag) ||| (flags &&& ~~~protectedFlag) = flags := by
    rw [UInt8.and_comm flags, UInt8.and_comm flags, ← or_and, UInt8.or_not_self, UInt8.neg_one_and]
  cases on with
  | false =>
      have hclear : flags &&& protectedFlag = 0 := bne_eq_false_iff_eq.1 h
      rw [hclear, UInt8.zero_or] at hsplit
      change (flags ||| protectedFlag) &&& ~~~protectedFlag = flags
      rw [or_and, UInt8.and_not_self, UInt8.or_zero, hsplit]
  | true =>
      have hset := (and_protectedFlag flags).resolve_left (bne_iff_ne.1 h)
      rw [hset, UInt8.or_comm] at hsplit
      exact hsplit

theorem protect_protect (d : Descriptor) :
    (d.protect !d.isProtected).protect d.isProtected = d := by
  have hflags : withProtection (d.protect !d.isProtected).flags d.isProtected = d.flags :=
    withProtection_withProtection rfl
  rw [protect, hflags]
  rfl

theorem format?_protect (d : Descriptor) (on : Bool) : (d.protect on).format? = d.format? := by
  rw [format?, format?, has_protect (by decide), has_protect (by decide), has_protect (by decide)]
  rfl

/-- The flags of a new file: those of its format, and the mark of a line that did not end. -/
def newFlags (f : FileFormat) (unterminated : Bool) : UInt8 :=
  formatFlags f ||| if unterminated then unterminatedFlag else 0

theorem newFlags_and (r : RecordFormat) (unterminated : Bool) :
    (newFlags (.records r) unterminated &&& programFlag != 0) = false
    ∧ (newFlags (.records r) unterminated &&& internalFlag != 0)
      = decide (r.content = .internal)
    ∧ (newFlags (.records r) unterminated &&& variableFlag != 0)
      = decide (r.family = .variable)
    ∧ (newFlags (.records r) unterminated &&& unterminatedFlag != 0) = unterminated := by
  rw [newFlags, formatFlags]
  cases r.content <;> cases r.family <;> cases unterminated <;> decide

theorem has_unterminatedFlag {d : Descriptor} {r : RecordFormat} {unterminated : Bool}
    (hflags : d.flags = newFlags (.records r) unterminated) :
    d.has unterminatedFlag = unterminated := by
  rw [has, hflags]; exact (newFlags_and r unterminated).2.2.2

theorem isProtected_of_newFlags {d : Descriptor} {f : FileFormat} {unterminated : Bool}
    (hflags : d.flags = newFlags f unterminated) : d.isProtected = false := by
  rw [isProtected, has, hflags, newFlags]
  cases f with
  | program => cases unterminated <;> decide
  | records r =>
      rw [formatFlags]
      cases r.content <;> cases r.family <;> cases unterminated <;> decide

/-- The flags and the record length of a new file give its format. -/
theorem format?_of_newFlags {d : Descriptor} {f : FileFormat} {unterminated : Bool}
    (hflags : d.flags = newFlags f unterminated)
    (hlength : d.recordLength = UInt8.ofNat f.recordLength) : d.format? = some f := by
  cases f with
  | program =>
      have hprogram : d.has programFlag = true := by
        rw [has, hflags]
        cases unterminated <;> decide
      rw [format?, if_pos hprogram]
  | records r =>
      obtain ⟨hprogram, hinternal, hvariable, -⟩ := newFlags_and r unterminated
      rw [← hflags] at hprogram hinternal hvariable
      have hlt : r.length < 256 := by
        refine Nat.lt_of_le_of_lt r.length_le ?_
        cases r.family <;> decide
      have hlen : d.recordLength.toNat = r.length := by
        rw [hlength]; exact UInt8.toNat_ofNat_of_lt' hlt
      have hcontent : (if d.has internalFlag then Content.internal else Content.display)
          = r.content := by
        rw [has, hinternal]
        cases r.content <;> rfl
      have hfamily : (if d.has variableFlag then Family.variable else Family.fixed)
          = r.family := by
        rw [has, hvariable]
        cases r.family <;> rfl
      rw [format?, has, hprogram, if_neg Bool.false_ne_true]
      simp only [hcontent, hfamily, hlen]
      rw [RecordFormat.make, dif_pos ⟨r.length_pos, r.length_le⟩]
      rfl

end TiBench.Volume.Descriptor
