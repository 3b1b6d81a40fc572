import TiBench.Volume.Info
import TiBench.Proofs.Bytes

/-!
# Laws of the volume information block

Sector zero and what it says of a volume determine each other.
-/

namespace TiBench.Volume.Info

theorem ofSector_toSector (v : Info) : ofSector v.toSector = v := by
  have h0 : v.toSector.bytes.drop 0 = v.name.bytes ++ (Bytes.ofWordBE v.total
      ++ ([v.sectorsPerTrack] ++ (v.signature.bytes ++ ([v.protection, v.tracksPerSide, v.sides,
      v.density] ++ (v.reserved.bytes ++ (v.bitmap.bytes ++ [])))))) := by
    simp only [toSector, List.drop_zero, List.append_assoc, List.append_nil]
  have h10 := Bytes.drop_part h0 v.name.length_eq
  have h12 := Bytes.drop_part h10 (n := 2) rfl
  have h13 := Bytes.drop_part h12 (n := 1) rfl
  have h16 := Bytes.drop_part h13 v.signature.length_eq
  have h17 := Bytes.drop_part (p := [v.protection]) h16 rfl
  have h18 := Bytes.drop_part (p := [v.tracksPerSide]) h17 rfl
  have h19 := Bytes.drop_part (p := [v.sides]) h18 rfl
  have h20 := Bytes.drop_part (p := [v.density]) h19 rfl
  have h56 := Bytes.drop_part h20 v.reserved.length_eq
  exact (mk.injEq ..).mpr ⟨Block.slice_of_drop h0, Block.wordBE_of_drop h10,
    Block.byte_of_drop h12, Block.slice_of_drop h13, Block.byte_of_drop h16,
    Block.byte_of_drop h17, Block.byte_of_drop h18, Block.byte_of_drop h19,
    Block.slice_of_drop h20, Block.slice_of_drop h56⟩

theorem toSector_ofSector (s : Sector) : (ofSector s).toSector = s := by
  apply Block.ext
  have h0 := s.drop_eq_slice 0 10 (by decide)
  rw [s.drop_eq_wordBE 10 (by decide), s.drop_eq_byte 12 (by decide),
    s.drop_eq_slice 13 3 (by decide), s.drop_eq_byte 16 (by decide), s.drop_eq_byte 17 (by decide),
    s.drop_eq_byte 18 (by decide), s.drop_eq_byte 19 (by decide), s.drop_eq_slice 20 36 (by decide),
    s.drop_eq_slice 56 200 (by decide), s.drop_eq_nil 256 (by decide),
    List.drop_zero] at h0
  rw [h0]
  simp only [toSector, ofSector, List.append_assoc, List.cons_append, List.nil_append,
    List.append_nil]

end TiBench.Volume.Info
