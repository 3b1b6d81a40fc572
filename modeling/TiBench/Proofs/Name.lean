import TiBench.Volume.Name
import TiBench.Proofs.Bytes

/-!
# Stored names

A name that can be stored is ASCII, so that its stored form shows it again.
-/

namespace TiBench

namespace Text

/-- An ASCII byte as a character. -/
def ofAscii (b : UInt8) : Char := Char.ofNat b.toNat

theorem readAfter_ascii {b : Bytes} (h : ∀ x ∈ b, x < 0x80) (done : List (Option Char)) :
    Utf8.readAfter done b = done.reverse ++ b.map (some ∘ ofAscii) := by
  induction b generalizing done with
  | nil => rw [Utf8.readAfter, List.map_nil, List.append_nil]
  | cons x b ih =>
      have hx : Utf8.next x b = (some (ofAscii x), 0) := by
        rw [Utf8.next, Utf8.shape, if_pos (h x List.mem_cons_self)]; rfl
      rw [Utf8.readAfter, hx]
      simp only [List.drop_zero]
      rw [ih fun y hy => h y (List.mem_cons_of_mem _ hy)]
      simp only [List.reverse_cons, List.append_assoc, List.singleton_append, List.map_cons,
        Function.comp_apply]

theorem ofUtf8Lossy_ascii {b : Bytes} (h : ∀ x ∈ b, x < 0x80) : ofUtf8Lossy b = b.map ofAscii := by
  rw [ofUtf8Lossy, Utf8.read, readAfter_ascii h, List.reverse_nil, List.nil_append, List.map_map]
  rfl

/-- A character whose bytes are all ASCII is its one byte. -/
theorem utf8EncodeChar_of_ascii {c : Char} (h : ∀ x ∈ String.utf8EncodeChar c, x < 0x80) :
    (String.utf8EncodeChar c).map ofAscii = [c] := by
  by_cases hc : c.val.toNat ≤ 0x7f
  · have hb : String.utf8EncodeChar c = [UInt8.ofNat c.val.toNat] := by
      rw [String.utf8EncodeChar, if_pos hc]
    have hn : (UInt8.ofNat c.val.toNat).toNat = c.toNat := UInt8.toNat_ofNat_of_lt' (by
      rw [UInt8.size]; omega)
    rw [hb, List.map_singleton, ofAscii, hn, Char.ofNat_toNat]
  · -- The first byte of a longer character is not ASCII.
    exfalso
    have hfirst {n : Nat} (hn : UInt8.ofNat n < 0x80) : n % 256 < 128 := by
      have := UInt8.lt_iff_toNat_lt.1 hn
      rwa [UInt8.toNat_ofNat'] at this
    rw [String.utf8EncodeChar, if_neg hc] at h
    split at h
    · have := hfirst (h _ List.mem_cons_self)
      omega
    · split at h
      · have := hfirst (h _ List.mem_cons_self)
        omega
      · have := hfirst (h _ List.mem_cons_self)
        omega

theorem map_ofAscii_utf8 {s : String} (h : ∀ x ∈ utf8 s, x < 0x80) :
    (utf8 s).map ofAscii = s.toList := by
  rw [utf8] at h ⊢
  generalize s.toList = cs at h ⊢
  induction cs with
  | nil => rfl
  | cons c cs ih =>
      rw [List.flatMap_cons] at h ⊢
      rw [List.map_append, utf8EncodeChar_of_ascii fun x hx => h x (List.mem_append_left _ hx),
        ih fun x hx => h x (List.mem_append_right _ hx), List.singleton_append]

theorem toNat_ofAscii {b : UInt8} (h : b < 0x80) : (ofAscii b).toNat = b.toNat := by
  have hlt := UInt8.lt_iff_toNat_lt.1 h
  rw [show (0x80 : UInt8).toNat = 0x80 from rfl] at hlt
  rw [ofAscii, Char.ofNat, dif_pos (Or.inl (by omega))]; rfl

theorem isBlank_ofAscii {b : UInt8} (hlow : 0x20 < b) (hhigh : b < 0x7f) :
    isBlank (ofAscii b) = false := by
  have hn := toNat_ofAscii (UInt8.lt_trans hhigh (by decide))
  have hlow := UInt8.lt_iff_toNat_lt.1 hlow
  have hhigh := UInt8.lt_iff_toNat_lt.1 hhigh
  rw [show (0x20 : UInt8).toNat = 0x20 from rfl] at hlow
  rw [show (0x7f : UInt8).toNat = 0x7f from rfl] at hhigh
  simp only [isBlank, hn, Bool.or_eq_false_iff, Bool.and_eq_false_iff, decide_eq_false_iff_not,
    beq_eq_false_iff_ne]
  omega

end Text

namespace Volume

theorem lt_of_isNameByte {b : UInt8} (h : isNameByte b = true) : 0x20 < b ∧ b < 0x7f := by
  rw [isNameByte, Bool.and_eq_true, Bool.and_eq_true, decide_eq_true_eq, decide_eq_true_eq] at h
  exact h.1

theorem packName_eq_some {name : String} {field : Block nameSize} (h : packName name = some field) :
    Text.utf8 name ≠ [] ∧ (∀ b ∈ Text.utf8 name, isNameByte b = true) ∧
      ∃ k, field.bytes = Text.utf8 name ++ List.replicate k 0x20 := by
  simp only [packName] at h
  split at h
  · cases h
  · rename_i hcond
    simp only [not_or, List.isEmpty_iff, Nat.not_lt, Decidable.not_not, List.all_eq_true] at hcond
    refine ⟨hcond.1, hcond.2.2, nameSize - (Text.utf8 name).length, ?_⟩
    rw [← Option.some.inj h]
    exact Bytes.fit_of_length_le hcond.2.1

/-- A stored name shows the name that was stored. -/
theorem unpackName_of_packName {name : String} {field : Block nameSize}
    (h : packName name = some field) : unpackName field.bytes = name := by
  obtain ⟨hne, hbytes, k, hfield⟩ := packName_eq_some h
  have hascii : ∀ b ∈ Text.utf8 name, b < 0x80 := fun b hb =>
    UInt8.lt_trans (lt_of_isNameByte (hbytes b hb)).2 (by decide)
  have hfield' : ∀ b ∈ Text.utf8 name ++ List.replicate k 0x20, b < 0x80 := by
    intro b hb
    rcases List.mem_append.1 hb with hb | hb
    · exact hascii b hb
    · rw [(List.mem_replicate.1 hb).2]; decide
  have hlast : ∀ c, name.toList.getLast? = some c → Text.isBlank c = false := by
    intro c hc
    rw [← Text.map_ofAscii_utf8 hascii, List.getLast?_map, Option.map_eq_some_iff] at hc
    obtain ⟨b, hb, rfl⟩ := hc
    obtain ⟨hlow, hhigh⟩ := lt_of_isNameByte (hbytes b (List.mem_of_getLast? hb))
    exact Text.isBlank_ofAscii hlow hhigh
  rw [unpackName, hfield, Text.ofUtf8Lossy_ascii hfield', List.map_append, List.map_replicate,
    Text.map_ofAscii_utf8 hascii, Text.trimEnd,
    Pieces.dropEndWhile_append_replicate (by decide), Pieces.dropEndWhile_eq_self hlast,
    String.ofList_toList]

end Volume

end TiBench
