import TiBench.Text.Dump
import TiBench.Proofs.Name
import TiBench.Proofs.Compare.Token

/-!
# Escaped bytes as tokens

Bytes that were written as escaped text are the bytes of its tokens. If control characters are not
escaped, a carriage return before a line feed is lost, and nothing else.
-/

namespace TiBench

namespace Text

theorem ofAscii_inj {a b : UInt8} (ha : a < 0x80) (hb : b < 0x80) :
    ofAscii a = ofAscii b ↔ a = b := by
  refine ⟨fun h => ?_, congrArg ofAscii⟩
  have hn := congrArg Char.toNat h
  rw [toNat_ofAscii ha, toNat_ofAscii hb] at hn
  exact UInt8.toNat_inj.1 hn

theorem utf8EncodeChar_ofAscii {b : UInt8} (h : b < 0x80) :
    String.utf8EncodeChar (ofAscii b) = [b] := by
  have hb : (ofAscii b).val.toNat = b.toNat := toNat_ofAscii h
  have hlt := UInt8.lt_iff_toNat_lt.1 h
  rw [String.utf8EncodeChar, if_pos (by rw [hb]; exact Nat.le_of_lt_succ hlt), hb]
  exact congrArg (· :: []) UInt8.ofNat_toNat

end Text

namespace Compare.Token

open Text (ofAscii)

variable {controls : Bool} {b : UInt8} {data : Bytes}

/-! ## One byte -/

/-- The byte is written as the character that it is. -/
def Shown (controls : Bool) (b : UInt8) : Prop :=
  (if controls then 0x20 else 0) ≤ b.toNat ∧ b.toNat ≤ (if controls then 0x7e else 0x7f)
    ∧ b ≠ 0x5c

instance (controls : Bool) (b : UInt8) : Decidable (Shown controls b) :=
  inferInstanceAs (Decidable (_ ∧ _ ∧ _))

/-- What is written of a byte. -/
def escaped (controls : Bool) (b : UInt8) : List Char :=
  if Shown controls b then [ofAscii b] else (Token.byte b).source

theorem Shown.lt (h : Shown controls b) : b < 0x80 := by
  have hle := h.2.1
  refine UInt8.lt_iff_toNat_lt.2 (Nat.lt_succ_of_le (Nat.le_trans hle ?_))
  cases controls <;> decide

theorem toList_escapeBytes (controls : Bool) (data : Bytes) :
    (Text.escapeBytes controls data).toList = data.flatMap (escaped controls) := by
  have hbyte (b : UInt8) : escaped controls b
      = (if Shown controls b then (Char.ofNat b.toNat).toString
        else "\\x" ++ Text.hex 2 b.toNat).toList := by
    rw [escaped]
    split <;> simp [source, ofAscii]
  rw [funext hbyte, ← List.flatMap_map, ← String.toList_join]
  cases controls <;> rfl

/-- What is written of a byte is read as one token, with the byte itself. -/
theorem exists_spells_escaped {rest : List Char}
    (h : b = 0x0d → controls = false → rest.head? ≠ some '\n') :
    ∃ t : Token, Spells (escaped controls b) t rest ∧ t.bytes = [b] := by
  rw [escaped]
  by_cases hshown : Shown controls b
  · have hb := hshown.lt
    rw [if_pos hshown]
    by_cases hfeed : b = 0x0a
    · subst hfeed
      exact ⟨.lineBreak, .lineFeed, rfl⟩
    · refine ⟨.literal (ofAscii b), .literal ?_ ?_ fun hreturn => ?_,
        Text.utf8EncodeChar_ofAscii hb⟩
      · exact fun he => hshown.2.2 ((Text.ofAscii_inj hb (by decide)).1 he)
      · exact fun he => hfeed ((Text.ofAscii_inj hb (by decide)).1 he)
      · obtain rfl : b = 0x0d := (Text.ofAscii_inj hb (by decide)).1 hreturn
        refine h rfl ?_
        cases controls with
        | false => rfl
        | true => exact absurd hshown (by decide)
  · rw [if_neg hshown]
    exact ⟨.byte b, .byte_source b rest, rfl⟩

theorem head?_escaped (h : (data.flatMap (escaped controls)).head? = some '\n') :
    data.head? = some 0x0a := by
  cases data with
  | nil => cases h
  | cons b data =>
      rw [List.flatMap_cons, escaped] at h
      split at h
      · rename_i hshown
        have hb : ofAscii b = ofAscii 0x0a := Option.some.inj h
        rw [(Text.ofAscii_inj hshown.lt (by decide)).1 hb]
        rfl
      · simp [source] at h

/-! ## Byte strings -/

theorem bytes_escaped_cons (h : controls = false → ¬(b = 0x0d ∧ data.head? = some 0x0a)) :
    (tokenize ((b :: data).flatMap (escaped controls))).flatMap bytes
      = b :: (tokenize (data.flatMap (escaped controls))).flatMap bytes := by
  have hnext : b = 0x0d → controls = false →
      (data.flatMap (escaped controls)).head? ≠ some '\n' :=
    fun hb hcontrols hhead => h hcontrols ⟨hb, head?_escaped hhead⟩
  obtain ⟨t, hspells, hbytes⟩ := exists_spells_escaped hnext
  rw [List.flatMap_cons, hspells.tokenize_append, List.flatMap_cons, hbytes]
  rfl

theorem bytes_escaped_true (data : Bytes) :
    (tokenize (data.flatMap (escaped true))).flatMap bytes = data := by
  induction data with
  | nil => rfl
  | cons b data ih => rw [bytes_escaped_cons fun h : true = false => (nomatch h), ih]

theorem bytes_escaped_false (data : Bytes) :
    (tokenize (data.flatMap (escaped false))).flatMap bytes
      = Pieces.dropBefore 0x0d 0x0a data := by
  induction data with
  | nil => rfl
  | cons b data ih =>
      by_cases hpair : b = 0x0d ∧ data.head? = some 0x0a
      · obtain ⟨rfl, hhead⟩ := hpair
        obtain ⟨more, rfl⟩ := List.head?_eq_some_iff.1 hhead
        rw [Pieces.dropBefore_pair, ← ih]
        -- Both texts start with one line break.
        change (tokenize ('\r' :: '\n' :: more.flatMap (escaped false))).flatMap bytes
          = (tokenize ('\n' :: more.flatMap (escaped false))).flatMap bytes
        rw [tokenize, tokenize]
      · rw [bytes_escaped_cons fun _ => hpair, Pieces.dropBefore_cons hpair, ih]

/-- The tokens of escaped text have the bytes that were written, but for carriage returns before
line feeds if control characters are not escaped. If they are, no two byte strings are written in
the same way. -/
theorem bytes_of_escaped (data : Bytes) :
    (tokenize (Text.escapeBytes true data).toList).flatMap bytes = data
      ∧ (tokenize (Text.escapeBytes false data).toList).flatMap bytes
        = Pieces.dropBefore 0x0d 0x0a data
      ∧ ∀ other, Text.escapeBytes true other = Text.escapeBytes true data ↔ other = data := by
  have hback (data : Bytes) :
      (tokenize (Text.escapeBytes true data).toList).flatMap bytes = data := by
    rw [toList_escapeBytes, bytes_escaped_true]
  refine ⟨hback data, by rw [toList_escapeBytes, bytes_escaped_false], fun other => ?_⟩
  refine ⟨fun h => ?_, congrArg _⟩
  rw [← hback other, h, hback]

end Compare.Token

end TiBench
