import TiBench.Proofs.Descriptor
import TiBench.Proofs.Info
import TiBench.Proofs.Name

/-!
# The sectors that describe a volume

The information block and the descriptor records are read and written without loss, names are
stored apart from each other, and a descriptor record gives the format that it was made for,
whatever else is set in it.
-/

namespace TiBench.Volume

namespace Descriptor

/-! ## What is set after a descriptor was made -/

/-- A change of a descriptor that is not one of its format. -/
inductive Setting where
  | name (field : Block nameSize)
  | extendedLength (length : UInt16)
  | protection (on : Bool)
  | unterminated (on : Bool)
  | perSector (count : UInt8)
  | dataSectors (count : UInt16)
  | eof (offset : UInt8)
  | count (count : UInt16)
  | created (stamp : Block 4)
  | updated (stamp : Block 4)
  | clusters (list : Block Cluster.listSize)

/-- The descriptor with something set in it. -/
def set (d : Descriptor) : Setting → Descriptor
  | .name field => { d with name := field }
  | .extendedLength length => { d with extendedLength := length }
  | .protection on => d.protect on
  | .unterminated on => { d with flags := withFlag unterminatedFlag d.flags on }
  | .perSector count => { d with perSector := count }
  | .dataSectors count => { d with dataSectors := count }
  | .eof offset => { d with eof := offset }
  | .count count => { d with count := count }
  | .created stamp => { d with created := stamp }
  | .updated stamp => { d with updated := stamp }
  | .clusters list => { d with clusters := list }

theorem has_setUnterminated {flag : UInt8} (h : ~~~unterminatedFlag &&& flag = flag)
    (d : Descriptor) (on : Bool) : (d.set (.unterminated on)).has flag = d.has flag := by
  rw [has, has, set, withFlag_and h]

/-- The format stands in flags and in a byte that no setting changes. -/
theorem format?_set (d : Descriptor) (s : Setting) : (d.set s).format? = d.format? := by
  cases s with
  | protection on => exact d.format?_protect on
  | unterminated on =>
      rw [format?, format?, has_setUnterminated (by decide), has_setUnterminated (by decide),
        has_setUnterminated (by decide)]
      rfl
  | _ => rfl

theorem format?_settings (d : Descriptor) (settings : List Setting) :
    (settings.foldl set d).format? = d.format? := by
  induction settings generalizing d with
  | nil => rfl
  | cons s settings ih => rw [List.foldl_cons, ih, format?_set]

theorem format?_new (name : Block nameSize) (f : FileFormat) : (new name f).format? = some f := by
  have hflags : (new name f).flags = newFlags f false := UInt8.or_zero.symm
  exact format?_of_newFlags hflags rfl

end Descriptor

/-! ## Reading and writing -/

theorem packName_inj {a b : String} {field : Block nameSize} (ha : packName a = some field)
    (hb : packName b = some field) : a = b :=
  (unpackName_of_packName ha).symm.trans (unpackName_of_packName hb)

/-- Sector zero, a descriptor record and what they say determine each other, and all words in them
have their high byte first but the record count. A stored name shows the name that was stored, so
that no two names are stored alike. A descriptor record gives the format that it was made for,
whatever is set in it later. -/
theorem metadata_reread :
    (∀ s : Sector, (Info.ofSector s).toSector = s ∧ (Descriptor.ofSector s).toSector = s)
    ∧ (∀ v : Info, Info.ofSector v.toSector = v)
    ∧ (∀ d : Descriptor, Descriptor.ofSector d.toSector = d)
    ∧ (∀ s : Sector,
      (Info.ofSector s).total.toNat = (s.byte 10).toNat * 256 + (s.byte 11).toNat
      ∧ (Descriptor.ofSector s).extendedLength.toNat
        = (s.byte 10).toNat * 256 + (s.byte 11).toNat
      ∧ (Descriptor.ofSector s).dataSectors.toNat = (s.byte 14).toNat * 256 + (s.byte 15).toNat
      ∧ (Descriptor.ofSector s).count.toNat = (s.byte 19).toNat * 256 + (s.byte 18).toNat)
    ∧ (∀ (name : String) (field : Block nameSize), packName name = some field →
      unpackName field.bytes = name ∧ ∀ other, packName other = some field → other = name)
    ∧ ∀ (field : Block nameSize) (f : FileFormat) (settings : List Descriptor.Setting),
      (settings.foldl Descriptor.set (Descriptor.new field f)).format? = some f := by
  refine ⟨fun s => ⟨Info.toSector_ofSector s, Descriptor.toSector_ofSector s⟩,
    Info.ofSector_toSector, Descriptor.ofSector_toSector, fun s => ⟨?_, ?_, ?_, ?_⟩,
    fun name field h => ⟨unpackName_of_packName h, fun other hother => packName_inj hother h⟩,
    fun field f settings => ?_⟩
  · exact s.toNat_wordBE 10
  · exact s.toNat_wordBE 10
  · exact s.toNat_wordBE 14
  · exact s.toNat_wordLE 18
  · rw [Descriptor.format?_settings, Descriptor.format?_new]

/-- A name of the greatest length with the first and the last characters that a name may have. -/
theorem metadata_reread_longest :
    packName "!23456789~" = some ⟨[0x21, 0x32, 0x33, 0x34, 0x35, 0x36, 0x37, 0x38, 0x39, 0x7e], rfl⟩
      ∧ unpackName [0x21, 0x32, 0x33, 0x34, 0x35, 0x36, 0x37, 0x38, 0x39, 0x7e] = "!23456789~" := by
  have hpack : packName "!23456789~"
      = some ⟨[0x21, 0x32, 0x33, 0x34, 0x35, 0x36, 0x37, 0x38, 0x39, 0x7e], rfl⟩ := by
    decide +kernel
  exact ⟨hpack, (metadata_reread.2.2.2.2.1 _ _ hpack).1⟩

end TiBench.Volume
