import TiBench.Record.Codec
import TiBench.Proofs.Bytes
import TiBench.Proofs.Result
import Mathlib.Data.List.Forall2

/-!
# Laws of stored records

Which records can be stored, and that reading what was stored gives them back: filled up to the
length of a slot and trimmed again where all slots have one length, as they were otherwise.
-/

namespace TiBench

namespace Record

theorem countWord_eq_ok {n : Nat} {w : UInt16} :
    countWord n = .ok w ↔ n < 65536 ∧ w = UInt16.ofNat n := by
  rw [countWord]
  by_cases h : n < 65536
  · rw [if_pos h]
    exact ⟨fun he => ⟨h, (Except.ok.inj he).symm⟩, fun he => congrArg _ he.2.symm⟩
  · rw [if_neg h]
    exact ⟨fun he => (nomatch he), fun he => absurd he.1 h⟩

theorem checkLengths_eq_ok {n : Nat} {records : List Bytes} :
    checkLengths n records = .ok () ↔ ∀ r ∈ records, r.length ≤ n := by
  have hnone : (records.map List.length).zipIdx.find? (fun r => decide (n < r.1)) = none
      ↔ ∀ r ∈ records, r.length ≤ n := by
    rw [List.find?_eq_none]
    constructor
    · intro h r hr
      obtain ⟨i, hi⟩ := List.mem_iff_getElem?.1 (List.mem_map_of_mem (f := List.length) hr)
      have := h (r.length, i) (List.mem_zipIdx_iff_getElem?.2 hi)
      exact Nat.not_lt.1 fun hlt => this (decide_eq_true hlt)
    · rintro h ⟨k, i⟩ hk hlt
      have hmem := List.mem_of_getElem? (List.mem_zipIdx_iff_getElem?.1 hk)
      obtain ⟨r, hr, rfl⟩ := List.mem_map.1 hmem
      exact absurd (of_decide_eq_true hlt) (Nat.not_lt.2 (h r hr))
  rw [← hnone, checkLengths]
  cases (records.map List.length).zipIdx.find? (fun r => decide (n < r.1)) with
  | none => exact ⟨fun _ => rfl, fun _ => rfl⟩
  | some r => exact ⟨fun h => (nomatch h), fun h => (nomatch h)⟩

/-- The records before one that is too long do not change that it is. -/
theorem checkLengths_append (n : Nat) (records more : List Bytes) :
    checkLengths n (records ++ more) = (do
      checkLengths n records
      match (more.map List.length).zipIdx records.length |>.find? (fun r => n < r.1) with
      | some (length, index) => .error (.tooLong index length)
      | none => .ok ()) := by
  rw [checkLengths, checkLengths, List.map_append, List.zipIdx_append, List.find?_append,
    List.length_map, Nat.zero_add]
  cases (records.map List.length).zipIdx.find? fun r => decide (n < r.1) <;> rfl

theorem checkLengths_concat (n : Nat) (records : List Bytes) (r : Bytes) :
    checkLengths n (records ++ [r]) = (do
      checkLengths n records
      if n < r.length then .error (.tooLong records.length r.length) else .ok ()) := by
  rw [checkLengths_append, List.map_singleton, List.zipIdx_singleton, List.find?_singleton]
  by_cases h : n < r.length
  · rw [if_pos h, if_pos (decide_eq_true h)]
  · rw [if_neg h, if_neg (by rw [decide_eq_true_eq]; exact h)]

theorem collect_map_ok (records : List Bytes) : collect (records.map .ok) = .ok records := by
  rw [collect, Result.mapM_eq_ok (g := fun r => match r with | .ok r => r | .error _ => [])]
  · rw [List.map_map]; exact congrArg _ (List.map_id _)
  · intro r hr
    obtain ⟨s, -, rfl⟩ := List.mem_map.1 hr
    rfl

theorem mem_of_collect {decoded : List (Except RecordError Bytes)} {records : List Bytes}
    (h : collect decoded = .ok records) {r : Bytes} (hr : r ∈ records) : .ok r ∈ decoded := by
  induction decoded generalizing records with
  | nil => obtain rfl := Except.ok.inj h; cases hr
  | cons x decoded ih =>
      rw [collect, List.mapM_cons, Result.bind_eq_ok] at h
      obtain ⟨a, ha, h⟩ := h
      obtain ⟨as, has, h⟩ := Result.bind_eq_ok.1 h
      obtain rfl := Except.ok.inj h
      rcases List.mem_cons.1 hr with rfl | hr
      · exact List.mem_cons.2 (Or.inl ha.symm)
      · exact List.mem_cons_of_mem _ (ih has hr)

/-! ## Slots of one length -/

namespace Fixed

variable {n : Nat} {pad : Padding} {records : List Bytes}

theorem slots_pos (hpos : 0 < n) (hle : n ≤ 255) : 0 < slots n := by
  have : 1 ≤ sectorSize / n := (Nat.one_le_div_iff hpos).2 (Nat.le_trans hle (by decide))
  rw [slots]; omega

theorem slots_mul_le (n : Nat) : slots n * n ≤ sectorSize :=
  Nat.le_trans (Nat.mul_le_mul_right n (Nat.min_le_right _ _)) (Nat.div_mul_le_self _ _)

theorem encode_eq_ok {e : Encoded} : encode n pad records = .ok e ↔
    records.length < 65536 ∧ (∀ r ∈ records, r.length ≤ n)
      ∧ e = ⟨(Pieces.chunks (slots n) records).map (sector n pad), 0,
        UInt16.ofNat records.length⟩ := by
  rw [encode, Result.bind_eq_ok]
  constructor
  · rintro ⟨w, hw, h⟩
    obtain ⟨⟨⟩, hlengths, h⟩ := Result.bind_eq_ok.1 h
    obtain ⟨hcount, rfl⟩ := countWord_eq_ok.1 hw
    exact ⟨hcount, checkLengths_eq_ok.1 hlengths, (Except.ok.inj h).symm⟩
  · rintro ⟨hcount, hlengths, rfl⟩
    exact ⟨_, countWord_eq_ok.2 ⟨hcount, rfl⟩,
      Result.bind_eq_ok.2 ⟨(), checkLengths_eq_ok.2 hlengths, rfl⟩⟩

theorem bytes_sector (pad : Padding) (h : records.length ≤ slots n) :
    ∃ k, (sector n pad records).bytes
      = records.flatMap (Bytes.fit pad.byte n) ++ List.replicate k 0 := by
  have hlen : (records.flatMap (Bytes.fit pad.byte n)).length ≤ sectorSize := by
    rw [Bytes.length_flatMap_fit]
    exact Nat.le_trans (Nat.mul_le_mul_right n h) (slots_mul_le n)
  exact ⟨_, Bytes.fit_of_length_le hlen⟩

/-- Reading the slot of a record gives what the record looks like in its slot. -/
theorem read_eq (hpos : 0 < n) (hle : n ≤ 255) {i : Nat} {r : Bytes} (hi : records[i]? = some r) :
    read n pad ((Pieces.chunks (slots n) records).map
        fun c => (sector n pad c).bytes).toArray i
      = .ok (unpad pad (Bytes.fit pad.byte n r)) := by
  have hslots := slots_pos hpos hle
  have hlt := (List.getElem?_eq_some_iff.1 hi).1
  have hpiece : i / slots n * slots n < records.length :=
    Nat.lt_of_le_of_lt (Nat.div_mul_le_self _ _) hlt
  have hchunk := Pieces.getElem?_chunks hslots records (i / slots n)
  rw [if_pos hpiece] at hchunk
  have hlen : ((records.drop (i / slots n * slots n)).take (slots n)).length ≤ slots n :=
    List.length_take_le _ _
  obtain ⟨k, hbytes⟩ := bytes_sector pad hlen
  have hrecord : ((records.drop (i / slots n * slots n)).take (slots n))[i % slots n]?
      = some r := by
    rw [List.getElem?_take_of_lt (Nat.mod_lt _ hslots), List.getElem?_drop, Nat.mul_comm,
      Nat.div_add_mod, hi]
  rw [read, List.getElem?_toArray, List.getElem?_map, hchunk, Option.map_some, Option.map_some,
    hbytes, Bytes.slot_flatMap_fit hrecord]
  exact if_pos (Bytes.length_fit _ _ _)

theorem decode_eq (hpos : 0 < n) (hle : n ≤ 255) :
    decode n pad records.length ((Pieces.chunks (slots n) records).map
        fun c => (sector n pad c).bytes)
      = records.map fun r => .ok (unpad pad (Bytes.fit pad.byte n r)) := by
  rw [decode]
  refine List.ext_getElem? fun i => ?_
  rw [List.getElem?_map, List.getElem?_map]
  by_cases hi : i < records.length
  · rw [List.getElem?_range hi, List.getElem?_eq_getElem hi, Option.map_some, Option.map_some,
      read_eq hpos hle (List.getElem?_eq_getElem hi)]
  · rw [List.getElem?_eq_none (by rw [List.length_range]; omega),
      List.getElem?_eq_none (Nat.not_lt.1 hi)]
    rfl

/-- A record that does not end in a space is not changed by the spaces after it. -/
theorem unpad_fit_space {r : Bytes} (hlen : r.length ≤ n)
    (hlast : r.getLast? ≠ some Padding.space.byte) :
    unpad .space (Bytes.fit Padding.space.byte n r) = r := by
  rw [unpad, Bytes.fit_of_length_le hlen,
    Pieces.dropEndWhile_append_replicate (p := (· == Padding.space.byte)) (beq_self_eq_true _),
    Pieces.dropEndWhile_eq_self]
  intro x hx
  exact beq_false_of_ne fun hspace => hlast (hspace ▸ hx)

/-- Slots filled up with zeros are read as they are. -/
theorem length_of_mem_decode {n count : Nat} {sectors : List Bytes} {r : Bytes}
    (h : .ok r ∈ decode n .zero count sectors) : r.length = n := by
  obtain ⟨i, -, hi⟩ := List.mem_map.1 h
  simp only [read, unpad] at hi
  split at hi
  · split at hi
    · rename_i hlen
      rw [← Except.ok.inj hi]; exact hlen
    · cases hi
  · cases hi

end Fixed

/-! ## Records of varying length -/

namespace Variable

theorem size_append (rs ss : List Bytes) : size (rs ++ ss) = size rs + size ss := by
  rw [size, size, size, List.flatMap_append, List.length_append]

theorem size_singleton (r : Bytes) : size [r] = r.length + 1 := by
  simp only [size, List.flatMap_cons, List.flatMap_nil, List.append_nil, entry, List.length_cons]

/-- The records of a packing, all of whose sectors have room for the end byte. -/
structure Packing.Holds (p : Packing) (records : List Bytes) : Prop where
  used_eq : p.used = size p.current.reverse
  used_lt : p.used < sectorSize
  full_lt : ∀ g ∈ p.full, size g < sectorSize
  flatten_eq : p.full.reverse.flatten ++ p.current.reverse = records

namespace Packing

theorem holds_empty : empty.Holds [] :=
  ⟨rfl, by decide, fun _ h => (nomatch h), rfl⟩

theorem Holds.push {p : Packing} {records : List Bytes} (h : p.Holds records) {r : Bytes}
    (hr : r.length ≤ maxLength) : (p.push r).Holds (records ++ [r]) := by
  rw [Packing.push]
  -- The record fits behind the others of its sector, or begins a sector.
  split
  · rename_i hroom
    refine ⟨?_, ?_, h.full_lt, ?_⟩
    · simp only [List.reverse_cons, size_append, size_singleton, h.used_eq, Nat.add_assoc]
    · simp only; omega
    · rw [← h.flatten_eq, List.reverse_cons, List.append_assoc]
  · refine ⟨?_, ?_, fun g hg => ?_, ?_⟩
    · rw [List.reverse_singleton, size_singleton]
    · simp only [maxLength] at hr
      simp only [sectorSize]
      omega
    · rcases List.mem_cons.1 hg with rfl | hg
      · rw [← h.used_eq]; exact h.used_lt
      · exact h.full_lt g hg
    · rw [← h.flatten_eq, List.reverse_cons, List.flatten_append, List.flatten_singleton,
        List.reverse_singleton]

theorem Holds.foldl {p : Packing} {records more : List Bytes} (h : p.Holds records)
    (hmore : ∀ r ∈ more, r.length ≤ maxLength) :
    (more.foldl Packing.push p).Holds (records ++ more) := by
  induction more generalizing p records with
  | nil => rw [List.append_nil]; exact h
  | cons r more ih =>
      rw [List.foldl_cons, List.append_cons]
      exact ih (h.push (hmore r List.mem_cons_self)) fun s hs => hmore s (List.mem_cons_of_mem _ hs)

theorem Holds.groups {p : Packing} {records : List Bytes} (h : p.Holds records) :
    p.groups.flatten = records ∧ ∀ g ∈ p.groups, size g < sectorSize := by
  rw [Packing.groups]
  have hflat := h.flatten_eq
  split
  · rename_i hempty
    rw [List.isEmpty_iff.1 hempty, List.reverse_nil, List.append_nil] at hflat
    exact ⟨hflat, fun g hg => h.full_lt g (List.mem_reverse.1 hg)⟩
  · refine ⟨?_, fun g hg => ?_⟩
    · rw [List.reverse_cons, List.flatten_append, List.flatten_singleton, hflat]
    · rcases List.mem_cons.1 (List.mem_reverse.1 hg) with rfl | hg
      · rw [← h.used_eq]; exact h.used_lt
      · exact h.full_lt g hg

end Packing

/-- The sectors hold the records in their order, and each has room for its end byte. -/
theorem groups_spec {records : List Bytes} (h : ∀ r ∈ records, r.length ≤ maxLength) :
    (groups records).flatten = records ∧ ∀ g ∈ groups records, size g < sectorSize :=
  (Packing.holds_empty.foldl h).groups

theorem toNat_lengthByte {r : Bytes} (h : r.length ≤ maxLength) :
    (UInt8.ofNat r.length).toNat = r.length :=
  UInt8.toNat_ofNat_of_lt' (Nat.lt_of_le_of_lt h (by decide))

theorem lengthByte_ne_endByte {r : Bytes} (h : r.length ≤ maxLength) :
    UInt8.ofNat r.length ≠ endByte := by
  intro he
  have hlen := congrArg UInt8.toNat he
  rw [toNat_lengthByte h] at hlen
  rw [hlen] at h
  exact absurd h (by decide)

theorem bytes_sector {g : List Bytes} (h : size g < sectorSize) : (sector g).bytes
    = g.flatMap entry ++ endByte :: List.replicate (sectorSize - (size g + 1)) 0 := by
  have hlen : (g.flatMap entry ++ [endByte]).length ≤ sectorSize := by
    rw [List.length_append]; exact h
  refine (Bytes.fit_of_length_le hlen).trans ?_
  rw [List.append_assoc, List.singleton_append, List.length_append]
  rfl

theorem entries_endByte (rest : Bytes) : entries (endByte :: rest) = [] := by
  rw [entries, if_pos rfl]

/-- Records stored one behind the other are read before what follows them. -/
theorem entries_append {g : List Bytes} (h : ∀ r ∈ g, r.length ≤ maxLength) (rest : Bytes) :
    entries (g.flatMap entry ++ rest) = g.map .whole ++ entries rest := by
  induction g with
  | nil => rw [List.flatMap_nil, List.nil_append, List.map_nil, List.nil_append]
  | cons r g ih =>
      have hr := h r List.mem_cons_self
      rw [List.flatMap_cons, entry, List.cons_append, List.cons_append, List.append_assoc, entries,
        if_neg (lengthByte_ne_endByte hr), toNat_lengthByte hr, List.take_left' rfl,
        List.drop_left' rfl, ih fun s hs => h s (List.mem_cons_of_mem _ hs)]
      simp only [Nat.lt_irrefl, if_false, List.map_cons, List.cons_append]

theorem entries_sector {g : List Bytes} (h : ∀ r ∈ g, r.length ≤ maxLength)
    (hsize : size g < sectorSize) : entries (sector g).bytes = g.map .whole := by
  rw [bytes_sector hsize, entries_append h, entries_endByte, List.append_nil]

theorem mapIdx_resolve {n : Nat} {records : List Bytes} (h : ∀ r ∈ records, r.length ≤ n) :
    (records.map Entry.whole).mapIdx (resolve n) = records.map .ok := by
  refine List.ext_getElem? fun i => ?_
  rw [List.getElem?_mapIdx, List.getElem?_map, List.getElem?_map]
  cases hi : records[i]? with
  | none => rfl
  | some r =>
      have hr := h r (List.mem_of_getElem? hi)
      exact congrArg some (if_neg (Nat.not_lt.2 hr))

theorem decode_eq {n : Nat} {records : List Bytes} (hn : n ≤ maxLength)
    (h : ∀ r ∈ records, r.length ≤ n) :
    decode n ((groups records).map fun g => (sector g).bytes) = records.map .ok := by
  have hmax : ∀ r ∈ records, r.length ≤ maxLength := fun r hr => Nat.le_trans (h r hr) hn
  obtain ⟨hflat, hsize⟩ := groups_spec hmax
  have hentries : ((groups records).map fun g => (sector g).bytes).flatMap entries
      = records.map .whole := by
    rw [List.flatMap_map, List.flatMap_def,
      List.map_congr_left (g := List.map Entry.whole) fun g hg =>
        entries_sector (fun r hr => hmax r (hflat ▸ List.mem_flatten_of_mem hg hr)) (hsize g hg),
      ← List.map_flatten, hflat]
  rw [decode, hentries, mapIdx_resolve h]

theorem encode_eq_ok {n : Nat} {records : List Bytes} (hn : n ≤ maxLength) {e : Encoded} :
    encode n records = .ok e ↔ (∀ r ∈ records, r.length ≤ n) ∧ (groups records).length < 65536
      ∧ e = ⟨(groups records).map sector,
        UInt8.ofNat (((groups records).getLast?.map size).getD 0),
        UInt16.ofNat (groups records).length⟩ := by
  rw [encode, Nat.min_eq_left hn, Result.bind_eq_ok]
  constructor
  · rintro ⟨⟨⟩, hlengths, h⟩
    obtain ⟨w, hw, h⟩ := Result.bind_eq_ok.1 h
    obtain ⟨hcount, rfl⟩ := countWord_eq_ok.1 hw
    exact ⟨checkLengths_eq_ok.1 hlengths, hcount, (Except.ok.inj h).symm⟩
  · rintro ⟨hlengths, hcount, rfl⟩
    exact ⟨(), checkLengths_eq_ok.2 hlengths,
      Result.bind_eq_ok.2 ⟨_, countWord_eq_ok.2 ⟨hcount, rfl⟩, rfl⟩⟩

end Variable

end Record

/-! ## Any format -/

namespace RecordFormat

variable {f : RecordFormat} {records : List Bytes}

/-- The number that a descriptor keeps of records: how many they are, or how many sectors those of
varying length take. -/
def countOf (f : RecordFormat) (records : List Bytes) : Nat :=
  match f.family with
  | .fixed => records.length
  | .variable => (Record.Variable.groups records).length

/-- A record as it is read after it was stored. -/
def reread (f : RecordFormat) (r : Bytes) : Bytes :=
  match f.family with
  | .fixed => Record.Fixed.unpad f.padding (Bytes.fit f.padding.byte f.length r)
  | .variable => r

/-- Internal records of one length are read with that length, whatever the sectors hold. -/
theorem length_of_collect_decode {f : RecordFormat} {count : Nat}
    {sectors records : List Bytes} (hcontent : f.content = .internal) (hfamily : f.family = .fixed)
    (h : Record.collect (f.decode count sectors) = .ok records) :
    ∀ r ∈ records, r.length = f.length := by
  intro r hr
  have hmem := Record.mem_of_collect h hr
  simp only [RecordFormat.decode, padding, hcontent, hfamily] at hmem
  exact Record.Fixed.length_of_mem_decode hmem

theorem exists_encode_iff : (∃ e, f.encode records = .ok e) ↔
    (∀ r ∈ records, r.length ≤ f.length) ∧ f.countOf records < 65536 := by
  have hle := f.length_le
  rw [RecordFormat.encode, countOf]
  rcases hf : f.family with _ | _
  · constructor
    · rintro ⟨e, he⟩
      obtain ⟨hcount, hlengths, -⟩ := Record.Fixed.encode_eq_ok.1 he
      exact ⟨hlengths, hcount⟩
    · rintro ⟨hlengths, hcount⟩
      exact ⟨_, Record.Fixed.encode_eq_ok.2 ⟨hcount, hlengths, rfl⟩⟩
  · rw [hf] at hle
    constructor
    · rintro ⟨e, he⟩
      obtain ⟨hlengths, hcount, -⟩ := (Record.Variable.encode_eq_ok hle).1 he
      exact ⟨hlengths, hcount⟩
    · rintro ⟨hlengths, hcount⟩
      exact ⟨_, (Record.Variable.encode_eq_ok hle).2 ⟨hlengths, hcount, rfl⟩⟩

/-- Records that were stored are read again. -/
theorem decode_of_encode {e : Record.Encoded} (h : f.encode records = .ok e) :
    f.decode e.count.toNat (e.sectors.map Block.bytes)
      = records.map fun r => .ok (f.reread r) := by
  have hle := f.length_le
  rw [RecordFormat.encode] at h
  rw [RecordFormat.decode]
  rcases hf : f.family with _ | _
  · rw [hf] at h hle
    obtain ⟨hcount, -, rfl⟩ := Record.Fixed.encode_eq_ok.1 h
    simp only [reread, hf]
    rw [UInt16.toNat_ofNat_of_lt' hcount, List.map_map]
    exact Record.Fixed.decode_eq f.length_pos hle
  · rw [hf] at h hle
    obtain ⟨hlengths, hcount, rfl⟩ := (Record.Variable.encode_eq_ok hle).1 h
    simp only [reread, hf]
    rw [UInt16.toNat_ofNat_of_lt' hcount, List.map_map,
      List.take_of_length_le (Nat.le_of_eq (List.length_map _))]
    exact Record.Variable.decode_eq hle hlengths

/-- A stored record `r` reads as `x`: as it was, if records vary in length; else without the spaces
at its end if it is for display, and filled up with zeros if it is internal. -/
def Rereads (f : RecordFormat) (r x : Bytes) : Prop :=
  match f.family, f.content with
  | .variable, _ => x = r
  | .fixed, .display => (∃ k, r = x ++ List.replicate k 0x20) ∧ x.getLast? ≠ some 0x20
  | .fixed, .internal => x = r ++ List.replicate (f.length - r.length) 0

theorem rereads_reread {r : Bytes} (h : r.length ≤ f.length) : f.Rereads r (f.reread r) := by
  rcases hf : f.family with _ | _
  · rcases hc : f.content with _ | _
    · have hpad : f.padding = .space := by simp only [padding, hc]
      have hspaces := Pieces.dropEndWhile_beq Padding.space.byte r
      simp only [Rereads, reread, hf, hc, hpad, Record.Fixed.unpad]
      rw [Bytes.fit_of_length_le h,
        Pieces.dropEndWhile_append_replicate (p := (· == Padding.space.byte)) (beq_self_eq_true _)]
      exact hspaces
    · have hpad : f.padding = .zero := by simp only [padding, hc]
      simp only [Rereads, reread, hf, hc, hpad, Record.Fixed.unpad]
      exact Bytes.fit_of_length_le h
  · simp only [Rereads, reread, hf]

/-- A record comes back as it was, unless its slot was filled up with zeros, or with spaces behind
one of its own. -/
theorem reread_eq_self {r : Bytes} (h : r.length ≤ f.length)
    (hkept : f.family = .fixed → f.content = .display ∧ r.getLast? ≠ some 0x20) :
    f.reread r = r := by
  rcases hf : f.family with _ | _
  · obtain ⟨hc, hlast⟩ := hkept hf
    simp only [reread, padding, hc, hf]
    exact Record.Fixed.unpad_fit_space h hlast
  · simp only [reread, hf]

theorem rereads_map_reread (h : ∀ r ∈ records, r.length ≤ f.length) :
    List.Forall₂ f.Rereads records (records.map f.reread) := by
  rw [List.forall₂_map_right_iff, List.forall₂_same]
  exact fun r hr => rereads_reread (h r hr)

/-- No end is kept of records of one length. -/
theorem eof_of_encode {e : Record.Encoded} (h : f.encode records = .ok e)
    (hf : f.family = .fixed) : e.eof = 0 := by
  rw [RecordFormat.encode, hf] at h
  obtain ⟨-, -, rfl⟩ := Record.Fixed.encode_eq_ok.1 h
  rfl

theorem count_of_encode {e : Record.Encoded} (h : f.encode records = .ok e) :
    e.count.toNat = f.countOf records
      ∧ (f.family = .variable → e.sectors.length = f.countOf records) := by
  have hle := f.length_le
  rw [RecordFormat.encode] at h
  rw [countOf]
  rcases hf : f.family with _ | _
  · rw [hf] at h
    obtain ⟨hcount, -, rfl⟩ := Record.Fixed.encode_eq_ok.1 h
    exact ⟨UInt16.toNat_ofNat_of_lt' hcount, fun hv => (nomatch hv)⟩
  · rw [hf] at h hle
    obtain ⟨-, hcount, rfl⟩ := (Record.Variable.encode_eq_ok hle).1 h
    exact ⟨UInt16.toNat_ofNat_of_lt' hcount, fun _ => List.length_map _⟩

/-- Records can be stored if and only if none is longer than the record length and their count fits
its word. They fill whole sectors, and each reads again in its place as its format has it. -/
theorem stored_records_reread (f : RecordFormat) (records : List Bytes) :
    ((∃ e, (FileFormat.records f).encode records = .ok e) ↔
      (∀ r ∈ records, r.length ≤ f.length) ∧ f.countOf records ≤ 65535)
    ∧ ∀ e, (FileFormat.records f).encode records = .ok e →
      e.count.toNat = f.countOf records
      ∧ (f.family = .variable → e.sectors.length = f.countOf records)
      ∧ (∀ s ∈ e.sectors, s.bytes.length = 256)
      ∧ ∃ decoded xs,
        (FileFormat.records f).decode e.count.toNat (e.sectors.map Block.bytes) = .ok decoded
        ∧ Record.collect decoded = .ok xs ∧ List.Forall₂ f.Rereads records xs := by
  refine ⟨exists_encode_iff.trans (and_congr_right fun _ => Nat.lt_succ_iff), fun e he => ?_⟩
  obtain ⟨hcount, hsectors⟩ := count_of_encode he
  obtain ⟨hlengths, -⟩ := exists_encode_iff.1 ⟨e, he⟩
  refine ⟨hcount, hsectors, fun s _ => s.length_eq, _, records.map f.reread,
    congrArg Except.ok (decode_of_encode he), ?_, ?_⟩
  · rw [← Record.collect_map_ok, List.map_map]; rfl
  · rw [List.forall₂_map_right_iff, List.forall₂_same]
    exact fun r hr => rereads_reread (hlengths r hr)

/-- A record of end bytes, an empty one and one of the greatest length. -/
theorem stored_records_reread_extremes :
    let f : RecordFormat := ⟨.internal, .variable, 254, by decide, by decide⟩
    let records := [[0xff, 0xff], [], List.replicate 254 0x41]
    ∃ e decoded, (FileFormat.records f).encode records = .ok e
      ∧ (FileFormat.records f).decode e.count.toNat (e.sectors.map Block.bytes) = .ok decoded
      ∧ Record.collect decoded = .ok records := by
  intro f records
  obtain ⟨e, he⟩ := (stored_records_reread f records).1.2 (by decide +kernel)
  obtain ⟨-, -, -, decoded, xs, hdecoded, hxs, hreread⟩ := (stored_records_reread f records).2 e he
  have hsame : xs = records := by
    refine (List.forall₂_eq_eq_eq ▸ ?_ : records = xs).symm
    exact hreread.imp fun _ _ h => Eq.symm h
  exact ⟨e, decoded, he, hdecoded, hsame ▸ hxs⟩

end RecordFormat

end TiBench
