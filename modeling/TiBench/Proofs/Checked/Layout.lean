import TiBench.Proofs.Checked.Record
import TiBench.Proofs.Name
import TiBench.Proofs.Index
import TiBench.Proofs.Cluster
import TiBench.Proofs.Bitmap
import TiBench.Proofs.SectorImage
import TiBench.Volume.Descriptor

/-!
# Structures byte by byte

The structures of a volume by the accesses that a machine makes: words of the index and clusters of
a descriptor by their offset, sectors of the bitmap by byte and bit. Each has a fixed size, and no
access is outside it.
-/

namespace TiBench.Checked

open Volume

/-! ## Names and timestamps -/

def packName (name : String) : Checked (Option (Block nameSize)) := do
  let bytes := Text.utf8 name
  if bytes.isEmpty ∨ nameSize < bytes.length ∨ ¬bytes.all isNameByte then return none
  else
    let field ← splice (List.replicate nameSize 0x20) 0 bytes.length bytes
    return some (← block nameSize field)

theorem packName_eq (name : String) : packName name = .ok (Volume.packName name) := by
  rw [packName, Volume.packName]
  by_cases h : (Text.utf8 name).isEmpty ∨ nameSize < (Text.utf8 name).length
      ∨ ¬(Text.utf8 name).all isNameByte
  · rw [if_pos h, if_pos h]; rfl
  · have hlen : (Text.utf8 name).length ≤ nameSize :=
      Nat.not_lt.1 fun hlt => h (Or.inr (Or.inl hlt))
    rw [if_neg h, if_neg h, splice_replicate hlen, Result.ok_bind]
    exact congrArg (· >>= fun field => .ok (some field)) (block_bytes (Block.fit 0x20 nameSize _))

def unpackTime (b : Block 4) : Checked (Option Timestamp) := do
  return Timestamp.unpack
    ⟨[← get b.bytes 0, ← get b.bytes 1, ← get b.bytes 2, ← get b.bytes 3], rfl⟩

theorem unpackTime_eq (b : Block 4) : unpackTime b = .ok (Timestamp.unpack b) := by
  obtain ⟨bytes, hlen⟩ := b
  match bytes, hlen with
  | [_, _, _, _], _ => rfl

/-! ## The descriptor index -/

namespace Index

/-- The pointers of `left` words from a word on. -/
def scan (buf : Bytes) : (left i : Nat) → Checked (List Nat)
  | 0, _ => return []
  | left + 1, i => do
    let word := Bytes.word (← get buf (2 * i)) (← get buf (2 * i + 1))
    if word = 0 then return [] else return word.toNat :: (← scan buf left (i + 1))

def pointers (buf : Bytes) : Checked (List Nat) := scan buf Index.maxFiles 0

/-- Writes the pointer of the file that stands at a place. -/
def put (i : Nat) (f : String × Nat) (buf : Bytes) : Checked Bytes := do
  let word := UInt16.ofNat f.2
  set (← set buf (2 * i) (word >>> 8).toUInt8) (2 * i + 1) word.toUInt8

def build (files : List (String × Nat)) : Checked Sector := do
  let listed := (Index.sort files).take Index.maxFiles
  block sectorSize (← loop listed (List.replicate sectorSize 0) put)

theorem scan_eq {buf : Bytes} {left i : Nat} (h : 2 * (i + left) ≤ buf.length) :
    scan buf left i = .ok ((((Bytes.wordsBE (buf.drop (2 * i))).take left).takeWhile
      (· != 0)).map UInt16.toNat) := by
  induction left generalizing i with
  | zero => rfl
  | succ left ih =>
      have hhigh : 2 * i < buf.length := by omega
      have hlow : 2 * i + 1 < buf.length := by omega
      rw [scan, get_eq (List.getElem?_eq_getElem hhigh), Result.ok_bind,
        get_eq (List.getElem?_eq_getElem hlow), Result.ok_bind, List.drop_eq_getElem_cons hhigh,
        List.drop_eq_getElem_cons hlow, Bytes.wordsBE, List.take_succ_cons, List.takeWhile_cons]
      by_cases hzero : Bytes.word buf[2 * i] buf[2 * i + 1] = 0
      · rw [if_pos hzero, hzero]; rfl
      · rw [if_neg hzero, if_pos (bne_iff_ne.2 hzero), ih (by omega)]; rfl

theorem pointers_eq (s : Sector) : pointers s.bytes = .ok (Volume.Index.pointers s.bytes) :=
  scan_eq (by rw [s.length_eq]; decide)

/-- The pointers of files as words. -/
def words (files : List (String × Nat)) : Bytes :=
  files.flatMap fun f => Bytes.ofWordBE (UInt16.ofNat f.2)

theorem length_words (files : List (String × Nat)) : (words files).length = 2 * files.length := by
  rw [words, ← List.flatMap_map, Bytes.length_flatMap_ofWordBE, List.length_map]

theorem put_eq {done : List (String × Nat)} (h : done.length < Index.maxFiles)
    (f : String × Nat) :
    put done.length f (Bytes.fit 0 sectorSize (words done))
      = .ok (Bytes.fit 0 sectorSize (words (done ++ [f]))) := by
  have hroom : 2 * done.length + 1 < sectorSize := by
    simp only [Index.maxFiles, sectorSize] at h ⊢; omega
  have hlen := length_words done
  rw [put, set_fit hlen (Nat.lt_of_succ_lt hroom), Result.ok_bind,
    set_fit (by rw [List.length_append, hlen]; rfl) hroom, List.append_assoc]
  rw [words, words, List.flatMap_append, List.flatMap_singleton]
  rfl

theorem build_eq (files : List (String × Nat)) : build files = .ok (Volume.Index.build files) := by
  have hloop := loop_take_eq (I := fun done => Bytes.fit 0 sectorSize (words done))
    Index.maxFiles (Index.sort files) fun _ f h => put_eq h f
  rw [build, ← fit_nil]
  exact (congrArg (· >>= block sectorSize) hloop).trans (block_bytes (Volume.Index.build files))

end Index

/-! ## Clusters -/

namespace Cluster

/-- The clusters of `left` places from a place on, up to the first that starts at sector zero. -/
def scan (buf : Bytes) : (left i : Nat) → Checked (List Cluster)
  | 0, _ => return []
  | left + 1, i => do
    let c := Cluster.ofBytes (← get buf (3 * i)) (← get buf (3 * i + 1)) (← get buf (3 * i + 2))
    if c.start = 0 then return [] else return c :: (← scan buf left (i + 1))

def unpack (buf : Bytes) : Checked (List Cluster) := scan buf (buf.length / 3) 0

/-- Writes the cluster that stands at a place. -/
def put (i : Nat) (c : Cluster) (buf : Bytes) : Checked Bytes := do
  let buf ← set buf (3 * i) (UInt8.ofNat c.start)
  let buf ← set buf (3 * i + 1) (UInt8.ofNat (c.start / 256 % 16 + c.last % 16 * 16))
  set buf (3 * i + 2) (UInt8.ofNat (c.last / 16))

def pack (clusters : List Cluster) : Checked (Block Cluster.listSize) := do
  let places := clusters.take Cluster.maxCount
  block Cluster.listSize (← loop places (List.replicate Cluster.listSize 0) put)

/-- Takes the sector at a place of a file into the clusters of those before it. -/
def extend (sectors : List Nat) (i s : Nat) (clusters : List Cluster) : Checked (List Cluster) :=
  match clusters.getLast? with
  | none => return clusters ++ [⟨s, i⟩]
  | some c => do
    if (← get sectors (← sub i 1)) + 1 = s then return clusters.dropLast ++ [{ c with last := i }]
    else return clusters ++ [⟨s, i⟩]

def ofSectors (sectors : List Nat) : Checked (List Cluster) := loop sectors [] (extend sectors)

theorem scan_eq {buf : Bytes} {left i : Nat} (h : buf.length / 3 = i + left) :
    scan buf left i = .ok (Volume.Cluster.unpack (buf.drop (3 * i))) := by
  induction left generalizing i with
  | zero =>
      have hshort : (buf.drop (3 * i)).length < 3 := by rw [List.length_drop]; omega
      match buf.drop (3 * i), hshort with
      | [], _ | [_], _ | [_, _], _ => rfl
  | succ left ih =>
      have h0 : 3 * i < buf.length := by omega
      have h1 : 3 * i + 1 < buf.length := by omega
      have h2 : 3 * i + 2 < buf.length := by omega
      rw [scan, get_eq (List.getElem?_eq_getElem h0), Result.ok_bind,
        get_eq (List.getElem?_eq_getElem h1), Result.ok_bind,
        get_eq (List.getElem?_eq_getElem h2), Result.ok_bind, List.drop_eq_getElem_cons h0,
        List.drop_eq_getElem_cons h1, List.drop_eq_getElem_cons h2, Volume.Cluster.unpack]
      dsimp only
      by_cases hzero : (Cluster.ofBytes buf[3 * i] buf[3 * i + 1] buf[3 * i + 2]).start = 0
      · rw [if_pos hzero, if_pos hzero]; rfl
      · rw [if_neg hzero, if_neg hzero, ih (by omega)]; rfl

theorem unpack_eq (buf : Bytes) : unpack buf = .ok (Volume.Cluster.unpack buf) :=
  scan_eq (Nat.zero_add _).symm

theorem put_eq {done : List Cluster} (h : done.length < Cluster.maxCount) (c : Cluster) :
    put done.length c (Bytes.fit 0 Cluster.listSize (done.flatMap Cluster.bytes))
      = .ok (Bytes.fit 0 Cluster.listSize ((done ++ [c]).flatMap Cluster.bytes)) := by
  have hroom : 3 * done.length + 2 < Cluster.listSize := by
    simp only [Cluster.listSize]; omega
  have hlen := Cluster.length_flatMap_bytes done
  rw [put, set_fit hlen (by omega), Result.ok_bind,
    set_fit (by rw [List.length_append, hlen]; rfl) (by omega), Result.ok_bind,
    set_fit (by rw [List.length_append, List.length_append, hlen]; rfl) hroom, List.append_assoc,
    List.append_assoc, List.flatMap_append, List.flatMap_singleton]
  rfl

theorem pack_eq (clusters : List Cluster) : pack clusters = .ok (Volume.Cluster.pack clusters) := by
  have hloop := loop_take_eq
    (I := fun done => Bytes.fit 0 Cluster.listSize (done.flatMap Cluster.bytes))
    Cluster.maxCount clusters fun _ c h => put_eq h c
  rw [pack, ← fit_nil]
  exact (congrArg (· >>= block Cluster.listSize) hloop).trans
    (block_bytes (Volume.Cluster.pack clusters))

theorem extend_eq {sectors done more : List Nat} {s : Nat} (h : sectors = done ++ s :: more) :
    extend sectors done.length s (Volume.Cluster.ofSectors done)
      = .ok (Volume.Cluster.ofSectors (done ++ [s])) := by
  rcases List.eq_nil_or_concat done with rfl | ⟨before, t, hdone⟩
  · rfl
  · rw [List.concat_eq_append] at hdone
    obtain ⟨cs, c, hold, hnew⟩ := Volume.Cluster.ofSectors_concat before t s
    have hget : sectors[before.length]? = some t := by
      rw [h, hdone, List.append_assoc, List.getElem?_append_right (Nat.le_refl _), Nat.sub_self]
      rfl
    have hlen : done.length = before.length + 1 := by rw [hdone, List.length_append]; rfl
    rw [hlen, hdone, extend, hold, List.getLast?_concat]
    dsimp only
    rw [sub_eq (Nat.le_add_left _ _), Result.ok_bind, Nat.add_sub_cancel, get_eq hget,
      Result.ok_bind, hnew, List.dropLast_concat, List.append_assoc]
    by_cases hts : t + 1 = s
    · rw [if_pos hts, if_pos hts]; rfl
    · rw [if_neg hts, if_neg hts]; rfl

theorem ofSectors_eq (sectors : List Nat) :
    ofSectors sectors = .ok (Volume.Cluster.ofSectors sectors) :=
  loop_eq (I := Volume.Cluster.ofSectors) fun _ _ _ h => extend_eq h

end Cluster

/-! ## The allocation bitmap -/

namespace Bitmap

def mark (m : Bitmap) (s : Nat) (used : Bool) : Checked Bitmap := do
  if s < m.bits.size then return ⟨(← set m.bits.toList s used).toArray⟩ else return m

/-- Marks sectors one after the other. -/
def markAll (m : Bitmap) (sectors : List Nat) (used : Bool) : Checked Bitmap :=
  sectors.foldlM (fun m s => mark m s used) m

/-- Sets the bit of a sector if that is in use. -/
def put (s : Nat) (used : Bool) (buf : Bytes) : Checked Bytes := do
  if used then set buf (s / 8) ((← get buf (s / 8)) ||| 1 <<< UInt8.ofNat (s % 8)) else return buf

def toBytes (m : Bitmap) : Checked (Block bitmapSize) := do
  block bitmapSize
    (← loop (m.bits.toList.take (bitmapSize * 8)) (List.replicate bitmapSize 0) put)

theorem mark_eq (m : Bitmap) (s : Nat) (used : Bool) : mark m s used = .ok (m.mark s used) := by
  rw [mark, Volume.Bitmap.mark]
  by_cases h : s < m.bits.size
  · rw [if_pos h, set_eq h, Result.ok_bind, ← Array.toList_setIfInBounds, Array.toArray_toList]
    rfl
  · rw [if_neg h, Array.setIfInBounds_eq_of_size_le (Nat.not_lt.1 h)]; rfl

theorem markAll_eq (m : Bitmap) (sectors : List Nat) (used : Bool) :
    markAll m sectors used = .ok (m.markAll sectors used) := by
  induction sectors generalizing m with
  | nil => rfl
  | cons s sectors ih =>
      rw [markAll, List.foldlM_cons, mark_eq, Result.ok_bind]
      exact ih _

theorem put_eq {done : List Bool} (h : done.length < bitmapSize * 8) (used : Bool) :
    put done.length used (Bytes.fit 0 bitmapSize ((Pieces.chunks 8 done).map Bitmap.byteOfBits))
      = .ok (Bytes.fit 0 bitmapSize
        ((Pieces.chunks 8 (done ++ [used])).map Bitmap.byteOfBits)) := by
  have h8 : 0 < 8 := by decide
  obtain ⟨pieces, last, hlast, hnew, hold⟩ := Pieces.chunks_concat h8 done used
  have hpieces : (pieces.map Bitmap.byteOfBits).length = done.length / 8 := by
    have := congrArg List.length hnew
    rw [Pieces.length_chunks h8, List.length_append, List.length_append, List.length_singleton,
      List.length_singleton] at this
    rw [List.length_map]; omega
  have hroom : done.length / 8 < bitmapSize := by omega
  have hless : last.length < 8 := hlast ▸ Nat.mod_lt _ h8
  -- A byte that has no bits yet is one of the zeros behind those that have.
  have hbuf : Bytes.fit 0 bitmapSize ((Pieces.chunks 8 done).map Bitmap.byteOfBits)
      = Bytes.fit 0 bitmapSize
        (pieces.map Bitmap.byteOfBits ++ [Bitmap.byteOfBits last]) := by
    rw [hold]
    by_cases hnil : last = []
    · rw [if_pos hnil, hnil]
      exact (fit_concat_pad (by rw [hpieces]; exact hroom)).symm
    · rw [if_neg hnil, List.map_append]; rfl
  rw [hbuf, hnew, List.map_append, List.map_singleton, Bitmap.byteOfBits_concat hless, put]
  cases used with
  | false => rfl
  | true =>
      rw [if_pos rfl, if_pos rfl, get_fit_last hpieces hroom, Result.ok_bind, hlast,
        set_fit_last hpieces hroom]

theorem toBytes_eq (m : Bitmap) : toBytes m = .ok m.toBytes := by
  have hloop := loop_take_eq
    (I := fun done => Bytes.fit 0 bitmapSize ((Pieces.chunks 8 done).map Bitmap.byteOfBits))
    (bitmapSize * 8) m.bits.toList fun _ used h => put_eq h used
  rw [Pieces.chunks_nil, List.map_nil, fit_nil, ← Pieces.take_chunks (by decide), List.map_take,
    Bytes.fit_take] at hloop
  rw [toBytes, hloop]
  exact block_bytes m.toBytes

end Bitmap

/-! ## Sectors of an image -/

namespace Image

def read (data : Bytes) (n : Nat) : Checked (Except ImageError Sector) := do
  if data.length / sectorSize ≤ n then return .error (.sectorAccess n)
  else return .ok (← block sectorSize (← slice data (n * sectorSize) ((n + 1) * sectorSize)))

def write (data : Bytes) (n : Nat) (sector : Bytes) : Checked (Except ImageError Bytes) := do
  if data.length / sectorSize ≤ n then return .error (.sectorAccess n)
  else if sector.length ≠ sectorSize then return .error (.bufferSize sector.length)
  else return .ok (← splice data (n * sectorSize) ((n + 1) * sectorSize) sector)

variable {img : SectorImage} {n : Nat}

theorem length_div_sectorSize (img : SectorImage) :
    img.toBytes.length / sectorSize = img.count := by
  rw [SectorImage.length_toBytes, Nat.mul_div_cancel _ (by decide)]

theorem end_le (h : n < img.count) : (n + 1) * sectorSize ≤ img.toBytes.length := by
  rw [SectorImage.length_toBytes]; exact Nat.mul_le_mul_right _ h

theorem read_eq (img : SectorImage) (n : Nat) : read img.toBytes n = .ok (img.read n) := by
  rw [read, length_div_sectorSize, SectorImage.read]
  by_cases h : n < img.count
  · have hget : img.sectors[n]? = some img.sectors[n] := Array.getElem?_eq_getElem h
    have hbytes : (img.toBytes.drop (n * sectorSize)).take sectorSize = img.sectors[n].bytes := by
      have hpiece := Pieces.getElem?_chunks (n := sectorSize) (by decide) img.toBytes n
      have hlt : n * sectorSize < img.toBytes.length := by
        rw [SectorImage.length_toBytes]; exact Nat.mul_lt_mul_of_pos_right h (by decide)
      rw [if_pos hlt, SectorImage.toBytes_eq,
        Pieces.chunks_flatten (by decide) fun _ => SectorImage.length_of_mem_bytes,
        List.getElem?_map, Array.getElem?_toList, hget] at hpiece
      exact (Option.some.inj hpiece).symm
    rw [if_neg (Nat.not_le.2 h), hget, slice_eq (Nat.mul_le_mul_right _ (Nat.le_succ n)) (end_le h),
      Result.ok_bind, Nat.succ_mul, Nat.add_sub_cancel_left, hbytes, block_bytes]
    rfl
  · rw [if_pos (Nat.not_lt.1 h), Array.getElem?_eq_none (Nat.not_lt.1 h)]; rfl

theorem toBytes_put (h : n < img.count) (s : Sector) : (img.put n s).toBytes
    = img.toBytes.take (n * sectorSize) ++ s.bytes ++ img.toBytes.drop ((n + 1) * sectorSize) := by
  rw [SectorImage.toBytes_eq, SectorImage.toBytes_eq, SectorImage.put, Array.toList_setIfInBounds,
    List.map_set, Pieces.flatten_set (fun _ => SectorImage.length_of_mem_bytes)]
  rw [List.length_map, Array.length_toList]
  exact h

theorem write_eq (img : SectorImage) (n : Nat) (sector : Bytes) :
    write img.toBytes n sector = .ok ((img.write n sector).map SectorImage.toBytes) := by
  rw [write, length_div_sectorSize, SectorImage.write]
  by_cases h : n < img.count
  · rw [if_neg (Nat.not_le.2 h), if_pos h]
    by_cases hlen : sector.length = sectorSize
    · rw [if_neg (not_not_intro hlen), dif_pos hlen,
        splice_eq (by rw [hlen, Nat.succ_mul]) (end_le h)]
      exact congrArg (Except.ok ∘ Except.ok) (toBytes_put h ⟨sector, hlen⟩).symm
    · rw [if_pos hlen, dif_neg hlen]; rfl
  · rw [if_pos (Nat.not_lt.1 h), if_neg h]; rfl

end Image

end TiBench.Checked
