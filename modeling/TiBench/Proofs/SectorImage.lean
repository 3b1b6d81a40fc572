import TiBench.Proofs.Bytes

/-!
# Laws of sector images

The bytes of an image: how many they are, which sector each belongs to, and that they make the same
image again.
-/

namespace TiBench.SectorImage

theorem read_eq {img : SectorImage} {n : Nat} (h : n < img.count) :
    img.read n = .ok (img.sectors.getD n (Block.zero sectorSize)) := by
  rw [read, Array.getD_eq_getD_getElem?, Array.getElem?_eq_getElem h]; rfl

theorem length_of_mem_bytes {ss : List Sector} {b : Bytes} (h : b ∈ ss.map Block.bytes) :
    b.length = sectorSize := by
  obtain ⟨s, -, rfl⟩ := List.mem_map.1 h
  exact s.length_eq

theorem toBytes_eq (img : SectorImage) :
    img.toBytes = (img.sectors.toList.map Block.bytes).flatten := by
  rw [toBytes, List.flatMap_def]

theorem length_toBytes (img : SectorImage) : img.toBytes.length = img.count * sectorSize := by
  rw [toBytes_eq, List.length_flatten, List.map_map]
  have hsize : List.length ∘ Block.bytes = fun _ : Sector => sectorSize :=
    funext fun s => s.length_eq
  rw [hsize, List.map_const', List.sum_replicate_nat, Array.length_toList, count]

/-- The byte at an offset lies in the sector in which that many bytes end. -/
theorem getElem?_toBytes (img : SectorImage) (i : Nat) :
    img.toBytes[i]? = (img.sectors[i / sectorSize]?).bind (·.bytes[i % sectorSize]?) := by
  rw [toBytes_eq, Pieces.getElem?_flatten (by decide) fun _ => length_of_mem_bytes,
    List.getElem?_map, Array.getElem?_toList, Option.bind_map]
  rfl

theorem ofSectors_toBytes (img : SectorImage) : ofSectors img.toBytes = img := by
  have hfit : Block.fit 0 sectorSize ∘ Block.bytes = (id : Sector → Sector) :=
    funext fun s => Block.ext (Bytes.fit_of_length_eq s.length_eq)
  rw [ofSectors, toBytes_eq, Pieces.chunks_flatten (by decide) fun _ => length_of_mem_bytes,
    List.map_map, hfit, List.map_id, Array.toArray_toList]

/-- The bytes of an image give the image again. -/
theorem ofBytes_toBytes {img : SectorImage} (h : 0 < img.count) :
    ofBytes img.toBytes = .ok img := by
  have hpos : 0 < img.count * sectorSize := Nat.mul_pos h (by decide)
  simp only [ofBytes]
  rw [length_toBytes, if_neg, ofSectors_toBytes]
  rw [Nat.mul_mod_left]
  omega

/-- An image has the bytes that it was read from. -/
theorem toBytes_of_ofBytes {data : Bytes} {img : SectorImage} (h : ofBytes data = .ok img) :
    0 < img.count ∧ img.toBytes = data := by
  simp only [ofBytes] at h
  split at h
  · cases h
  · rename_i hsize
    obtain ⟨hpos, hwhole⟩ : data.length ≠ 0 ∧ data.length % sectorSize = 0 := by omega
    have hlen : data.length = data.length / sectorSize * sectorSize := by
      rw [Nat.div_mul_cancel (Nat.dvd_of_mod_eq_zero hwhole)]
    rw [← Except.ok.inj h]
    have hbytes : (ofSectors data).toBytes = data := by
      have hfit : ((Pieces.chunks sectorSize data).map (Block.fit 0 sectorSize)).map Block.bytes
          = Pieces.chunks sectorSize data := by
        rw [List.map_map]
        refine (List.map_congr_left fun p hp => ?_).trans (List.map_id _)
        exact Bytes.fit_of_length_eq (Pieces.length_eq_of_mem_chunks (by decide) hlen hp)
      rw [toBytes_eq, ofSectors, hfit, Pieces.flatten_chunks (by decide)]
    refine ⟨Nat.pos_of_ne_zero fun h0 => hpos ?_, hbytes⟩
    rw [← hbytes, length_toBytes, h0, Nat.zero_mul]

/-- Bytes that fill a number of sectors are kept. -/
theorem ofSectors_of_length {data : Bytes} {n : Nat} (hn : 0 < n)
    (h : data.length = n * sectorSize) :
    (ofSectors data).count = n ∧ (ofSectors data).toBytes = data := by
  have hbytes : (ofSectors data).toBytes = data := by
    refine (toBytes_of_ofBytes ?_).2
    have hpos : 0 < n * sectorSize := Nat.mul_pos hn (by decide)
    simp only [ofBytes, h, Nat.mul_mod_left]
    rw [if_neg (by omega)]
  refine ⟨Nat.eq_of_mul_eq_mul_right (show 0 < sectorSize by decide) ?_, hbytes⟩
  rw [← length_toBytes, hbytes, h]

theorem resize_count (img : SectorImage) : img.resize img.count = img := by
  have htake : img.sectors.toList.take img.count = img.sectors.toList :=
    List.take_of_length_le (Nat.le_of_eq Array.length_toList)
  rw [resize, htake, Nat.sub_self, List.replicate_zero, List.append_nil, Array.toArray_toList]

end TiBench.SectorImage
