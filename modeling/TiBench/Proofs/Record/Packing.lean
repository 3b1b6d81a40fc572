import Mathlib.Algebra.GroupWithZero.Nat
import TiBench.Proofs.Record

/-!
# Packing records of varying length

Each sector takes as many records as fit before the next one begins. The sectors are laid out as the
format has them, and no other way to share out the records takes fewer of them.
-/

namespace TiBench.Record.Variable

variable {records rs : List Bytes}

/-! ## Filling sectors -/

/-- The records of each sector, the first one already holding `current`. -/
def fill (current : List Bytes) : List Bytes → List (List Bytes)
  | [] => [current]
  | r :: rs =>
    if size current + r.length + 2 ≤ sectorSize then fill (current ++ [r]) rs
    else current :: fill [r] rs

theorem Packing.groups_foldl {p : Packing} (hne : p.current ≠ [])
    (hused : p.used = size p.current.reverse) (rs : List Bytes) :
    (rs.foldl Packing.push p).groups = p.full.reverse ++ fill p.current.reverse rs := by
  induction rs generalizing p with
  | nil => simp [Packing.groups, fill, hne]
  | cons r rs ih =>
      rw [List.foldl_cons, fill, ← hused]
      by_cases hroom : p.used + r.length + 2 ≤ sectorSize
      · have hpush : p.push r = ⟨p.full, r :: p.current, p.used + r.length + 1⟩ := if_pos hroom
        rw [hpush, if_pos hroom, ih (List.cons_ne_nil _ _), List.reverse_cons]
        rw [List.reverse_cons, size_append, size_singleton, hused, Nat.add_assoc]
      · have hpush : p.push r = ⟨p.current.reverse :: p.full, [r], r.length + 1⟩ := if_neg hroom
        rw [hpush, if_neg hroom, ih (List.cons_ne_nil _ _), List.reverse_cons, List.append_assoc]
        · rfl
        · exact (size_singleton r).symm

theorem fill_nil_cons {r : Bytes} (h : r.length ≤ maxLength) (rs : List Bytes) :
    fill [] (r :: rs) = fill [r] rs := by
  have hroom : size [] + r.length + 2 ≤ sectorSize := by
    rw [maxLength] at h
    rw [size, List.flatMap_nil, List.length_nil, sectorSize]
    omega
  rw [fill, if_pos hroom, List.nil_append]

theorem groups_eq_fill (h : ∀ r ∈ records, r.length ≤ maxLength) (hne : records ≠ []) :
    groups records = fill [] records := by
  obtain ⟨r, rs, rfl⟩ := List.exists_cons_of_ne_nil hne
  have hr := h r List.mem_cons_self
  have hpush : Packing.empty.push r = ⟨[], [r], 0 + r.length + 1⟩ := by
    refine if_pos ?_
    rw [maxLength] at hr
    simp only [Packing.empty, sectorSize]
    omega
  rw [groups, List.foldl_cons, hpush, Packing.groups_foldl (List.cons_ne_nil _ _), fill_nil_cons hr]
  · rfl
  · rw [List.reverse_singleton, size_singleton, Nat.zero_add]

theorem ne_nil_of_mem_fill {current : List Bytes} (hne : current ≠ []) {g : List Bytes}
    (hg : g ∈ fill current rs) : g ≠ [] := by
  induction rs generalizing current with
  | nil => exact List.mem_singleton.1 hg ▸ hne
  | cons r rs ih =>
      rw [fill] at hg
      split at hg
      · exact ih (List.append_ne_nil_of_right_ne_nil _ (List.cons_ne_nil r [])) hg
      · rcases List.mem_cons.1 hg with rfl | hg
        · exact hne
        · exact ih (List.cons_ne_nil r []) hg

theorem ne_nil_of_mem_groups (h : ∀ r ∈ records, r.length ≤ maxLength) {g : List Bytes}
    (hg : g ∈ groups records) : g ≠ [] := by
  cases records with
  | nil => cases hg
  | cons r rs =>
      rw [groups_eq_fill h (List.cons_ne_nil _ _), fill_nil_cons (h r List.mem_cons_self)] at hg
      exact ne_nil_of_mem_fill (List.cons_ne_nil _ _) hg

/-! ## Fewest sectors -/

/-- A sector that holds more needs no fewer sectors after it, and one more at most. -/
theorem length_fill_le {a b : List Bytes} (h : size a ≤ size b) (rs : List Bytes) :
    (fill a rs).length ≤ (fill b rs).length ∧ (fill b rs).length ≤ (fill a rs).length + 1 := by
  induction rs generalizing a b with
  | nil => exact ⟨Nat.le_refl _, Nat.le_succ _⟩
  | cons r rs ih =>
      have hboth : size (a ++ [r]) ≤ size (b ++ [r]) := by
        rw [size_append, size_append]
        exact Nat.add_le_add_right h _
      have hfresh : size [r] ≤ size (a ++ [r]) := by
        rw [size_append]
        exact Nat.le_add_left _ _
      rw [fill, fill]
      by_cases ha : size a + r.length + 2 ≤ sectorSize
      · rw [if_pos ha]
        by_cases hb : size b + r.length + 2 ≤ sectorSize
        · rw [if_pos hb]
          exact ih hboth
        · -- Only the fuller sector ends here. The other one goes on with `r` behind its records.
          rw [if_neg hb, List.length_cons]
          exact ⟨(ih hfresh).2, Nat.succ_le_succ (ih hfresh).1⟩
      · rw [if_neg ha, if_neg (by omega), List.length_cons, List.length_cons]
        exact ⟨Nat.le_refl _, Nat.le_succ _⟩

/-- Records that fit go into the sector. -/
theorem fill_append {current g : List Bytes} (h : size (current ++ g) < sectorSize)
    (rs : List Bytes) : fill current (g ++ rs) = fill (current ++ g) rs := by
  induction g generalizing current with
  | nil => rw [List.nil_append, List.append_nil]
  | cons r g ih =>
      rw [List.append_cons] at h
      have hroom : size current + r.length + 2 ≤ sectorSize := by
        rw [size_append, size_append, size_singleton] at h
        omega
      rw [List.cons_append, fill, if_pos hroom, ih h, ← List.append_cons]

theorem fill_nil_append {g : List Bytes} (h : size g < sectorSize) (rs : List Bytes) :
    fill [] (g ++ rs) = fill g rs := by
  rw [← List.nil_append g] at h
  rw [fill_append h, List.nil_append]

/-- Behind a sector that holds any records, filling begins no more sectors than there are groups. -/
theorem length_fill_flatten_le {cut : List (List Bytes)} (h : ∀ g ∈ cut, size g < sectorSize)
    (current : List Bytes) : (fill current cut.flatten).length ≤ cut.length + 1 := by
  induction cut generalizing current with
  | nil => exact Nat.le_refl _
  | cons g cut ih =>
      have hrest := ih (fun f hf => h f (List.mem_cons_of_mem _ hf)) g
      have hempty : size [] ≤ size current := Nat.zero_le _
      calc (fill current (g :: cut).flatten).length
          ≤ (fill [] (g :: cut).flatten).length + 1 := (length_fill_le hempty _).2
        _ = (fill g cut.flatten).length + 1 := by
            rw [List.flatten_cons, fill_nil_append (h g List.mem_cons_self)]
        _ ≤ (g :: cut).length + 1 := Nat.succ_le_succ hrest

theorem length_groups_le {cut : List (List Bytes)} (h : ∀ g ∈ cut, size g < sectorSize)
    (hlengths : ∀ r ∈ cut.flatten, r.length ≤ maxLength) :
    (groups cut.flatten).length ≤ cut.length := by
  cases cut with
  | nil => exact Nat.le_refl _
  | cons g cut =>
      by_cases hnil : (g :: cut).flatten = []
      · rw [hnil]
        exact Nat.zero_le _
      · rw [groups_eq_fill hlengths hnil, List.flatten_cons,
          fill_nil_append (h g List.mem_cons_self)]
        exact length_fill_flatten_le (fun f hf => h f (List.mem_cons_of_mem _ hf)) g

/-! ## Laid out sectors -/

/-- The bytes are the records one behind the other, each after its length, then the end byte at the
offset `stop`, then zeros. -/
inductive Layout : Bytes → List Bytes → Nat → Prop
  | stop (k : Nat) : Layout (endByte :: List.replicate k 0) [] 0
  | record {b : UInt8} {r rest : Bytes} {rs : List Bytes} {stop : Nat} (hlen : b.toNat = r.length)
      (hb : b ≠ endByte) (hrest : Layout rest rs stop) :
      Layout (b :: (r ++ rest)) (r :: rs) (r.length + 1 + stop)

theorem Layout.flatMap_entry {g : List Bytes} (h : ∀ r ∈ g, r.length ≤ maxLength) {rest : Bytes}
    {stop : Nat} (hrest : Layout rest rs stop) :
    Layout (g.flatMap entry ++ rest) (g ++ rs) (size g + stop) := by
  induction g with
  | nil => rw [size, List.flatMap_nil, List.length_nil, Nat.zero_add]; exact hrest
  | cons r g ih =>
      have hr := h r List.mem_cons_self
      rw [List.flatMap_cons, List.append_assoc, ← List.singleton_append, size_append,
        size_singleton, Nat.add_assoc]
      exact .record (toNat_lengthByte hr) (lengthByte_ne_endByte hr)
        (ih fun s hs => h s (List.mem_cons_of_mem _ hs))

theorem layout_sector {g : List Bytes} (h : ∀ r ∈ g, r.length ≤ maxLength)
    (hsize : size g < sectorSize) : Layout (sector g).bytes g (size g) := by
  have hlayout := Layout.flatMap_entry h (.stop (sectorSize - (size g + 1)))
  rwa [List.append_nil, Nat.add_zero, ← bytes_sector hsize] at hlayout

/-! ## The packing -/

theorem size_eq_sum (g : List Bytes) : size g = (g.map fun r => r.length + 1).sum := by
  rw [size, List.length_flatMap]
  rfl

theorem encode_min (max : Nat) (records : List Bytes) :
    encode (min max maxLength) records = encode max records := by
  rw [encode, Nat.min_assoc, Nat.min_self, encode]

/-- The records in groups that each leave room for the end byte of a sector. -/
structure Cuts (records : List Bytes) (cut : List (List Bytes)) : Prop where
  flatten_eq : cut.flatten = records
  sum_le : ∀ g ∈ cut, (g.map fun r => r.length + 1).sum ≤ 255

theorem cuts_iff {cut : List (List Bytes)} :
    Cuts records cut ↔ cut.flatten = records ∧ ∀ g ∈ cut, size g < sectorSize := by
  constructor
  · rintro ⟨hflat, hsum⟩
    exact ⟨hflat, fun g hg => Nat.lt_succ_of_le (size_eq_sum g ▸ hsum g hg)⟩
  · rintro ⟨hflat, hsize⟩
    exact ⟨hflat, fun g hg => size_eq_sum g ▸ Nat.le_of_lt_succ (hsize g hg)⟩

theorem exists_encode_iff {max : Nat} : (∃ e, encode max records = .ok e)
    ↔ (∀ r ∈ records, r.length ≤ max ∧ r.length ≤ 254)
      ∧ ∃ cut, Cuts records cut ∧ cut.length ≤ 65535 := by
  have hmin : ∀ r : Bytes, r.length ≤ min max maxLength ↔ r.length ≤ max ∧ r.length ≤ 254 :=
    fun _ => Nat.le_min
  rw [← encode_min]
  simp only [encode_eq_ok (Nat.min_le_right max maxLength), hmin]
  constructor
  · rintro ⟨e, hlengths, hcount, -⟩
    exact ⟨hlengths, groups records, cuts_iff.2 (groups_spec fun r hr => (hlengths r hr).2),
      Nat.le_of_lt_succ hcount⟩
  · rintro ⟨hlengths, cut, hcut, hcount⟩
    obtain ⟨rfl, hsize⟩ := cuts_iff.1 hcut
    have hfewest := length_groups_le hsize fun r hr => (hlengths r hr).2
    exact ⟨_, hlengths, Nat.lt_succ_of_le (Nat.le_trans hfewest hcount), rfl⟩

/-- Sectors laid out with records, at least one in each, with what a descriptor says of them. -/
structure Packs (records : List Bytes) (e : Encoded) : Prop where
  layout : ∃ parts : List (List Bytes × Nat), (parts.map Prod.fst).flatten = records
    ∧ List.Forall₂ (fun s p => s.bytes.length = 256 ∧ p.1 ≠ [] ∧ Layout s.bytes p.1 p.2)
      e.sectors parts
    ∧ e.eof.toNat = (parts.getLast?.map Prod.snd).getD 0
  count_eq : e.count.toNat = e.sectors.length
  fewest : ∀ cut, Cuts records cut → e.sectors.length ≤ cut.length

theorem packs_of_encode {max : Nat} {e : Encoded} (h : encode max records = .ok e) :
    Packs records e := by
  rw [← encode_min] at h
  obtain ⟨hlengths, hcount, rfl⟩ := (encode_eq_ok (Nat.min_le_right _ _)).1 h
  have hmax : ∀ r ∈ records, r.length ≤ maxLength := fun r hr =>
    Nat.le_trans (hlengths r hr) (Nat.min_le_right _ _)
  obtain ⟨hflat, hsize⟩ := groups_spec hmax
  have hparts : ((groups records).map fun g => (g, size g)).map Prod.fst = groups records := by
    rw [List.map_map]
    exact List.map_id _
  refine ⟨⟨(groups records).map fun g => (g, size g), by rw [hparts, hflat], ?_, ?_⟩, ?_,
    fun cut hcut => ?_⟩
  · rw [List.forall₂_map_left_iff, List.forall₂_map_right_iff, List.forall₂_same]
    refine fun g hg => ⟨(sector g).length_eq, ne_nil_of_mem_groups hmax hg,
      layout_sector (fun r hr => hmax r ?_) (hsize g hg)⟩
    exact hflat ▸ List.mem_flatten_of_mem hg hr
  · rw [List.getLast?_map, Option.map_map]
    cases hlast : (groups records).getLast? with
    | none => rfl
    | some g => exact UInt8.toNat_ofNat_of_lt' (hsize g (List.mem_of_getLast? hlast))
  · rw [List.length_map]
    exact UInt16.toNat_ofNat_of_lt' hcount
  · obtain ⟨rfl, hcutsize⟩ := cuts_iff.1 hcut
    rw [List.length_map]
    exact length_groups_le hcutsize hmax

/-- Under any maximum, records are refused only if one is too long or no cut of them into groups is
short enough. Otherwise they are packed into laid out sectors, and into as few as there can be. -/
theorem encode_fewest_sectors (max : Nat) (records : List Bytes) :
    ((∃ e, encode max records = .ok e) ↔ (∀ r ∈ records, r.length ≤ max ∧ r.length ≤ 254)
      ∧ ∃ cut, Cuts records cut ∧ cut.length ≤ 65535)
    ∧ ∀ e, encode max records = .ok e → Packs records e :=
  ⟨exists_encode_iff, fun _ => packs_of_encode⟩

/-- Two records that fill a sector but for its end byte, and an empty one that needs another. -/
theorem encode_fewest_sectors_full :
    ∃ e, encode 300 [List.replicate 126 0x41, List.replicate 127 0xff, []] = .ok e
      ∧ e.sectors.length = 2 ∧ e.eof = 1
      ∧ ∀ cut, Cuts [List.replicate 126 0x41, List.replicate 127 0xff, []] cut
        → 2 ≤ cut.length := by
  obtain ⟨e, he, hresult⟩ : ∃ e,
      encode 300 [List.replicate 126 0x41, List.replicate 127 0xff, []] = .ok e
        ∧ (e.sectors.length == 2 && e.eof == 1) = true :=
    Result.exists_ok_of_any (by decide +kernel)
  simp only [Bool.and_eq_true, beq_iff_eq] at hresult
  have hpacks := (encode_fewest_sectors 300 _).2 e he
  exact ⟨e, he, hresult.1, hresult.2, fun cut hcut => hresult.1 ▸ hpacks.fewest cut hcut⟩

end TiBench.Record.Variable
