import TiBench.Proofs.Disk.Operation

/-!
# Owners of sectors

After any run of operations on a disk that passes its check, every sector has one owner at most,
and is in use if and only if it has one.
-/

namespace TiBench.Volume.Disk

variable {d : Disk}

/-- What can own a sector. Files are told by their places in the index, the data sectors of a file
by their places in it. -/
inductive Owner where
  | info
  | index
  | descriptor (file : Nat)
  | data (file place : Nat)

/-- The sector that an owner owns on a volume with these files, if it is one of its owners. -/
def Owner.sector? (fs : List Entry) : Owner → Option Nat
  | .info => some infoSector
  | .index => some indexSector
  | .descriptor file => fs[file]?.map (·.sector)
  | .data file place => fs[file]?.bind (·.file.sectors[place]?)

/-- Every sector of the volume with these files has one owner at most, and is in use if and only if
it has one. -/
structure Allocated (d : Disk) (fs : List Entry) : Prop where
  lt_total : ∀ o s, Owner.sector? fs o = some s → s < d.total
  unique : ∀ o o' s, Owner.sector? fs o = some s → Owner.sector? fs o' = some s → o = o'
  used_iff : ∀ s < d.total, d.bitmap.isUsed s = true ↔ ∃ o, Owner.sector? fs o = some s

/-- The sector at a place among those of a file: the descriptor record, then the data. -/
def sectorIn? (d : Disk) (file place : Nat) : Option Nat :=
  d.pointers[file]?.bind fun p => (d.holding p)[place]?

/-- The owner of that sector. -/
def Owner.inFile (file : Nat) : (place : Nat) → Owner
  | 0 => .descriptor file
  | place + 1 => .data file place

theorem sector?_inFile (d : Disk) (i k : Nat) :
    Owner.sector? d.files (.inFile i k) = d.sectorIn? i k := by
  rw [sectorIn?]
  cases k with
  | zero =>
      rw [Owner.inFile, Owner.sector?, files, List.getElem?_map]
      cases d.pointers[i]? <;> rfl
  | succ j =>
      rw [Owner.inFile, Owner.sector?, files, List.getElem?_map]
      cases d.pointers[i]? <;> rfl

theorem Owner.eq_inFile (o : Owner) : o = .info ∨ o = .index ∨ ∃ i k, o = .inFile i k := by
  cases o with
  | info => exact Or.inl rfl
  | index => exact Or.inr (Or.inl rfl)
  | descriptor i => exact Or.inr (Or.inr ⟨i, 0, rfl⟩)
  | data i j => exact Or.inr (Or.inr ⟨i, j + 1, rfl⟩)

theorem mem_of_sectorIn? {i k s : Nat} (h : d.sectorIn? i k = some s) :
    ∃ p, d.pointers[i]? = some p ∧ (d.holding p)[k]? = some s
      ∧ p ∈ d.pointers ∧ s ∈ d.holding p := by
  obtain ⟨p, hp, hs⟩ := Option.bind_eq_some_iff.1 h
  exact ⟨p, hp, hs, List.mem_of_getElem? hp, List.mem_of_getElem? hs⟩

namespace Consistent

theorem bounds_of_sectorIn? (hd : d.Consistent) {i k s : Nat} (h : d.sectorIn? i k = some s) :
    firstFileSector ≤ s ∧ s < d.total := by
  obtain ⟨p, -, -, hp, hs⟩ := mem_of_sectorIn? h
  exact hd.bounds hp hs

theorem sectorIn?_inj (hd : d.Consistent) {i i' k k' s : Nat} (h : d.sectorIn? i k = some s)
    (h' : d.sectorIn? i' k' = some s) : i = i' ∧ k = k' := by
  obtain ⟨p, hi, hk, hp, hs⟩ := mem_of_sectorIn? h
  obtain ⟨p', hi', hk', hp', hs'⟩ := mem_of_sectorIn? h'
  have hpp : p = p' := Classical.byContradiction fun hne => hd.disjoint hp hp' hne hs hs'
  subst hpp
  constructor
  · have hlt := (List.getElem?_eq_some_iff.1 hi).1
    exact (List.getElem?_inj hlt hd.nodup_pointers).1 (hi.trans hi'.symm)
  · have hnodup := (List.nodup_flatMap.1 hd.nodup_flatMap).1 p hp
    have hlt := (List.getElem?_eq_some_iff.1 hk).1
    exact (List.getElem?_inj hlt hnodup).1 (hk.trans hk'.symm)

end Consistent

theorem exists_owner_iff (d : Disk) (s : Nat) :
    (∃ o, Owner.sector? d.files o = some s) ↔ s ∈ d.ownedSectors := by
  rw [ownedSectors, List.mem_cons, List.mem_cons, List.mem_flatMap]
  constructor
  · rintro ⟨o, ho⟩
    rcases o.eq_inFile with rfl | rfl | ⟨i, k, rfl⟩
    · exact Or.inl (Option.some.inj ho).symm
    · exact Or.inr (Or.inl (Option.some.inj ho).symm)
    · rw [sector?_inFile] at ho
      obtain ⟨p, -, -, hp, hs⟩ := mem_of_sectorIn? ho
      exact Or.inr (Or.inr ⟨p, hp, hs⟩)
  · rintro (rfl | rfl | ⟨p, hp, hs⟩)
    · exact ⟨.info, rfl⟩
    · exact ⟨.index, rfl⟩
    · obtain ⟨i, hi⟩ := List.mem_iff_getElem?.1 hp
      obtain ⟨k, hk⟩ := List.mem_iff_getElem?.1 hs
      exact ⟨.inFile i k, by rw [sector?_inFile, sectorIn?, hi]; exact hk⟩

theorem Consistent.allocated (hd : d.Consistent) : d.Allocated d.files := by
  have hinfo {i k : Nat} : d.sectorIn? i k ≠ some infoSector := fun h =>
    absurd (hd.bounds_of_sectorIn? h).1 (by decide)
  have hindex {i k : Nat} : d.sectorIn? i k ≠ some indexSector := fun h =>
    absurd (hd.bounds_of_sectorIn? h).1 (by decide)
  refine ⟨fun o s ho => ?_, fun o o' s ho ho' => ?_, fun s hs => ?_⟩
  · exact hd.lt_total s ((d.exists_owner_iff s).1 ⟨o, ho⟩)
  · rcases o.eq_inFile with rfl | rfl | ⟨i, k, rfl⟩
    · obtain rfl := Option.some.inj ho
      rcases o'.eq_inFile with rfl | rfl | ⟨i', k', rfl⟩
      · rfl
      · exact absurd (Option.some.inj ho') (by decide)
      · exact absurd (sector?_inFile d i' k' ▸ ho') hinfo
    · obtain rfl := Option.some.inj ho
      rcases o'.eq_inFile with rfl | rfl | ⟨i', k', rfl⟩
      · exact absurd (Option.some.inj ho') (by decide)
      · rfl
      · exact absurd (sector?_inFile d i' k' ▸ ho') hindex
    · rw [sector?_inFile] at ho
      rcases o'.eq_inFile with rfl | rfl | ⟨i', k', rfl⟩
      · exact absurd (Option.some.inj ho' ▸ ho) hinfo
      · exact absurd (Option.some.inj ho' ▸ ho) hindex
      · rw [sector?_inFile] at ho'
        obtain ⟨rfl, rfl⟩ := hd.sectorIn?_inj ho ho'
        rfl
  · rw [d.exists_owner_iff]
    exact hd.used_iff s hs

/-- A blank disk passes its check, and so does every disk that operations make of one that passes
it, each sector then having one owner at most, and being in use if and only if it has one. -/
theorem check_run :
    (∀ clock name sectors sides density d, init clock name sectors sides density = .ok d →
      d.check = .ok [])
    ∧ ∀ d : Disk, d.check = .ok [] →
      (∀ op, (d.apply op).disk.check = .ok [])
      ∧ ∀ ops, (d.run ops).check = .ok []
        ∧ ∃ fs, (d.run ops).entries = .ok fs ∧ (d.run ops).Allocated fs := by
  refine ⟨fun _ _ _ _ _ _ h => check_eq_nil_iff.2 (consistent_init h).1, fun d h => ?_⟩
  have hd := check_eq_nil_iff.1 h
  refine ⟨fun op => check_eq_nil_iff.2 (hd.apply op), fun ops => ?_⟩
  have hrun := hd.run ops
  exact ⟨check_eq_nil_iff.2 hrun, (d.run ops).files, hrun.entries_eq, hrun.allocated⟩

theorem check_run_blank : ∃ d, init .usual "WORK" 40 1 1 = .ok d ∧ d.check = .ok []
    ∧ (d.run [.add "A" [0x61] .program, .rename "A" "B", .delete "B"]).check = .ok [] := by
  obtain ⟨d, hd, -⟩ : ∃ d, init .usual "WORK" 40 1 1 = .ok d ∧ true = true :=
    Result.exists_ok_of_any (by decide +kernel)
  have hcheck := check_run.1 _ _ _ _ _ _ hd
  exact ⟨d, hd, hcheck, ((check_run.2 d hcheck).2 _).1⟩

end TiBench.Volume.Disk
