import TiBench.Proofs.Disk.Rows

/-!
# Free space

How many sectors the operations take and give back, where a new file goes, and when there is no room
for it.
-/

namespace TiBench.Volume.Disk

open scoped List

variable {d d' : Disk}

/-! ## Counting free sectors -/

theorem freeSectors_add_of_perm (hd : d.Consistent) (hd' : d'.Consistent)
    (htotal : d'.total = d.total) {l : List Nat} (h : d'.ownedSectors ~ l ++ d.ownedSectors) :
    d'.freeSectors + l.length = d.freeSectors := by
  have hlen := h.length_eq
  rw [List.length_append, ← usedSectors_eq_length hd, ← usedSectors_eq_length hd'] at hlen
  have hsum := d.used_add_free
  have hsum' := d'.used_add_free
  omega

/-- A file that was added is where the free sectors say, and they are fewer by what it owns. -/
theorem adding_first_fit (hd : d.Consistent) {name : String} {f : FileFormat} {c : Contents}
    (h : (d.adding name f (.ok c)).error? = none) :
    ∃ e, (d.adding name f (.ok c)).disk.find name = .ok e
      ∧ d.freeList.head? = some e.sector ∧ e.file.sectors = d.firstFit c.sectors.length
      ∧ (d.adding name f (.ok c)).disk.freeSectors + (c.sectors.length + 1) = d.freeSectors := by
  have hd' := hd.adding name f (.ok c)
  obtain ⟨contents, field, p, hc, hname, hnew, hplace, hsectors, hadded⟩ := adding_added hd h
  obtain rfl := Except.ok.inj hc
  have hp := fits_of_place? hplace
  obtain ⟨hfirst, hdata⟩ := firstFit_of_place? hplace
  have hfile : (d.newDescriptor field f c p.data).fileName = name := unpackName_of_packName hname
  have hfind := (hadded.exchanges hd hp).find_new hd' fun e he heq => hnew e he (heq.trans hfile)
  have hfree := freeSectors_add_of_perm hd hd' hadded.total_eq (hadded.owned_perm hd hp hsectors)
  rw [hfile] at hfind
  rw [List.length_cons, hp.length_data] at hfree
  exact ⟨_, hfind, hfirst, hsectors.trans hdata, hfree⟩

theorem freeSectors_delete (hd : d.Consistent) {name : String}
    (h : (d.delete name).error? = none) : ∃ e, d.find name = .ok e
      ∧ (d.delete name).disk.freeSectors = d.freeSectors + (1 + e.file.sectors.length) := by
  obtain ⟨e, he, -, hremoved⟩ := delete_removed hd h
  have hholds : (d.holding e.sector).length = e.file.sectors.length + 1 := by
    rw [holding, ← congrArg Entry.file (entryAt_of_find he).2]
    rfl
  have hfree := freeSectors_add_of_perm (hremoved.consistent hd) hd hremoved.total_eq.symm
    (hremoved.owned_perm hd)
  rw [hholds] at hfree
  exact ⟨e, he, by omega⟩

/-! ## Operations that add files -/

/-- The operation adds a file of that name, which its content makes so many data sectors long. -/
inductive Stores : Operation → String → Nat → Prop where
  | add {name : String} {data : Bytes} {f : FileFormat} {c : Contents}
    (h : contentsOf f data = .ok c) : Stores (.add name data f) name c.sectors.length
  | addRecords {name : String} {records : List Bytes} {f : FileFormat} {e : Record.Encoded}
    (h : f.encode records = .ok e) : Stores (.addRecords name records f) name e.sectors.length
  | addSpecial (name : String) (raw : Bytes) (f : FileFormat) (count : UInt16) :
    Stores (.addSpecial name raw f count) name (sectorsOf raw).length

theorem Stores.apply_eq {op : Operation} {name : String} {n : Nat} (h : Stores op name n) :
    ∃ f c, c.sectors.length = n ∧ ∀ d : Disk, d.apply op = d.adding name f (.ok c) := by
  cases h with
  | @add _ _ f c hc =>
      refine ⟨f, c, rfl, fun d => ?_⟩
      rw [Disk.apply, add_eq, hc]
  | @addRecords _ _ f e he =>
      refine ⟨f, ⟨e.sectors, e.eof, e.count, 0⟩, rfl, fun d => ?_⟩
      rw [Disk.apply, addRecords_eq, contentsOfRecords_eq_ok.2 ⟨e, he, rfl⟩]
  | addSpecial _ raw f count =>
      exact ⟨f, ⟨sectorsOf raw, eofOf raw, count, 0⟩, rfl, fun d => addSpecial_eq name raw f count⟩

/-! ## Room for files -/

/-- On a disk that passes its check, a file of a new name is added if there are free sectors enough
and its data, placed first fit, make at most 76 runs of neighbours. It is placed so, and takes these
sectors and one for its descriptor record, which deleting gives back. After any operations on a
blank disk, the sectors in use are those of the catalog's rows and the two that describe the
volume. -/
theorem space_accounted :
    (∀ d : Disk, d.check = .ok [] → ∀ files, d.entries = .ok files → files.length < 127 →
      ∀ op name n, Stores op name n → packName name ≠ none →
        (∀ e ∈ files, e.file.fileName ≠ name) →
        (d.apply op).error? = (if n + 1 ≤ d.freeList.length
            ∧ ((d.firstFit n).splitBy fun a b => a + 1 == b).length ≤ 76 then none
          else some .diskFull)
        ∧ ((d.apply op).error? = none → ∃ e, (d.apply op).disk.find name = .ok e
          ∧ d.freeList.head? = some e.sector ∧ e.file.sectors = d.firstFit n
          ∧ (d.apply op).disk.freeSectors + (n + 1) = d.freeSectors))
    ∧ (∀ d : Disk, d.check = .ok [] → ∀ name, (d.delete name).error? = none →
      ∃ e, d.find name = .ok e
        ∧ (d.delete name).disk.freeSectors = d.freeSectors + (1 + e.file.sectors.length))
    ∧ ∀ clock name sectors sides density d, init clock name sectors sides density = .ok d →
      ∀ ops, ∃ rows, (d.run ops).list = .ok rows
        ∧ (d.run ops).usedSectors = 2 + (rows.map (·.sectors)).sum := by
  refine ⟨fun d hcheck files hfiles hlen op name n hstores hpack hnew => ?_,
    fun d hcheck name => freeSectors_delete (check_eq_nil_iff.1 hcheck),
    fun clock name sectors sides density d h ops => ?_⟩
  · have hd := check_eq_nil_iff.1 hcheck
    obtain ⟨-, rfl⟩ := entries_eq_ok.1 hfiles
    obtain ⟨f, c, rfl, hop⟩ := hstores.apply_eq
    have hlen' : d.names.length < Index.maxFiles := by
      rw [names, List.length_map]
      exact hlen
    have hmem : name ∉ d.names := by
      rw [mem_names]
      rintro ⟨e, he, heq⟩
      exact hnew e he heq
    rw [hop]
    refine ⟨?_, adding_first_fit hd⟩
    rw [error?_adding hd]
    dsimp only
    rw [if_neg hpack, if_neg hmem, roomError?_eq hlen']
    rfl
  · have hd := clean_init h
    have hrun := (hd.run ops).1
    exact ⟨_, list_eq hrun, ((Ledger.tells_init h).run hd ops).usedSectors_eq hrun⟩

/-- A program of three sectors on a small blank disk, the data area of which has two. -/
theorem space_accounted_small : ∃ d, init .usual "WORK" 36 1 1 = .ok d
    ∧ (d.add "A" (List.replicate 600 7) .program).error? = none
    ∧ ∃ e, (d.add "A" (List.replicate 600 7) .program).disk.find "A" = .ok e
      ∧ e.sector = 2 ∧ e.file.sectors = [34, 35, 3]
      ∧ (d.add "A" (List.replicate 600 7) .program).disk.freeSectors + 4 = d.freeSectors := by
  obtain ⟨d, hd, hfree⟩ : ∃ d, init .usual "WORK" 36 1 1 = .ok d
      ∧ (d.freeList == List.range' 2 34) = true :=
    Result.exists_ok_of_any (by decide +kernel)
  obtain ⟨hcons, hnone⟩ := consistent_init hd
  have hlist : d.freeList = List.range' 2 34 := eq_of_beq hfree
  have hfit : d.firstFit 3 = [34, 35, 3] := by
    rw [firstFit, hlist]
    decide
  have hstores : Stores (.add "A" (List.replicate 600 7) .program) "A" 3 := by
    have hlen : (sectorsOf (List.replicate 600 7)).length = 3 := by
      rw [length_sectorsOf, List.length_replicate]
      rfl
    rw [← hlen]
    exact .add (c := ⟨sectorsOf (List.replicate 600 7), eofOf (List.replicate 600 7), 0, 0⟩) rfl
  have hentries : d.entries = .ok [] := hnone ▸ hcons.entries_eq
  obtain ⟨herror, hplaced⟩ := space_accounted.1 d (check_eq_nil_iff.2 hcons) [] hentries
    (by decide) _ "A" 3 hstores (by decide +kernel) fun _ he => absurd he List.not_mem_nil
  rw [hlist, hfit, if_pos (by decide)] at herror
  obtain ⟨e, hfind, hsector, hsectors, hcount⟩ := hplaced herror
  rw [hlist] at hsector
  exact ⟨d, hd, herror, e, hfind, (Option.some.inj hsector).symm, hsectors.trans hfit, hcount⟩

end TiBench.Volume.Disk
