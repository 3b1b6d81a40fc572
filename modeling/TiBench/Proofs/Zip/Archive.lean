import Mathlib.Data.List.Nodup
import TiBench.Zip.Archive
import TiBench.Proofs.Zip.Directory

/-!
# Archives read back

An archive that was written gives back the names and the contents of its entries, whatever bytes
the contents consist of: of the marks of an end record the last one with room for a record counts,
and the directory starts where that record says.
-/

namespace TiBench.Zip

/-- The archive gives back exactly these entries. -/
structure Archive.Gives (a : Archive) (sources : List Source) : Prop where
  found : ∀ e ∈ sources, ∃ x, a.find? e.name = some x ∧ a.content x = .ok e.data
  missing : ∀ name ∉ sources.map Source.name, a.find? name = none

/-- The bytes are an archive that gives back exactly these entries. -/
def GivesBack (bytes : Bytes) (sources : List Source) : Prop :=
  ∃ a, Archive.read? bytes = some a ∧ a.Gives sources

/-- The numbers that an archive of these entries holds fit into their fields. -/
structure Fits (sources : List Source) : Prop where
  names : ∀ e ∈ sources, (Text.utf8 e.name).length < 256 ^ 2
  /-- The greatest number says that there is a wide record. -/
  count : sources.length < 0xffff
  body : (sources.flatMap Source.localPart).length < 0xffffffff

/-! ## Contents -/

theorem content_entryAt {a : Archive} {e : Source} {start : Nat} {rest : Bytes}
    (hname : (Text.utf8 e.name).length < 256 ^ 2)
    (hbytes : a.bytes.drop start = e.localPart ++ rest) :
    a.content (e.entryAt start) = .ok e.data := by
  have htake : (e.localPart ++ rest).take 4 = entryMark := by
    simp only [Source.localPart, List.append_assoc]
    exact List.take_left' length_entryMark
  have hfield := number?_little hname
  have hnumbers : number? (e.localPart ++ rest) 26 2 = some (Text.utf8 e.name).length
      ∧ number? (e.localPart ++ rest) 28 2 = some 0 := by
    simp only [Source.localPart, Source.summary, List.append_assoc, number?_append,
      length_entryMark, length_little, Nat.reduceLeDiff, Nat.reduceSub, number?_zero, hfield,
      and_self]
  have hdrop : (e.localPart ++ rest).drop (30 + (Text.utf8 e.name).length) = e.data ++ rest := by
    rw [Source.localPart, List.append_assoc]
    exact List.drop_left' (by
      simp only [List.length_append, length_entryMark, Source.length_summary])
  have hstored : a.stored (e.entryAt start) = .ok e.data := by
    simp only [Archive.stored, Source.entryAt, hbytes, headerSize?, htake, hnumbers.1, hnumbers.2]
    simp [guard, hdrop]
  simp only [Archive.content, hstored]
  simp [Source.entryAt, bind, Except.bind, pure, Except.pure]

/-! ## The end record -/

/-- The end record that is written. -/
def endPart (count size offset : Nat) : Bytes :=
  endMark ++ little 2 0 ++ little 2 0 ++ little 2 count ++ little 2 count ++ little 4 size
    ++ little 4 offset ++ little 2 0

theorem length_endPart (count size offset : Nat) : (endPart count size offset).length = 22 := by
  simp only [endPart, List.length_append, length_little, length_endMark]

variable {count size offset : Nat}

theorem EndRecord.read?_endPart (hcount : count < 256 ^ 2) (hoffset : offset < 256 ^ 4)
    (size : Nat) (front : Bytes) : EndRecord.read? (front ++ endPart count size offset) front.length
      = some ⟨front.length, 0, 0, count, count, offset⟩ := by
  have hlast : number? (little 2 0) 0 2 = some 0 := rfl
  have hcount := number?_little hcount
  have hoffset := number?_little hoffset
  have hnumbers : number? (endPart count size offset) 20 2 = some 0
      ∧ number? (endPart count size offset) 4 2 = some 0
      ∧ number? (endPart count size offset) 6 2 = some 0
      ∧ number? (endPart count size offset) 8 2 = some count
      ∧ number? (endPart count size offset) 10 2 = some count
      ∧ number? (endPart count size offset) 16 4 = some offset := by
    simp only [endPart, List.append_assoc, number?_append, length_endMark, length_little,
      Nat.reduceLeDiff, Nat.reduceSub, number?_zero, hcount, hoffset, hlast, and_self]
  obtain ⟨h₁, h₂, h₃, h₄, h₅, h₆⟩ := hnumbers
  simp only [read?, List.drop_left, h₁, h₂, h₃, h₄, h₅, h₆, length_endPart]
  rfl

/-- There is no room for a record after the start of the last one. -/
theorem EndRecord.read?_eq_none {bytes : Bytes} {place : Nat} (h : bytes.length < place + 22) :
    EndRecord.read? bytes place = none := by
  have hnone : number? (bytes.drop place) 20 2 = none :=
    number?_eq_none (by rw [List.length_drop]; omega)
  rw [read?, hnone]
  rfl

/-- The places of the mark of an end record, the last one that counts first. -/
theorem places_endMark (count size offset : Nat) (front : Bytes) : ∃ before after,
    places endMark 0 (front ++ endPart count size offset) = before ++ front.length :: after
      ∧ ∀ i ∈ after, front.length < i := by
  obtain ⟨before, hbefore⟩ := places_append endMark 0 front (endPart count size offset)
  obtain ⟨after, hafter, hlt⟩ := places_mark_append (m := endMark) (by decide) front.length
    (little 2 0 ++ (little 2 0 ++ (little 2 count ++ (little 2 count ++ (little 4 size
      ++ (little 4 offset ++ little 2 0))))))
  refine ⟨before, after, ?_, hlt⟩
  rw [hbefore, Nat.zero_add, ← hafter]
  simp only [endPart, List.append_assoc]

variable {sources : List Source}

theorem write?_eq_some_iff {bytes : Bytes} : write? sources = some bytes
    ↔ (sources.map Source.name).Nodup ∧ sources.flatMap Source.localPart ++ directory 0 sources
      ++ endPart sources.length (directory 0 sources).length
        (sources.flatMap Source.localPart).length = bytes := by
  rw [write?]
  split
  case isTrue h => simp [h, endPart]
  case isFalse h => simp [h]

theorem head?_placesWithin_directory (body after : Bytes) (offset : Nat) (e : Source)
    (more : List Source) :
    let listing := directory offset (e :: more)
    (placesWithin listedMark body.length (body ++ listing).length
      (body ++ listing ++ after)).head? = some body.length := by
  intro listing
  obtain ⟨rest, hrest⟩ : ∃ rest, listing = listedMark ++ rest := by
    simp only [listing, directory, Source.directoryPart, List.append_assoc]
    exact ⟨_, rfl⟩
  obtain ⟨places, hplaces, -⟩ := places_mark_append (m := listedMark) (by decide) body.length rest
  rw [placesWithin, List.take_left, List.drop_left, hrest, hplaces, List.head?_cons]

theorem extent?_endPart (hfits : Fits sources) (size : Nat) :
    let body := sources.flatMap Source.localPart
    let listing := directory 0 sources
    EndRecord.extent? (body ++ listing ++ endPart sources.length size body.length)
      ⟨(body ++ listing).length, 0, 0, sources.length, sources.length, body.length⟩
        = some ⟨0, body.length, sources.length⟩ := by
  intro body listing
  have hcount := hfits.count
  have hbody : body.length < 0xffffffff := hfits.body
  rw [EndRecord.extent?, EndRecord.locator?, if_neg (by dsimp only; omega)]
  dsimp only [EndRecord.shortExtent?]
  cases sources with
  | nil => rfl
  | cons e more =>
      rw [head?_placesWithin_directory body _ 0 e more]
      simp [guard]

/-- The directory is found and all that it lists is read. -/
theorem read?_write? (hfits : Fits sources) {bytes : Bytes} (hwrite : write? sources = some bytes) :
    Archive.read? bytes = some ⟨bytes, entriesAt 0 sources⟩ := by
  obtain ⟨-, hbytes⟩ := write?_eq_some_iff.1 hwrite
  have hcount := hfits.count
  have hbody := hfits.body
  have hextent := extent?_endPart hfits (directory 0 sources).length
  dsimp only at hextent
  generalize hlisting : directory 0 sources = listing at hbytes hextent
  generalize hb : sources.flatMap Source.localPart = body at hbytes hbody hextent
  rw [hbytes] at hextent
  have hrecord : EndRecord.read? bytes (body ++ listing).length
      = some ⟨(body ++ listing).length, 0, 0, sources.length, sources.length, body.length⟩ := by
    rw [← hbytes]
    exact EndRecord.read?_endPart (by omega) (by omega) listing.length _
  obtain ⟨before, after, hplaces, hafter⟩ :=
    places_endMark sources.length listing.length body.length (body ++ listing)
  have hnone : ∀ i ∈ after.reverse, EndRecord.read? bytes i = none := fun i hi =>
    EndRecord.read?_eq_none (by
      have := hafter i (List.mem_reverse.1 hi)
      rw [← hbytes, List.length_append, length_endPart]
      omega)
  have hentries : readEntries? ⟨0, body.length, sources.length⟩ sources.length
      (bytes.drop body.length) = some (entriesAt 0 sources) := by
    rw [← hbytes, List.append_assoc, List.drop_left, ← hlisting]
    exact readEntries?_directory hfits.names (by simp [hb]) (by dsimp only; omega) _
  rw [Archive.read?, ← hbytes, hplaces, hbytes, List.reverse_append, List.reverse_cons,
    List.append_assoc, List.findSome?_append, List.findSome?_eq_none_iff.2, Option.none_or,
    List.singleton_append, List.findSome?_cons, hrecord]
  · simp only [Option.bind_eq_bind, Option.bind_some, hextent, hentries]
    rfl
  · intro i hi
    rw [hnone i hi]
    rfl

/-- What is written of entries that fit gives them back. -/
theorem Fits.givesBack (hfits : Fits sources) {bytes : Bytes}
    (hwrite : write? sources = some bytes) : GivesBack bytes sources := by
  obtain ⟨hnodup, hbytes⟩ := write?_eq_some_iff.1 hwrite
  rw [List.append_assoc] at hbytes
  have hnames := map_name_entriesAt 0 sources
  refine ⟨_, read?_write? hfits hwrite, fun e he => ?_, fun name hname => ?_⟩
  · obtain ⟨y, hy, hyname⟩ : ∃ y ∈ entriesAt 0 sources, y.name = e.name := by
      rw [← List.mem_map, hnames]
      exact List.mem_map_of_mem he
    have hfound : (Archive.find? ⟨bytes, entriesAt 0 sources⟩ e.name).isSome := by
      rw [Archive.find?, List.find?_isSome]
      exact ⟨y, List.mem_reverse.2 hy, beq_iff_eq.2 hyname⟩
    obtain ⟨x, hx⟩ := Option.isSome_iff_exists.1 hfound
    -- The name tells which entry was found.
    obtain ⟨f, hf, start, after, rfl, hafter⟩ :=
      mem_entriesAt (List.mem_reverse.1 (List.mem_of_find?_eq_some hx)) hbytes.symm
    have hname : (f.entryAt start).name = e.name := by simpa using List.find?_some hx
    obtain rfl := List.inj_on_of_nodup_map hnodup hf he hname
    exact ⟨_, hx, content_entryAt (hfits.names f hf) hafter⟩
  · rw [Archive.find?, List.find?_eq_none]
    intro x hx hxname
    refine hname ?_
    rw [← hnames, ← beq_iff_eq.1 hxname]
    exact List.mem_map_of_mem (List.mem_reverse.1 hx)

end TiBench.Zip
