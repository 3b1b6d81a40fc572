import TiBench.Compare.Package
import TiBench.Proofs.Compare
import TiBench.Proofs.Result
import TiBench.Proofs.Zip.Archive

/-!
# Comparing packages

What comparing two packages gives, told by the entries that the packages give back.
-/

namespace TiBench.Compare

open Zip (Archive Source GivesBack)

variable {p q p' q' : Bytes} {es fs es' fs' : List Source} {required : List String} {main : String}

/-! ## Entries of an archive -/

section Entries

variable {a : Archive} {name : String}

theorem isNone_find?_iff (h : a.Gives es) :
    (a.find? name).isNone = true ↔ name ∉ es.map Source.name := by
  refine ⟨fun hnone hmem => ?_, fun hmem => by rw [h.missing name hmem]; rfl⟩
  obtain ⟨e, he, rfl⟩ := List.mem_map.1 hmem
  obtain ⟨x, hx, -⟩ := h.found e he
  rw [hx] at hnone
  cases hnone

theorem entryContent_of_mem (h : a.Gives es) {data : Bytes} (hmem : ⟨name, data⟩ ∈ es) :
    entryContent a name = .ok data := by
  obtain ⟨x, hx, hcontent⟩ := h.found _ hmem
  rw [entryContent, hx]
  simp only [hcontent]
  rfl

theorem entryContent_of_notMem (h : a.Gives es) (hmem : name ∉ es.map Source.name) :
    entryContent a name = .error (.missingEntry name) := by
  rw [entryContent, h.missing name hmem]

end Entries

/-! ## The three ways a comparison ends -/

/-- Both lists have an entry of this name. -/
def InBoth (es fs : List Source) (name : String) : Prop :=
  name ∈ es.map Source.name ∧ name ∈ fs.map Source.name

theorem first_absent_or_inBoth (es fs : List Source) (required : List String) :
    (∃ before name after, required = before ++ name :: after
        ∧ (∀ n ∈ before, InBoth es fs n) ∧ ¬InBoth es fs name)
      ∨ ∀ n ∈ required, InBoth es fs n := by
  induction required with
  | nil => exact .inr nofun
  | cons name required ih =>
      by_cases hname : InBoth es fs name
      · rcases ih with ⟨before, n, after, rfl, hbefore, hn⟩ | hall
        · exact .inl ⟨name :: before, n, after, rfl, List.forall_mem_cons.2 ⟨hname, hbefore⟩, hn⟩
        · exact .inr (List.forall_mem_cons.2 ⟨hname, hall⟩)
      · exact .inl ⟨[], name, required, rfl, nofun, hname⟩

section Ends

variable (hp : GivesBack p es) (hq : GivesBack q fs)

include hp hq

/-- What is looked at first, and what then. -/
theorem comparePackages_eq : ∃ a b : Archive, a.Gives es ∧ b.Gives fs
    ∧ (∀ n, ((a.find? n).isNone || (b.find? n).isNone) = true ↔ ¬InBoth es fs n)
    ∧ comparePackages p q required main = compareArchives a b required main := by
  obtain ⟨a, ha, hes⟩ := hp
  obtain ⟨b, hb, hfs⟩ := hq
  refine ⟨a, b, hes, hfs, fun n => ?_, ?_⟩
  · rw [Bool.or_eq_true, isNone_find?_iff hes, isNone_find?_iff hfs, InBoth, not_and_or]
  · rw [comparePackages, openPackage, openPackage, ha, hb]
    rfl

theorem comparePackages_of_absent {before after : List String} {name : String}
    (hrequired : required = before ++ name :: after) (hbefore : ∀ n ∈ before, InBoth es fs n)
    (hname : ¬InBoth es fs name) :
    comparePackages p q required main = .error (.missingEntry name) := by
  obtain ⟨a, b, -, -, hnone, heq⟩ := comparePackages_eq hp hq
  have hfind : required.find? (fun n => (a.find? n).isNone || (b.find? n).isNone) = some name :=
    List.find?_eq_some_iff_append.2 ⟨(hnone name).2 hname, before, after, hrequired, fun n hn => by
      rw [Bool.not_eq_true', ← Bool.not_eq_true, hnone n, not_not]
      exact hbefore n hn⟩
  rw [heq, compareArchives, hfind]

theorem comparePackages_of_inBoth (hall : ∀ n ∈ required, InBoth es fs n) :
    ∃ a b : Archive, a.Gives es ∧ b.Gives fs ∧ comparePackages p q required main = (do
      let x ← entryContent a main
      let y ← entryContent b main
      (compareBytes x y .empty 0).mapError fun e => .entryMismatch main e.message) := by
  obtain ⟨a, b, hes, hfs, hnone, heq⟩ := comparePackages_eq hp hq
  have hfind : required.find? (fun n => (a.find? n).isNone || (b.find? n).isNone) = none :=
    List.find?_eq_none.2 fun n hn hn' => (hnone n).1 hn' (hall n hn)
  exact ⟨a, b, hes, hfs, by rw [heq, compareArchives, hfind]⟩

theorem comparePackages_of_main_absent (hall : ∀ n ∈ required, InBoth es fs n)
    (hmain : ¬InBoth es fs main) :
    comparePackages p q required main = .error (.missingEntry main) := by
  obtain ⟨a, b, hes, hfs, heq⟩ := comparePackages_of_inBoth hp hq hall
  rw [heq]
  by_cases h : main ∈ es.map Source.name
  · obtain ⟨⟨_, data⟩, he, rfl⟩ := List.mem_map.1 h
    rw [entryContent_of_mem hes he, entryContent_of_notMem hfs fun h' => hmain ⟨h, h'⟩]
    rfl
  · rw [entryContent_of_notMem hes h]
    rfl

theorem comparePackages_of_contents (hall : ∀ n ∈ required, InBoth es fs n) {x y : Bytes}
    (hx : ⟨main, x⟩ ∈ es) (hy : ⟨main, y⟩ ∈ fs) : comparePackages p q required main
      = (compareBytes x y .empty 0).mapError fun e => .entryMismatch main e.message := by
  obtain ⟨a, b, hes, hfs, heq⟩ := comparePackages_of_inBoth hp hq hall
  rw [heq, entryContent_of_mem hes hx, entryContent_of_mem hfs hy]
  rfl

end Ends

/-! ## The verdict -/

theorem exists_mem_of_mem_names {name : String} (h : name ∈ es.map Source.name) :
    ∃ data, ⟨name, data⟩ ∈ es := by
  obtain ⟨⟨_, data⟩, he, rfl⟩ := List.mem_map.1 h
  exact ⟨data, he⟩

theorem mem_names {name : String} {data : Bytes} (h : ⟨name, data⟩ ∈ es) :
    name ∈ es.map Source.name := List.mem_map_of_mem h

/-- The lists have the same names, and the same content under the main one. -/
structure SameMain (main : String) (es es' : List Source) : Prop where
  names : ∀ name, name ∈ es'.map Source.name ↔ name ∈ es.map Source.name
  content : ∀ data, ⟨main, data⟩ ∈ es' ↔ ⟨main, data⟩ ∈ es

theorem SameMain.of_perm (h : es'.Perm es) : SameMain main es es' :=
  ⟨fun _ => (h.map Source.name).mem_iff, fun _ => h.mem_iff⟩

theorem comparePackages_congr (hp : GivesBack p es) (hq : GivesBack q fs) (hp' : GivesBack p' es')
    (hq' : GivesBack q' fs') (hes : SameMain main es es') (hfs : SameMain main fs fs') :
    comparePackages p' q' required main = comparePackages p q required main := by
  have hboth (n : String) : InBoth es' fs' n ↔ InBoth es fs n :=
    and_congr (hes.names n) (hfs.names n)
  rcases first_absent_or_inBoth es fs required with ⟨before, n, after, h, hbefore, hn⟩ | hall
  · rw [comparePackages_of_absent hp hq h hbefore hn, comparePackages_of_absent hp' hq' h
      (fun m hm => (hboth m).2 (hbefore m hm)) (mt (hboth n).1 hn)]
  · have hall' : ∀ n ∈ required, InBoth es' fs' n := fun n hn => (hboth n).2 (hall n hn)
    by_cases hmain : InBoth es fs main
    · obtain ⟨x, hx⟩ := exists_mem_of_mem_names hmain.1
      obtain ⟨y, hy⟩ := exists_mem_of_mem_names hmain.2
      rw [comparePackages_of_contents hp hq hall hx hy, comparePackages_of_contents hp' hq' hall'
        ((hes.content x).2 hx) ((hfs.content y).2 hy)]
    · rw [comparePackages_of_main_absent hp hq hall hmain,
        comparePackages_of_main_absent hp' hq' hall' (mt (hboth main).1 hmain)]

theorem comparePackages_eq_ok (hp : GivesBack p es) (hq : GivesBack q fs) :
    comparePackages p q required main = .ok ()
      ↔ (∀ n ∈ required, InBoth es fs n) ∧ ∃ data, ⟨main, data⟩ ∈ es ∧ ⟨main, data⟩ ∈ fs := by
  constructor
  · intro h
    rcases first_absent_or_inBoth es fs required with ⟨before, n, after, heq, hbefore, hn⟩ | hall
    · rw [comparePackages_of_absent hp hq heq hbefore hn] at h
      cases h
    · refine ⟨hall, ?_⟩
      by_cases hmain : InBoth es fs main
      · obtain ⟨x, hx⟩ := exists_mem_of_mem_names hmain.1
        obtain ⟨y, hy⟩ := exists_mem_of_mem_names hmain.2
        rw [comparePackages_of_contents hp hq hall hx hy, Result.mapError_eq_ok,
          compareBytes_empty_eq_ok_iff] at h
        exact ⟨x, hx, h ▸ hy⟩
      · rw [comparePackages_of_main_absent hp hq hall hmain] at h
        cases h
  · rintro ⟨hall, data, hx, hy⟩
    rw [comparePackages_of_contents hp hq hall hx hy, Result.mapError_eq_ok,
      compareBytes_empty_eq_ok_iff]

/-- What comparing two packages gives that give back the entries `es` and `fs`. -/
structure ComparesEntries (p q : Bytes) (es fs : List Source) (required : List String)
    (main : String) : Prop where
  ok_iff : comparePackages p q required main = .ok ()
    ↔ (∀ n ∈ required, InBoth es fs n) ∧ ∃ data, ⟨main, data⟩ ∈ es ∧ ⟨main, data⟩ ∈ fs
  first_absent : ∀ before name after, required = before ++ name :: after →
    (∀ n ∈ before, InBoth es fs n) → ¬InBoth es fs name →
    comparePackages p q required main = .error (.missingEntry name)
  main_absent : (∀ n ∈ required, InBoth es fs n) → ¬InBoth es fs main →
    comparePackages p q required main = .error (.missingEntry main)
  contents : (∀ n ∈ required, InBoth es fs n) → ∀ x y, ⟨main, x⟩ ∈ es → ⟨main, y⟩ ∈ fs → x ≠ y →
    ∃ e, compareBytes x y .empty 0 = .error e
      ∧ comparePackages p q required main = .error (.entryMismatch main e.message)
  symm : comparePackages q p required main = .ok () ↔ comparePackages p q required main = .ok ()
  /-- Neither the order of the entries matters nor what others than the main one contain. -/
  order : ∀ p' q' es' fs', es'.Perm es → fs'.Perm fs → GivesBack p' es' → GivesBack q' fs' →
    comparePackages p' q' required main = comparePackages p q required main
  others : ∀ p' q' es' fs', SameMain main es es' → SameMain main fs fs' → GivesBack p' es' →
    GivesBack q' fs' → comparePackages p' q' required main = comparePackages p q required main

/-- Archives of entries with different names are written, and give back their entries as long as
all numbers fit. Packages are compared by the names of the entries that they give back and by the
contents of the main ones. -/
theorem packages_compared_by_entries :
    (∀ es, Zip.write? es = none ↔ ¬(es.map Source.name).Nodup)
    ∧ (∀ es p, Zip.Fits es → Zip.write? es = some p → GivesBack p es)
    ∧ ∀ p q es fs, GivesBack p es → GivesBack q fs →
      ∀ required main, ComparesEntries p q es fs required main := by
  refine ⟨fun es => ?_, fun es p hfits hwrite => hfits.givesBack hwrite,
    fun p q es fs hp hq required main => ?_⟩
  · rw [Zip.write?]
    split
    case isTrue h =>
      exact ⟨fun hnone => absurd hnone (Option.some_ne_none _), fun hnot => absurd h hnot⟩
    case isFalse h => exact ⟨fun _ => h, fun _ => rfl⟩
  constructor
  case ok_iff => exact comparePackages_eq_ok hp hq
  case first_absent =>
    exact fun before name after h hbefore hname => comparePackages_of_absent hp hq h hbefore hname
  case main_absent => exact comparePackages_of_main_absent hp hq
  case contents =>
    intro hall x y hx hy hne
    have hcompare := comparePackages_of_contents hp hq hall hx hy
    cases h : compareBytes x y .empty 0 with
    | ok => exact absurd (compareBytes_empty_eq_ok_iff.1 h).symm hne
    | error e => exact ⟨e, rfl, by rw [hcompare, h]; rfl⟩
  case symm =>
    rw [comparePackages_eq_ok hp hq, comparePackages_eq_ok hq hp]
    exact and_congr (forall₂_congr fun _ _ => and_comm) (exists_congr fun _ => and_comm)
  case order =>
    exact fun _ _ _ _ hes hfs hp' hq' =>
      comparePackages_congr hp hq hp' hq' (.of_perm hes) (.of_perm hfs)
  case others =>
    exact fun _ _ _ _ hes hfs hp' hq' => comparePackages_congr hp hq hp' hq' hes hfs

/-- A required entry consists of an end record of its own. -/
theorem packages_compared_by_entries_end_record :
    let es : List Source :=
      [⟨"größe.xml", Zip.endMark ++ List.replicate 18 0⟩, ⟨"prog.bin", [0xaa, 0x01]⟩]
    let fs : List Source := [⟨"prog.bin", [0xaa, 0x01]⟩, ⟨"größe.xml", []⟩]
    ∃ p q, Zip.write? es = some p ∧ Zip.write? fs = some q ∧ GivesBack p es ∧ GivesBack q fs
      ∧ comparePackages p q ["größe.xml"] "prog.bin" = .ok () := by
  intro es fs
  have hes : GivesBack _ es := packages_compared_by_entries.2.1 es _
    ⟨by decide, by decide, by decide⟩ rfl
  have hfs : GivesBack _ fs := packages_compared_by_entries.2.1 fs _
    ⟨by decide, by decide, by decide⟩ rfl
  refine ⟨_, _, rfl, rfl, hes, hfs,
    (packages_compared_by_entries.2.2 _ _ es fs hes hfs _ _).ok_iff.2 ⟨?_, [0xaa, 0x01], ?_, ?_⟩⟩
  · simp [InBoth, es, fs]
  · simp [es]
  · simp [fs]

end TiBench.Compare
