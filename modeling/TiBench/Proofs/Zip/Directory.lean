import Mathlib.Data.Option.Basic
import TiBench.Zip.Directory
import TiBench.Proofs.Name
import TiBench.Proofs.Utf8
import TiBench.Proofs.Zip.Field

/-!
# Directories read back

What the directory that is written for entries says of them is read from it again, whatever stands
after it.
-/

namespace TiBench.Zip

namespace Source

variable {e : Source} {offset : Nat}

theorem length_summary (e : Source) : e.summary.length = 26 := by
  simp only [summary, List.length_append, length_little]

theorem length_localPart (e : Source) :
    e.localPart.length = 30 + (Text.utf8 e.name).length + e.data.length := by
  simp only [localPart, List.length_append, length_summary, length_entryMark]

/-! ## Flags and names -/

theorem flags_eq (e : Source) : e.flags = 0 ∧ (∀ c ∈ e.name.toList, c.toNat < 0x80)
    ∨ e.flags = utf8Flag := by
  rw [flags]
  split
  case isTrue h => exact .inl ⟨rfl, by simpa only [List.all_eq_true, decide_eq_true_eq] using h⟩
  case isFalse h => exact .inr rfl

theorem flags_lt (e : Source) : e.flags < 256 ^ 2 := by
  rcases e.flags_eq with ⟨h, -⟩ | h <;> (rw [h]; decide)

/-- The flag says how the name was written. -/
theorem listedText_flags (e : Source) : listedText e.flags (Text.utf8 e.name) = e.name := by
  rcases e.flags_eq with ⟨hflags, hascii⟩ | hflags
  · have hbytes : ∀ b ∈ Text.utf8 e.name, b < 0x80 := fun b => Text.lt_of_mem_utf8 hascii
    rw [hflags, listedText, if_neg (by decide)]
    conv => rhs; rw [← String.ofList_toList (s := e.name), ← Text.map_ofAscii_utf8 hbytes]
    exact congrArg String.ofList (List.map_congr_left fun b hb => if_pos (hbytes b hb))
  · rw [hflags, listedText, if_pos (by decide), Text.ofUtf8Lossy_utf8, String.ofList_toList]

/-- The numbers at their places in what a directory says of the entry. -/
theorem number?_directoryPart (hname : (Text.utf8 e.name).length < 256 ^ 2)
    (hdata : e.data.length < 256 ^ 4) (hoffset : offset < 256 ^ 4) (rest : Bytes) :
    number? (e.directoryPart offset ++ rest) 8 2 = some e.flags
      ∧ number? (e.directoryPart offset ++ rest) 10 2 = some 0
      ∧ number? (e.directoryPart offset ++ rest) 16 4 = some (crc32 e.data).toNat
      ∧ number? (e.directoryPart offset ++ rest) 20 4 = some e.data.length
      ∧ number? (e.directoryPart offset ++ rest) 24 4 = some e.data.length
      ∧ number? (e.directoryPart offset ++ rest) 28 2 = some (Text.utf8 e.name).length
      ∧ number? (e.directoryPart offset ++ rest) 30 2 = some 0
      ∧ number? (e.directoryPart offset ++ rest) 32 2 = some 0
      ∧ number? (e.directoryPart offset ++ rest) 42 4 = some offset := by
  have hflags := number?_little e.flags_lt
  have hcrc := number?_little (n := 4) (crc32 e.data).toNat_lt
  have hdata := number?_little hdata
  have hname := number?_little hname
  have hoffset := number?_little hoffset
  simp only [directoryPart, summary, List.append_assoc, number?_append, length_listedMark,
    length_little, Nat.reduceLeDiff, Nat.reduceSub, number?_zero, hflags, hcrc, hdata, hname,
    hoffset, and_self]

/-- The entry that a directory lists. -/
def entryAt (e : Source) (start : Nat) : Entry :=
  ⟨e.name, false, 0, (crc32 e.data).toNat, e.data.length, start⟩

theorem readEntry?_directoryPart {extent : Extent} (hname : (Text.utf8 e.name).length < 256 ^ 2)
    (hdata : e.data.length < 256 ^ 4) (hoffset : offset < 256 ^ 4)
    (hstart : extent.base + offset < extent.start) (rest : Bytes) :
    readEntry? extent (e.directoryPart offset ++ rest)
      = some (e.entryAt (extent.base + offset), rest) := by
  have hmark : (e.directoryPart offset ++ rest).take 4 = listedMark := by
    simp only [directoryPart, List.append_assoc]
    exact List.take_left' length_listedMark
  have hname' : (e.directoryPart offset ++ rest).drop 46 = Text.utf8 e.name ++ rest := by
    rw [directoryPart, List.append_assoc]
    exact List.drop_left' (by simp only [List.length_append, length_little, length_summary,
      length_listedMark])
  have hunlocked : e.flags % 2 = 0 := by
    rcases e.flags_eq with ⟨h, -⟩ | h <;> simp [h, utf8Flag]
  obtain ⟨h₁, h₂, h₃, h₄, h₅, h₆, h₇, h₈, h₉⟩ := number?_directoryPart hname hdata hoffset rest
  simp only [ readEntry?, hmark, h₁, h₂, h₃, h₄, h₅, h₆, h₇, h₈, h₉, hname']
  simp [guard, Listed.withFields?, listedText_flags, Listed.lacksLock, Listed.lockMethod, hstart,
    hunlocked, entryAt]

end Source

/-! ## All entries -/

/-- The entries of a directory, the first of which starts at `start`. -/
def entriesAt (start : Nat) : List Source → List Entry
  | [] => []
  | e :: more => e.entryAt start :: entriesAt (start + e.localPart.length) more

theorem map_name_entriesAt (start : Nat) (sources : List Source) :
    (entriesAt start sources).map Entry.name = sources.map Source.name := by
  induction sources generalizing start with
  | nil => rfl
  | cons e more ih => rw [entriesAt, List.map_cons, List.map_cons, ih]; rfl

theorem readEntries?_directory {extent : Extent} {offset : Nat} {sources : List Source}
    (hnames : ∀ e ∈ sources, (Text.utf8 e.name).length < 256 ^ 2)
    (hbody : extent.base + offset + (sources.flatMap Source.localPart).length ≤ extent.start)
    (hstart : extent.start < 256 ^ 4) (rest : Bytes) :
    readEntries? extent sources.length (directory offset sources ++ rest)
      = some (entriesAt (extent.base + offset) sources) := by
  induction sources generalizing offset with
  | nil => rfl
  | cons e more ih =>
      rw [List.flatMap_cons, List.length_append] at hbody
      have hlength := e.length_localPart
      have hentry (rest : Bytes) : readEntry? extent (e.directoryPart offset ++ rest)
          = some (e.entryAt (extent.base + offset), rest) :=
        Source.readEntry?_directoryPart (hnames e List.mem_cons_self) (by omega) (by omega)
          (by omega) rest
      have hmore : readEntries? extent more.length
          (directory (offset + e.localPart.length) more ++ rest)
            = some (entriesAt (extent.base + (offset + e.localPart.length)) more) :=
        ih (fun f hf => hnames f (List.mem_cons_of_mem e hf)) (by omega)
      rw [List.length_cons, directory, List.append_assoc, readEntries?, hentry, entriesAt,
        Nat.add_assoc]
      simp only [Option.bind_eq_bind, Option.bind_some, hmore]
      rfl

/-- What an entry of the directory is the entry of stands in the body. -/
theorem mem_entriesAt {start : Nat} {sources : List Source} {x : Entry}
    (h : x ∈ entriesAt start sources) {bytes rest : Bytes}
    (hbytes : bytes.drop start = sources.flatMap Source.localPart ++ rest) :
    ∃ e ∈ sources, ∃ at_ after, x = e.entryAt at_ ∧ bytes.drop at_ = e.localPart ++ after := by
  induction sources generalizing start with
  | nil => cases h
  | cons e more ih =>
      rw [List.flatMap_cons, List.append_assoc] at hbytes
      rcases List.mem_cons.1 h with rfl | h
      · exact ⟨e, List.mem_cons_self, start, _, rfl, hbytes⟩
      · obtain ⟨f, hf, hmore⟩ := ih h (Bytes.drop_part hbytes rfl)
        exact ⟨f, List.mem_cons_of_mem e hf, hmore⟩

end TiBench.Zip
