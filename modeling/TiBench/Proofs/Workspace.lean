import TiBench.Scenario.Step
import TiBench.Proofs.FileTree
import TiBench.Proofs.Pieces

/-!
# Laws of workspaces

What a template stands for if it is nothing but a variable, and files that are written into the
workspace and read from it again.
-/

namespace TiBench

/-! ## Replacing -/

namespace Pieces

variable {α : Type} [BEq α] [LawfulBEq α]

theorem replaceAll_of_not_mem {p : α} {xs : List α} (h : p ∉ xs) (ps new : List α) :
    replaceAll p ps new xs = xs := by
  induction xs with
  | nil => rw [replaceAll]
  | cons x xs ih =>
      rw [List.mem_cons, not_or] at h
      have hstart : ¬p :: ps <+: x :: xs := fun hp => h.1 (List.cons_prefix_cons.1 hp).1
      rw [replaceAll_cons hstart, ih h.2]

/-- What stands whole in a list is replaced as a whole. -/
theorem replaceAll_self (p : α) (ps new : List α) : replaceAll p ps new (p :: ps) = new := by
  have hwhole := replaceAll_append p ps new []
  rwa [List.append_nil, replaceAll, List.append_nil] at hwhole

end Pieces

/-! ## Templates -/

namespace Template

/-- The template that is a variable and nothing else. -/
def hole (name : String) : String := "\x7b" ++ name ++ "\x7d"

/-- A text in which no variable begins. -/
def Fixed (text : String) : Prop := '\x7b' ∉ text.toList

instance (text : String) : Decidable (Fixed text) := inferInstanceAs (Decidable (_ ∉ _))

theorem toList_hole (name : String) :
    (hole name).toList = '\x7b' :: (name.toList ++ ['\x7d']) := by
  rw [hole, String.toList_append, String.toList_append]
  rfl

theorem replace_of_fixed {text : String} (h : Fixed text) (name value : String) :
    replace text name value = text := by
  rw [replace, Pieces.replaceAll_of_not_mem h, String.ofList_toList]

theorem expand_of_fixed {text : String} (h : Fixed text) (vars : Variables) :
    expand vars text = text := by
  induction vars with
  | nil => rfl
  | cons v vars ih =>
      rw [expand, List.foldl_cons, replace_of_fixed h]
      exact ih

theorem replace_hole_self (name value : String) :
    replace (hole name) name value = value := by
  rw [replace, toList_hole, Pieces.replaceAll_self, String.ofList_toList]

/-- A name that can stand between braces. -/
def IsName (name : String) : Prop := '\x7b' ∉ name.toList ∧ '\x7d' ∉ name.toList

instance (name : String) : Decidable (IsName name) := inferInstanceAs (Decidable (_ ∧ _))

theorem IsName.not_mem {name : String} (h : IsName name) : '\x7b' ∉ name.toList ++ ['\x7d'] := by
  rw [List.mem_append, not_or]
  exact ⟨h.1, by decide⟩

/-- Where a variable stands at the start of a text, no other one does. -/
theorem hole_append_inj {name other : String} (hname : IsName name) (hother : IsName other)
    {rest rest' : List Char} (h : (hole name).toList ++ rest = (hole other).toList ++ rest') :
    name = other ∧ rest = rest' := by
  rw [toList_hole, toList_hole, List.cons_append, List.cons_append, List.cons_inj_right,
    List.append_assoc, List.append_assoc] at h
  obtain ⟨hlist, hrest⟩ := Pieces.append_cons_inj hname.2 hother.2 h
  exact ⟨String.toList_injective hlist, hrest⟩

theorem replace_hole_of_ne {name other : String} (hname : IsName name) (hother : IsName other)
    (h : other ≠ name) (value : String) : replace (hole name) other value = hole name := by
  have hstart :
      ¬ '\x7b' :: (other.toList ++ ['\x7d']) <+: '\x7b' :: (name.toList ++ ['\x7d']) := by
    rw [← toList_hole, ← toList_hole]
    rintro ⟨rest, heq⟩
    exact h (hole_append_inj hother hname (heq.trans (List.append_nil _).symm)).1
  rw [replace, toList_hole, Pieces.replaceAll_cons hstart,
    Pieces.replaceAll_of_not_mem hname.not_mem, ← toList_hole, String.ofList_toList]

/-- A variable stands for its value, in which the variables after it are replaced. -/
theorem expand_hole_append {before : Variables} {name : String} (hname : IsName name)
    (hnames : ∀ v ∈ before, IsName v.1) (hne : ∀ v ∈ before, v.1 ≠ name) (value : String)
    (after : Variables) :
    expand (before ++ (name, value) :: after) (hole name) = expand after value := by
  induction before with
  | nil => rw [List.nil_append, expand, List.foldl_cons, replace_hole_self, expand]
  | cons v before ih =>
      rw [List.cons_append, expand, List.foldl_cons, replace_hole_of_ne hname
        (hnames v List.mem_cons_self) (hne v List.mem_cons_self)]
      exact ih (fun w hw => hnames w (List.mem_cons_of_mem _ hw))
        fun w hw => hne w (List.mem_cons_of_mem _ hw)

/-- A variable stands for its value, whatever the other variables are. -/
theorem expand_hole {vars : Variables} {name value : String}
    (hlookup : vars.lookup name = some value) (hname : IsName name)
    (hnames : ∀ other ∈ vars.map Prod.fst, IsName other) (hvalue : Fixed value) :
    expand vars (hole name) = value := by
  obtain ⟨before, after, rfl, hne⟩ := List.lookup_eq_some_iff.1 hlookup
  rw [expand_hole_append hname, expand_of_fixed hvalue]
  · exact fun v hv => hnames v.1 (List.mem_map_of_mem (List.mem_append_left _ hv))
  · exact fun v hv heq => bne_iff_ne.1 (hne v hv) heq.symm

end Template

/-! ## Files of a workspace -/

theorem FileTree.walk_cons {t : FileTree} {p : Path} {name : String}
    (h : t.get? p = some .directory) (hshort : (Text.utf8 name).length ≤ maxName)
    (rest : List String) : t.walk p (name :: rest) = t.walk (step p name) rest := by
  rw [walk, h]
  exact if_neg (Nat.not_lt.2 hshort)

theorem FileTree.step_eq {name : String} (h : name ≠ "." ∧ name ≠ "..") (p : Path) :
    step p name = p ++ [name] := by
  rw [step, if_neg h.1, if_neg h.2]

namespace Workspace

/-- The path of a file. -/
def file (name : String) : Path := path ++ [name]

/-- The path of a file as text leads from the root through the workspace. -/
structure Plain (name : String) : Prop where
  nonempty : (fileText name).isEmpty = false
  noNul : (fileText name).toList.contains (Char.ofNat 0) = false
  short : (fileText name).utf8ByteSize ≤ FileTree.maxText
  absolute : (fileText name).toList.head? = some '/'
  names_eq : FileTree.names (fileText name) = path ++ [name]
  ordinary : name ≠ "." ∧ name ≠ ".."
  short_name : (Text.utf8 name).length ≤ FileTree.maxName
  is_file : FileTree.asksDirectory (fileText name) = false
  fixed : Template.Fixed (fileText name)

/-- The files that scenarios use. -/
def fileNames : List String :=
  ["input.bin", "stage1.out", "result.bin", "disk.dsk", "payload.in", "extracted.out"]

theorem plain {name : String} (h : name ∈ fileNames) : Plain name := by
  simp only [fileNames, List.mem_cons, List.not_mem_nil, or_false] at h
  rcases h with rfl | rfl | rfl | rfl | rfl | rfl
  all_goals constructor <;> decide +kernel

/-- The directory of the workspace is there. -/
structure Present (t : FileTree) : Prop where
  parent : t.get? path.dropLast = some .directory
  directory : t.get? path = some .directory

theorem present_files : Present files := ⟨by decide, by decide⟩

theorem get?_files (name : String) : files.get? (file name) = none := by
  have hnodes : files.nodes = [(path, .directory), (path.dropLast, .directory)] := by decide
  rw [FileTree.get?, if_neg (by simp [file]), hnodes]
  simp [file, path]

variable {t t' : FileTree} {name other : String} {data : Bytes}

theorem ne_file (name : String) : path.dropLast ≠ file name ∧ path ≠ file name := by
  simp [file, path]

/-- The workspace stays, whatever happens to a file in it. -/
theorem Present.of_same (h : Present t) (hsame : ∀ p, p ≠ file name → t'.get? p = t.get? p) :
    Present t' :=
  ⟨(hsame _ (ne_file name).1).trans h.parent, (hsame _ (ne_file name).2).trans h.directory⟩

theorem Present.put (h : Present t) (name : String) (n : Node) : Present (t.put (file name) n) :=
  h.of_same fun _ hp => FileTree.get?_put_of_ne t n hp

theorem get?_put_self (t : FileTree) (name : String) (n : Node) :
    (t.put (file name) n).get? (file name) = some n :=
  FileTree.get?_put_self t n (List.concat_ne_nil _ _)

theorem get?_put_files (h : file name ≠ file other) (n : Node) :
    (files.put (file other) n).get? (file name) = none :=
  (FileTree.get?_put_of_ne _ _ h).trans (get?_files name)

theorem Present.locate_eq (h : Present t) (hn : name ∈ fileNames) :
    t.locate path (fileText name) = .ok (file name) := by
  have hplain := plain hn
  rw [FileTree.locate, hplain.nonempty, if_neg Bool.false_ne_true, hplain.noNul,
    if_neg Bool.false_ne_true, if_neg (Nat.not_lt.2 hplain.short), FileTree.origin,
    if_pos hplain.absolute, hplain.names_eq]
  have hroot : t.get? [] = some .directory := rfl
  have hparent : t.get? (FileTree.step [] "tmp") = some .directory := h.parent
  have hdirectory : t.get? (FileTree.step (FileTree.step [] "tmp") "tibench-scratch")
      = some .directory := h.directory
  change t.walk [] ["tmp", "tibench-scratch", name] = _
  rw [FileTree.walk_cons hroot (by decide +kernel), FileTree.walk_cons hparent (by decide +kernel),
    FileTree.walk_cons hdirectory hplain.short_name, FileTree.step_eq hplain.ordinary]
  rfl

theorem Present.read_eq_ok (h : Present t) (hn : name ∈ fileNames) :
    t.read path (fileText name) = .ok data ↔ t.get? (file name) = some (.file data) := by
  rw [FileTree.read, h.locate_eq hn, Result.ok_bind]
  cases t.get? (file name) with
  | none => simp only [reduceCtorEq]
  | some n =>
      cases n with
      | directory => simp only [Option.some.injEq, reduceCtorEq]
      | file old =>
          simp only [(plain hn).is_file, Bool.false_eq_true, if_false, Except.ok.injEq,
            Option.some.injEq, Node.file.injEq]

theorem Present.hasPath_eq_false (h : Present t) (hn : name ∈ fileNames) :
    t.hasPath path (fileText name) = false ↔ t.get? (file name) = none := by
  rw [FileTree.hasPath, h.locate_eq hn]
  cases hget : t.get? (file name) with
  | none => simp only [hget]
  | some n =>
      cases n with
      | directory => simp only [hget, Bool.true_eq_false, reduceCtorEq]
      | file old =>
          simp only [hget, (plain hn).is_file, Bool.not_false, Bool.true_eq_false, reduceCtorEq]

theorem Present.write_eq (h : Present t) (hn : name ∈ fileNames)
    (hfree : t.get? (file name) ≠ some .directory) (data : Bytes) :
    t.write path (fileText name) data = .ok (t.put (file name) (.file data)) := by
  rw [FileTree.write, h.locate_eq hn, Result.ok_bind]
  cases hget : t.get? (file name) with
  | none => simp only [(plain hn).is_file, Bool.false_eq_true, if_false]
  | some n =>
      cases n with
      | directory => exact absurd hget hfree
      | file old => simp only [(plain hn).is_file, Bool.false_eq_true, if_false]

theorem Present.write_new (h : Present t) (hn : name ∈ fileNames)
    (hfree : t.get? (file name) = none) (data : Bytes) :
    t.write path (fileText name) data = .ok (t.put (file name) (.file data)) :=
  h.write_eq hn (by rw [hfree]; exact nofun) data

/-- What is written to a file is read from it. -/
theorem Present.read_put (h : Present t) (hn : name ∈ fileNames) (data : Bytes) :
    (t.put (file name) (.file data)).read path (fileText name) = .ok data :=
  ((h.put _ _).read_eq_ok hn).2 (get?_put_self _ _ _)

end Workspace

end TiBench
