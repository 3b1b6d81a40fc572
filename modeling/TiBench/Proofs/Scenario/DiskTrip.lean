import TiBench.Proofs.FileFormat
import TiBench.Proofs.Disk.RoundTrip
import TiBench.Proofs.Disk.Stamps
import TiBench.Proofs.Scenario.Sites
import TiBench.Proofs.Tool.Script

/-!
# What a disk trip tells

A disk trip passes if its tool does what this library does, and if it passes, the tool has left the
file on a sound disk, or the payload.
-/

namespace TiBench

open TiBench.Volume (Disk VolumeError)

/-! ## Tools that use this library -/

namespace Site

/-- The tool does what this library does with a clock of its own: it loads the image, adds what it
finds under the name and in the format of the call, and writes the image, without a complaint. -/
def AddsByDisk (s : Site) (clock : Timestamp) : Prop :=
  ∀ image d data f r files, s.finds "disk" = .ok image → Disk.ofBytes clock image = .ok d →
    s.finds "in" = .ok data → FileFormat.parse (s.value "format") = .ok f →
    d.add (s.value "name") data f = ⟨r, none⟩ →
    s.files.write Workspace.path (s.value "disk") r.toBytes = .ok files →
    ∃ said, s.ran = (.ok ⟨0, said, []⟩, files)

/-- The tool does what this library does with a clock of its own: it loads the image, takes the file
from it, and delivers that to the file that its templates mention or else to its output. -/
def ExtractsByDisk (s : Site) (clock : Timestamp) : Prop :=
  ∀ image d data, s.finds "disk" = .ok image → Disk.ofBytes clock image = .ok d →
    d.extract (s.value "name") = .ok data →
    if s.step.writesFile then
      ∀ files, s.files.write Workspace.path (s.value "out") data = .ok files →
        ∃ said, s.ran = (.ok ⟨0, said, []⟩, files)
    else s.ran = (.ok ⟨0, data, []⟩, s.files)

variable {s : Site} {clock : Timestamp} {name : String} {disk file input format : Nat}

theorem addsByDisk_of_script
    (htool : s.step.tool = Script.tool name [.add disk (.arg file) input (.arg format) clock])
    (hdisk : Script.argument (s.step.invocation s.vars) disk = s.value "disk")
    (hname : Script.argument (s.step.invocation s.vars) file = s.value "name")
    (hin : Script.argument (s.step.invocation s.vars) input = s.value "in")
    (hformat : Script.argument (s.step.invocation s.vars) format = s.value "format") :
    s.AddsByDisk clock := by
  intro image d data f r files himage hload hdata hparse hadd hwrite
  refine ⟨[], ?_⟩
  rw [ran, htool]
  refine Script.run_of_file (Script.perform_add ?_) (hdisk ▸ hwrite)
  have himage' : s.files.read (s.step.invocation s.vars).cwd (s.value "disk") = .ok image := himage
  have hdata' : s.files.read (s.step.invocation s.vars).cwd (s.value "in") = .ok data := hdata
  simp only [Script.added, Script.Source.get, hdisk, hname, hin, hformat, himage', hdata', hload,
    hparse, hadd, Except.mapError, Result.ok_bind]

theorem extractsByDisk_of_script {target : Option Nat}
    (htool : s.step.tool = Script.tool name [.extract disk (.arg file) target])
    (hdisk : Script.argument (s.step.invocation s.vars) disk = s.value "disk")
    (hname : Script.argument (s.step.invocation s.vars) file = s.value "name")
    (hout : s.step.writesFile = true → ∃ index, target = some index
      ∧ Script.argument (s.step.invocation s.vars) index = s.value "out")
    (hnone : s.step.writesFile = false → target = none) : s.ExtractsByDisk clock := by
  intro image d data himage hload hextract
  have himage' : s.files.read (s.step.invocation s.vars).cwd (s.value "disk") = .ok image := himage
  obtain ⟨hsaved, hbytes, -⟩ := Volume.Disk.ofBytes_eq_ok.1 hload
  have hload' := hsaved.ofBytes_toBytes .usual
  have hextract' : (d.setClock .usual).extract (s.value "name") = .ok data := hextract
  rw [hbytes] at hload'
  have hextracted : Script.extracted (s.step.invocation s.vars) ⟨[], [], s.files⟩ disk
      (Script.Source.get (s.step.invocation s.vars) (.arg file)) = .ok data := by
    simp only [Script.extracted, Script.Source.get, hdisk, hname, himage', hload', hextract',
      Except.mapError, Result.ok_bind]
  rw [ran, htool]
  cases hwrites : s.step.writesFile with
  | true =>
      obtain ⟨index, rfl, hindex⟩ := hout hwrites
      rw [if_pos rfl]
      exact fun files hwrite =>
        ⟨[], Script.run_of_file (Script.perform_extract hextracted) (hindex ▸ hwrite)⟩
  | false =>
      obtain rfl := hnone hwrites
      rw [if_neg Bool.false_ne_true]
      exact Script.run_of_output (Script.perform_extract hextracted)

end Site

namespace DiskTrip

variable {t : DiskTrip} {clock : Timestamp} {faults : List String} {files : FileTree}
  {image : Bytes} {d r : Disk}

/-! ## Checks on an image -/

/-- The disk with the file, as this library makes it. -/
def reference? (t : DiskTrip) (clock : Timestamp) : Option Disk := do
  let d ← (Disk.ofBytes clock t.template).toOption
  if (d.add t.file t.payload t.format).error? = none then
    some (d.add t.file t.payload t.format).disk
  else none

theorem reference?_eq_some : t.reference? clock = some r
    ↔ ∃ d, Disk.ofBytes clock t.template = .ok d
      ∧ (d.add t.file t.payload t.format).error? = none
      ∧ (d.add t.file t.payload t.format).disk = r := by
  simp only [reference?, Result.toOption_bind_eq_some, Option.ite_none_right_eq_some,
    Option.some.injEq]

theorem yields_reference (t : DiskTrip) (clock : Timestamp) (faults : List String)
    (files : FileTree) : (t.reference clock).Yields faults files (t.reference? clock = some ·) := by
  refine ((Script.yields_require ..).bind (q := fun d r =>
    (d.add t.file t.payload t.format).error? = none ∧ (d.add t.file t.payload t.format).disk = r)
    fun d => ?_).congr fun r => reference?_eq_some.symm
  dsimp only
  cases (d.add t.file t.payload t.format).error? with
  | none => exact (Script.yields_pure _).congr fun r => by rw [eq_comm, eq_self, true_and]
  | some e => exact (Script.yields_fail ..).congr fun r => ⟨False.elim, fun h => nomatch h.1⟩

theorem yields_soundDisk : (soundDisk clock image).Yields faults files
    fun d => Disk.ofBytes clock image = .ok d ∧ d.check = .ok [] := by
  refine ((Script.yields_require ..).bind fun d => (Script.yields_require ..).bind
    (q := fun problems r => problems = [] ∧ r = d) fun problems => ?_).congr fun r => ?_
  · cases problems with
    | nil => exact (Script.yields_pure d).congr fun r => by rw [eq_self, true_and]
    | cons p problems =>
        exact (Script.yields_fail ..).congr fun r => ⟨False.elim, fun h => nomatch h.1⟩
  · constructor
    · rintro ⟨d, hload, problems, hcheck, rfl, rfl⟩
      exact ⟨hload, hcheck⟩
    · rintro ⟨hload, hcheck⟩
      exact ⟨r, hload, [], hcheck, rfl, rfl⟩

theorem yields_checkPayload (result : Bytes) :
    (t.checkPayload result).Yields faults files fun _ => result = t.payload :=
  (Script.yields_require ..).congr fun _ => Compare.compareBytes_empty_eq_ok_iff

theorem yields_checkFile : (t.checkFile d).Yields faults files
    fun _ => d.formatOf t.file = .ok t.format ∧ d.extract t.file = .ok t.payload := by
  refine ((Script.yields_require ..).bind (q := fun f _ => f = t.format
    ∧ d.extract t.file = .ok t.payload) fun f => ?_).congr fun _ => ?_
  · split
    · rename_i hformat
      exact (Script.yields_fail ..).congr fun _ => ⟨False.elim, fun h => hformat h.1⟩
    · rename_i hformat
      refine ((Script.yields_require ..).bind yields_checkPayload).congr fun _ => ?_
      simp only [exists_eq_right, not_not.1 hformat, true_and]
  · simp only [and_left_comm, exists_eq_left]

theorem yields_checkImage : (t.checkImage clock d image).Yields faults files
    fun _ => ∃ r, t.reference? clock = some r ∧ ∃ m, r.standardize = .ok m
      ∧ ∃ m', d.standardize = .ok m'
      ∧ Compare.compareBytes r.toBytes image (m.merge m') 0 = .ok () :=
  (yields_reference ..).bind fun _ => (Script.yields_require ..).bind fun _ =>
    (Script.yields_require ..).bind fun _ => Script.yields_require ..

/-- The image is that of a sound disk with the file, and of the reference if it is compared. -/
def Accepts (t : DiskTrip) (clock : Timestamp) (image : Bytes) (d : Disk) : Prop :=
  Disk.ofBytes clock image = .ok d ∧ d.check = .ok [] ∧ d.formatOf t.file = .ok t.format
    ∧ d.extract t.file = .ok t.payload
    ∧ (t.comparesImage = true → ∃ r, t.reference? clock = some r ∧ ∃ m, r.standardize = .ok m
      ∧ ∃ m', d.standardize = .ok m'
      ∧ Compare.compareBytes r.toBytes image (m.merge m') 0 = .ok ())

theorem yields_inspect : (t.inspect clock image).Yields faults files
    fun _ => ∃ d, t.Accepts clock image d := by
  refine (yields_soundDisk.bind fun d => yields_checkFile.bind fun _ =>
    yields_checkImage.when).congr fun _ => ?_
  simp only [Accepts, exists_const, and_assoc]

theorem decides_finishAdd (files : FileTree) : (t.finishAdd clock).Decides faults files []
      (∃ image, files.read Workspace.path (Workspace.fileText "disk.dsk") = .ok image
        ∧ ∃ d, t.Accepts clock image d) :=
  (Script.gives_enter .compare files).bind_decides
    ((Script.yields_readFile ..).bind fun _ => yields_inspect).decides

/-! ## The calls -/

section

variable (t)

/-- The call of a tool that adds the file. -/
def addSite : Site where
  step := t.step
  vars := t.addVars
  files := (Workspace.files.put (Workspace.file "disk.dsk") (.file t.template)).put
    (Workspace.file "payload.in") (.file t.payload)

/-- The call of a tool that takes the file from a disk. -/
def extractSite (r : Disk) : Site where
  step := t.step
  vars := t.extractVars
  files := Workspace.files.put (Workspace.file "disk.dsk") (.file r.toBytes)

theorem isName_addVars : ∀ other ∈ t.addVars.map Prod.fst, Template.IsName other := by
  have hnames : ∀ other ∈ ["disk", "name", "in", "format"], Template.IsName other := by decide
  exact hnames

theorem isName_extractVars : ∀ other ∈ t.extractVars.map Prod.fst, Template.IsName other := by
  have hnames : ∀ other ∈ ["disk", "name", "out"], Template.IsName other := by decide
  exact hnames

theorem value_addSite_disk : t.addSite.value "disk" = Workspace.fileText "disk.dsk" :=
  Template.expand_hole rfl (by decide) t.isName_addVars (Workspace.plain (by decide)).fixed

theorem value_extractSite_out (r : Disk) :
    (t.extractSite r).value "out" = Workspace.fileText "extracted.out" :=
  Template.expand_hole rfl (by decide) t.isName_extractVars (Workspace.plain (by decide)).fixed

end

theorem gives_prepareAdd :
    t.prepareAdd.Gives faults Workspace.files () t.addSite.files [] := by
  have himage := Workspace.present_files.write_new (by decide)
    (Workspace.get?_files "disk.dsk") t.template
  have hfree : (Workspace.files.put (Workspace.file "disk.dsk") (.file t.template)).get?
      (Workspace.file "payload.in") = none := Workspace.get?_put_files (by decide) _
  have hpayload := (Workspace.present_files.put "disk.dsk" (.file t.template)).write_new
    (by decide) hfree t.payload
  exact (Script.gives_enter _ _).bind ((Script.gives_writeFile himage).bind
    ((Script.gives_writeFile hpayload).bind (Script.gives_enter _ _)))

theorem decides_addScript : (t.addScript clock).Decides faults Workspace.files [t.addSite]
    (∃ out, t.addSite.Succeeds faults out ∧ ∃ image, t.addSite.leaves "disk" = .ok image
      ∧ ∃ d, t.Accepts clock image d) := by
  rw [Site.leaves, value_addSite_disk]
  exact gives_prepareAdd.bind_decides
    (Script.decides_invoke fun _ => decides_finishAdd t.addSite.ran.2)

theorem decides_extractScript (h : t.reference? clock = some r) :
    (t.extractScript clock).Decides faults Workspace.files [t.extractSite r]
      ((t.extractSite r).Delivers faults t.payload) := by
  have hreference := (yields_reference t clock faults Workspace.files).gives h
  have himage := Workspace.present_files.write_new (by decide)
    (Workspace.get?_files "disk.dsk") r.toBytes
  have hsend : (Script.send t.step t.extractVars "extracted.out" >>= t.finishExtract).Decides faults
      (t.extractSite r).files [t.extractSite r] (∃ data, (t.extractSite r).Delivers faults data
        ∧ data = t.payload) :=
    Script.decides_send (s := t.extractSite r) (value_extractSite_out t r) fun data =>
      (Script.gives_enter .compare _).bind_decides (yields_checkPayload data).decides
  rw [exists_eq_right] at hsend
  exact (Script.gives_enter _ _).bind_decides (hreference.bind_decides
    ((Script.gives_writeFile himage).bind_decides
      ((Script.gives_enter _ _).bind_decides hsend)))

theorem stops_extractScript (h : t.reference? clock = none) :
    (t.extractScript clock).Stops faults Workspace.files [] := by
  have hreference := (yields_reference t clock faults Workspace.files).stops fun r => by
    rw [h]; nofun
  exact (Script.gives_enter _ _).bind_stops (hreference.bind _)

/-! ## Disks of this library -/

theorem values_addSite (h : Template.Fixed t.file) : t.addSite.value "name" = t.file
    ∧ t.addSite.value "in" = Workspace.fileText "payload.in"
    ∧ t.addSite.value "format" = t.format.text := by
  refine ⟨Template.expand_hole rfl (by decide) t.isName_addVars h,
    Template.expand_hole rfl (by decide) t.isName_addVars (Workspace.plain (by decide)).fixed,
    Template.expand_hole rfl (by decide) t.isName_addVars t.format.brace_not_mem_text⟩

/-- A file that is added at any time is one that the harness accepts. -/
theorem accepts_add (hload : Disk.ofBytes clock t.template = .ok d) (hcheck : d.check = .ok [])
    (hadd : (d.add t.file t.payload t.format).error? = none) (c : Timestamp) :
    t.Accepts clock ((d.setClock c).add t.file t.payload t.format).disk.toBytes
      (((d.setClock c).add t.file t.payload t.format).disk.setClock clock) := by
  have hconsistent := Volume.Disk.check_eq_nil_iff.1 hcheck
  obtain ⟨hsaved, -, -⟩ := Volume.Disk.ofBytes_eq_ok.1 hload
  obtain ⟨hadd', m, m', hm, hm', hcompare⟩ :=
    Volume.Disk.compare_standardize_add hconsistent hadd c
  have hback := Volume.Disk.extract_add.1 (d.setClock c)
    (Volume.Disk.check_eq_nil_iff.2 (hconsistent.setClock c)) _ _ _ hadd'
  refine ⟨((hsaved.setClock c).adding _ _ _).ofBytes_toBytes clock, ?_, hback.2, hback.1, ?_⟩
  · exact Volume.Disk.check_eq_nil_iff.2 (((hconsistent.setClock c).adding _ _ _).setClock clock)
  · exact fun _ => ⟨_, reference?_eq_some.2 ⟨d, hload, hadd, rfl⟩, m, hm, m', hm', hcompare⟩

theorem leaves_addSite (htool : t.addSite.AddsByDisk clock)
    (hload : Disk.ofBytes clock t.template = .ok d)
    (hadd : d.add t.file t.payload t.format = ⟨r, none⟩) (hfile : Template.Fixed t.file) :
    ∃ out, t.addSite.Succeeds faults out ∧ t.addSite.leaves "disk" = .ok r.toBytes := by
  obtain ⟨hname, hin, hformat⟩ := values_addSite hfile
  have hpresent : Workspace.Present t.addSite.files :=
    (Workspace.present_files.put "disk.dsk" (.file t.template)).put "payload.in" _
  have hdisk : t.addSite.files.get? (Workspace.file "disk.dsk") = some (.file t.template) :=
    (FileTree.get?_put_of_ne _ _ (by decide)).trans (Workspace.get?_put_self _ _ _)
  have hpayload : t.addSite.files.get? (Workspace.file "payload.in") = some (.file t.payload) :=
    Workspace.get?_put_self _ _ _
  obtain ⟨said, hran⟩ := htool t.template d t.payload t.format r
    (t.addSite.files.put (Workspace.file "disk.dsk") (.file r.toBytes))
    (by rw [Site.finds, value_addSite_disk, hpresent.read_eq_ok (by decide), hdisk]) hload
    (by rw [Site.finds, hin, hpresent.read_eq_ok (by decide), hpayload])
    (by rw [hformat, FileFormat.parse_text]) (by rw [hname, hadd])
    (by rw [value_addSite_disk, hpresent.write_eq (by decide) (by rw [hdisk]; exact nofun)])
  refine ⟨_, Site.succeeds_of_quiet (congrArg Prod.fst hran), ?_⟩
  rw [Site.leaves, hran, value_addSite_disk]
  exact hpresent.read_put (by decide) _

theorem delivers_extractSite (htool : (t.extractSite r).ExtractsByDisk clock)
    (hload : Disk.ofBytes clock r.toBytes = .ok d) (hextract : d.extract t.file = .ok t.payload)
    (hfile : Template.Fixed t.file) : (t.extractSite r).Delivers faults t.payload := by
  have hname : (t.extractSite r).value "name" = t.file :=
    Template.expand_hole rfl (by decide) t.isName_extractVars hfile
  have hdisk : (t.extractSite r).value "disk" = Workspace.fileText "disk.dsk" :=
    Template.expand_hole rfl (by decide) t.isName_extractVars (Workspace.plain (by decide)).fixed
  have hpresent : Workspace.Present (t.extractSite r).files := Workspace.present_files.put _ _
  have hgives := htool r.toBytes d t.payload
    (by rw [Site.finds, hdisk]; exact Workspace.present_files.read_put (by decide) _) hload
    (by rw [hname, hextract])
  cases hwrites : (t.extractSite r).step.writesFile with
  | true =>
      have hfree : (t.extractSite r).files.get? (Workspace.file "extracted.out") = none :=
        Workspace.get?_put_files (by decide) _
      rw [hwrites, if_pos rfl, value_extractSite_out] at hgives
      obtain ⟨said, hran⟩ := hgives _
        (hpresent.write_new (by decide) hfree t.payload)
      refine Site.delivers_of_file (congrArg Prod.fst hran) hwrites ?_
      rw [Site.leaves, hran, value_extractSite_out]
      exact hpresent.read_put (by decide) _
  | false =>
      rw [hwrites, if_neg Bool.false_ne_true] at hgives
      exact Site.delivers_of_output (congrArg Prod.fst hgives) hwrites

/-! ## The verdict -/

theorem passed_adds_iff (h : t.direction = .adds) (clock : Timestamp) (faults : List String) :
    (((Scenario.diskTrip t).run clock faults).hasPassed = true
      ↔ ∃ out, t.addSite.Succeeds faults out ∧ ∃ image, t.addSite.leaves "disk" = .ok image
        ∧ ∃ d, t.Accepts clock image d)
    ∧ (Scenario.diskTrip t).sites clock faults = [t.addSite] := by
  refine Scenario.passed_iff_of_decides (s := .diskTrip t) ?_
  rw [Scenario.script, script, h]
  exact decides_addScript

theorem passed_extracts_iff (h : t.direction = .extracts) (clock : Timestamp)
    (faults : List String) :
    (((Scenario.diskTrip t).run clock faults).hasPassed = true
      ↔ ∃ r, t.reference? clock = some r ∧ (t.extractSite r).Delivers faults t.payload)
    ∧ ∀ r, t.reference? clock = some r →
      (Scenario.diskTrip t).sites clock faults = [t.extractSite r] := by
  have hscript : (Scenario.diskTrip t).script clock = t.extractScript clock := by
    rw [Scenario.script, script, h]
  cases hreference : t.reference? clock with
  | none =>
      have hstops : ((Scenario.diskTrip t).script clock).Decides faults Workspace.files [] False :=
        .inr ⟨not_false, hscript ▸ stops_extractScript hreference⟩
      rw [(Scenario.passed_iff_of_decides hstops).1]
      simp only [reduceCtorEq, false_and, exists_false, true_and, false_imp_iff, implies_true]
  | some r =>
      have hdecides : ((Scenario.diskTrip t).script clock).Decides faults Workspace.files
          [t.extractSite r] ((t.extractSite r).Delivers faults t.payload) :=
        hscript ▸ decides_extractScript hreference
      obtain ⟨hpassed, hsites⟩ := Scenario.passed_iff_of_decides hdecides
      rw [hpassed]
      refine ⟨⟨fun hdelivers => ⟨r, rfl, hdelivers⟩, ?_⟩, ?_⟩
      · rintro ⟨r', hr, hdelivers⟩
        exact Option.some.inj hr ▸ hdelivers
      · rintro r' hr
        exact Option.some.inj hr ▸ hsites

/-- A tool that does what this library does passes in both directions, by any clock. A tool that
passes has left the file on a sound disk, which is the reference but for dates if that is compared,
or it has delivered the payload. -/
theorem agrees_with_disk (t : DiskTrip) (clock : Timestamp) (faults : List String) :
    (∀ d, Disk.ofBytes clock t.template = .ok d → d.check = .ok [] →
      (d.add t.file t.payload t.format).error? = none → Template.Fixed t.file → ∀ c : Timestamp,
      (t.direction = .extracts →
        (∀ files, Site.ExtractsByDisk ⟨t.step, t.extractVars, files⟩ c) →
        ((Scenario.diskTrip t).run clock faults).hasPassed = true)
      ∧ (t.direction = .adds → t.addSite.AddsByDisk c →
        ((Scenario.diskTrip t).run clock faults).hasPassed = true))
    ∧ (((Scenario.diskTrip t).run clock faults).hasPassed = true →
      (t.direction = .adds → (Scenario.diskTrip t).sites clock faults = [t.addSite]
        ∧ ∃ image d, t.addSite.leaves "disk" = .ok image ∧ Disk.ofBytes clock image = .ok d
          ∧ d.toBytes = image ∧ d.check = .ok [] ∧ d.formatOf t.file = .ok t.format
          ∧ d.extract t.file = .ok t.payload
          ∧ (t.comparesImage = true →
            ∃ r, t.reference? clock = some r ∧ Volume.Disk.SameButDates r d))
      ∧ (t.direction = .extracts → ∃ r, t.reference? clock = some r
        ∧ (Scenario.diskTrip t).sites clock faults = [t.extractSite r]
        ∧ (t.extractSite r).Delivers faults t.payload)) := by
  refine ⟨fun d hload hcheck hadd hfile c => ⟨fun hdirection htool => ?_,
    fun hdirection htool => ?_⟩, fun hpassed => ⟨fun hdirection => ?_, fun hdirection => ?_⟩⟩
  · have hsaved := (Volume.Disk.ofBytes_eq_ok.1 hload).1
    have hextract := (Volume.Disk.extract_add.1 d hcheck _ _ _ hadd).1
    refine (passed_extracts_iff hdirection clock faults).1.2
      ⟨_, reference?_eq_some.2 ⟨d, hload, hadd, rfl⟩, ?_⟩
    exact delivers_extractSite (htool _) ((hsaved.adding _ _ _).ofBytes_toBytes c) hextract hfile
  · obtain ⟨hsaved, hbytes, -⟩ := Volume.Disk.ofBytes_eq_ok.1 hload
    have hload' := hsaved.ofBytes_toBytes c
    rw [hbytes] at hload'
    have hadd' := (Volume.Disk.compare_standardize_add (Volume.Disk.check_eq_nil_iff.1 hcheck)
      hadd c).1
    obtain ⟨out, hsucceeds, hleaves⟩ := leaves_addSite htool hload'
      (congrArg (Volume.Change.mk _) hadd') hfile
    exact (passed_adds_iff hdirection clock faults).1.2
      ⟨out, hsucceeds, _, hleaves, _, accepts_add hload hcheck hadd c⟩
  · obtain ⟨hiff, hsites⟩ := passed_adds_iff hdirection clock faults
    obtain ⟨-, -, image, hleaves, d, hload, hcheck, hformat, hextract, himage⟩ := hiff.1 hpassed
    have hbytes := (Volume.Disk.ofBytes_eq_ok.1 hload).2.1
    refine ⟨hsites, image, d, hleaves, hload, hbytes, hcheck, hformat, hextract,
      fun hcompares => ?_⟩
    obtain ⟨r, hr, m, hm, m', hm', hcompare⟩ := himage hcompares
    rw [← hbytes] at hcompare
    exact ⟨r, hr, Volume.Disk.sameButDates_of_compare hm hm' hcompare⟩
  · obtain ⟨hiff, hsites⟩ := passed_extracts_iff hdirection clock faults
    obtain ⟨r, hr, hdelivers⟩ := hiff.1 hpassed
    exact ⟨r, hr, hsites r hr, hdelivers⟩

/-- A step that adds a file by this library, years later. -/
def laterAdder : Step where
  tool := Script.tool "disk" [.add 0 (.arg 1) 2 (.arg 3) ⟨2031, 5, 6, 7, 8, 10⟩]
  args := ["disk", "name", "in", "format"].map Template.hole
  defaults? := none

/-- A step that takes a file from a disk by this library. -/
def extractor : Step where
  tool := Script.tool "disk" [.extract 0 (.arg 1) (some 2)]
  args := ["disk", "name", "out"].map Template.hole
  defaults? := none

def adding (template : Bytes) : DiskTrip :=
  ⟨"add A", template, "A", [0x61], .program, laterAdder, .adds, true⟩

def extracting (template : Bytes) : DiskTrip :=
  ⟨"extract A", template, "A", [0x61], .program, extractor, .extracts, true⟩

theorem agrees_with_disk_blank : ∃ d, Disk.init .usual "WORK" 40 1 1 = .ok d
    ∧ ((Scenario.diskTrip (adding d.toBytes)).run .usual Tool.usualFaults).hasPassed = true
    ∧ ((Scenario.diskTrip (extracting d.toBytes)).run .usual Tool.usualFaults).hasPassed = true
    ∧ ∃ image d', (adding d.toBytes).addSite.leaves "disk" = .ok image
      ∧ Disk.ofBytes .usual image = .ok d' ∧ d'.extract "A" = .ok [0x61] := by
  obtain ⟨d, hinit, hadded⟩ : ∃ d, Disk.init .usual "WORK" 40 1 1 = .ok d
      ∧ ((d.setClock .usual).add "A" [0x61] .program).error?.isNone = true :=
    Result.exists_ok_of_any (by decide +kernel)
  have hload := (Volume.Disk.saved_init hinit).ofBytes_toBytes .usual
  have hcheck : (d.setClock .usual).check = .ok [] := Volume.Disk.check_eq_nil_iff.2
    ((Volume.Disk.consistent_init hinit).1.setClock .usual)
  have hadd := Option.isNone_iff_eq_none.1 hadded
  have hfile : Template.Fixed "A" := by decide
  have hwrites : extractor.writesFile = true := by decide +kernel
  have hadds := ((agrees_with_disk (adding d.toBytes) .usual Tool.usualFaults).1 _ hload hcheck
    hadd hfile ⟨2031, 5, 6, 7, 8, 10⟩).2 rfl (Site.addsByDisk_of_script rfl rfl rfl rfl rfl)
  have hextracts := ((agrees_with_disk (extracting d.toBytes) .usual Tool.usualFaults).1 _ hload
    hcheck hadd hfile .usual).1 rfl fun files =>
      Site.extractsByDisk_of_script rfl rfl rfl (fun _ => ⟨2, rfl, rfl⟩)
        fun h => Bool.noConfusion (hwrites.symm.trans h)
  obtain ⟨-, image, d', hleaves, hload', -, -, -, hextract, -⟩ :=
    ((agrees_with_disk (adding d.toBytes) .usual Tool.usualFaults).2 hadds).1 rfl
  exact ⟨d, hinit, hadds, hextracts, image, d', hleaves, hload', hextract⟩

end DiskTrip

end TiBench
