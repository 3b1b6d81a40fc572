import TiBench.Config
import TiBench.Proofs.Number
import TiBench.Proofs.Result

/-!
# Settings

What the configuration in a text holds: each setting is what the value at its place stands for, or
its default where there is none. A value of the wrong kind is refused, unless it stands where an
object could, or the name of a variable.
-/

namespace TiBench

/-! ## Values at places -/

namespace Json.Value

variable {v : Value} {key : String}

/-- The value at the end of a path of keys. -/
def at? : Value → List String → Option Value
  | v, [] => some v
  | object fields, key :: path => (fields.find? (·.1 == key)).bind fun f => f.2.at? path
  | _, _ :: _ => none

/-- The value at the end of a path of keys, unless it is null. -/
def given? (v : Value) (path : List String) : Option Value := (v.at? path).filter (!·.isNull)

theorem given?_field (v : Value) (key : String) (path : List String) :
    (v.field key).given? path = v.given? (key :: path) := by
  have hnull : null.given? path = none := by
    cases path <;> rfl
  cases v with
  | object fields =>
      rw [field, given?, given?, at?]
      cases fields.find? (·.1 == key) with
      | none => exact hnull
      | some f => rfl
  | _ => exact hnull

theorem given?_nil (v : Value) : v.given? [] = if v.isNull then none else some v := by
  cases v <;> rfl

end Json.Value

namespace Config

open Json (Value)
open Text (Numeral)

variable {α : Type} {v w : Value} {key : String} {n : Nat} {s : String}

/-! ## What a value stands for -/

/-- An integer that is not negative, or a text that writes a number in decimal or, after `0x`, in
hexadecimal. -/
inductive NumberIs : Value → Nat → Prop where
  | number {n : Json.Number} :
      n.isNegative = false → n.exponent = 0 → NumberIs (.number n) n.mantissa
  | decimal {s : String} {n : Nat} :
      Numeral 10 s.toList n → n < 2 ^ 64 → NumberIs (.string s) n
  | hexadecimal {s : String} {digits : List Char} {n : Nat} :
      s.toList = '0' :: 'x' :: digits → Numeral 16 digits n → n < 2 ^ 64 → NumberIs (.string s) n

inductive StringIs : Value → String → Prop where
  | string (s : String) : StringIs (.string s) s

inductive StringsAre : Value → List String → Prop where
  | array (texts : List String) : StringsAre (.array (texts.map .string)) texts

/-- What the value stands for if there is one, and the default if there is none. -/
def Setting (Stands : Value → α → Prop) (given : Option Value) (default a : α) : Prop :=
  match given with
  | some w => Stands w a
  | none => a = default

theorem natural?_eq_some_iff : natural? v = some n ↔ NumberIs v n := by
  have hbound : Text.bound64 = 2 ^ 64 := rfl
  cases v with
  | number m =>
      rw [natural?, Json.Number.natural?]
      constructor
      · intro h
        split at h
        · cases h
        · rename_i hplain
          rw [not_or, Bool.not_eq_true, not_not] at hplain
          rw [← Option.some.inj h]
          exact .number hplain.1 hplain.2
      · intro h
        cases h with
        | number hsign hexponent => simp [hsign, hexponent]
  | string s =>
      rw [natural?]
      split
      · rename_i digits hs
        rw [Text.number?_eq_some_iff (by decide), hbound]
        constructor
        · exact fun h => .hexadecimal hs h.1 h.2
        · intro h
          cases h with
          | decimal hnumeral =>
              have hplain := (Text.plain_of_mem_numeral (c := 'x') hnumeral (by decide)
                (by rw [hs]; simp)).2
              exact absurd hplain (by decide)
          | hexadecimal hs' hnumeral hlt =>
              rw [hs] at hs'
              obtain rfl : digits = _ := by simpa using hs'
              exact ⟨hnumeral, hlt⟩
      · rename_i hs
        rw [Text.number?_eq_some_iff (by decide), hbound]
        constructor
        · exact fun h => .decimal h.1 h.2
        · intro h
          cases h with
          | decimal hnumeral hlt => exact ⟨hnumeral, hlt⟩
          | hexadecimal hs' => exact absurd hs' (hs _)
  | _ => exact ⟨nofun, nofun⟩

theorem string?_eq_some_iff : v.string? = some s ↔ StringIs v s := by
  cases v with
  | string t =>
      rw [Value.string?, Option.some.injEq]
      constructor
      · rintro rfl
        exact .string t
      · intro h
        cases h
        rfl
  | _ => exact ⟨nofun, nofun⟩

theorem mapM_string?_eq_some_iff {items : List Value} {texts : List String} :
    items.mapM Value.string? = some texts ↔ items = texts.map .string := by
  induction items generalizing texts with
  | nil => cases texts <;> simp
  | cons item items ih =>
      simp only [List.mapM_cons, Option.bind_eq_bind, Option.bind_eq_some_iff, ih,
        string?_eq_some_iff]
      constructor
      · rintro ⟨_, ⟨t⟩, texts, rfl, h⟩
        rw [← Option.some.inj h]
        rfl
      · intro h
        cases texts with
        | nil => cases h
        | cons t texts =>
            obtain ⟨rfl, rfl⟩ := List.cons.inj h
            exact ⟨t, .string t, texts, rfl, rfl⟩

theorem items?_bind_eq_some_iff {texts : List String} :
    v.items?.bind (·.mapM Value.string?) = some texts ↔ StringsAre v texts := by
  cases v with
  | array items =>
      rw [Value.items?, Option.bind_some, mapM_string?_eq_some_iff]
      constructor
      · rintro rfl
        exact .array texts
      · intro h
        cases h
        rfl
  | _ => exact ⟨nofun, nofun⟩

/-! ## Fields -/

/-- Every field is read in the same way: the default in place of null, and an error where the value
does not stand for anything. -/
def readField (read : Value → Option α) (v : Value) (key : String) (default : α) :
    Except ConfigError α :=
  if (v.field key).isNull then .ok default
  else match read (v.field key) with
    | some a => .ok a
    | none => .error (.keyType key)

theorem readField_eq_ok_iff {read : Value → Option α} {Stands : Value → α → Prop} {default a : α}
    (hread : ∀ w a, read w = some a ↔ Stands w a) :
    readField read v key default = .ok a ↔ Setting Stands (v.given? [key]) default a := by
  rw [readField, ← Value.given?_field, Value.given?_nil]
  split
  · rw [Setting, Except.ok.injEq, eq_comm]
  · rw [Setting, ← hread]
    cases read (v.field key) with
    | none => exact ⟨nofun, nofun⟩
    | some b => rw [Option.some.injEq, Except.ok.injEq]

theorem naturalField_eq_ok_iff {default : Nat} :
    naturalField v key default = .ok n ↔ Setting NumberIs (v.given? [key]) default n := by
  have hread : naturalField v key default = readField natural? v key default := by
    rw [naturalField, readField]
    cases natural? (v.field key) <;> rfl
  rw [hread, readField_eq_ok_iff fun _ _ => natural?_eq_some_iff]

theorem stringField_eq_ok_iff {default : String} :
    stringField v key default = .ok s ↔ Setting StringIs (v.given? [key]) default s := by
  have hread : stringField v key default = readField Value.string? v key default := by
    rw [stringField, readField]
    cases (v.field key).string? <;> rfl
  rw [hread, readField_eq_ok_iff fun _ _ => string?_eq_some_iff]

theorem stringsField_eq_ok_iff {default texts : List String} :
    stringsField v key default = .ok texts ↔ Setting StringsAre (v.given? [key]) default texts := by
  have hread : stringsField v key default
      = readField (fun w => w.items?.bind (·.mapM Value.string?)) v key default := by
    rw [stringsField, readField]
    cases (v.field key).items?.bind (·.mapM Value.string?) <;> rfl
  rw [hread, readField_eq_ok_iff fun _ _ => items?_bind_eq_some_iff]

/-- The value stands for a number of 16 bits. -/
def WordIs (w : Value) (u : UInt16) : Prop := NumberIs w u.toNat

theorem setting_word_iff {given : Option Value} {default u : UInt16} :
    Setting WordIs given default u ↔ Setting NumberIs given default.toNat u.toNat := by
  cases given with
  | none => exact UInt16.toNat_inj.symm
  | some w => rfl

theorem wordField_eq_ok_iff {default u : UInt16} :
    wordField v key default = .ok u ↔ Setting WordIs (v.given? [key]) default u := by
  rw [wordField, Result.bind_eq_ok, setting_word_iff]
  simp only [naturalField_eq_ok_iff]
  constructor
  · rintro ⟨n, hn, hword⟩
    split at hword
    · rename_i hlt
      have hu : u.toNat = n := by
        rw [← Except.ok.inj hword, UInt16.toNat_ofNat_of_lt' hlt]
      rwa [hu]
    · cases hword
  · intro h
    have hlt : u.toNat < Text.bound16 := u.toNat_lt
    exact ⟨u.toNat, h, by rw [if_pos hlt, UInt16.ofNat_toNat]; rfl⟩

/-! ## Documents -/

/-- The fields of the object at a place; none if there is no object. -/
def entries (given : Option Value) : List (String × Value) :=
  match given with
  | some (.object fields) => fields
  | _ => []

/-- What the configuration holds of a tool. The name of a variable is there only if it is a
text. -/
structure ToolIs (name : String) (v : Value) (t : ToolSpec) : Prop where
  name_eq : t.name = name
  program : ∃ w, v.given? ["program"] = some w ∧ StringIs w t.program
  nonempty : t.program ≠ ""
  args : Setting StringsAre (v.given? ["args"]) [] t.args
  defaultsVar? : t.defaultsVar? = (v.given? ["defaults_var"]).bind Value.string?

/-- The configuration holds what the document says, and the defaults for all else. -/
structure Tells (v : Value) (c : Config) : Prop where
  tools : List.Forall₂ (fun f t => ToolIs f.1 f.2 t) (entries (v.given? ["tools"])) c.tools
  capacity : Setting NumberIs (v.given? ["vectors", "capacity"]) 0x2000 c.vectors.capacity
  base : Setting WordIs (v.given? ["vectors", "base"]) 0xa000 c.vectors.base
  filler : Setting WordIs (v.given? ["vectors", "filler"]) 0x1000 c.vectors.filler
  randomRuns : Setting NumberIs (v.given? ["vectors", "random_runs"]) 8 c.vectors.randomRuns
  blockSize : Setting NumberIs (v.given? ["vectors", "block_size"]) 2048 c.vectors.blockSize
  lengthTolerance :
    Setting NumberIs (v.given? ["compare", "length_tolerance"]) 4 c.lengthTolerance
  faults : Setting StringsAre (v.given? ["faults"]) Tool.usualFaults c.faults
  comment : Setting StringIs (v.given? ["markers", "comment"]) ";" c.markers.comment
  errorTag : Setting StringIs (v.given? ["markers", "error_tag"]) "ERROR" c.markers.errorTag
  warningTag : Setting StringIs (v.given? ["markers", "warning_tag"]) "WARN" c.markers.warningTag
  fixtures : Setting StringsAre (v.given? ["fixtures"]) [] c.fixtures

theorem string?_field (v : Value) (key : String) :
    (v.field key).string? = (v.given? [key]).bind Value.string? := by
  rw [← Value.given?_field, Value.given?_nil]
  cases v.field key <;> rfl

theorem toolSpec_eq_ok_iff {name : String} {t : ToolSpec} :
    toolSpec name v = .ok t ↔ ToolIs name v t := by
  rw [toolSpec, Result.bind_eq_ok]
  simp only [stringField_eq_ok_iff]
  constructor
  · rintro ⟨program, hprogram, h⟩
    split at h
    · cases h
    · rename_i hempty
      obtain ⟨args, hargs, h⟩ := Result.bind_eq_ok.1 h
      cases h
      rw [stringsField_eq_ok_iff] at hargs
      refine ⟨rfl, ?_, fun hnil => hempty (String.isEmpty_iff.2 hnil), hargs, string?_field v _⟩
      cases hgiven : v.given? ["program"] with
      | none =>
          rw [hgiven] at hprogram
          exact absurd (String.isEmpty_iff.2 hprogram) hempty
      | some w =>
          rw [hgiven] at hprogram
          exact ⟨w, rfl, hprogram⟩
  · rintro ⟨rfl, ⟨w, hgiven, hprogram⟩, hnonempty, hargs, hvar⟩
    refine ⟨t.program, by rw [hgiven]; exact hprogram, ?_⟩
    rw [if_neg (by rwa [String.isEmpty_iff]), stringsField_eq_ok_iff.2 hargs, string?_field, ← hvar]
    rfl

theorem vectorSettings_eq_ok_iff {v : Value} {c : VectorSettings} :
    vectorSettings v = .ok c ↔ Setting NumberIs (v.given? ["capacity"]) 0x2000 c.capacity
      ∧ Setting WordIs (v.given? ["base"]) 0xa000 c.base
      ∧ Setting WordIs (v.given? ["filler"]) 0x1000 c.filler
      ∧ Setting NumberIs (v.given? ["random_runs"]) 8 c.randomRuns
      ∧ Setting NumberIs (v.given? ["block_size"]) 2048 c.blockSize := by
  simp only [vectorSettings, Result.bind_eq_ok, naturalField_eq_ok_iff, wordField_eq_ok_iff]
  constructor
  · rintro ⟨_, h₁, _, h₂, _, h₃, _, h₄, _, h₅, h⟩
    cases h
    exact ⟨h₁, h₂, h₃, h₄, h₅⟩
  · rintro ⟨h₁, h₂, h₃, h₄, h₅⟩
    exact ⟨_, h₁, _, h₂, _, h₃, _, h₄, _, h₅, rfl⟩

theorem markerStyle_eq_ok_iff {style : Sample.MarkerStyle} :
    markerStyle v = .ok style ↔ Setting StringIs (v.given? ["comment"]) ";" style.comment
      ∧ Setting StringIs (v.given? ["error_tag"]) "ERROR" style.errorTag
      ∧ Setting StringIs (v.given? ["warning_tag"]) "WARN" style.warningTag := by
  simp only [markerStyle, Result.bind_eq_ok, stringField_eq_ok_iff]
  constructor
  · rintro ⟨_, h₁, _, h₂, _, h₃, h⟩
    cases h
    exact ⟨h₁, h₂, h₃⟩
  · rintro ⟨h₁, h₂, h₃⟩
    exact ⟨_, h₁, _, h₂, _, h₃, rfl⟩

theorem fields_field (v : Value) (key : String) :
    (v.field key).fields = entries (v.given? [key]) := by
  rw [← Value.given?_field, Value.given?_nil]
  cases v.field key <;> rfl

theorem ofJson_eq_ok_iff {c : Config} : ofJson v = .ok c ↔ Tells v c := by
  simp only [ofJson, Result.bind_eq_ok, fields_field, Result.mapM_eq_ok_iff, toolSpec_eq_ok_iff,
    vectorSettings_eq_ok_iff, markerStyle_eq_ok_iff, naturalField_eq_ok_iff,
    stringsField_eq_ok_iff, Value.given?_field]
  constructor
  · rintro ⟨_, htools, _, ⟨h₁, h₂, h₃, h₄, h₅⟩, _, h₆, _, h₇, _, ⟨h₈, h₉, h₁₀⟩, _, h₁₁, h⟩
    cases h
    exact ⟨htools, h₁, h₂, h₃, h₄, h₅, h₆, h₇, h₈, h₉, h₁₀, h₁₁⟩
  · rintro ⟨htools, h₁, h₂, h₃, h₄, h₅, h₆, h₇, h₈, h₉, h₁₀, h₁₁⟩
    exact ⟨_, htools, _, ⟨h₁, h₂, h₃, h₄, h₅⟩, _, h₆, _, h₇, _, ⟨h₈, h₉, h₁₀⟩, _, h₁₁, rfl⟩

theorem parse_eq_ok_iff {text : String} {c : Config} :
    parse text = .ok c ↔ ∃ v, Json.parse? text = some v ∧ Tells v c := by
  rw [parse]
  cases Json.parse? text with
  | none => simp
  | some v => simp [ofJson_eq_ok_iff]

/-! ## Documents with values of the right kinds -/

/-- The settings that are looked at are of their kinds: each tool has a program and, if it has
arguments, a list of texts, and so on. -/
structure Readable (v : Value) : Prop where
  tools : ∀ f ∈ entries (v.given? ["tools"]),
    (∃ w s, f.2.given? ["program"] = some w ∧ StringIs w s ∧ s ≠ "")
      ∧ ∀ w, f.2.given? ["args"] = some w → ∃ texts, StringsAre w texts
  numbers : ∀ path ∈ [["vectors", "capacity"], ["vectors", "random_runs"],
    ["vectors", "block_size"], ["compare", "length_tolerance"]], ∀ w, v.given? path = some w →
    ∃ n, NumberIs w n
  words : ∀ path ∈ [["vectors", "base"], ["vectors", "filler"]], ∀ w, v.given? path = some w →
    ∃ n, NumberIs w n ∧ n < 0x10000
  lists : ∀ path ∈ [["faults"], ["fixtures"]], ∀ w, v.given? path = some w →
    ∃ texts, StringsAre w texts
  texts : ∀ path ∈ [["markers", "comment"], ["markers", "error_tag"], ["markers", "warning_tag"]],
    ∀ w, v.given? path = some w → ∃ s, StringIs w s

/-- Nothing in the document is passed over because of its kind: objects stand where settings are
looked for, and variables are named by texts. -/
structure Heeded (v : Value) : Prop where
  isObject : ∃ fields, v = .object fields
  sections : ∀ key ∈ ["tools", "vectors", "compare", "markers"], ∀ w, v.given? [key] = some w →
    ∃ fields, w = .object fields
  tools : ∀ f ∈ entries (v.given? ["tools"]), ∃ fields, f.2 = .object fields
  defaultsVar : ∀ f ∈ entries (v.given? ["tools"]), ∀ w, f.2.given? ["defaults_var"] = some w →
    ∃ s, StringIs w s

/-- The document is an object, and every setting that it has is of its kind. -/
structure Declared (v : Value) : Prop where
  heeded : Heeded v
  readable : Readable v

theorem exists_setting_iff {Stands : Value → α → Prop} {given : Option Value} (default : α) :
    (∃ a, Setting Stands given default a) ↔ ∀ w, given = some w → ∃ a, Stands w a := by
  cases given with
  | none => exact ⟨fun _ => nofun, fun _ => ⟨default, rfl⟩⟩
  | some w => simp [Setting]

theorem exists_wordIs_iff : (∃ u, WordIs w u) ↔ ∃ n, NumberIs w n ∧ n < 0x10000 := by
  constructor
  · exact fun ⟨u, hu⟩ => ⟨u.toNat, hu, u.toNat_lt⟩
  · rintro ⟨n, hn, hlt⟩
    exact ⟨.ofNat n, by rwa [WordIs, UInt16.toNat_ofNat_of_lt' hlt]⟩

theorem exists_toolIs_iff {name : String} : (∃ t, ToolIs name v t)
    ↔ (∃ w s, v.given? ["program"] = some w ∧ StringIs w s ∧ s ≠ "")
      ∧ ∀ w, v.given? ["args"] = some w → ∃ texts, StringsAre w texts := by
  rw [← exists_setting_iff []]
  constructor
  · rintro ⟨t, -, ⟨w, hw, hprogram⟩, hnonempty, hargs, -⟩
    exact ⟨⟨w, t.program, hw, hprogram, hnonempty⟩, t.args, hargs⟩
  · rintro ⟨⟨w, s, hw, hprogram, hnonempty⟩, args, hargs⟩
    exact ⟨⟨name, s, args, _⟩, rfl, ⟨w, hw, hprogram⟩, hnonempty, hargs, rfl⟩

theorem exists_forall₂_iff {β : Type} {R : α → β → Prop} {xs : List α} :
    (∃ ys, List.Forall₂ R xs ys) ↔ ∀ x ∈ xs, ∃ y, R x y := by
  induction xs with
  | nil => exact ⟨fun _ => nofun, fun _ => ⟨[], .nil⟩⟩
  | cons x xs ih =>
      rw [List.forall_mem_cons, ← ih]
      constructor
      · rintro ⟨_, h⟩
        cases h with
        | cons hy hys => exact ⟨⟨_, hy⟩, _, hys⟩
      · rintro ⟨⟨y, hy⟩, ys, hys⟩
        exact ⟨_, .cons hy hys⟩

theorem exists_tells_iff : (∃ c, Tells v c) ↔ Readable v := by
  constructor
  · rintro ⟨c, h⟩
    have hset {α : Type} {Stands : Value → α → Prop} {given : Option Value} {default a : α}
        (hsetting : Setting Stands given default a) : ∀ w, given = some w → ∃ a, Stands w a :=
      (exists_setting_iff default).1 ⟨a, hsetting⟩
    refine ⟨fun f hf => ?_, ?_, ?_, ?_, ?_⟩
    · exact exists_toolIs_iff.1 (exists_forall₂_iff.1 ⟨_, h.tools⟩ f hf)
    · simpa using ⟨hset h.capacity, hset h.randomRuns, hset h.blockSize, hset h.lengthTolerance⟩
    · simpa [← exists_wordIs_iff] using ⟨hset h.base, hset h.filler⟩
    · simpa using ⟨hset h.faults, hset h.fixtures⟩
    · simpa using ⟨hset h.comment, hset h.errorTag, hset h.warningTag⟩
  · rintro ⟨htools, hnumbers, hwords, hlists, htexts⟩
    simp only [← exists_wordIs_iff] at hwords
    simp only [List.forall_mem_cons] at hnumbers hwords hlists htexts
    have hset {α : Type} {Stands : Value → α → Prop} {given : Option Value} (default : α)
        (hkind : ∀ w, given = some w → ∃ a, Stands w a) : ∃ a, Setting Stands given default a :=
      (exists_setting_iff default).2 hkind
    obtain ⟨_, h₀⟩ := exists_forall₂_iff.2 fun f hf => exists_toolIs_iff.2 (htools f hf)
    obtain ⟨_, h₁⟩ := hset 0x2000 hnumbers.1
    obtain ⟨_, h₂⟩ := hset 0xa000 hwords.1
    obtain ⟨_, h₃⟩ := hset 0x1000 hwords.2.1
    obtain ⟨_, h₄⟩ := hset 8 hnumbers.2.1
    obtain ⟨_, h₅⟩ := hset 2048 hnumbers.2.2.1
    obtain ⟨_, h₆⟩ := hset 4 hnumbers.2.2.2.1
    obtain ⟨_, h₇⟩ := hset Tool.usualFaults hlists.1
    obtain ⟨_, h₈⟩ := hset ";" htexts.1
    obtain ⟨_, h₉⟩ := hset "ERROR" htexts.2.1
    obtain ⟨_, h₁₀⟩ := hset "WARN" htexts.2.2.1
    obtain ⟨_, h₁₁⟩ := hset [] hlists.2.1
    exact ⟨⟨_, ⟨_, _, _, _, _⟩, _, _, ⟨_, _, _⟩, _⟩, h₀, h₁, h₂, h₃, h₄, h₅, h₆, h₇, h₈, h₉, h₁₀,
      h₁₁⟩

/-- A text is read as a configuration if and only if it is JSON and what is looked at can be read,
and the configuration holds exactly that. It is as declared if and only if, moreover, nothing in it
is passed over because of its kind. -/
theorem settings_read_exactly (text : String) :
    (∀ c, parse text = .ok c ↔ ∃ v, Json.parse? text = some v ∧ Tells v c)
      ∧ ∀ v, Json.parse? text = some v → ((∃ c, parse text = .ok c) ↔ Readable v)
        ∧ (Declared v ↔ Heeded v ∧ ∃ c, parse text = .ok c) := by
  refine ⟨fun _ => parse_eq_ok_iff, fun v hv => ?_⟩
  have hparse : (∃ c, parse text = .ok c) ↔ Readable v := by
    simp only [parse_eq_ok_iff, hv, Option.some.injEq, exists_eq_left', exists_tells_iff]
  exact ⟨hparse, fun h => ⟨h.heeded, hparse.2 h.readable⟩, fun h => ⟨h.1, hparse.1 h.2⟩⟩

/-- An address in hexadecimal and a section without settings. -/
theorem settings_read_exactly_address :
    let text := "\x7b\"vectors\":\x7b\"base\":\"0x6000\"\x7d,\"compare\":null\x7d"
    let v := Value.object [("vectors", .object [("base", .string "0x6000")]), ("compare", .null)]
    Json.parse? text = some v
      ∧ parse text = .ok { usual with vectors := { VectorSettings.usual with base := 0x6000 } }
      ∧ Declared v := by
  have hparse : parse "\x7b\"vectors\":\x7b\"base\":\"0x6000\"\x7d,\"compare\":null\x7d"
      = .ok { usual with vectors := { VectorSettings.usual with base := 0x6000 } } := by rfl
  refine ⟨rfl, hparse, ((settings_read_exactly _).2 _ rfl).2.2 ⟨?_, _, hparse⟩⟩
  refine ⟨⟨_, rfl⟩, ?_, nofun, nofun⟩
  simp only [List.forall_mem_cons, List.not_mem_nil, false_implies, implies_true, and_true]
  exact ⟨nofun, fun w hw => ⟨_, (Option.some.inj hw).symm⟩, nofun, nofun⟩

/-- A number where the name of a variable should be goes unnoticed. -/
theorem numbered_variable_overlooked :
    let text :=
      "\x7b\"tools\":\x7b\"x\":\x7b\"program\":\"p\",\"defaults_var\":5\x7d\x7d\x7d"
    let v := Value.object [("tools", .object [("x", .object
      [("program", .string "p"), ("defaults_var", .number ⟨false, 5, 0⟩)])])]
    Json.parse? text = some v ∧ parse text = .ok { usual with tools := [⟨"x", "p", [], none⟩] }
      ∧ ¬Declared v := by
  refine ⟨rfl, rfl, fun h => ?_⟩
  obtain ⟨s, hs⟩ := h.heeded.defaultsVar _ (List.mem_singleton.2 rfl) _ rfl
  cases hs

end Config

end TiBench
