import TiBench.FileFormat
import TiBench.Proofs.Number

/-!
# Laws of file formats

A format is read from the text with which a catalog shows it, and from every text that differs from
it in case and in white space, in zeros and a plus sign before the length, or in leaving the usual
kind of content out. No other text is read as a format.
-/

namespace TiBench

/-- Digits at the end of a text are not trimmed. -/
theorem Text.trim_digits {s : List Char} (h : ∀ c, s.head? = some c → isBlank c = false) (n : Nat) :
    trim (s ++ paddedDigits 0 n) = s ++ paddedDigits 0 n := by
  have hdigits : ∀ c ∈ paddedDigits 0 n, isBlank c = false :=
    fun c hc => isBlank_of_isDigit (isDigit_of_mem_paddedDigits hc)
  refine trim_eq_self (fun c hc => ?_) fun c hc => ?_
  · rw [List.head?_append] at hc
    rcases Option.or_eq_some_iff.1 hc with hc | ⟨-, hc⟩
    · exact h c hc
    · exact hdigits c (List.mem_of_mem_head? hc)
  · rw [List.getLast?_append, List.getLast?_eq_some_getLast (paddedDigits_ne_nil 0 n)] at hc
    exact hdigits c (Option.some.inj hc ▸ List.getLast_mem _)

namespace FileFormat

open Text (paddedDigits)

/-- The letters for the kind of content. -/
def contentLetters : Content → List Char
  | .display => ['D', 'I', 'S']
  | .internal => ['I', 'N', 'T']

/-- The letters for the record family. -/
def familyLetters : Family → List Char
  | .fixed => ['F', 'I', 'X']
  | .variable => ['V', 'A', 'R']

/-- What a format is written with before the length. -/
def letters (r : RecordFormat) : List Char :=
  contentLetters r.content ++ '/' :: (familyLetters r.family ++ [' '])

theorem toList_text (r : RecordFormat) :
    (text (.records r)).toList = letters r ++ paddedDigits 0 r.length := by
  rw [text, letters, String.toList_append, String.toList_append, Text.toList_toString]
  rcases r.content with _ | _
  all_goals rcases r.family with _ | _ <;> rfl

theorem upper_digits (n : Nat) : (paddedDigits 0 n).flatMap upper = paddedDigits 0 n := by
  have hdigit : ∀ c ∈ paddedDigits 0 n, upper c = [c] := by
    intro c hc
    have hdigit := Text.isDigit_of_mem_paddedDigits hc
    simp only [Char.isDigit, Bool.and_eq_true, decide_eq_true_eq] at hdigit
    have hlast : c.toNat ≤ 57 := hdigit.2
    have hupper : c.toUpper = c := by
      refine dif_neg ?_
      rintro ⟨hlower, -⟩
      have : 97 ≤ c.toNat := hlower
      omega
    rw [upper, if_pos (by omega), hupper]
  rw [List.flatMap_def, List.map_congr_left hdigit, ← List.flatMap_def]
  exact List.flatMap_singleton' _

theorem upper_text (r : RecordFormat) :
    (Text.trim (text (.records r)).toList).flatMap upper = (text (.records r)).toList := by
  have hletters : (∀ c, (letters r).head? = some c → Text.isBlank c = false)
      ∧ (letters r).flatMap upper = letters r := by
    rw [letters]
    rcases r.content with _ | _
    all_goals rcases r.family with _ | _ <;> exact ⟨fun c hc => Option.some.inj hc ▸ rfl, rfl⟩
  rw [toList_text, Text.trim_digits hletters.1, List.flatMap_append, hletters.2, upper_digits]

theorem parseContent?_letters (c : Content) {rest : List Char} :
    parseContent? (contentLetters c ++ '/' :: rest) = some (some c, Text.trim rest) := by
  rcases c with _ | _ <;> rfl

theorem parseFamily?_append (f : Family) (rest : List Char) : parseFamily? (familyLetters f ++ rest)
    = (Text.number? 10 Text.bound64 (Text.trim rest)).map (f, ·) := by
  cases f <;> rfl

theorem parseFamily?_letters (f : Family) {n : Nat} (h : n < Text.bound64) :
    parseFamily? (familyLetters f ++ ' ' :: paddedDigits 0 n) = some (f, n) := by
  have hnumber : Text.number? 10 Text.bound64 (Text.trim (' ' :: paddedDigits 0 n)) = some n := by
    have htrim : Text.trim (paddedDigits 0 n) = paddedDigits 0 n :=
      Text.trim_digits (s := []) nofun n
    have hblank : Text.trim (' ' :: paddedDigits 0 n) = Text.trim (paddedDigits 0 n) := rfl
    rw [hblank, htrim, Text.number?_paddedDigits 0 h]
  rw [parseFamily?_append, hnumber]
  rfl

/-- The text of a format names that format. -/
theorem parse_text (f : FileFormat) : parse f.text = .ok f := by
  cases f with
  | program => rfl
  | records r =>
      have hlength : r.length ≤ 255 :=
        Nat.le_trans r.length_le (by rcases r.family with _ | _ <;> decide)
      have hbound : r.length < Text.bound64 := Nat.lt_of_le_of_lt hlength (by decide)
      have hsplit : (text (.records r)).toList = contentLetters r.content
          ++ '/' :: (familyLetters r.family ++ ' ' :: paddedDigits 0 r.length) := by
        rw [toList_text, letters, List.append_assoc, List.cons_append, List.append_assoc]; rfl
      have htrim : Text.trim (familyLetters r.family ++ ' ' :: paddedDigits 0 r.length)
          = familyLetters r.family ++ ' ' :: paddedDigits 0 r.length := by
        rw [List.append_cons]
        refine Text.trim_digits ?_ _
        rcases r.family with _ | _ <;> exact fun c hc => Option.some.inj hc ▸ rfl
      have hprogram : ¬((text (.records r)).toList = "PROGRAM".toList
          ∨ (text (.records r)).toList = "PRG".toList) := by
        rw [hsplit]
        rcases r.content with _ | _
        all_goals rintro (h | h) <;> exact absurd (List.cons.inj h).1 (by decide)
      simp only [parse, upper_text, if_neg hprogram]
      rw [hsplit, parseContent?_letters, htrim]
      simp only [Option.bind_eq_bind, Option.bind_some, parseFamily?_letters _ hbound]
      exact congrArg (Except.map _) (dif_pos ⟨r.length_pos, r.length_le⟩)

/-! ## Texts that are formats -/

section

variable {c : Char} {t u part : List Char} {kind : Option Content} {f : Family} {n : Nat}

/-- The kind of content before the first slash and what follows it, or the whole text where there
is no slash. -/
inductive Selects : List Char → Option Content → List Char → Prop where
  | bare {u : List Char} : '/' ∉ u → Selects u none u
  | named (content : Content) (rest : List Char) :
      Selects (contentLetters content ++ '/' :: rest) (some content) (Text.trim rest)

/-- The letters of a family and a length, with white space between them or without. -/
def FamilyText (f : Family) (part : List Char) (n : Nat) : Prop :=
  ∃ blanks number, part = familyLetters f ++ (blanks ++ number) ∧ Text.Blanks blanks
    ∧ Text.Numeral 10 number n ∧ n < 2 ^ 64

/-- What a trimmed text in upper case says of records. -/
def Names (u : List Char) (kind : Option Content) (f : Family) (n : Nat) : Prop :=
  ∃ part, Selects u kind part ∧ FamilyText f part n

theorem parseContent?_eq_some_iff : parseContent? u = some (kind, part) ↔ Selects u kind part := by
  constructor
  · intro h
    rw [parseContent?] at h
    split at h
    · rename_i hsplit
      cases h
      refine .bare fun hslash => ?_
      exact absurd (Pieces.splitOnce_eq_none_iff.1 hsplit _ hslash) (by decide)
    · rename_i before after hsplit
      obtain ⟨x, rfl, hx, -⟩ := Pieces.splitOnce_eq_some_iff.1 hsplit
      obtain rfl := eq_of_beq hx
      split at h
      · rename_i hdisplay
        cases h
        exact hdisplay ▸ .named .display after
      · split at h
        · rename_i hinternal
          cases h
          exact hinternal ▸ .named .internal after
        · cases h
  · intro h
    cases h with
    | bare hslash =>
        have hnone : Pieces.splitOnce (· == '/') u = none := by
          refine Pieces.splitOnce_eq_none_iff.2 fun x hx => beq_eq_false_iff_ne.2 ?_
          rintro rfl
          exact hslash hx
        rw [parseContent?, hnone]
    | named content rest => exact parseContent?_letters content

theorem number?_trim_eq_some_iff {rest : List Char}
    (hlast : ∀ c, rest.getLast? = some c → Text.isBlank c = false) :
    Text.number? 10 Text.bound64 (Text.trim rest) = some n ↔ ∃ blanks number,
      rest = blanks ++ number ∧ Text.Blanks blanks ∧ Text.Numeral 10 number n ∧ n < 2 ^ 64 := by
  constructor
  · intro h
    obtain ⟨hnumeral, hbound⟩ := (Text.number?_eq_some_iff (by decide)).1 h
    obtain ⟨before, after, hbefore, hafter, hrest⟩ := Text.padded_trim rest
    have hnil : after = [] := by
      rcases List.eq_nil_or_concat' after with hnil | ⟨start, c, rfl⟩
      · exact hnil
      · have hblank := hafter c (by simp)
        rw [hlast c (by rw [hrest]; simp)] at hblank
        cases hblank
    rw [hnil, List.append_nil] at hrest
    exact ⟨before, _, hrest, hbefore, hnumeral, hbound⟩
  · rintro ⟨blanks, number, rfl, hblanks, hnumeral, hbound⟩
    rw [Text.trim_blanks_append hblanks, Text.trim_numeral hnumeral (by decide)]
    exact (Text.number?_eq_some_iff (by decide)).2 ⟨hnumeral, hbound⟩

theorem parseFamily?_eq_some_iff (hlast : ∀ c, part.getLast? = some c → Text.isBlank c = false) :
    parseFamily? part = some (f, n) ↔ FamilyText f part n := by
  have hrest {f : Family} {rest : List Char} (hpart : part = familyLetters f ++ rest) :
      ∀ c, rest.getLast? = some c → Text.isBlank c = false := by
    intro c hc
    refine hlast c ?_
    rw [hpart, List.getLast?_append, hc]
    rfl
  constructor
  · intro h
    obtain ⟨g, rest, rfl⟩ : ∃ g rest, part = familyLetters g ++ rest := by
      rw [parseFamily?.eq_def] at h
      split at h
      · exact ⟨.fixed, _, rfl⟩
      · exact ⟨.variable, _, rfl⟩
      · cases h
    rw [parseFamily?_append, Option.map_eq_some_iff] at h
    obtain ⟨k, hnumber, hpair⟩ := h
    cases hpair
    obtain ⟨blanks, number, rfl, hlength⟩ := (number?_trim_eq_some_iff (hrest rfl)).1 hnumber
    exact ⟨blanks, number, rfl, hlength⟩
  · rintro ⟨blanks, number, rfl, hlength⟩
    rw [parseFamily?_append, (number?_trim_eq_some_iff (hrest rfl)).2 ⟨_, _, rfl, hlength⟩]
    rfl

/-! ## Upper case -/

theorem upper_ends (hc : Text.isBlank c = false) :
    ∃ start d, upper c = start ++ [d] ∧ Text.isBlank d = false := by
  rw [upper]
  split
  · rename_i hsmall
    have htable : ∀ k < 128, Text.isBlank (Char.ofNat k) = false →
        Text.isBlank (Char.ofNat k).toUpper = false := by decide
    have hupper := htable c.toNat hsmall
    rw [Char.ofNat_toNat] at hupper
    exact ⟨[], _, rfl, hupper hc⟩
  · split
    case h_11 => exact ⟨[], c, rfl, hc⟩
    all_goals exact ⟨_, _, (List.dropLast_append_getLast (by decide)).symm, by decide⟩

theorem isBlank_of_getLast?_upper (hc : ((Text.trim t).flatMap upper).getLast? = some c) :
    Text.isBlank c = false := by
  rcases List.eq_nil_or_concat' (Text.trim t) with htrim | ⟨s, d, htrim⟩
  · rw [htrim] at hc
    cases hc
  · have hd : Text.isBlank d = false :=
      Text.isBlank_of_getLast?_trim (by rw [htrim, List.getLast?_concat])
    obtain ⟨start, e, hupper, he⟩ := upper_ends hd
    rw [htrim, List.flatMap_append, List.flatMap_singleton, hupper, ← List.append_assoc,
      List.getLast?_concat] at hc
    exact Option.some.inj hc ▸ he

theorem Selects.last_not_blank (h : Selects ((Text.trim t).flatMap upper) kind part) :
    ∀ c, part.getLast? = some c → Text.isBlank c = false := by
  intro c hc
  generalize hu : (Text.trim t).flatMap upper = u at h
  cases h with
  | bare =>
      rw [← hu] at hc
      exact isBlank_of_getLast?_upper hc
  | named content rest => exact Text.isBlank_of_getLast?_trim hc

/-- Only characters of ASCII and white space. -/
def Common (u : List Char) : Prop := ∀ c ∈ u, c.toNat < 128 ∨ Text.isBlank c = true

/-- A way to write characters in upper case that agrees with `upper` on every character of which one
of the two makes nothing but ASCII and white space. -/
def UpperCases (up : Char → List Char) : Prop :=
  ∀ c, Common (up c) ∨ Common (upper c) → up c = upper c

theorem common_append {v : List Char} : Common (u ++ v) ↔ Common u ∧ Common v :=
  List.forall_mem_append

theorem flatMap_eq_of_common {up : Char → List Char} (hup : UpperCases up)
    (h : Common (t.flatMap up) ∨ Common (t.flatMap upper)) : t.flatMap up = t.flatMap upper := by
  induction t with
  | nil => rfl
  | cons c t ih =>
      rw [List.flatMap_cons, List.flatMap_cons, common_append, common_append] at h
      rw [List.flatMap_cons, List.flatMap_cons, hup c (h.imp And.left And.left),
        ih (h.imp And.right And.right)]

/-- What only holds of common characters does not see in which way upper case is written. -/
theorem upper_case_iff {up : Char → List Char} (hup : UpperCases up) {p : List Char → Prop}
    (hp : ∀ u, p u → Common u) (t : List Char) : p (t.flatMap up) ↔ p (t.flatMap upper) := by
  constructor
  · intro h
    rwa [← flatMap_eq_of_common hup (.inl (hp _ h))]
  · intro h
    rwa [flatMap_eq_of_common hup (.inr (hp _ h))]

theorem Selects.common (h : Selects u kind part) (hpart : Common part) : Common u := by
  cases h with
  | bare => exact hpart
  | named content rest =>
      have hletters : Common (contentLetters content) := by
        cases content <;> simp [Common, contentLetters]
      obtain ⟨before, after, hbefore, hafter, hrest⟩ := Text.padded_trim rest
      have hslash : Common ('/' :: rest) := by
        rw [hrest]
        refine List.forall_mem_cons.2 ⟨.inl (by decide), common_append.2 ⟨?_, common_append.2 ?_⟩⟩
        · exact fun c hc => .inr (hbefore c hc)
        · exact ⟨hpart, fun c hc => .inr (hafter c hc)⟩
      exact common_append.2 ⟨hletters, hslash⟩

theorem FamilyText.common (h : FamilyText f part n) : Common part := by
  obtain ⟨blanks, number, rfl, hblanks, hnumeral, -⟩ := h
  have hletters : Common (familyLetters f) := by cases f <;> simp [Common, familyLetters]
  refine common_append.2 ⟨hletters, common_append.2 ⟨fun c hc => .inr (hblanks c hc), ?_⟩⟩
  exact fun c hc => .inl (Text.lt_of_mem_numeral hnumeral (by decide) hc)

theorem Names.common (h : Names u kind f n) : Common u := by
  obtain ⟨part, hselects, hfamily⟩ := h
  exact hselects.common hfamily.common

/-- The two texts for a program. -/
def IsProgram (u : List Char) : Prop := u = "PROGRAM".toList ∨ u = "PRG".toList

theorem IsProgram.common (h : IsProgram u) : Common u := by
  rcases h with rfl | rfl <;> simp [Common]

/-! ## What becomes of a text -/

/-- What is read from a text that is `u` when it is trimmed and in upper case. -/
structure Accepts (u : List Char) (s : String) : Prop where
  program : parse s = .ok .program ↔ IsProgram u
  fixed (kind : Option Content) (n : Nat) : Names u kind .fixed n → parse s =
    if h : 0 < n ∧ n ≤ 255 then .ok (.records ⟨kind.getD .internal, .fixed, n, h.1, h.2⟩)
    else .error (.recordLength n)
  varying (kind : Option Content) (n : Nat) : Names u kind .variable n → parse s =
    if h : 0 < n ∧ n ≤ 254 then .ok (.records ⟨kind.getD .display, .variable, n, h.1, h.2⟩)
    else .error (.recordLength n)
  other : ¬IsProgram u → (∀ kind f n, ¬Names u kind f n) → parse s = .error (.unrecognized s)

theorem Names.not_program (h : Names u kind f n) : ¬IsProgram u := by
  obtain ⟨part, hselects, blanks, number, hpart, -⟩ := h
  have hhead : u.head? ≠ some 'P' := by
    cases hselects with
    | bare => cases f <;> simp [hpart, familyLetters]
    | named content => cases content <;> simp [contentLetters]
  rintro (rfl | rfl) <;> exact hhead rfl

theorem parseContent?_parseFamily?_iff (hu : (Text.trim t).flatMap upper = u) :
    (do let (kind, rest) ← parseContent? u; return (kind, ← parseFamily? rest)) = some (kind, f, n)
      ↔ Names u kind f n := by
  simp only [Option.bind_eq_bind, Option.bind_eq_some_iff, Option.pure_def, Option.some.injEq,
    Prod.exists, Prod.mk.injEq, Names]
  constructor
  · rintro ⟨_, part, hcontent, _, _, hfamily, rfl, rfl, rfl⟩
    have hselects := parseContent?_eq_some_iff.1 hcontent
    exact ⟨part, hselects, (parseFamily?_eq_some_iff (hu ▸ hselects).last_not_blank).1 hfamily⟩
  · rintro ⟨part, hselects, hfamily⟩
    refine ⟨kind, part, parseContent?_eq_some_iff.2 hselects, f, n, ?_, rfl, rfl, rfl⟩
    exact (parseFamily?_eq_some_iff (hu ▸ hselects).last_not_blank).2 hfamily

theorem parse_of_names {s : String} (h : Names ((Text.trim s.toList).flatMap upper) kind f n) :
    parse s = (RecordFormat.make (kind.getD (usualContent f)) f n).map .records := by
  have hprogram := h.not_program
  rw [IsProgram] at hprogram
  simp only [parse]
  rw [if_neg hprogram, (parseContent?_parseFamily?_iff rfl).2 h]

theorem parse_of_not_names {s : String}
    (hprogram : ¬IsProgram ((Text.trim s.toList).flatMap upper))
    (h : ∀ kind f n, ¬Names ((Text.trim s.toList).flatMap upper) kind f n) :
    parse s = .error (.unrecognized s) := by
  rw [IsProgram] at hprogram
  simp only [parse]
  rw [if_neg hprogram]
  split
  · rfl
  · rename_i kind f n hnames
    exact absurd ((parseContent?_parseFamily?_iff rfl).1 hnames) (h kind f n)

theorem accepts_upper (s : String) : Accepts ((Text.trim s.toList).flatMap upper) s where
  program := by
    constructor
    · intro h
      by_contra hprogram
      by_cases hnames : ∃ kind f n, Names ((Text.trim s.toList).flatMap upper) kind f n
      · obtain ⟨kind, f, n, hnames⟩ := hnames
        rw [parse_of_names hnames] at h
        cases hmake : RecordFormat.make (kind.getD (usualContent f)) f n <;> rw [hmake] at h <;>
          cases h
      · push Not at hnames
        rw [parse_of_not_names hprogram hnames] at h
        cases h
    · exact fun h => if_pos h
  fixed kind n h := by
    rw [parse_of_names h, RecordFormat.make, apply_dite (Except.map records)]
    rfl
  varying kind n h := by
    rw [parse_of_names h, RecordFormat.make, apply_dite (Except.map records)]
    rfl
  other := parse_of_not_names

theorem accepts_of_upperCases {up : Char → List Char} (hup : UpperCases up) (s : String) :
    Accepts ((Text.trim s.toList).flatMap up) s := by
  have hprogram := upper_case_iff hup (fun _ => IsProgram.common) (Text.trim s.toList)
  have hnames (kind f n) :=
    upper_case_iff hup (p := (Names · kind f n)) (fun _ => Names.common) (Text.trim s.toList)
  have h := accepts_upper s
  refine ⟨h.program.trans hprogram.symm, fun kind n hn => h.fixed kind n ((hnames _ _ _).1 hn),
    fun kind n hn => h.varying kind n ((hnames _ _ _).1 hn), fun hp hn => h.other ?_ ?_⟩
  · exact fun hp' => hp (hprogram.2 hp')
  · exact fun kind f n hn' => hn kind f n ((hnames kind f n).2 hn')

/-- Whatever the way to write upper case, a text is read by its trimmed form in upper case alone.
The text of a format that was read is read as that format, and no other format has it. -/
theorem format_texts_read_exactly {up : Char → List Char} (hup : UpperCases up) :
    (∀ s : String, Accepts ((Text.trim s.toList).flatMap up) s)
      ∧ (∀ s f, parse s = .ok f → parse f.text = .ok f)
      ∧ Function.Injective text := by
  refine ⟨accepts_of_upperCases hup, fun _ f _ => parse_text f, fun f g h => ?_⟩
  exact Except.ok.inj (by rw [← parse_text f, h, parse_text g])

/-- An upper case of a letter that `upper` leaves as it is, and an upper case that is a letter of a
format. -/
theorem format_texts_read_exactly_letters :
    UpperCases (fun c => if c = 'é' then ['É'] else upper c)
      ∧ Accepts "DIS/ FIX  +080".toList " dıs/ Fix  +080 " ∧ Accepts "FIXÉ".toList "ﬁxé"
      ∧ parse " dıs/ Fix  +080 " = .ok (.records ⟨.display, .fixed, 80, by decide, by decide⟩)
      ∧ Function.Injective text := by
  have hup : UpperCases (fun c => if c = 'é' then ['É'] else upper c) := by
    intro c hc
    by_cases hletter : c = 'é'
    · subst hletter
      rcases hc with hc | hc
      · exact absurd (hc 'É' (by simp)) (by decide)
      · exact absurd (hc 'é' (by decide)) (by decide)
    · exact if_neg hletter
  obtain ⟨haccepts, -, hinjective⟩ := format_texts_read_exactly hup
  have hformat := haccepts " dıs/ Fix  +080 "
  have hblanks : Text.Blanks [' ', ' '] := by simp [Text.Blanks, Text.isBlank]
  have hnames : Names "DIS/ FIX  +080".toList (some .display) .fixed 80 := by
    refine ⟨_, .named .display " FIX  +080".toList, [' ', ' '], "+080".toList, by decide, hblanks,
      .inr ⟨"080".toList, rfl, by decide, [0, 8, 0], ?_, by decide⟩, by decide⟩
    exact .cons ⟨by decide, by decide⟩ (.cons ⟨by decide, by decide⟩
      (.cons ⟨by decide, by decide⟩ .nil))
  exact ⟨hup, hformat, haccepts "ﬁxé", hformat.fixed _ _ hnames, hinjective⟩

end

/-- No text of a format holds the start of a variable. -/
theorem brace_not_mem_text (f : FileFormat) : '\x7b' ∉ f.text.toList := by
  cases f with
  | program => decide
  | records r =>
      have hletters : '\x7b' ∉ letters r := by
        rw [letters]
        rcases r.content with _ | _
        all_goals rcases r.family with _ | _ <;> decide
      rw [toList_text, List.mem_append, not_or]
      refine ⟨hletters, fun hdigit => ?_⟩
      exact absurd (Text.isDigit_of_mem_paddedDigits hdigit) (by decide)

end FileFormat

end TiBench
