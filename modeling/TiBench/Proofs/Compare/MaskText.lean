import TiBench.Proofs.Compare.Mask
import TiBench.Proofs.Number
import TiBench.Proofs.Result

/-!
# Masks in text

Which texts are numbers, ranges and lists of ranges, which mask a list of them is read as, and
which item is reported if one of them is no range.
-/

namespace TiBench.Compare.Mask

open Text (Padded Blanks Numeral)

/-! ## Numbers -/

/-- A number in decimal, or in hexadecimal after its mark. -/
inductive Figure : List Char → Nat → Prop
  | decimal {s n} : Numeral 10 s n → Figure s n
  | hex {s n} : Numeral 16 s n → Figure ('0' :: 'x' :: s) n
  | upperHex {s n} : Numeral 16 s n → Figure ('0' :: 'X' :: s) n

/-- A number of 64 bits, with white space before and after it or without. -/
def NumberText (s : List Char) (n : Nat) : Prop :=
  ∃ figure, Padded s figure ∧ Figure figure n ∧ n < 2 ^ 64

variable {s p : List Char} {n : Nat} {r : Range} {ps : List (List Char)} {rs : List Range}

theorem Figure.plain {c : Char} (h : Figure s n) (hc : c ∈ s) :
    Text.isBlank c = false ∧ c ∉ [':', ','] := by
  have hnumeral {base : Nat} {s : List Char} (hs : Numeral base s n) (hbase : base ≤ 16)
      (hc : c ∈ s) : Text.isBlank c = false ∧ c ∉ [':', ','] := by
    obtain ⟨hblank, hplain⟩ := Text.plain_of_mem_numeral hs hbase hc
    simp only [List.mem_cons, not_or] at hplain ⊢
    exact ⟨hblank, hplain.1, hplain.2.1, List.not_mem_nil⟩
  cases h with
  | decimal hs => exact hnumeral hs (by decide) hc
  | hex hs | upperHex hs =>
      rcases List.mem_cons.1 hc with rfl | hc
      · decide
      · rcases List.mem_cons.1 hc with rfl | hc
        · decide
        · exact hnumeral hs (by decide) hc

theorem Figure.trim_eq (h : Figure s n) : Text.trim s = s :=
  Text.trim_of_forall fun _ hc => (h.plain hc).1

theorem NumberText.not_mem (h : NumberText s n) : ':' ∉ s ∧ ',' ∉ s := by
  obtain ⟨figure, ⟨before, after, hbefore, hafter, rfl⟩, hfigure, -⟩ := h
  have hsep {c : Char} (hblank : Text.isBlank c = false) (hc : c ∈ [':', ',']) :
      c ∉ before ++ (figure ++ after) := by
    simp only [List.mem_append, not_or]
    refine ⟨fun h => ?_, fun h => (hfigure.plain h).2 hc, fun h => ?_⟩
    · exact Bool.false_ne_true (hblank ▸ hbefore c h)
    · exact Bool.false_ne_true (hblank ▸ hafter c h)
  exact ⟨hsep rfl (by decide), hsep rfl (by decide)⟩

theorem parseNumber?_eq_some_iff : parseNumber? s = some n ↔ NumberText s n := by
  have hbound : Text.bound64 = 2 ^ 64 := by decide
  constructor
  · intro h
    refine ⟨Text.trim s, Text.padded_trim s, ?_⟩
    unfold parseNumber? at h
    split at h
    · rename_i hs
      rw [Text.number?_eq_some_iff (by decide), hbound] at h
      exact hs ▸ ⟨.hex h.1, h.2⟩
    · rename_i hs
      rw [Text.number?_eq_some_iff (by decide), hbound] at h
      exact hs ▸ ⟨.upperHex h.1, h.2⟩
    · rw [Text.number?_eq_some_iff (by decide), hbound] at h
      exact ⟨.decimal h.1, h.2⟩
  · rintro ⟨figure, hpad, hfigure, hlt⟩
    have htrim : Text.trim s = figure := (Text.trim_of_padded hpad).trans hfigure.trim_eq
    unfold parseNumber?
    rw [htrim]
    cases hfigure with
    | hex hs => exact (Text.number?_eq_some_iff (by decide)).2 ⟨hs, hbound ▸ hlt⟩
    | upperHex hs => exact (Text.number?_eq_some_iff (by decide)).2 ⟨hs, hbound ▸ hlt⟩
    | decimal hs =>
        have hmark {c : Char} (hc : c = 'x' ∨ c = 'X') {rest : List Char}
            (hfigure : figure = '0' :: c :: rest) : False := by
          have hplain := (Text.plain_of_mem_numeral hs (by decide)
            (hfigure ▸ List.mem_cons_of_mem _ List.mem_cons_self)).2
          rcases hc with rfl | rfl <;> exact hplain (by decide)
        split
        · rename_i hfigure
          exact (hmark (Or.inl rfl) rfl).elim
        · exact (hmark (Or.inr rfl) rfl).elim
        · exact (Text.number?_eq_some_iff (by decide)).2 ⟨hs, hbound ▸ hlt⟩

/-! ## Ranges -/

/-- An offset, a colon and a length. -/
def RangeText (p : List Char) (r : Range) : Prop :=
  ∃ offset length, p = offset ++ ':' :: length ∧ NumberText offset r.offset
    ∧ NumberText length r.length

theorem parseRange?_eq_some_iff : parseRange? p = some r ↔ RangeText p r := by
  rw [parseRange?]
  simp only [Option.bind_eq_bind, Option.bind_eq_some_iff, Prod.exists,
    Pieces.splitOnce_eq_some_iff, parseNumber?_eq_some_iff, Option.pure_def, Option.some.injEq]
  constructor
  · rintro ⟨offset, length, ⟨c, rfl, hc, -⟩, o, ho, l, hl, rfl⟩
    exact ⟨offset, length, by rw [eq_of_beq hc], ho, hl⟩
  · rintro ⟨offset, length, rfl, ho, hl⟩
    refine ⟨offset, length, ⟨':', rfl, by decide, fun c hc => ?_⟩, _, ho, _, hl, rfl⟩
    exact beq_false_of_ne fun heq => ho.not_mem.1 (heq ▸ hc)

theorem parseNumber?_congr {t : List Char} (h : Text.trim s = Text.trim t) :
    parseNumber? s = parseNumber? t := by
  rw [parseNumber?, parseNumber?, h]

/-- White space around a range is white space around its numbers. -/
theorem parseRange?_trim (p : List Char) : parseRange? (Text.trim p) = parseRange? p := by
  rw [parseRange?, parseRange?]
  cases hp : Pieces.splitOnce (· == ':') p with
  | none =>
      obtain ⟨before, after, -, -, hpad⟩ := Text.padded_trim p
      have hnone : Pieces.splitOnce (· == ':') (Text.trim p) = none := by
        rw [Pieces.splitOnce_eq_none_iff] at hp ⊢
        intro c hc
        exact hp c (hpad ▸ List.mem_append_right _ (List.mem_append_left _ hc))
      rw [hnone]
  | some parts =>
      obtain ⟨offset, length⟩ := parts
      obtain ⟨c, rfl, hc, hoffset⟩ := Pieces.splitOnce_eq_some_iff.1 hp
      obtain rfl := eq_of_beq hc
      have htrim := Text.trim_append_cons (show Text.isBlank ':' = false from rfl) offset length
      have hsplit : Pieces.splitOnce (· == ':') (Text.trim (offset ++ ':' :: length))
          = some (offset.dropWhile Text.isBlank, Text.trimEnd length) :=
        Pieces.splitOnce_eq_some_iff.2 ⟨':', htrim, hc,
          fun c hc => hoffset c ((List.dropWhile_sublist _).subset hc)⟩
      rw [hsplit]
      simp only [Option.bind_eq_bind, Option.bind_some,
        parseNumber?_congr (Text.trim_dropWhile offset),
        parseNumber?_congr (Text.trim_trimEnd length)]

/-! ## Lists of ranges -/

/-- What stands between commas, and the ranges that it gives in their order. -/
inductive Items : List (List Char) → List Range → Prop
  | nil : Items [] []
  | blank {p : List Char} {ps : List (List Char)} {rs : List Range} :
      Blanks p → Items ps rs → Items (p :: ps) rs
  | range {p : List Char} {r : Range} {ps : List (List Char)} {rs : List Range} :
      RangeText p r → Items ps rs → Items (p :: ps) (r :: rs)

/-- No white space, and no colon or something else than a number before or after the first one. -/
inductive BadItem : List Char → Prop
  | colon {p : List Char} : ¬Blanks p → ':' ∉ p → BadItem p
  | number {offset length : List Char} : ':' ∉ offset →
      (∀ n, ¬NumberText offset n) ∨ (∀ n, ¬NumberText length n) → BadItem (offset ++ ':' :: length)

theorem RangeText.not_blank (h : RangeText p r) : ¬Blanks p := by
  obtain ⟨offset, length, rfl, -⟩ := h
  exact fun hblank => Bool.false_ne_true
    (hblank ':' (List.mem_append_right _ List.mem_cons_self))

theorem badItem_iff : BadItem p ↔ ¬Blanks p ∧ ∀ r, ¬RangeText p r := by
  constructor
  · intro h
    cases h with
    | colon hblank hcolon =>
        refine ⟨hblank, ?_⟩
        rintro r ⟨offset, length, rfl, -⟩
        exact hcolon (List.mem_append_right _ List.mem_cons_self)
    | number hoffset hnumber =>
        refine ⟨fun hblank => Bool.false_ne_true
          (hblank ':' (List.mem_append_right _ List.mem_cons_self)), ?_⟩
        rintro r ⟨offset, length, heq, ho, hl⟩
        obtain ⟨rfl, rfl⟩ := Pieces.append_cons_inj hoffset ho.not_mem.1 heq
        exact hnumber.elim (fun h => h _ ho) fun h => h _ hl
  · rintro ⟨hblank, hrange⟩
    cases hp : Pieces.splitOnce (· == ':') p with
    | none =>
        rw [Pieces.splitOnce_eq_none_iff] at hp
        exact .colon hblank fun hcolon => absurd (hp _ hcolon) (by decide)
    | some parts =>
        obtain ⟨c, rfl, hc, hoffset⟩ := Pieces.splitOnce_eq_some_iff.1 hp
        obtain rfl := eq_of_beq hc
        refine .number (fun hcolon => absurd (hoffset _ hcolon) (by decide)) ?_
        by_contra hnumber
        push Not at hnumber
        obtain ⟨⟨n, hn⟩, k, hk⟩ := hnumber
        exact hrange ⟨n, k⟩ ⟨_, _, rfl, hn, hk⟩

/-- The ranges that items give. -/
def itemRanges (ps : List (List Char)) : Except BadRange (List Range) :=
  ((ps.map Text.trim).filter fun i => !i.isEmpty).mapM fun item =>
    match parseRange? item with
    | some r => .ok r
    | none => .error ⟨String.ofList item⟩

theorem parse_eq (s : String) :
    parse s = (itemRanges (Pieces.splitOn (· == ',') s.toList)).map ofRanges := rfl

theorem itemRanges_blank (h : Blanks p) (ps : List (List Char)) :
    itemRanges (p :: ps) = itemRanges ps := by
  rw [itemRanges, List.map_cons, Text.trim_eq_nil_iff.2 h]
  rfl

theorem itemRanges_of_not_blank (h : ¬Blanks p) (ps : List (List Char)) :
    itemRanges (p :: ps) = match parseRange? p with
      | some r => (itemRanges ps).map (r :: ·)
      | none => .error ⟨String.ofList (Text.trim p)⟩ := by
  have hne : (Text.trim p).isEmpty = false := by
    rw [List.isEmpty_eq_false_iff, ne_eq, Text.trim_eq_nil_iff]
    exact h
  rw [itemRanges, List.map_cons, List.filter_cons, hne, Bool.not_false, if_pos rfl, List.mapM_cons,
    parseRange?_trim]
  cases parseRange? p with
  | none => rfl
  | some r => rfl

theorem itemRanges_append (h : Items ps rs) (more : List (List Char)) :
    itemRanges (ps ++ more) = (itemRanges more).map (rs ++ ·) := by
  induction h with
  | nil =>
      rw [List.nil_append]
      cases itemRanges more <;> rfl
  | blank hp _ ih => rw [List.cons_append, itemRanges_blank hp, ih]
  | range hr _ ih =>
      rw [List.cons_append, itemRanges_of_not_blank hr.not_blank, parseRange?_eq_some_iff.2 hr]
      dsimp only
      rw [ih]
      cases itemRanges more <;> rfl

theorem itemRanges_of_items (h : Items ps rs) : itemRanges ps = .ok rs := by
  have happend := itemRanges_append h []
  rw [List.append_nil] at happend
  rw [happend]
  exact congrArg _ (List.append_nil rs)

theorem itemRanges_of_bad (h : BadItem p) (ps : List (List Char)) :
    itemRanges (p :: ps) = .error ⟨String.ofList (Text.trim p)⟩ := by
  obtain ⟨hblank, hrange⟩ := badItem_iff.1 h
  have hnone : parseRange? p = none := Option.eq_none_iff_forall_ne_some.2
    fun r hr => hrange r (parseRange?_eq_some_iff.1 hr)
  rw [itemRanges_of_not_blank hblank, hnone]

/-- All items are ranges or white space, or there is a first one that is neither. -/
theorem items_or_bad (ps : List (List Char)) : (∃ rs, Items ps rs)
    ∨ ∃ before p after rs, ps = before ++ p :: after ∧ Items before rs ∧ BadItem p := by
  induction ps with
  | nil => exact Or.inl ⟨[], .nil⟩
  | cons p ps ih =>
      by_cases hblank : Blanks p
      · rcases ih with ⟨rs, hrs⟩ | ⟨before, q, after, rs, rfl, hrs, hq⟩
        · exact Or.inl ⟨rs, .blank hblank hrs⟩
        · exact Or.inr ⟨p :: before, q, after, rs, rfl, .blank hblank hrs, hq⟩
      · by_cases hrange : ∃ r, RangeText p r
        · obtain ⟨r, hr⟩ := hrange
          rcases ih with ⟨rs, hrs⟩ | ⟨before, q, after, rs, rfl, hrs, hq⟩
          · exact Or.inl ⟨r :: rs, .range hr hrs⟩
          · exact Or.inr ⟨p :: before, q, after, r :: rs, rfl, .range hr hrs, hq⟩
        · exact Or.inr ⟨[], p, ps, [], rfl, .nil,
            badItem_iff.2 ⟨hblank, fun r hr => hrange ⟨r, hr⟩⟩⟩

/-- The text cut at all its commas. -/
structure Cut (s : String) (ps : List (List Char)) : Prop where
  joined : s.toList = [','].intercalate ps
  ne_nil : ps ≠ []
  no_comma : ∀ p ∈ ps, ',' ∉ p

theorem cut_iff {s : String} : Cut s ps ↔ Pieces.splitOn (· == ',') s.toList = ps := by
  constructor
  · intro h
    rw [h.joined, Pieces.splitOn_intercalate h.ne_nil h.no_comma]
  · rintro rfl
    refine ⟨(Pieces.intercalate_splitOn ',' s.toList).symm, ?_, fun p hp hcomma => ?_⟩
    · obtain ⟨piece, more, hcut⟩ := Pieces.splitOn_eq_cons (· == ',') s.toList
      rw [hcut]
      exact List.cons_ne_nil _ _
    · exact absurd (Pieces.not_sep_of_mem_splitOn hp _ hcomma) (by decide)

/-- The text is ranges with commas between them, with nothing but white space between some of the
commas. -/
def Spells (s : String) (rs : List Range) : Prop := ∃ ps, Cut s ps ∧ Items ps rs

/-- The first item of the text that is neither a range nor white space. -/
def FirstBad (s : String) (p : List Char) : Prop :=
  ∃ before after rs, Cut s (before ++ p :: after) ∧ Items before rs ∧ BadItem p

theorem parse_of_spells {s : String} (h : Spells s rs) : parse s = .ok (ofRanges rs) := by
  obtain ⟨ps, hcut, hitems⟩ := h
  rw [parse_eq, cut_iff.1 hcut, itemRanges_of_items hitems]
  rfl

theorem parse_of_firstBad {s : String} (h : FirstBad s p) :
    parse s = .error ⟨String.ofList (Text.trim p)⟩ := by
  obtain ⟨before, after, rs, hcut, hitems, hbad⟩ := h
  rw [parse_eq, cut_iff.1 hcut, itemRanges_append hitems, itemRanges_of_bad hbad]
  rfl

theorem spells_or_firstBad (s : String) : (∃ rs, Spells s rs) ∨ ∃ p, FirstBad s p := by
  rcases items_or_bad (Pieces.splitOn (· == ',') s.toList) with
    ⟨rs, hrs⟩ | ⟨before, p, after, rs, hsplit, hrs, hp⟩
  · exact Or.inl ⟨rs, _, cut_iff.2 rfl, hrs⟩
  · exact Or.inr ⟨p, before, after, rs, cut_iff.2 hsplit, hrs, hp⟩

theorem parse_eq_ok_iff {s : String} {m : Mask} :
    parse s = .ok m ↔ ∃ rs, Spells s rs ∧ m = ofRanges rs := by
  constructor
  · intro h
    rcases spells_or_firstBad s with ⟨rs, hrs⟩ | ⟨p, hp⟩
    · rw [parse_of_spells hrs] at h
      exact ⟨rs, hrs, (Except.ok.inj h).symm⟩
    · rw [parse_of_firstBad hp] at h
      cases h
  · rintro ⟨rs, hrs, rfl⟩
    exact parse_of_spells hrs

theorem parse_eq_error_iff {s : String} {e : BadRange} :
    parse s = .error e ↔ ∃ p, FirstBad s p ∧ e = ⟨String.ofList (Text.trim p)⟩ := by
  constructor
  · intro h
    rcases spells_or_firstBad s with ⟨rs, hrs⟩ | ⟨p, hp⟩
    · rw [parse_of_spells hrs] at h
      cases h
    · rw [parse_of_firstBad hp] at h
      exact ⟨p, hp, (Except.error.inj h).symm⟩
  · rintro ⟨p, hp, rfl⟩
    exact parse_of_firstBad hp

/-! ## Masks that are put together -/

/-- The ways to make a mask, and the ranges that were given for it. -/
inductive Built : Mask → List Range → Prop
  | ranges (rs : List Range) : Built (ofRanges rs) rs
  | more {m : Mask} {rs : List Range} (r : Range) : Built m rs → Built (m.insert r) (rs ++ [r])
  | union {a b : Mask} {rs ss : List Range} :
      Built a rs → Built b ss → Built (a.merge b) (rs ++ ss)
  | text {s : String} {m : Mask} {rs : List Range} : parse s = .ok m → Spells s rs → Built m rs

theorem Built.ordered {m : Mask} (h : Built m rs) : m.Ordered := by
  induction h with
  | ranges rs => exact ordered_ofRanges rs
  | more r _ ih => exact ih.insert r
  | union _ _ iha _ => exact iha.merge _
  | text hparse hrs =>
      rw [parse_of_spells hrs] at hparse
      exact Except.ok.inj hparse ▸ ordered_ofRanges _

theorem Built.perm {m : Mask} (h : Built m rs) : m.ranges.Perm (held rs) := by
  induction h with
  | ranges rs => exact ofRanges_perm rs
  | more r _ ih =>
      rw [held, List.filter_append]
      exact (insert_perm _ r).trans (ih.append_right _)
  | union _ hb iha ihb =>
      rw [held, List.filter_append]
      exact (merge_perm _ hb.ordered).trans (iha.append ihb)
  | text hparse hrs =>
      rw [parse_of_spells hrs] at hparse
      exact Except.ok.inj hparse ▸ ofRanges_perm _

/-- However a mask is made, it is the mask of the ranges that were given. -/
theorem Built.eq_ofRanges {m : Mask} (h : Built m rs) : m = ofRanges rs :=
  h.ordered.eq_of_perm (ordered_ofRanges rs) (h.perm.trans (ofRanges_perm rs).symm)

/-- A mask has its ranges in ascending order and none without bytes, covers the bytes of the ranges
that were given, unless one reaches the last offset of all, and does not depend on their order or on
how masks are merged. A list of ranges in text is read as the mask of these ranges, and any
other text is refused with its first bad item. -/
theorem masks_canonical_and_read :
    (∀ m rs, Built m rs → m.ranges.Pairwise Range.Before ∧ (∀ r ∈ m.ranges, 0 < r.length)
      ∧ (∀ i, m.contains i = true ↔ ∃ r ∈ rs, r.offset ≤ i ∧ i < r.stop)
      ∧ ((∀ r ∈ rs, r.offset + r.length < 2 ^ 64) → ∀ i,
        m.contains i = true ↔ ∃ r ∈ rs, r.offset ≤ i ∧ i < r.offset + r.length)
      ∧ m = ofRanges rs)
    ∧ (∀ rs ss : List Range, rs.Perm ss → ofRanges rs = ofRanges ss)
    ∧ (∀ a b c rs ss ts, Built a rs → Built b ss → Built c ts →
      a.merge b = b.merge a ∧ (a.merge b).merge c = a.merge (b.merge c))
    ∧ (∀ s m, parse s = .ok m ↔ ∃ rs, Spells s rs ∧ m = ofRanges rs)
    ∧ ∀ s e, parse s = .error e ↔ ∃ p, FirstBad s p ∧ e = ⟨String.ofList (Text.trim p)⟩ := by
  refine ⟨fun m rs h => ⟨h.ordered.ascending, h.ordered.length_pos, fun i => ?_,
      fun hlast i => ?_, h.eq_ofRanges⟩,
    fun _ _ => ofRanges_eq_of_perm, fun a b c rs ss ts ha hb hc => ?_,
    fun _ _ => parse_eq_ok_iff, fun _ _ => parse_eq_error_iff⟩
  · rw [h.eq_ofRanges, contains_eq_true_iff, covers_ofRanges]
  · rw [h.eq_ofRanges, contains_eq_true_iff, covers_ofRanges_of_lt hlast]
  · exact ⟨ha.ordered.merge_comm hb.ordered, ha.ordered.merge_assoc hb.ordered hc.ordered⟩

/-- Ranges in both kinds of numbers with an empty item between them, and a bad item. -/
theorem masks_canonical_and_read_mixed :
    parse "0x1F:+08, ,3: 2" = .ok (ofRanges [⟨3, 2⟩, ⟨31, 8⟩])
      ∧ (ofRanges [⟨3, 2⟩, ⟨31, 8⟩]).contains 38 = true
      ∧ (ofRanges [⟨3, 2⟩, ⟨31, 8⟩]).merge (ofRanges [⟨0, 9⟩])
        = (ofRanges [⟨0, 9⟩]).merge (ofRanges [⟨3, 2⟩, ⟨31, 8⟩])
      ∧ ∃ p, FirstBad "1:2, 0x:1 ,9" p ∧ String.ofList (Text.trim p) = "0x:1" := by
  obtain ⟨hbuilt, hperm, hmerge, hok, herror⟩ := masks_canonical_and_read
  have hparse : parse "0x1F:+08, ,3: 2" = .ok (ofRanges [⟨3, 2⟩, ⟨31, 8⟩]) := by decide +kernel
  obtain ⟨rs, hrs, hranges⟩ := (hok _ _).1 hparse
  have htext : Built (ofRanges [⟨3, 2⟩, ⟨31, 8⟩]) rs := .text hparse hrs
  have hother := Built.ranges [⟨0, 9⟩]
  obtain ⟨p, hp, hbad⟩ := (herror "1:2, 0x:1 ,9" ⟨"0x:1"⟩).1 (by decide +kernel)
  refine ⟨hparse, ?_, (hmerge _ _ _ _ _ _ htext hother hother).1, p, hp, ?_⟩
  · rw [hperm _ [⟨31, 8⟩, ⟨3, 2⟩] (.swap _ _ _)]
    exact ((hbuilt _ _ (.ranges _)).2.2.2.1 (by decide) 38).2 ⟨⟨31, 8⟩, by decide, by decide⟩
  · exact (BadRange.mk.inj hbad).symm

end TiBench.Compare.Mask
