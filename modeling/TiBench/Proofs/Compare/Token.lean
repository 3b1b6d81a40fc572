import TiBench.Compare.Token
import TiBench.Proofs.Number
import Mathlib.Data.List.Infix

/-!
# Laws of tokens

The tokens of a text, written out again, are the text but for the case of letters and the carriage
returns of its line breaks, and they are read as the same tokens. Left out are texts with two
carriage returns before a line feed: the first one is kept, and then stands before the line feed.
-/

namespace TiBench.Compare

namespace Token

variable {c : Char} {s src rest rest' txt : List Char} {t : Token}

/-! ## One token -/

/-- The text `src` is read as the token `t` if `rest` follows. -/
inductive Spells : List Char → Token → List Char → Prop
  | literal {c : Char} {rest : List Char} (hslash : c ≠ '\\') (hfeed : c ≠ '\n')
      (hreturn : c = '\r' → rest.head? ≠ some '\n') : Spells [c] (.literal c) rest
  | byte {x high low : Char} {h l : Nat} {rest : List Char} (hx : x = 'x' ∨ x = 'X')
      (hhigh : Text.digit? 16 high = some h) (hlow : Text.digit? 16 low = some l) :
      Spells ['\\', x, high, low] (.byte (UInt8.ofNat (h * 16 + l))) rest
  | escape {c : Char} {rest : List Char} (hc : c ∈ escapable) : Spells ['\\', c] (.escape c) rest
  | unknown {c : Char} {rest : List Char} (hc : c ∉ escapable) (hx : ¬(c = 'x' ∨ c = 'X')) :
      Spells ['\\', c] (.malformed ['\\', c]) rest
  | notHex {x high low : Char} {rest : List Char} (hx : x = 'x' ∨ x = 'X')
      (hnone : Text.digit? 16 high = none ∨ Text.digit? 16 low = none) :
      Spells ['\\', x, high, low] (.malformed ['\\', 'x', high, low]) rest
  | cutHex {x : Char} {s : List Char} (hx : x = 'x' ∨ x = 'X') (hs : s.length ≤ 1) :
      Spells ('\\' :: x :: s) (.malformed ('\\' :: 'x' :: s)) []
  | slash : Spells ['\\'] (.malformed ['\\']) []
  | lineFeed {rest : List Char} : Spells ['\n'] .lineBreak rest
  | returnFeed {rest : List Char} : Spells ['\r', '\n'] .lineBreak rest

theorem ofHex_of_some {high low : Char} {h l : Nat} (hhigh : Text.digit? 16 high = some h)
    (hlow : Text.digit? 16 low = some l) : ofHex high low = .byte (UInt8.ofNat (h * 16 + l)) := by
  rw [ofHex, hhigh, hlow]

theorem ofHex_of_none {high low : Char}
    (h : Text.digit? 16 high = none ∨ Text.digit? 16 low = none) :
    ofHex high low = .malformed ['\\', 'x', high, low] := by
  rw [ofHex]
  rcases h with h | h
  · rw [h]
  · rw [h]; cases Text.digit? 16 high <;> rfl

attribute [local simp] tokenize

theorem tokenize_literal (hslash : c ≠ '\\') (hfeed : c ≠ '\n')
    (hreturn : c = '\r' → rest.head? ≠ some '\n') :
    tokenize (c :: rest) = .literal c :: tokenize rest := by
  rw [tokenize]
  · rintro more rfl rfl
    exact hreturn rfl rfl
  all_goals simp [hslash, hfeed]

theorem tokenize_escape (hx : ¬(c = 'x' ∨ c = 'X')) (rest : List Char) :
    tokenize ('\\' :: c :: rest) = ofEscape c :: tokenize rest := by
  rw [not_or] at hx
  rw [tokenize] <;> simp [hx]

theorem tokenize_hex {x : Char} (hx : x = 'x' ∨ x = 'X') (high low : Char) (rest : List Char) :
    tokenize ('\\' :: x :: high :: low :: rest) = ofHex high low :: tokenize rest := by
  rcases hx with rfl | rfl <;> rw [tokenize]

theorem tokenize_cutHex {x : Char} (hx : x = 'x' ∨ x = 'X') (hs : s.length ≤ 1) :
    tokenize ('\\' :: x :: s) = [.malformed ('\\' :: 'x' :: s)] := by
  have hshort : ∀ high low more, s = high :: low :: more → False := by
    rintro high low more rfl
    simp at hs
  rcases hx with rfl | rfl <;> rw [tokenize] <;> exact hshort

theorem Spells.tokenize_append (h : Spells src t rest) :
    tokenize (src ++ rest) = t :: tokenize rest := by
  cases h with
  | literal hslash hfeed hreturn => exact tokenize_literal hslash hfeed hreturn
  | byte hx hhigh hlow => exact (tokenize_hex hx _ _ rest).trans (by rw [ofHex_of_some hhigh hlow])
  | escape hc =>
      refine (tokenize_escape ?_ rest).trans (by rw [ofEscape, if_pos hc])
      rintro (rfl | rfl) <;> exact absurd hc (by decide)
  | unknown hc hx => exact (tokenize_escape hx rest).trans (by rw [ofEscape, if_neg hc])
  | notHex hx hnone => exact (tokenize_hex hx _ _ rest).trans (by rw [ofHex_of_none hnone])
  | cutHex hx hs => rw [List.append_nil, tokenize_cutHex hx hs, tokenize]
  | slash => rw [List.append_nil, tokenize, tokenize]
  | lineFeed => exact tokenize.eq_3 rest
  | returnFeed => exact tokenize.eq_2 rest

/-- Every text starts with a token. -/
theorem exists_spells (c : Char) (s : List Char) :
    ∃ src t rest, c :: s = src ++ rest ∧ src ≠ [] ∧ Spells src t rest := by
  by_cases hslash : c = '\\'
  · subst hslash
    cases s with
    | nil => exact ⟨['\\'], _, [], rfl, List.cons_ne_nil _ _, .slash⟩
    | cons x s =>
        by_cases hx : x = 'x' ∨ x = 'X'
        · by_cases hs : s.length ≤ 1
          · exact ⟨'\\' :: x :: s, _, [], (List.append_nil _).symm, List.cons_ne_nil _ _,
              .cutHex hx hs⟩
          · obtain ⟨high, low, rest, rfl⟩ : ∃ high low rest, s = high :: low :: rest := by
              match s with
              | [] | [_] => simp at hs
              | high :: low :: rest => exact ⟨high, low, rest, rfl⟩
            refine ⟨['\\', x, high, low], ofHex high low, rest, rfl, List.cons_ne_nil _ _, ?_⟩
            cases hhigh : Text.digit? 16 high with
            | none => exact ofHex_of_none (Or.inl hhigh) ▸ .notHex hx (Or.inl hhigh)
            | some h =>
                cases hlow : Text.digit? 16 low with
                | none => exact ofHex_of_none (Or.inr hlow) ▸ .notHex hx (Or.inr hlow)
                | some l => exact ofHex_of_some hhigh hlow ▸ .byte hx hhigh hlow
        · by_cases hc : x ∈ escapable
          · exact ⟨['\\', x], _, s, rfl, List.cons_ne_nil _ _, .escape hc⟩
          · exact ⟨['\\', x], _, s, rfl, List.cons_ne_nil _ _, .unknown hc hx⟩
  · by_cases hfeed : c = '\n'
    · exact ⟨['\n'], _, s, by rw [hfeed]; rfl, List.cons_ne_nil _ _, .lineFeed⟩
    · by_cases hreturn : c = '\r' ∧ s.head? = some '\n'
      · obtain ⟨rest, hs⟩ := List.head?_eq_some_iff.1 hreturn.2
        exact ⟨['\r', '\n'], _, rest, by rw [hreturn.1, hs]; rfl, List.cons_ne_nil _ _, .returnFeed⟩
      · exact ⟨[c], _, s, rfl, List.cons_ne_nil _ _,
          .literal hslash hfeed fun hc hs => hreturn ⟨hc, hs⟩⟩

/-- A text is read token by token. -/
theorem spells_induction {motive : List Char → Prop} (nil : motive [])
    (step : ∀ src t rest, Spells src t rest → motive rest → motive (src ++ rest))
    (txt : List Char) : motive txt := by
  induction hlen : txt.length using Nat.strongRecOn generalizing txt with
  | ind k ih =>
      cases txt with
      | nil => exact nil
      | cons c s =>
          obtain ⟨src, t, rest, htxt, hne, hspells⟩ := exists_spells c s
          have hpos := List.length_pos_iff.2 hne
          rw [htxt] at hlen ⊢
          rw [List.length_append] at hlen
          exact step src t rest hspells (ih _ (by omega) rest rfl)

/-! ## Tokens written out -/

theorem untokenize_cons (t : Token) (ts : List Token) :
    untokenize (t :: ts) = t.source ++ untokenize ts := List.flatMap_cons

theorem source_byte {h l : Nat} (hh : h < 16) (hl : l < 16) :
    source (.byte (UInt8.ofNat (h * 16 + l))) = ['\\', 'x', Text.hexDigit h, Text.hexDigit l] := by
  have hb : (UInt8.ofNat (h * 16 + l)).toNat = h * 16 + l :=
    UInt8.toNat_ofNat_of_lt' (by rw [UInt8.size]; omega)
  rw [source, Text.toList_hex_two (UInt8.toNat_lt _), hb, show (h * 16 + l) / 16 = h by omega,
    show (h * 16 + l) % 16 = l by omega]

theorem Spells.byte_source (b : UInt8) (rest : List Char) :
    Spells (source (.byte b)) (.byte b) rest := by
  have hlt := b.toNat_lt
  have hhigh : b.toNat / 16 < 16 := by omega
  have hlow : b.toNat % 16 < 16 := by omega
  have hb : b = UInt8.ofNat (b.toNat / 16 * 16 + b.toNat % 16) := by
    rw [Nat.div_add_mod', UInt8.ofNat_toNat]
  rw [hb, source_byte hhigh hlow]
  exact .byte (Or.inl rfl) (Text.digit?_hexDigit _ hhigh) (Text.digit?_hexDigit _ hlow)

/-- A token is written as it is read, in front of any text that goes on in the same way. -/
theorem Spells.source_spells (h : Spells src t rest)
    (hhead : src.getLast? = some '\r' → (rest'.head? = some '\n' ↔ rest.head? = some '\n'))
    (hnil : rest = [] → rest' = []) : Spells t.source t rest' := by
  cases h with
  | literal hslash hfeed hreturn =>
      refine .literal hslash hfeed fun hc => ?_
      rw [Ne, hhead (by rw [hc]; rfl)]
      exact hreturn hc
  | byte => exact .byte_source _ _
  | escape hc => exact .escape hc
  | unknown hc hx => exact .unknown hc hx
  | notHex hx hnone => exact .notHex (Or.inl rfl) hnone
  | cutHex hx hs => exact hnil rfl ▸ .cutHex (Or.inl rfl) hs
  | slash => exact hnil rfl ▸ .slash
  | lineFeed => exact .lineFeed
  | returnFeed => exact .lineFeed

/-- The tokens of a text are written with a line feed first if and only if it starts with a line
break. -/
theorem head?_untokenize (txt : List Char) : (untokenize (tokenize txt)).head? = some '\n'
    ↔ txt.head? = some '\n' ∨ ['\r', '\n'] <+: txt := by
  cases txt with
  | nil => simp [untokenize]
  | cons c s =>
      obtain ⟨src, t, rest, htxt, -, hspells⟩ := exists_spells c s
      rw [htxt, hspells.tokenize_append, untokenize_cons]
      cases hspells with
      | @literal d rest hslash hfeed hreturn =>
          have hpair : ¬['\r', '\n'] <+: d :: rest := by
            rintro ⟨more, hmore⟩
            obtain ⟨rfl, rfl⟩ := List.cons.inj hmore
            exact hreturn rfl rfl
          simp [source, hfeed, hpair]
      | _ => simp [source]

/-! ## Case and line breaks -/

/-- A text without the carriage returns of its line breaks, in lower case. -/
def folded (txt : List Char) : List Char :=
  (Pieces.dropBefore '\r' '\n' txt).map Char.toLower

theorem folded_cons (h : ¬(c = '\r' ∧ s.head? = some '\n')) :
    folded (c :: s) = c.toLower :: folded s := by
  rw [folded, Pieces.dropBefore_cons h]
  rfl

theorem folded_pair (h : c = '\r' ∧ s.head? = some '\n') : folded (c :: s) = folded s := by
  rw [folded, Pieces.dropBefore, if_pos h]
  rfl

theorem folded_cons_of_ne (h : c ≠ '\r') (s : List Char) :
    folded (c :: s) = c.toLower :: folded s := folded_cons fun hc => h hc.1

theorem folded_hex {x : Char} (hx : x = 'x' ∨ x = 'X') (s : List Char) :
    folded ('\\' :: x :: s) = '\\' :: 'x' :: folded s := by
  rw [folded_cons_of_ne (by decide)]
  rcases hx with rfl | rfl <;> rw [folded_cons_of_ne (by decide)] <;> rfl

theorem folded_digit {n : Nat} (h : Text.digit? 16 c = some n) (s : List Char) :
    folded (c :: s) = (Text.hexDigit n).toLower :: folded s := by
  have hc : c ≠ '\r' := by
    rintro rfl
    cases h
  rw [folded_cons_of_ne hc, (Text.of_digit?_eq_some h).2]

/-- Texts that differ behind a common start differ there alone. -/
theorem folded_append_congr (hrest : folded rest' = folded rest)
    (hhead : src.getLast? = some '\r' → (rest'.head? = some '\n' ↔ rest.head? = some '\n')) :
    folded (src ++ rest') = folded (src ++ rest) := by
  induction src with
  | nil => exact hrest
  | cons c src ih =>
      have hsrc : folded (src ++ rest') = folded (src ++ rest) := by
        refine ih fun hlast => hhead ?_
        rw [List.getLast?_cons, hlast]
        rfl
      have hnext : c = '\r' →
          ((src ++ rest').head? = some '\n' ↔ (src ++ rest).head? = some '\n') := by
        rintro rfl
        cases src with
        | nil => exact hhead rfl
        | cons d src => exact Iff.rfl
      rw [List.cons_append, List.cons_append]
      by_cases hpair : c = '\r' ∧ (src ++ rest).head? = some '\n'
      · rw [folded_pair hpair, folded_pair ⟨hpair.1, (hnext hpair.1).2 hpair.2⟩, hsrc]
      · rw [folded_cons hpair, folded_cons fun h => hpair ⟨h.1, (hnext h.1).1 h.2⟩, hsrc]

/-- What is written of a token differs from what is read in case and line breaks only. -/
theorem Spells.folded_source (h : Spells src t rest) (more : List Char) :
    folded (t.source ++ more) = folded (src ++ more) := by
  cases h with
  | @byte x high low h l rest hx hhigh hlow =>
      have hh := (Text.of_digit?_eq_some hhigh).1
      have hl := (Text.of_digit?_eq_some hlow).1
      calc folded (source (.byte (UInt8.ofNat (h * 16 + l))) ++ more)
          = '\\' :: 'x' :: folded (Text.hexDigit h :: Text.hexDigit l :: more) := by
            rw [source_byte hh hl]; exact folded_hex (Or.inl rfl) _
        _ = '\\' :: 'x' :: folded (high :: low :: more) := by
            rw [folded_digit (Text.digit?_hexDigit _ hh), folded_digit (Text.digit?_hexDigit _ hl),
              folded_digit hhigh, folded_digit hlow]
        _ = folded ('\\' :: x :: high :: low :: more) := (folded_hex hx _).symm
  | notHex hx hnone => exact (folded_hex (Or.inl rfl) _).trans (folded_hex hx _).symm
  | cutHex hx hs => exact (folded_hex (Or.inl rfl) _).trans (folded_hex hx _).symm
  | returnFeed => exact (folded_pair ⟨rfl, rfl⟩).symm
  | _ => rfl

/-! ## Texts -/

/-- A line feed that has two carriage returns before it. -/
def DoubleReturn (txt : List Char) : Prop := ['\r', '\r', '\n'] <:+: txt

instance (txt : List Char) : Decidable (DoubleReturn txt) :=
  inferInstanceAs (Decidable (['\r', '\r', '\n'] <:+: txt))

theorem head?_untokenize_rest (h : ¬DoubleReturn (src ++ rest)) (hlast : src.getLast? = some '\r') :
    (untokenize (tokenize rest)).head? = some '\n' ↔ rest.head? = some '\n' := by
  rw [head?_untokenize]
  refine ⟨fun hstart => hstart.resolve_right ?_, Or.inl⟩
  rintro ⟨more, rfl⟩
  obtain ⟨before, rfl⟩ := List.getLast?_eq_some_iff.1 hlast
  exact h ⟨before, more, by simp⟩

theorem tokenize_untokenize_tokenize (h : ¬DoubleReturn txt) :
    tokenize (untokenize (tokenize txt)) = tokenize txt := by
  induction txt using spells_induction with
  | nil => rfl
  | step src t rest hspells ih =>
      have hrest : ¬DoubleReturn rest := fun hr => h (hr.trans (List.suffix_append _ _).isInfix)
      have hsource : Spells t.source t (untokenize (tokenize rest)) :=
        hspells.source_spells (head?_untokenize_rest h) (by rintro rfl; rfl)
      rw [hspells.tokenize_append, untokenize_cons, hsource.tokenize_append, ih hrest]

theorem folded_untokenize_tokenize (h : ¬DoubleReturn txt) :
    folded (untokenize (tokenize txt)) = folded txt := by
  induction txt using spells_induction with
  | nil => rfl
  | step src t rest hspells ih =>
      have hrest : ¬DoubleReturn rest := fun hr => h (hr.trans (List.suffix_append _ _).isInfix)
      rw [hspells.tokenize_append, untokenize_cons, hspells.folded_source]
      exact folded_append_congr (ih hrest) (head?_untokenize_rest h)

end Token

/-! ## Comparing tokens -/

open Token

/-- The number is that of the first place where two sequences of tokens differ. -/
structure FirstTokenMismatch (es as : List Token) (i : Nat) : Prop where
  differ : es[i]? ≠ as[i]?
  least : ∀ j < i, es[j]? = as[j]?

theorem firstTokenDifference?_eq_none_iff {k : Nat} {es as : List Token} :
    firstTokenDifference? k es as = none ↔ es = as := by
  fun_induction firstTokenDifference? k es as with
  | case1 => simp
  | case2 => simp
  | case3 => simp
  | case4 => simp_all
  | case5 => simp_all

theorem firstTokenMismatch_of_firstTokenDifference? {k n : Nat} {es as : List Token}
    {e a : Option Token} (h : firstTokenDifference? k es as = some (n, e, a)) :
    ∃ i, FirstTokenMismatch es as i ∧ n = k + i ∧ e = es[i]? ∧ a = as[i]? := by
  fun_induction firstTokenDifference? k es as with
  | case1 => cases h
  | case2 k a as =>
      cases h
      exact ⟨0, ⟨by simp, fun _ hj => absurd hj (Nat.not_lt_zero _)⟩, rfl, rfl, rfl⟩
  | case3 k e es =>
      cases h
      exact ⟨0, ⟨by simp, fun _ hj => absurd hj (Nat.not_lt_zero _)⟩, rfl, rfl, rfl⟩
  | case4 k e es as ih =>
      obtain ⟨i, ⟨hdiffer, hleast⟩, rfl, he, ha⟩ := ih h
      refine ⟨i + 1, ⟨hdiffer, fun j hj => ?_⟩, by omega, he, ha⟩
      cases j with
      | zero => rfl
      | succ j => exact hleast j (Nat.lt_of_succ_lt_succ hj)
  | case5 k e es a as hne =>
      cases h
      exact ⟨0, ⟨by simpa using hne, fun _ hj => absurd hj (Nat.not_lt_zero _)⟩, rfl, rfl, rfl⟩

/-- A token as a message shows it, or what stands for the end of a text. -/
def shownToken (t : Option Token) : String := (t.map Token.text).getD "end of text"

/-- What comparing the tokens of two texts gives. -/
structure ComparesTokens (expected actual : String) : Prop where
  ok_iff : compareTokens expected actual = .ok ()
    ↔ untokenize (tokenize expected.toList) = untokenize (tokenize actual.toList)
  error : compareTokens expected actual ≠ .ok () → ∃ i,
    FirstTokenMismatch (tokenize expected.toList) (tokenize actual.toList) i
      ∧ compareTokens expected actual = .error (.tokenMismatch i
        (shownToken (tokenize expected.toList)[i]?) (shownToken (tokenize actual.toList)[i]?))

theorem compareTokens_eq (expected actual : String) : compareTokens expected actual
    = match firstTokenDifference? 0 (tokenize expected.toList) (tokenize actual.toList) with
      | none => .ok ()
      | some (i, e, a) => .error (.tokenMismatch i (shownToken e) (shownToken a)) := rfl

theorem comparesTokens {expected actual : String} (hexpected : ¬DoubleReturn expected.toList)
    (hactual : ¬DoubleReturn actual.toList) : ComparesTokens expected actual := by
  have hsame : untokenize (tokenize expected.toList) = untokenize (tokenize actual.toList)
      ↔ tokenize expected.toList = tokenize actual.toList := by
    refine ⟨fun h => ?_, congrArg untokenize⟩
    rw [← tokenize_untokenize_tokenize hexpected, h, tokenize_untokenize_tokenize hactual]
  cases hfirst : firstTokenDifference? 0 (tokenize expected.toList) (tokenize actual.toList) with
  | none =>
      have hverdict : compareTokens expected actual = .ok () := by
        rw [compareTokens_eq, hfirst]
      exact ⟨⟨fun _ => hsame.2 (firstTokenDifference?_eq_none_iff.1 hfirst), fun _ => hverdict⟩,
        fun h => absurd hverdict h⟩
  | some d =>
      obtain ⟨n, e, a⟩ := d
      have hverdict : compareTokens expected actual
          = .error (.tokenMismatch n (shownToken e) (shownToken a)) := by
        rw [compareTokens_eq, hfirst]
      obtain ⟨i, hi, rfl, rfl, rfl⟩ := firstTokenMismatch_of_firstTokenDifference? hfirst
      rw [Nat.zero_add] at hverdict
      refine ⟨⟨fun h => ?_, fun h => absurd (congrArg (·[i]?) (hsame.1 h)) hi.differ⟩,
        fun _ => ⟨i, hi, hverdict⟩⟩
      rw [hverdict] at h
      cases h

/-- Where no two carriage returns stand before a line feed, the tokens of a text written out again
are read as the same tokens, and are the text but for case and the carriage returns before line
feeds. Such texts match if and only if the same is written of their tokens. -/
theorem tokens_keep_text :
    (∀ txt : List Char, ¬DoubleReturn txt →
      tokenize (untokenize (tokenize txt)) = tokenize txt
        ∧ (Pieces.dropBefore '\r' '\n' (untokenize (tokenize txt))).map Char.toLower
          = (Pieces.dropBefore '\r' '\n' txt).map Char.toLower)
    ∧ ∀ expected actual : String, ¬DoubleReturn expected.toList → ¬DoubleReturn actual.toList →
      ComparesTokens expected actual :=
  ⟨fun _ h => ⟨tokenize_untokenize_tokenize h, folded_untokenize_tokenize h⟩,
    fun _ _ => comparesTokens⟩

/-- A byte in either case of its digits, both line breaks, a sequence that is none, and one that the
end of the text cuts off. -/
theorem tokens_keep_text_mixed :
    untokenize (tokenize "A\\X1f\r\n\\q\\\\\\x4".toList) = "A\\x1F\n\\q\\\\\\x4".toList
      ∧ tokenize "A\\x1F\n\\q\\\\\\x4".toList = tokenize "A\\X1f\r\n\\q\\\\\\x4".toList
      ∧ compareTokens "A\\X1f\r\n\\q\\\\\\x4" "A\\x1F\n\\q\\\\\\x4" = .ok () := by
  have hwritten : untokenize (tokenize "A\\X1f\r\n\\q\\\\\\x4".toList)
      = "A\\x1F\n\\q\\\\\\x4".toList := by decide
  obtain ⟨htext, hcompare⟩ := tokens_keep_text
  refine ⟨hwritten, ?_, (hcompare _ _ (by decide) (by decide)).ok_iff.2 (by decide)⟩
  rw [← hwritten]
  exact (htext _ (by decide)).1

end TiBench.Compare
