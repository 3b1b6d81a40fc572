import TiBench.Proofs.Workspace
import TiBench.Tool.Script
import TiBench.Volume.Name
import Mathlib.Data.List.Nodup
import Mathlib.Tactic.MkIffOfInductiveProp

/-!
# Templates of several variables

The variables of a template are replaced one after the other. What a tool is given is the template
with all of them filled in at once, as long as no value comes together with the text around it to a
variable that is replaced later.
-/

namespace TiBench.Template

/-! ## All variables at once -/

/-- What a template becomes if each variable in it is replaced and nothing else is changed. -/
@[mk_iff fills_iff]
inductive Fills (vars : Variables) : List Char → List Char → Prop
  | nil : Fills vars [] []
  | filled {name value : String} {rest out : List Char} : (name, value) ∈ vars →
      Fills vars rest out → Fills vars ((hole name).toList ++ rest) (value.toList ++ out)
  | kept {c : Char} {rest out : List Char} : (∀ v ∈ vars, ¬(hole v.1).toList <+: c :: rest) →
      Fills vars rest out → Fills vars (c :: rest) (c :: out)

/-- Wherever the value is put, a variable of that name stands before it or after it as a whole. -/
def Apart (value name : String) : Prop :=
  ∀ before after front back : List Char,
    before ++ (value.toList ++ after) = front ++ ((hole name).toList ++ back) →
      front ++ (hole name).toList <+: before ∨ before ++ value.toList <+: front

/-- No value can be taken for a part of a variable that is replaced later. -/
def KeepApart (vars : Variables) : Prop := vars.Pairwise fun v w => Apart v.2 w.1

variable {vars : Variables} {v w : String × String} {t t' u xs rest out : List Char}

theorem toList_hole_ne_nil (name : String) : (hole name).toList ≠ [] := by
  rw [toList_hole]
  exact List.cons_ne_nil _ _

theorem length_lt_hole_append (name : String) (rest : List Char) :
    rest.length < ((hole name).toList ++ rest).length := by
  rw [List.length_append]
  exact Nat.lt_add_of_pos_left (List.length_pos_iff.2 (toList_hole_ne_nil name))

theorem Fills.eq_nil (h : Fills vars [] u) : u = [] := by
  rcases (fills_iff vars [] u).1 h with ⟨-, hu⟩ | ⟨name, value, rest, out, -, -, ht, -⟩ |
    ⟨c, rest, out, -, -, ht, -⟩
  · exact hu
  · exact absurd (List.append_eq_nil_iff.1 ht.symm).1 (toList_hole_ne_nil name)
  · cases ht

/-- A text in which no variable begins is taken over. -/
theorem Fills.of_append (h : Fills vars (xs ++ rest) u)
    (hxs : ∀ ys zs, xs = ys ++ zs → zs ≠ [] → ∀ v ∈ vars, ¬(hole v.1).toList <+: zs ++ rest) :
    ∃ out, u = xs ++ out ∧ Fills vars rest out := by
  induction xs generalizing u with
  | nil => exact ⟨u, rfl, h⟩
  | cons x xs ih =>
      have hnone := hxs [] (x :: xs) rfl (List.cons_ne_nil x xs)
      rcases (fills_iff vars _ u).1 h with ⟨ht, -⟩ | ⟨name, value, rest', out, hmem, -, ht, -⟩ |
        ⟨c, rest', out, -, hrest, ht, hu⟩
      · cases ht
      · exact absurd ⟨rest', ht.symm⟩ (hnone _ hmem)
      · rw [List.cons_append, List.cons.injEq] at ht
        obtain ⟨out', hout, hrest'⟩ := ih (ht.2 ▸ hrest) fun ys zs heq hne =>
          hxs (x :: ys) zs (by rw [heq, List.cons_append]) hne
        exact ⟨out', by rw [hu, ht.1, hout, List.cons_append], hrest'⟩

theorem Fills.of_not_mem (h : Fills vars (xs ++ rest) u) (hxs : '\x7b' ∉ xs) :
    ∃ out, u = xs ++ out ∧ Fills vars rest out := by
  refine h.of_append fun ys zs heq hne v _ hstart => ?_
  cases zs with
  | nil => exact hne rfl
  | cons z zs =>
      rw [toList_hole, List.cons_append, List.cons_prefix_cons] at hstart
      rw [heq, ← hstart.1] at hxs
      exact hxs (List.mem_append_right _ List.mem_cons_self)

/-- There is one way to fill in variables of different names. -/
theorem Fills.functional (hnames : ∀ v ∈ vars, IsName v.1) (hdistinct : (vars.map Prod.fst).Nodup)
    (h : Fills vars t u) {u' : List Char} (h' : Fills vars t u') : u = u' := by
  induction h generalizing u' with
  | nil => exact h'.eq_nil.symm
  | @filled name value rest out hmem _ ih =>
      rcases (fills_iff vars _ u').1 h' with ⟨ht, -⟩ |
        ⟨name', value', rest', out', hmem', hrest', ht, hu⟩ | ⟨c, rest', out', hnone, -, ht, -⟩
      · exact absurd (List.append_eq_nil_iff.1 ht).1 (toList_hole_ne_nil name)
      · obtain ⟨rfl, rfl⟩ := hole_append_inj (hnames _ hmem) (hnames _ hmem') ht
        have hvalue : (name, value) = (name, value') :=
          List.inj_on_of_nodup_map hdistinct hmem hmem' rfl
        rw [hu, (Prod.mk.inj hvalue).2, ih hrest']
      · exact absurd ⟨rest, ht⟩ (hnone _ hmem)
  | @kept c rest out hnone _ ih =>
      rcases (fills_iff vars _ u').1 h' with ⟨ht, -⟩ |
        ⟨name', value', rest', out', hmem', -, ht, -⟩ | ⟨c', rest', out', -, hrest', ht, hu⟩
      · cases ht
      · exact absurd ⟨rest', ht.symm⟩ (hnone _ hmem')
      · obtain ⟨rfl, rfl⟩ := List.cons.inj ht
        rw [hu, ih hrest']

/-! ## One variable after the other -/

theorem fills_nil (t : List Char) : Fills [] t t := by
  induction t with
  | nil => exact .nil
  | cons c t ih => exact .kept (fun v hv => nomatch hv) ih

/-- One variable is replaced in all the places where it stands. -/
theorem fills_replaceAll (v : String × String) (t : List Char) :
    Fills [v] t
      (Pieces.replaceAll '\x7b' (v.1.toList ++ ['\x7d']) v.2.toList t) := by
  induction hn : t.length using Nat.strongRecOn generalizing t with
  | ind n ih =>
      by_cases hstart : (hole v.1).toList <+: t
      · obtain ⟨rest, rfl⟩ := hstart
        have hrest := ih rest.length (hn ▸ length_lt_hole_append v.1 rest) rest rfl
        have hfill := Fills.filled (List.mem_singleton.2 rfl) hrest
        rw [toList_hole, List.cons_append] at hfill ⊢
        rwa [Pieces.replaceAll_append]
      · cases t with
        | nil =>
            rw [Pieces.replaceAll]
            exact .nil
        | cons c rest =>
            rw [Pieces.replaceAll_cons (by rwa [← toList_hole])]
            refine .kept (fun w hw => ?_) (ih rest.length (hn ▸ Nat.lt_succ_self _) rest rfl)
            rwa [List.mem_singleton.1 hw]

/-- What stands of a later variable once a value is put in stood there before. -/
theorem Fills.of_append_out (hapart : Apart v.2 w.1) {before : List Char} (hbefore : before ≠ [])
    (hw : (hole w.1).toList = before ++ xs) (h : Fills [v] t (xs ++ u)) :
    ∃ rest, t = xs ++ rest ∧ Fills [v] rest u := by
  induction xs generalizing before t with
  | nil => exact ⟨t, rfl, h⟩
  | cons x xs ih =>
      rcases (fills_iff [v] t _).1 h with ⟨-, ht⟩ | ⟨name, value, rest, out, hmem, -, -, ht⟩ |
        ⟨c, rest, out, -, hrest, ht, hu⟩
      · cases ht
      · -- The value begins inside of the variable.
        obtain rfl := List.mem_singleton.1 hmem
        exfalso
        rcases hapart before out [] u (by rw [← ht, hw, List.nil_append, List.append_assoc]) with
          hlong | hlong
        · have hlen := hlong.length_le
          rw [List.nil_append, hw, List.length_append, List.length_cons] at hlen
          omega
        · exact hbefore (List.append_eq_nil_iff.1 (List.prefix_nil.1 hlong)).1
      · rw [List.cons_append, List.cons.injEq] at hu
        have hw' : (hole w.1).toList = before ++ [x] ++ xs := by
          rw [hw, List.append_assoc, List.singleton_append]
        obtain ⟨rest', hrest', hfill⟩ := ih (by simp) hw' (hu.2 ▸ hrest)
        exact ⟨rest', by rw [ht, hu.1, hrest', List.cons_append], hfill⟩

/-- A later variable that stands in a text is still there once a value is put in. -/
theorem Fills.hole_append (hv : IsName v.1) (hw : IsName w.1) (hne : v.1 ≠ w.1)
    (h : Fills [v] ((hole w.1).toList ++ rest) u) :
    ∃ out, u = (hole w.1).toList ++ out ∧ Fills [v] rest out := by
  rcases (fills_iff [v] _ u).1 h with ⟨ht, -⟩ | ⟨name, value, rest', out, hmem, -, ht, -⟩ |
    ⟨c, rest', out, -, hrest, ht, rfl⟩
  · exact absurd (List.append_eq_nil_iff.1 ht).1 (toList_hole_ne_nil w.1)
  · obtain rfl := List.mem_singleton.1 hmem
    exact absurd (hole_append_inj hw hv ht).1.symm hne
  · rw [toList_hole, List.cons_append, List.cons.injEq] at ht
    obtain ⟨out', rfl, hout'⟩ := Fills.of_not_mem (ht.2 ▸ hrest) hw.not_mem
    exact ⟨out', by rw [toList_hole, List.cons_append, ht.1], hout'⟩

/-- A value is not looked into when the variables apart from it are filled in. -/
theorem Fills.of_value (hapart : ∀ w ∈ vars, Apart v.2 w.1)
    (h : Fills vars (v.2.toList ++ rest) u) :
    ∃ out, u = v.2.toList ++ out ∧ Fills vars rest out := by
  refine h.of_append fun ys zs heq hzs w hw hstart => ?_
  obtain ⟨back, hback⟩ := hstart
  rcases hapart w hw [] rest ys back (by rw [heq, List.nil_append, List.append_assoc, hback]) with
    hlong | hlong
  · exact toList_hole_ne_nil w.1 (List.append_eq_nil_iff.1 (List.prefix_nil.1 hlong)).2
  · have hlen := hlong.length_le
    have hpos := List.length_pos_iff.2 hzs
    rw [List.nil_append, heq, List.length_append] at hlen
    omega

/-- The first variable is filled in, then the others. -/
theorem Fills.comp (hv : IsName v.1) (hnames : ∀ w ∈ vars, IsName w.1)
    (hne : ∀ w ∈ vars, v.1 ≠ w.1) (hapart : ∀ w ∈ vars, Apart v.2 w.1)
    (hfirst : Fills [v] t t') (hothers : Fills vars t' u) : Fills (v :: vars) t u := by
  induction hn : t.length using Nat.strongRecOn generalizing t t' u with
  | ind n ih =>
      rcases (fills_iff [v] t t').1 hfirst with ⟨rfl, rfl⟩ |
        ⟨name, value, rest, out, hmem, hrest, rfl, rfl⟩ | ⟨c, rest, out, hnone, hrest, rfl, rfl⟩
      · rw [hothers.eq_nil]
        exact .nil
      · obtain rfl := List.mem_singleton.1 hmem
        obtain ⟨out', rfl, hout'⟩ := hothers.of_value hapart
        exact .filled List.mem_cons_self
          (ih rest.length (hn ▸ length_lt_hole_append name rest) hrest hout' rfl)
      · rcases (fills_iff vars _ u).1 hothers with ⟨ht, -⟩ |
          ⟨name, value, after, out', hmem, hafter, ht, rfl⟩ | ⟨c', out', u', hnone', hout', ht, rfl⟩
        · cases ht
        · -- A later variable begins with the character that was taken over.
          rw [toList_hole, List.cons_append, List.cons.injEq] at ht
          rw [ht.2] at hrest
          obtain ⟨rest', rfl, hrest'⟩ := hrest.of_append_out (hapart _ hmem)
            (List.cons_ne_nil '\x7b' []) (toList_hole name)
          have hfill := Fills.filled (List.mem_cons_of_mem v hmem)
            (ih rest'.length (by rw [← hn, List.length_cons, List.length_append]; omega)
              hrest' hafter rfl)
          rwa [toList_hole, List.cons_append, ← ht.1] at hfill
        · obtain ⟨rfl, rfl⟩ := List.cons.inj ht
          refine .kept (fun w hw hstart => ?_)
            (ih rest.length (hn ▸ Nat.lt_succ_self _) hrest hout' rfl)
          rcases List.mem_cons.1 hw with rfl | hw
          · exact hnone _ (List.mem_singleton.2 rfl) hstart
          · obtain ⟨after, hafter⟩ := hstart
            rw [← hafter] at hfirst
            obtain ⟨after', hafter', -⟩ := hfirst.hole_append hv (hnames w hw) (hne w hw)
            exact hnone' w hw ⟨after', hafter'.symm⟩

theorem expand_fills (hnames : ∀ v ∈ vars, IsName v.1) (hdistinct : (vars.map Prod.fst).Nodup)
    (hapart : KeepApart vars) (template : String) :
    Fills vars template.toList (expand vars template).toList := by
  induction vars generalizing template with
  | nil => exact fills_nil template.toList
  | cons v vars ih =>
      rw [List.map_cons, List.nodup_cons] at hdistinct
      obtain ⟨hfirst, hothers⟩ := List.pairwise_cons.1 hapart
      rw [expand, List.foldl_cons]
      refine Fills.comp (hnames v List.mem_cons_self)
        (fun w hw => hnames w (List.mem_cons_of_mem _ hw))
        (fun w hw heq => hdistinct.1 (heq ▸ List.mem_map_of_mem hw)) hfirst ?_
        (ih (fun w hw => hnames w (List.mem_cons_of_mem _ hw)) hdistinct.2 hothers
          (replace template v.1 v.2))
      rw [replace, String.toList_ofList]
      exact fills_replaceAll v template.toList

/-! ## Values without braces -/

/-- A value that is no part of a name stands in no place of the variable. -/
theorem not_infix_hole {value name : String} (hopen : '\x7b' ∉ value.toList)
    (hpart : ¬value.toList <:+: name.toList) {before after : List Char} :
    '\x7b' :: name.toList ≠ before ++ (value.toList ++ after) := by
  intro heq
  cases before with
  | nil =>
      cases hvalue : value.toList with
      | nil => exact hpart (hvalue ▸ List.nil_infix)
      | cons c rest =>
          rw [hvalue, List.nil_append, List.cons_append, List.cons.injEq] at heq
          rw [hvalue, ← heq.1] at hopen
          exact hopen List.mem_cons_self
  | cons c before =>
      rw [List.cons_append, List.cons.injEq] at heq
      exact hpart ⟨before, after, by rw [heq.2, List.append_assoc]⟩

/-- A value without braces keeps apart from each name that it is no part of. -/
theorem apart_of_plain {value name : String} (hopen : '\x7b' ∉ value.toList)
    (hclose : '\x7d' ∉ value.toList) (hpart : ¬value.toList <:+: name.toList) :
    Apart value name := by
  intro before after front back heq
  rcases List.append_eq_append_iff.1 heq with ⟨mid, rfl, hmid⟩ | ⟨mid, rfl, hmid⟩
  · rcases List.append_eq_append_iff.1 hmid with ⟨more, rfl, -⟩ | ⟨more, hvalue, hmore⟩
    · exact .inr ((List.prefix_append_right_inj before).2 (List.prefix_append ..))
    · cases more with
      | nil => exact .inr ⟨[], by rw [hvalue, List.append_nil, List.append_nil]⟩
      | cons x more =>
          rw [toList_hole, List.cons_append, List.cons_append, List.cons.injEq] at hmore
          rw [hvalue, ← hmore.1] at hopen
          exact absurd (List.mem_append_right _ List.mem_cons_self) hopen
  · rcases List.append_eq_append_iff.1 hmid with ⟨more, rfl, -⟩ | ⟨more, hhole, hmore⟩
    · exact .inl ((List.prefix_append_right_inj front).2 (List.prefix_append ..))
    · rcases List.eq_nil_or_concat more with rfl | ⟨more, x, rfl⟩
      · exact .inl ⟨[], by rw [hhole, List.append_nil, List.append_nil]⟩
      · -- The value begins inside of the variable, and the variable ends after that.
        rw [List.concat_eq_append] at hhole hmore
        rw [toList_hole, ← List.cons_append, ← List.append_assoc] at hhole
        obtain ⟨hname, hx⟩ := List.append_inj' hhole rfl
        rw [← List.singleton_inj.1 hx, List.append_assoc, List.singleton_append] at hmore
        rcases List.append_eq_append_iff.1 hmore with ⟨tail, rfl, -⟩ | ⟨tail, hvalue, htail⟩
        · exact absurd hname (not_infix_hole hopen hpart)
        · cases tail with
          | nil =>
              rw [List.append_nil] at hvalue
              rw [← hvalue, ← List.append_nil value.toList] at hname
              exact absurd hname (not_infix_hole hopen hpart)
          | cons y tail =>
              rw [List.cons_append, List.cons.injEq] at htail
              rw [hvalue, ← htail.1] at hclose
              exact absurd (List.mem_append_right _ List.mem_cons_self) hclose

/-! ## Arguments of a step -/

theorem Fills.mono {vars' : Variables} (hvars : ∀ v, v ∈ vars ↔ v ∈ vars') (h : Fills vars t u) :
    Fills vars' t u := by
  induction h with
  | nil => exact .nil
  | filled hmem _ ih => exact .filled ((hvars _).1 hmem) ih
  | kept hnone _ ih => exact .kept (fun v hv => hnone v ((hvars v).2 hv)) ih

theorem expand_eq_iff (hnames : ∀ v ∈ vars, IsName v.1) (hdistinct : (vars.map Prod.fst).Nodup)
    (hapart : KeepApart vars) {template arg : String} :
    expand vars template = arg ↔ Fills vars template.toList arg.toList := by
  have hfills := expand_fills hnames hdistinct hapart template
  constructor
  · rintro rfl
    exact hfills
  · intro harg
    exact String.toList_injective (hfills.functional hnames hdistinct harg)

/-- The arguments of a call are the templates with all variables filled in at once, in whatever
order the variables come, as long as the values keep apart from the variables after them. Else a
value is looked into: where a variable is all there is in a template, the argument is its value with
the later variables replaced in it. -/
theorem arguments_filled (hnames : ∀ v ∈ vars, IsName v.1)
    (hdistinct : (vars.map Prod.fst).Nodup) (s : Step) :
    (KeepApart vars → ∀ args : List String, (s.invocation vars).args = args
        ↔ List.Forall₂ (fun template arg => Fills vars template.toList arg.toList) s.args args)
      ∧ (∀ vars' : Variables, vars'.Perm vars → KeepApart vars → KeepApart vars' →
        (s.invocation vars').args = (s.invocation vars).args)
      ∧ ∀ (before after : Variables) (name value : String) (i : Nat),
        vars = before ++ (name, value) :: after → s.args[i]? = some (hole name) →
          (s.invocation vars).args[i]? = some (expand after value) := by
  refine ⟨fun hapart args => ?_, fun vars' hperm hapart hapart' => ?_,
    fun before after name value i hvars hi => ?_⟩
  · rw [Step.invocation, ← List.forall₂_eq_eq_eq, List.forall₂_map_left_iff]
    simp only [expand_eq_iff hnames hdistinct hapart]
  · refine List.map_congr_left fun template _ => ?_
    have hnames' : ∀ v ∈ vars', IsName v.1 := fun v hv => hnames v (hperm.mem_iff.1 hv)
    have hdistinct' : (vars'.map Prod.fst).Nodup := (hperm.map Prod.fst).nodup_iff.2 hdistinct
    rw [expand_eq_iff hnames' hdistinct' hapart']
    exact (expand_fills hnames hdistinct hapart template).mono fun v => hperm.mem_iff.symm
  · rw [Step.invocation, List.getElem?_map, hi, Option.map_some, hvars]
    subst hvars
    rw [List.map_append, List.map_cons] at hdistinct
    rw [expand_hole_append (hnames (name, value) (by simp))]
    · exact fun v hv => hnames v (List.mem_append_left _ hv)
    · rintro v hv rfl
      exact List.disjoint_of_nodup_append hdistinct (List.mem_map_of_mem hv) List.mem_cons_self

/-- A step that takes a file from a disk. -/
def takeFile : Step :=
  ⟨Script.tool "take" [], ["-d=" ++ hole "disk", hole "name", hole "out"], none⟩

/-- The variables of the step. -/
def takeVars (file : String) : Variables :=
  [("disk", "work.dsk"), ("name", file), ("out", "file.out")]

theorem isName_takeVars (file : String) : ∀ v ∈ takeVars file, IsName v.1 := by
  intro v hv
  have hnames : ∀ name ∈ ["disk", "name", "out"], IsName name := by decide
  exact hnames v.1 (List.mem_map_of_mem hv)

theorem nodup_takeVars (file : String) : ((takeVars file).map Prod.fst).Nodup := by
  change ["disk", "name", "out"].Nodup
  decide

/-- A file whose name has no braces, and which is no part of a variable, is taken by its name. -/
theorem arguments_filled_plain :
    (∀ v ∈ takeVars "DATA", IsName v.1) ∧ ((takeVars "DATA").map Prod.fst).Nodup
      ∧ KeepApart (takeVars "DATA")
      ∧ (takeFile.invocation (takeVars "DATA")).args = ["-d=work.dsk", "DATA", "file.out"]
      ∧ List.Forall₂ (fun template arg => Fills (takeVars "DATA") template.toList arg.toList)
        takeFile.args ["-d=work.dsk", "DATA", "file.out"] := by
  have hnames := isName_takeVars "DATA"
  have hdistinct := nodup_takeVars "DATA"
  have hplain : (takeVars "DATA").Pairwise fun v w => '\x7b' ∉ v.2.toList ∧ '\x7d' ∉ v.2.toList
      ∧ ¬v.2.toList <:+: w.1.toList := by decide
  have hapart : KeepApart (takeVars "DATA") :=
    hplain.imp fun h => apart_of_plain h.1 h.2.1 h.2.2
  have hargs : (takeFile.invocation (takeVars "DATA")).args
      = ["-d=work.dsk", "DATA", "file.out"] := by decide +kernel
  exact ⟨hnames, hdistinct, hapart, hargs,
    ((arguments_filled hnames hdistinct takeFile).1 hapart _).1 hargs⟩

/-- A file may be named like a variable. Its name is then replaced in turn, if the variable comes
after the name, and so is not what the template says. -/
theorem file_name_replaced :
    (Volume.packName (hole "out")).isSome = true
      ∧ (∀ v ∈ takeVars (hole "out"), IsName v.1) ∧ ((takeVars (hole "out")).map Prod.fst).Nodup
      ∧ (takeFile.invocation (takeVars (hole "out"))).args
        = ["-d=work.dsk", "file.out", "file.out"]
      ∧ (takeFile.invocation (takeVars (hole "out")).reverse).args
        = ["-d=work.dsk", hole "out", "file.out"]
      ∧ ¬List.Forall₂ (fun template arg =>
          Fills (takeVars (hole "out")) template.toList arg.toList)
        takeFile.args ["-d=work.dsk", "file.out", "file.out"] := by
  refine ⟨by decide, isName_takeVars _, nodup_takeVars _, by decide +kernel, by decide +kernel,
    fun hfills => ?_⟩
  have hname : Fills (takeVars (hole "out")) (hole "name").toList "file.out".toList :=
    (List.forall₂_cons.1 (List.forall₂_cons.1 hfills).2).1
  have hmem : ("name", hole "out") ∈ takeVars (hole "out") := by decide
  have htrue := Fills.filled hmem Fills.nil
  rw [List.append_nil, List.append_nil] at htrue
  exact absurd (hname.functional (isName_takeVars _) (nodup_takeVars _) htrue) (by decide)

end TiBench.Template
