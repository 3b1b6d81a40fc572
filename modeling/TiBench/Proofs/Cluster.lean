import TiBench.Volume.Cluster
import TiBench.Proofs.Bytes
import Mathlib.Data.List.SplitBy

/-!
# Laws of cluster lists

The clusters of a file, packed in its descriptor and unpacked again, give back its sectors, however
they lie on the volume. There is one for each maximal run of neighbours, which is as few as can be.
-/

namespace TiBench.Volume.Cluster

/-! ## Runs -/

/-- The sectors of runs in order. -/
def expand (rs : List (Nat × Nat)) : List Nat := rs.flatMap fun r => List.range' r.1 r.2

theorem expand_cons (r : Nat × Nat) (rs : List (Nat × Nat)) :
    expand (r :: rs) = List.range' r.1 r.2 ++ expand rs := List.flatMap_cons

theorem expand_runs (s : List Nat) : expand (runs s) = s := by
  induction s with
  | nil => rfl
  | cons x s ih =>
      rw [runs]
      split
      · rename_i t len more hruns
        rw [hruns, expand_cons] at ih
        split
        · rename_i hxt
          rw [expand_cons, List.range'_succ, hxt, List.cons_append, ih]
        · rw [expand_cons, expand_cons, ih]; rfl
      · rename_i hruns
        rw [hruns] at ih
        rw [← ih]; rfl

theorem length_pos_of_mem_runs {s : List Nat} {r : Nat × Nat} (h : r ∈ runs s) : 0 < r.2 := by
  induction s generalizing r with
  | nil => cases h
  | cons x s ih =>
      rw [runs] at h
      split at h
      · rename_i t len more hruns
        rw [hruns] at ih
        split at h
        · rcases List.mem_cons.1 h with rfl | h
          · exact Nat.succ_pos _
          · exact ih (List.mem_cons_of_mem _ h)
        · rcases List.mem_cons.1 h with rfl | h
          · exact Nat.one_pos
          · exact ih h
      · rw [List.mem_singleton.1 h]; exact Nat.one_pos

/-- Each run starts at a sector of the file. -/
theorem start_mem_of_mem_runs {s : List Nat} {r : Nat × Nat} (h : r ∈ runs s) : r.1 ∈ s := by
  have hmem : r.1 ∈ expand (runs s) := by
    rw [expand, List.mem_flatMap]
    exact ⟨r, h, List.mem_range'_1.2 ⟨Nat.le_refl _, by have := length_pos_of_mem_runs h; omega⟩⟩
  rwa [expand_runs] at hmem

theorem runs_cons {xs : List Nat} {start length : Nat} {more : List (Nat × Nat)}
    (h : runs xs = (start, length) :: more) (x : Nat) :
    runs (x :: xs) = if x + 1 = start then (x, length + 1) :: more
      else (x, 1) :: (start, length) :: more := by
  rw [runs, h]

/-- What the runs of two lists have in common at their start stays so with a sector in front. -/
theorem exists_runs_cons {xs ys : List Nat} {rs more : List (Nat × Nat)} {start length extra : Nat}
    (hxs : runs xs = rs ++ [(start, length)])
    (hys : runs ys = rs ++ (start, length + extra) :: more) (x : Nat) :
    ∃ rs start length, runs (x :: xs) = rs ++ [(start, length)]
      ∧ runs (x :: ys) = rs ++ (start, length + extra) :: more := by
  cases rs with
  | nil =>
      rw [runs_cons hxs, runs_cons hys]
      by_cases hx : x + 1 = start
      · rw [if_pos hx, if_pos hx, Nat.add_right_comm]; exact ⟨[], x, length + 1, rfl, rfl⟩
      · rw [if_neg hx, if_neg hx]; exact ⟨[(x, 1)], start, length, rfl, rfl⟩
  | cons r rs =>
      rw [runs_cons hxs, runs_cons hys]
      by_cases hx : x + 1 = r.1
      · rw [if_pos hx, if_pos hx]; exact ⟨(x, r.2 + 1) :: rs, start, length, rfl, rfl⟩
      · rw [if_neg hx, if_neg hx]; exact ⟨(x, 1) :: r :: rs, start, length, rfl, rfl⟩

/-- A sector more goes on with the last run, or begins another. -/
theorem runs_concat (p : List Nat) (t s : Nat) : ∃ rs start length,
    runs (p ++ [t]) = rs ++ [(start, length)]
      ∧ runs (p ++ [t] ++ [s]) = if t + 1 = s then rs ++ [(start, length + 1)]
        else rs ++ [(start, length), (s, 1)] := by
  induction p with
  | nil => exact ⟨[], t, 1, rfl, rfl⟩
  | cons x p ih =>
      obtain ⟨rs, start, length, hruns, hnext⟩ := ih
      by_cases hts : t + 1 = s
      · rw [if_pos hts] at hnext
        obtain ⟨rs, start, length, hruns, hnext⟩ := exists_runs_cons hruns hnext x
        exact ⟨rs, start, length, hruns, by rw [if_pos hts]; exact hnext⟩
      · rw [if_neg hts] at hnext
        obtain ⟨rs, start, length, hruns, hnext⟩ :=
          exists_runs_cons hruns (show _ = rs ++ (start, length + 0) :: _ from hnext) x
        exact ⟨rs, start, length, hruns, by rw [if_neg hts]; exact hnext⟩

/-! ## Clusters of runs -/

theorem length_ofRuns (done : Nat) (rs : List (Nat × Nat)) :
    (ofRuns done rs).length = rs.length := by
  induction rs generalizing done with
  | nil => rfl
  | cons r rs ih => simp [ofRuns, ih]

theorem ofRuns_append (done : Nat) (rs qs : List (Nat × Nat)) :
    ofRuns done (rs ++ qs) = ofRuns done rs ++ ofRuns (done + (expand rs).length) qs := by
  induction rs generalizing done with
  | nil => rfl
  | cons r rs ih =>
      rw [List.cons_append, ofRuns, ofRuns, ih, expand_cons, List.length_append, List.length_range',
        Nat.add_assoc, List.cons_append]

theorem length_expand_of_runs {s : List Nat} {rs : List (Nat × Nat)} {start length : Nat}
    (h : runs s = rs ++ [(start, length)]) : (expand rs).length + length = s.length := by
  have hlen := congrArg List.length (expand_runs s)
  rw [h, expand, List.flatMap_append, List.length_append, List.flatMap_singleton,
    List.length_range'] at hlen
  exact hlen

/-- A sector more goes on with the last cluster, or begins another. -/
theorem ofSectors_concat (p : List Nat) (t s : Nat) : ∃ cs c,
    ofSectors (p ++ [t]) = cs ++ [c]
      ∧ ofSectors (p ++ [t] ++ [s]) = if t + 1 = s then cs ++ [{ c with last := p.length + 1 }]
        else cs ++ [c, ⟨s, p.length + 1⟩] := by
  obtain ⟨rs, start, length, hruns, hnext⟩ := runs_concat p t s
  have hlen : (expand rs).length + length = p.length + 1 :=
    (length_expand_of_runs hruns).trans List.length_append
  refine ⟨ofRuns 0 rs, ⟨start, p.length⟩, ?_, ?_⟩
  · rw [ofSectors, hruns, ofRuns_append]
    simp only [ofRuns, Nat.zero_add, hlen, Nat.add_sub_cancel]
  · rw [ofSectors, hnext]
    split
    · rw [ofRuns_append]
      simp only [ofRuns, Nat.zero_add, ← Nat.add_assoc, hlen, Nat.add_sub_cancel]
    · rw [ofRuns_append]
      simp only [ofRuns, Nat.zero_add, hlen, Nat.add_sub_cancel]

theorem sectorsAfter_ofRuns (done : Nat) {rs : List (Nat × Nat)} (h : ∀ r ∈ rs, 0 < r.2) :
    sectorsAfter done (ofRuns done rs) = expand rs := by
  induction rs generalizing done with
  | nil => rfl
  | cons r rs ih =>
      have hr := h r List.mem_cons_self
      have hlast : done + r.2 - 1 + 1 = done + r.2 := by omega
      rw [ofRuns, sectorsAfter, expand_cons, hlast, Nat.add_sub_cancel_left,
        ih _ fun q hq => h q (List.mem_cons_of_mem _ hq)]

/-- The clusters of a file start at its sectors, and end at places in it. -/
theorem bounds_of_mem_ofRuns {done : Nat} {rs : List (Nat × Nat)} (h : ∀ r ∈ rs, 0 < r.2)
    {c : Cluster} (hc : c ∈ ofRuns done rs) :
    (∃ r ∈ rs, r.1 = c.start) ∧ c.last < done + (expand rs).length := by
  induction rs generalizing done with
  | nil => cases hc
  | cons r rs ih =>
      have hr := h r List.mem_cons_self
      have hlen : (expand (r :: rs)).length = r.2 + (expand rs).length := by
        rw [expand_cons, List.length_append, List.length_range']
      rw [ofRuns, List.mem_cons] at hc
      rcases hc with rfl | hc
      · exact ⟨⟨r, List.mem_cons_self, rfl⟩, by rw [hlen]; simp only; omega⟩
      · obtain ⟨⟨q, hq, hstart⟩, hlast⟩ := ih (fun q hq => h q (List.mem_cons_of_mem _ hq)) hc
        exact ⟨⟨q, List.mem_cons_of_mem _ hq, hstart⟩, by omega⟩

theorem sectors_ofSectors (s : List Nat) : sectors (ofSectors s) = s := by
  rw [sectors, ofSectors, sectorsAfter_ofRuns 0 fun _ hr => length_pos_of_mem_runs hr, expand_runs]

theorem bounds_of_mem_ofSectors {s : List Nat} {c : Cluster} (h : c ∈ ofSectors s) :
    c.start ∈ s ∧ c.last < s.length := by
  obtain ⟨⟨r, hr, hstart⟩, hlast⟩ := bounds_of_mem_ofRuns (fun _ hr => length_pos_of_mem_runs hr) h
  rw [expand_runs] at hlast
  exact ⟨hstart ▸ start_mem_of_mem_runs hr, by omega⟩

/-! ## Maximal runs -/

/-- Behind the end of a run does not lie the start of the next one. -/
theorem isChain_runs (s : List Nat) : (runs s).IsChain fun q r => q.1 + q.2 ≠ r.1 := by
  induction s with
  | nil => exact .nil
  | cons x s ih =>
      cases hruns : runs s with
      | nil => simp [runs, hruns]
      | cons r more =>
          rw [hruns] at ih
          rw [runs_cons hruns]
          split
          · rename_i hx
            cases more with
            | nil => simp
            | cons q more =>
                rw [List.isChain_cons_cons] at ih ⊢
                exact ⟨by have := ih.1; omega, ih.2⟩
          · rename_i hx
            exact .cons_cons hx ih

theorem splitBy_eq_map_runs (s : List Nat) :
    s.splitBy (fun a b => a + 1 == b) = (runs s).map fun r => List.range' r.1 r.2 := by
  have hpos : ∀ r ∈ runs s, 0 < r.2 := fun r hr => length_pos_of_mem_runs hr
  rw [List.splitBy_eq_iff]
  refine ⟨?_, ?_, ?_, ?_⟩
  · rw [← List.flatMap_def]
    exact (expand_runs s).symm
  · intro hnil
    obtain ⟨r, hr, hrange⟩ := List.mem_map.1 hnil
    exact Nat.ne_of_gt (hpos r hr) (List.range'_eq_nil_iff.1 hrange)
  · intro l hl
    obtain ⟨r, -, rfl⟩ := List.mem_map.1 hl
    exact (List.isChain_range' _ _ _).imp fun a b hab => by simp [hab]
  · rw [List.isChain_map]
    refine (isChain_runs s).imp_of_mem_imp fun q r hq hr hqr => ?_
    have hq' := hpos q hq
    have hr' := hpos r hr
    refine ⟨by simp; omega, by simp; omega, ?_⟩
    rw [List.getLast_range', List.head_range', beq_eq_false_iff_ne]
    omega

/-- There are as many clusters as maximal runs of neighbours. -/
theorem length_ofSectors (s : List Nat) :
    (ofSectors s).length = (s.splitBy fun a b => a + 1 == b).length := by
  rw [splitBy_eq_map_runs, List.length_map, ofSectors, length_ofRuns]

/-! ## Fewest clusters -/

/-- Neighbours in front make one run more at most. -/
theorem length_runs_append_le (start length : Nat) (s : List Nat) :
    (runs (List.range' start length ++ s)).length ≤ (runs s).length + 1 := by
  induction length generalizing start with
  | zero => simp
  | succ length ih =>
      rw [List.range'_succ, List.cons_append]
      cases length with
      | zero =>
          cases hruns : runs s with
          | nil => simp [runs, hruns]
          | cons r more =>
              rw [List.range'_zero, List.nil_append, runs_cons hruns]
              split <;> simp
      | succ length =>
          -- The next neighbour starts the first run of the rest, which goes on with this one.
          have hnext := ih (start + 1)
          obtain ⟨n, more, hruns⟩ : ∃ n more,
              runs (List.range' (start + 1) (length + 1) ++ s) = (start + 1, n) :: more := by
            rw [List.range'_succ, List.cons_append, runs]
            split
            · split <;> exact ⟨_, _, rfl⟩
            · exact ⟨_, _, rfl⟩
          rw [runs_cons hruns, if_pos rfl]
          rw [hruns] at hnext
          exact hnext

/-- Clusters, wherever they end in the file, are not fewer than the runs of their sectors. -/
theorem length_runs_sectorsAfter_le (done : Nat) (cs : List Cluster) :
    (runs (sectorsAfter done cs)).length ≤ cs.length := by
  induction cs generalizing done with
  | nil => simp [sectorsAfter, runs]
  | cons c cs ih =>
      have hrest := ih (c.last + 1)
      have hrun := length_runs_append_le c.start (c.last + 1 - done) (sectorsAfter (c.last + 1) cs)
      rw [sectorsAfter, List.length_cons]
      omega

theorem length_ofSectors_le {cs : List Cluster} {s : List Nat} (h : sectors cs = s) :
    (ofSectors s).length ≤ cs.length := by
  rw [ofSectors, length_ofRuns, ← h]
  exact length_runs_sectorsAfter_le 0 cs

/-! ## Places of last sectors -/

theorem le_last_of_mem_ofRuns {done : Nat} {rs : List (Nat × Nat)} (h : ∀ r ∈ rs, 0 < r.2)
    {c : Cluster} (hc : c ∈ ofRuns done rs) : done ≤ c.last := by
  induction rs generalizing done with
  | nil => cases hc
  | cons r rs ih =>
      have hr := h r List.mem_cons_self
      rw [ofRuns, List.mem_cons] at hc
      rcases hc with rfl | hc
      · simp only
        omega
      · have := ih (fun q hq => h q (List.mem_cons_of_mem _ hq)) hc
        omega

theorem pairwise_last_ofRuns (done : Nat) {rs : List (Nat × Nat)} (h : ∀ r ∈ rs, 0 < r.2) :
    (ofRuns done rs).Pairwise fun a b => a.last < b.last := by
  induction rs generalizing done with
  | nil => exact .nil
  | cons r rs ih =>
      have hr := h r List.mem_cons_self
      have hrs : ∀ q ∈ rs, 0 < q.2 := fun q hq => h q (List.mem_cons_of_mem _ hq)
      refine List.pairwise_cons.2 ⟨fun c hc => ?_, ih _ hrs⟩
      have := le_last_of_mem_ofRuns hrs hc
      simp only
      omega

/-- The clusters of a file that is not empty end at its last sector. -/
theorem last_ofSectors {s : List Nat} (h : s ≠ []) :
    ∃ c, (ofSectors s).getLast? = some c ∧ c.last = s.length - 1 := by
  rcases (runs s).eq_nil_or_concat with hruns | ⟨rs, ⟨start, length⟩, hruns⟩
  · exact absurd (by rw [← expand_runs s, hruns]; rfl) h
  · rw [List.concat_eq_append] at hruns
    have hlen := length_expand_of_runs hruns
    refine ⟨⟨start, s.length - 1⟩, ?_, rfl⟩
    rw [ofSectors, hruns, ofRuns_append]
    simp [ofRuns, hlen]

/-! ## Stored lists -/

/-- Twelve bits hold the start of the cluster and the place of its last sector, and the start is
not the zero that ends a list. -/
def Fits (c : Cluster) : Prop := 0 < c.start ∧ c.start < 4096 ∧ c.last < 4096

theorem ofBytes_bytes {c : Cluster} (h : c.Fits) :
    ofBytes (UInt8.ofNat c.start) (UInt8.ofNat (c.start / 256 % 16 + c.last % 16 * 16))
      (UInt8.ofNat (c.last / 16)) = c := by
  obtain ⟨-, hstart, hlast⟩ := h
  cases c with
  | mk start last =>
      rw [ofBytes, mk.injEq, UInt8.toNat_ofNat', UInt8.toNat_ofNat', UInt8.toNat_ofNat']
      simp only at hstart hlast ⊢
      omega

theorem unpack_replicate_zero (k : Nat) : unpack (List.replicate k 0) = [] := by
  match k with
  | 0 | 1 | 2 => rfl
  | k + 3 => rfl

theorem unpack_append {cs : List Cluster} (h : ∀ c ∈ cs, c.Fits) (k : Nat) :
    unpack (cs.flatMap bytes ++ List.replicate k 0) = cs := by
  induction cs with
  | nil => exact unpack_replicate_zero k
  | cons c cs ih =>
      have hc := h c List.mem_cons_self
      rw [List.flatMap_cons, List.append_assoc, bytes, List.cons_append, List.cons_append,
        List.cons_append, unpack, List.nil_append]
      simp only [ofBytes_bytes hc]
      rw [if_neg (Nat.pos_iff_ne_zero.1 hc.1), ih fun q hq => h q (List.mem_cons_of_mem _ hq)]

theorem length_flatMap_bytes (cs : List Cluster) : (cs.flatMap bytes).length = 3 * cs.length := by
  induction cs with
  | nil => rfl
  | cons c cs ih =>
      rw [List.flatMap_cons, List.length_append, ih, List.length_cons]
      simp only [bytes, List.length_cons, List.length_nil]
      omega

theorem unpack_pack {cs : List Cluster} (hlen : cs.length ≤ maxCount) (h : ∀ c ∈ cs, c.Fits) :
    unpack (pack cs).bytes = cs := by
  have hfit : (cs.flatMap bytes).length ≤ listSize := by
    rw [length_flatMap_bytes, listSize]; omega
  have hbytes : (pack cs).bytes
      = cs.flatMap bytes ++ List.replicate (listSize - (cs.flatMap bytes).length) 0 := by
    rw [pack, List.take_of_length_le hlen]; exact Bytes.fit_of_length_le hfit
  rw [hbytes, unpack_append h]

/-- A stored list gives back the sectors of the file in their order. -/
theorem sectors_unpack_pack {s : List Nat} (hsec : ∀ x ∈ s, 0 < x ∧ x < 4096)
    (hlen : s.length ≤ 4096) (hcount : (ofSectors s).length ≤ maxCount) :
    sectors (unpack (pack (ofSectors s)).bytes) = s := by
  have hfits : ∀ c ∈ ofSectors s, c.Fits := by
    intro c hc
    obtain ⟨hstart, hlast⟩ := bounds_of_mem_ofSectors hc
    obtain ⟨hpos, hlt⟩ := hsec _ hstart
    exact ⟨hpos, hlt, by omega⟩
  rw [unpack_pack hcount hfits, sectors_ofSectors]

/-- A stored list gives back any sectors that it can hold, in any order and with repetitions. Its
clusters end in ascending places of the file, the last one in its last place, and no clusters of
these sectors are fewer, wherever they end. -/
theorem clusters_faithful_fewest (s : List Nat) :
    (s.length ≤ 4096 → (∀ x ∈ s, 1 ≤ x ∧ x ≤ 4095) → (ofSectors s).length ≤ 76 →
      sectors (unpack (pack (ofSectors s)).bytes) = s)
    ∧ ((ofSectors s).map (·.last)).Pairwise (· < ·)
    ∧ (s ≠ [] → ∃ c, (ofSectors s).getLast? = some c ∧ c.last = s.length - 1)
    ∧ ∀ cs, sectors cs = s → (ofSectors s).length ≤ cs.length := by
  refine ⟨fun hlen hsec hcount => ?_, ?_, last_ofSectors, fun cs => length_ofSectors_le⟩
  · refine sectors_unpack_pack (fun x hx => ?_) hlen hcount
    obtain ⟨hfirst, hlast⟩ := hsec x hx
    omega
  · rw [List.pairwise_map]
    exact pairwise_last_ofRuns 0 fun _ hr => length_pos_of_mem_runs hr

/-- Sectors that go down, and two that are there twice: three runs, which take four clusters if
one of them is cut. -/
theorem clusters_faithful_fewest_repeated :
    let s := [4095, 1, 2, 3, 3, 4]
    ofSectors s = [⟨4095, 0⟩, ⟨1, 3⟩, ⟨3, 5⟩]
      ∧ sectors (unpack (pack (ofSectors s)).bytes) = s
      ∧ (∃ c, (ofSectors s).getLast? = some c ∧ c.last = 5)
      ∧ sectors [⟨4095, 0⟩, ⟨1, 2⟩, ⟨3, 3⟩, ⟨3, 5⟩] = s
      ∧ (ofSectors s).length ≤ [Cluster.mk 4095 0, ⟨1, 2⟩, ⟨3, 3⟩, ⟨3, 5⟩].length := by
  intro s
  obtain ⟨hstored, -, hlast, hfewest⟩ := clusters_faithful_fewest s
  have hcut : sectors [⟨4095, 0⟩, ⟨1, 2⟩, ⟨3, 3⟩, ⟨3, 5⟩] = s := by decide
  exact ⟨by decide, hstored (by decide) (by decide) (by decide), hlast (by decide), hcut,
    hfewest _ hcut⟩

end TiBench.Volume.Cluster
