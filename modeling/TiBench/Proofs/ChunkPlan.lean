import TiBench.Proofs.Bytes
import TiBench.Scenario.RoundTrip
import Mathlib.Data.List.Forall2

/-!
# Chunks cover the words once

The plans that there are, and what the chunks of a plan have in them.
-/

namespace TiBench.Sample

namespace ChunkPlan

variable {p : ChunkPlan} {capacity i n : Nat} {base filler : UInt16} {c : Chunk}

/-- The chunk that a plan has at an index. -/
def piece (p : ChunkPlan) (i : Nat) : Chunk :=
  let first := i * p.wordsPerChunk
  let stop := min (first + p.wordsPerChunk) wordSpace
  ⟨i, first, stop, ⟨p.base, (p.imageWords first stop).flatMap Bytes.ofWordBE⟩⟩

theorem chunk?_of_lt (h : i < p.count) : p.chunk? i = some (p.piece i) := if_pos h

theorem chunk?_of_not_lt (h : ¬i < p.count) : p.chunk? i = none := if_neg h

theorem chunk?_eq_some : p.chunk? i = some c ↔ i < p.count ∧ p.piece i = c := by
  by_cases h : i < p.count
  · rw [chunk?_of_lt h, Option.some.injEq]
    exact (and_iff_right h).symm
  · rw [chunk?_of_not_lt h]
    exact ⟨nofun, fun hc => absurd hc.1 h⟩

theorem chunks_eq (p : ChunkPlan) : p.chunks = (List.range p.count).map p.piece := by
  exact List.filterMap_eq_map_iff_forall_eq_some.2 fun i hi => chunk?_of_lt (List.mem_range.1 hi)

/-! ## Where chunks begin and end -/

theorem lt_count : i < p.count ↔ i * p.wordsPerChunk < wordSpace := by
  have hpos := p.wordsPerChunk_pos
  rw [count, Nat.lt_iff_add_one_le, Nat.le_div_iff_mul_le hpos, Nat.succ_mul]
  omega

theorem count_pos (p : ChunkPlan) : 0 < p.count := by
  rw [lt_count, Nat.zero_mul]
  decide

theorem wordSpace_le_count_mul (p : ChunkPlan) : wordSpace ≤ p.count * p.wordsPerChunk :=
  Nat.le_of_not_lt fun h => Nat.lt_irrefl _ (lt_count.2 h)

theorem piece_first_lt_stop (h : i < p.count) : (p.piece i).first < (p.piece i).stop := by
  have hpos := p.wordsPerChunk_pos
  have hlt := lt_count.1 h
  exact Nat.lt_min.2 ⟨Nat.lt_add_of_pos_right hpos, hlt⟩

/-- There are words after a chunk only if the chunk is full. -/
theorem piece_stop (h : i + 1 < p.count) : (p.piece i).stop = (p.piece (i + 1)).first := by
  have hlt := lt_count.1 h
  rw [Nat.succ_mul] at hlt
  exact (Nat.min_eq_left (Nat.le_of_lt hlt)).trans (Nat.succ_mul _ _).symm

theorem piece_stop_last (p : ChunkPlan) : (p.piece (p.count - 1)).stop = wordSpace := by
  have hle := p.wordSpace_le_count_mul
  obtain ⟨n, hn⟩ := Nat.exists_eq_add_of_lt p.count_pos
  rw [hn, Nat.zero_add, Nat.succ_mul] at hle
  rw [hn, Nat.zero_add, Nat.add_sub_cancel]
  exact Nat.min_eq_right hle

/-! ## Images -/

/-- The words of a chunk without the filler. -/
def sourceWords (p : ChunkPlan) (i : Nat) : List UInt16 :=
  (List.range' (p.piece i).first ((p.piece i).stop - (p.piece i).first)).map UInt16.ofNat

theorem data_piece (p : ChunkPlan) (i : Nat) :
    (p.piece i).image.data = (p.sourceWords i ++ [p.filler, p.filler]).flatMap Bytes.ofWordBE :=
  rfl

theorem words_piece (p : ChunkPlan) (i : Nat) :
    (p.piece i).image.words = p.sourceWords i ++ [p.filler, p.filler] := by
  have h := Bytes.wordsBE_append (p.sourceWords i ++ [p.filler, p.filler]) []
  rw [List.append_nil] at h
  rw [MemoryImage.words, data_piece, h]
  exact List.append_nil _

/-- No word is cut off: all are below the end of the word space. -/
theorem toNat_sourceWords (p : ChunkPlan) (i : Nat) : (p.sourceWords i).map UInt16.toNat
    = List.range' (p.piece i).first ((p.piece i).stop - (p.piece i).first) := by
  have hstop : (p.piece i).stop ≤ wordSpace := Nat.min_le_right _ _
  rw [sourceWords, List.map_map]
  refine (List.map_congr_left fun w hw => ?_).trans (List.map_id _)
  obtain ⟨hle, hlt⟩ := List.mem_range'_1.1 hw
  have hw : w < 65536 := by
    rw [wordSpace] at hstop
    omega
  exact UInt16.toNat_ofNat_of_lt' hw

theorem length_data_piece (p : ChunkPlan) (i : Nat) : (p.piece i).image.data.length
    = 2 * ((p.piece i).stop - (p.piece i).first + fillerWords) := by
  rw [data_piece, Bytes.length_flatMap_ofWordBE, List.length_append, sourceWords, List.length_map,
    List.length_range']
  rfl

theorem length_data_piece_le (p : ChunkPlan) (i : Nat) :
    (p.piece i).image.data.length ≤ 2 * (p.wordsPerChunk + fillerWords) := by
  have hstop : (p.piece i).stop ≤ (p.piece i).first + p.wordsPerChunk := Nat.min_le_left _ _
  rw [length_data_piece]
  omega

/-! ## All chunks -/

theorem range'_append_sub {a b : Nat} (h : a ≤ b) :
    List.range' 0 a ++ List.range' a (b - a) = List.range' 0 b := by
  have happend := List.range'_append_1 (s := 0) (m := a) (n := b - a)
  rw [Nat.zero_add, Nat.add_sub_cancel' h] at happend
  exact happend

theorem range_eq_flatMap (p : ChunkPlan) (n : Nat) : ((List.range n).flatMap fun i =>
    List.range' (p.piece i).first ((p.piece i).stop - (p.piece i).first))
    = List.range (min (n * p.wordsPerChunk) wordSpace) := by
  induction n with
  | zero => rw [Nat.zero_mul, Nat.zero_min]; rfl
  | succ n ih =>
      have hpiece : List.range' (p.piece n).first ((p.piece n).stop - (p.piece n).first)
          = List.range' (n * p.wordsPerChunk)
            (min ((n + 1) * p.wordsPerChunk) wordSpace - n * p.wordsPerChunk) := by
        rw [Nat.succ_mul]
        rfl
      rw [List.range_succ, List.flatMap_append, ih, List.flatMap_singleton, hpiece]
      have hle : n * p.wordsPerChunk ≤ (n + 1) * p.wordsPerChunk :=
        Nat.mul_le_mul_right _ (Nat.le_succ n)
      rcases Nat.le_total (n * p.wordsPerChunk) wordSpace with h | h
      · rw [Nat.min_eq_left h, List.range_eq_range', List.range_eq_range',
          range'_append_sub (Nat.le_min.2 ⟨hle, h⟩)]
      · rw [Nat.min_eq_right h, Nat.min_eq_right (Nat.le_trans h hle),
          Nat.sub_eq_zero_of_le h]
        exact List.append_nil _

theorem range_eq_words (p : ChunkPlan) :
    (p.chunks.flatMap fun c => c.image.words.dropLast.dropLast).map UInt16.toNat
      = List.range wordSpace := by
  have hdrop (i : Nat) :
      ((p.piece i).image.words.dropLast.dropLast).map UInt16.toNat
        = List.range' (p.piece i).first ((p.piece i).stop - (p.piece i).first) := by
    rw [words_piece, ← toNat_sourceWords, List.dropLast_append_of_ne_nil (by nofun)]
    exact congrArg _ (List.dropLast_concat)
  rw [chunks_eq, List.flatMap_map, List.map_flatMap]
  simp only [hdrop]
  rw [range_eq_flatMap, Nat.min_eq_right p.wordSpace_le_count_mul]

/-! ## Plans -/

theorem make_eq_ok : make capacity base filler = .ok p ↔ capacity % 2 = 0 ∧ 6 ≤ capacity
    ∧ base.toNat + capacity ≤ 0x10000 ∧ p.base = base ∧ p.filler = filler
    ∧ 2 * (p.wordsPerChunk + fillerWords) = capacity := by
  obtain ⟨pbase, pfiller, w, hw⟩ := p
  rw [make]
  split
  case isTrue h =>
    split
    case isTrue hrange =>
      simp only [Except.ok.injEq, mk.injEq, fillerWords, wordSpace] at h hrange ⊢
      constructor
      · rintro ⟨rfl, rfl, rfl⟩
        exact ⟨h.1, h.2, hrange, rfl, rfl, by omega⟩
      · rintro ⟨-, -, -, rfl, rfl, hcap⟩
        exact ⟨rfl, rfl, by omega⟩
    case isFalse hrange =>
      exact ⟨nofun, fun hall => absurd hall.2.2.1 hrange⟩
  case isFalse h =>
    exact ⟨nofun, fun hall => absurd ⟨hall.1, hall.2.1⟩ h⟩

/-- What a chunk of a plan has in it. -/
structure Holds (c : Chunk) (capacity : Nat) (base filler : UInt16) : Prop where
  first_lt_stop : c.first < c.stop
  base_eq : c.image.base = base
  length_le : c.image.data.length ≤ capacity
  even_length : c.image.data.length % 2 = 0
  stop_le : c.image.base.toNat + c.image.data.length ≤ 0x10000
  data_eq : ∃ ws : List UInt16, ws.map UInt16.toNat = List.range' c.first (c.stop - c.first)
    ∧ c.image.data = (ws ++ [filler, filler]).flatMap Bytes.ofWordBE

/-- The chunks of a plan are one after the other, and their words are all words once. -/
structure Covers (p : ChunkPlan) (capacity : Nat) (base filler : UInt16) : Prop where
  isSome_iff : ∀ i, (p.chunk? i).isSome = true ↔ i < p.count
  chunks_eq : p.chunks.map some = (List.range p.count).map p.chunk?
  first_eq : ∃ c, p.chunk? 0 = some c ∧ c.first = 0
  next_eq : ∀ i c c', p.chunk? i = some c → p.chunk? (i + 1) = some c' → c'.first = c.stop
  stop_eq : ∃ c, p.chunk? (p.count - 1) = some c ∧ c.stop = 0x10000
  holds : ∀ i c, p.chunk? i = some c → c.index = i ∧ Holds c capacity base filler
  words_eq : (p.chunks.flatMap fun c => c.image.words.dropLast.dropLast).map UInt16.toNat
    = List.range 0x10000
  exhaustive : ∀ forward inverse tolerance,
    List.Forall₂ (fun t c => t.vector.payload = c.image.data ∧ t.vector.base = base
      ∧ t.forward = forward ∧ t.inverse? = some inverse ∧ t.tolerance = tolerance)
      (RoundTrip.exhaustive p forward inverse tolerance) p.chunks

theorem holds_piece (h : make capacity base filler = .ok p) (hi : i < p.count) :
    Holds (p.piece i) capacity base filler := by
  obtain ⟨-, -, hrange, hbase, hfiller, hcap⟩ := make_eq_ok.1 h
  have hlen := length_data_piece_le p i
  constructor
  case first_lt_stop => exact piece_first_lt_stop hi
  case base_eq => exact hbase
  case length_le => omega
  case even_length =>
    rw [length_data_piece]
    exact Nat.mul_mod_right 2 _
  case stop_le =>
    have hplace : (p.piece i).image.base = base := hbase
    rw [hplace]
    omega
  case data_eq => exact ⟨p.sourceWords i, toNat_sourceWords p i, hfiller ▸ data_piece p i⟩

theorem covers (h : make capacity base filler = .ok p) : Covers p capacity base filler := by
  constructor
  case isSome_iff =>
    intro i
    simp only [Option.isSome_iff_exists, chunk?_eq_some]
    exact ⟨fun ⟨_, hi, _⟩ => hi, fun hi => ⟨_, hi, rfl⟩⟩
  case chunks_eq =>
    rw [ChunkPlan.chunks_eq, List.map_map]
    exact List.map_congr_left fun i hi => (chunk?_of_lt (List.mem_range.1 hi)).symm
  case first_eq => exact ⟨_, chunk?_of_lt p.count_pos, Nat.zero_mul _⟩
  case next_eq =>
    intro i c c' hc hc'
    obtain ⟨-, rfl⟩ := chunk?_eq_some.1 hc
    obtain ⟨hi, rfl⟩ := chunk?_eq_some.1 hc'
    exact (piece_stop hi).symm
  case stop_eq =>
    exact ⟨_, chunk?_of_lt (Nat.sub_lt p.count_pos Nat.one_pos), p.piece_stop_last⟩
  case holds =>
    intro i c hc
    obtain ⟨hi, rfl⟩ := chunk?_eq_some.1 hc
    exact ⟨rfl, holds_piece h hi⟩
  case words_eq => exact p.range_eq_words
  case exhaustive =>
    intro forward inverse tolerance
    rw [RoundTrip.exhaustive, List.forall₂_map_left_iff, List.forall₂_same]
    intro c hc
    rw [ChunkPlan.chunks_eq] at hc
    obtain ⟨i, hi, rfl⟩ := List.mem_map.1 hc
    exact ⟨rfl, (holds_piece h (List.mem_range.1 hi)).base_eq, rfl, rfl, rfl⟩

/-- There is a plan for each even capacity that has room for one word and ends in memory, and for
no other; its chunks cover the words once. -/
theorem make_covers (capacity : Nat) (base filler : UInt16) :
    ((∃ p, make capacity base filler = .ok p)
      ↔ capacity % 2 = 0 ∧ 6 ≤ capacity ∧ base.toNat + capacity ≤ 0x10000)
    ∧ ∀ p, make capacity base filler = .ok p → Covers p capacity base filler := by
  refine ⟨⟨?_, ?_⟩, fun p => covers⟩
  · rintro ⟨p, hp⟩
    obtain ⟨heven, hsize, hrange, -⟩ := make_eq_ok.1 hp
    exact ⟨heven, hsize, hrange⟩
  · rintro ⟨heven, hsize, hrange⟩
    have hw : 0 < capacity / 2 - fillerWords := by
      rw [fillerWords]
      omega
    refine ⟨⟨base, filler, capacity / 2 - fillerWords, hw⟩,
      make_eq_ok.2 ⟨heven, hsize, hrange, rfl, rfl, ?_⟩⟩
    simp only [fillerWords]
    omega

/-- Seven words in a chunk do not divide the words, so the last chunk is shorter. -/
theorem make_covers_uneven : ∃ p, make 18 0 idleWord = .ok p ∧ p.count = 9363
    ∧ Covers p 18 0 idleWord := by
  have hp : make 18 0 idleWord = .ok ⟨0, idleWord, 7, by decide⟩ := rfl
  exact ⟨_, hp, rfl, (make_covers 18 0 idleWord).2 _ hp⟩

end ChunkPlan

end TiBench.Sample
