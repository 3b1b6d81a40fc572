import TiBench.Proofs.Record

/-!
# Damaged records of varying length

A length byte above the maximum spoils the record behind it, and one that announces more bytes than
there are ends its sector. No other record is read differently, whatever the sectors hold.
-/

namespace TiBench

/-- The error about the record `n` places further on. -/
def RecordError.shifted (n : Nat) : RecordError → RecordError
  | .badLength index length max => .badLength (index + n) length max
  | .tooLong index length => .tooLong (index + n) length
  | .overrun index => .overrun (index + n)
  | e => e

namespace Record.Variable

variable {max i : Nat} {sec : Bytes}

/-! ## What stands in a sector -/

/-- Behind its whole records the sector has a length byte, other than the end byte, that announces
more bytes than there are. -/
def Overruns (sec : Bytes) : Prop :=
  ∃ (records : List Bytes) (b : UInt8) (rest : Bytes), sec = records.flatMap entry ++ b :: rest
    ∧ (∀ r ∈ records, r.length ≤ maxLength) ∧ b ≠ endByte ∧ rest.length < b.toNat

theorem entries_overrun {b : UInt8} {rest : Bytes} (hb : b ≠ endByte)
    (hlen : rest.length < b.toNat) : entries (b :: rest) = [.cut] := by
  rw [entries, if_neg hb]
  exact if_pos (Nat.lt_of_le_of_lt (List.length_take_le' _ _) hlen)

/-- Every sector is made of whole records and, behind them, of what ends their reading. -/
theorem exists_layout (sec : Bytes) : ∃ (records : List Bytes) (tail : Bytes),
    sec = records.flatMap entry ++ tail ∧ (∀ r ∈ records, r.length ≤ maxLength)
      ∧ (entries tail = [] ∨ ∃ b rest, tail = b :: rest ∧ b ≠ endByte ∧ rest.length < b.toNat) := by
  fun_induction entries sec with
  | case1 => exact ⟨[], [], rfl, fun _ h => (nomatch h), Or.inl (by rw [entries])⟩
  | case2 rest => exact ⟨[], _, rfl, fun _ h => (nomatch h), Or.inl (entries_endByte rest)⟩
  | case3 b rest hb record hcut =>
      rw [List.length_take] at hcut
      exact ⟨[], _, rfl, fun _ h => (nomatch h), Or.inr ⟨b, rest, rfl, hb, by omega⟩⟩
  | case4 b rest hb record hwhole ih =>
      obtain ⟨records, tail, hrest, hlengths, htail⟩ := ih
      have hlen : record.length = b.toNat :=
        Nat.le_antisymm (List.length_take_le _ _) (Nat.not_lt.1 hwhole)
      refine ⟨record :: records, tail, ?_, fun r hr => ?_, htail⟩
      · rw [List.flatMap_cons, entry, hlen, UInt8.ofNat_toNat, List.append_assoc, ← hrest,
          List.cons_append, List.take_append_drop]
      · rcases List.mem_cons.1 hr with rfl | hr
        · have hlt : b.toNat < 256 := b.toNat_lt
          have hne : b.toNat ≠ 255 := fun h => hb (UInt8.toNat_inj.1 h)
          rw [hlen, maxLength]
          omega
        · exact hlengths r hr

theorem cut_mem_entries_iff : .cut ∈ entries sec ↔ Overruns sec := by
  constructor
  · intro hcut
    obtain ⟨records, tail, rfl, hlengths, hnone | ⟨b, rest, rfl, hb, hlen⟩⟩ := exists_layout sec
    · rw [entries_append hlengths, hnone, List.append_nil] at hcut
      obtain ⟨r, -, hr⟩ := List.mem_map.1 hcut
      cases hr
    · exact ⟨records, b, rest, rfl, hlengths, hb, hlen⟩
  · rintro ⟨records, b, rest, rfl, hlengths, hb, hlen⟩
    rw [entries_append hlengths, entries_overrun hb hlen]
    exact List.mem_append_right _ List.mem_cons_self

/-- A sector holds whole records, and one more that is cut off if it overruns. -/
theorem entries_eq (sec : Bytes) : ∃ records : List Bytes, (∀ r ∈ records, entry r <:+: sec)
    ∧ (entries sec = records.map .whole ∧ ¬Overruns sec
      ∨ entries sec = records.map .whole ++ [.cut] ∧ Overruns sec) := by
  obtain ⟨records, tail, hsec, hlengths, htail⟩ := exists_layout sec
  have hentries : entries sec = records.map .whole ++ entries tail := by
    rw [hsec, entries_append hlengths]
  refine ⟨records, fun r hr => ?_, ?_⟩
  · obtain ⟨before, after, rfl⟩ := List.append_of_mem hr
    rw [hsec, List.flatMap_append, List.flatMap_cons]
    exact ⟨before.flatMap entry, after.flatMap entry ++ tail, by simp only [List.append_assoc]⟩
  · rcases htail with hnone | ⟨b, rest, rfl, hb, hlen⟩
    · rw [hnone, List.append_nil] at hentries
      refine Or.inl ⟨hentries, fun hcut => ?_⟩
      rw [← cut_mem_entries_iff, hentries] at hcut
      obtain ⟨r, -, hr⟩ := List.mem_map.1 hcut
      cases hr
    · rw [entries_overrun hb hlen] at hentries
      exact Or.inr ⟨hentries, records, b, rest, hsec, hlengths, hb, hlen⟩

/-- The entry that is cut off is the last one of its sector. -/
theorem getElem?_entries_eq_cut {j : Nat} :
    (entries sec)[j]? = some .cut ↔ Overruns sec ∧ j + 1 = (entries sec).length := by
  obtain ⟨records, -, ⟨hentries, hwhole⟩ | ⟨hentries, hcut⟩⟩ := entries_eq sec
  · simp [hentries, hwhole]
  · rw [hentries, List.length_append, List.length_map, List.length_singleton,
      and_iff_right hcut]
    rcases Nat.lt_trichotomy j records.length with hlt | rfl | hgt
    · rw [List.getElem?_append_left (by rwa [List.length_map])]
      simp [Nat.ne_of_lt hlt]
    · rw [List.getElem?_append_right (Nat.le_of_eq (List.length_map _))]
      simp
    · rw [List.getElem?_eq_none (by simpa using Nat.succ_le_of_lt hgt)]
      simp [Nat.ne_of_gt hgt]

/-! ## What is read -/

variable {sectors : List Bytes}

theorem getElem?_decode (max : Nat) (sectors : List Bytes) (i : Nat) :
    (decode max sectors)[i]? = (sectors.flatMap entries)[i]?.map (resolve max i) :=
  List.getElem?_mapIdx

theorem length_decode (max : Nat) (sectors : List Bytes) :
    (decode max sectors).length = (sectors.flatMap entries).length := List.length_mapIdx

theorem resolve_add (max n : Nat) (e : Entry) (i : Nat) :
    resolve max (i + n) e = (resolve max i e).mapError (·.shifted n) := by
  cases e with
  | whole record => simp only [resolve]; split <;> rfl
  | cut => rfl

theorem resolve_eq_overrun {j : Nat} {e : Entry} :
    resolve max i e = .error (.overrun j) ↔ e = .cut ∧ j = i := by
  cases e with
  | whole record => simp only [resolve]; split <;> simp
  | cut => simp [resolve, eq_comm]

/-- The sectors behind others are read as if they stood alone, their records further on. -/
theorem decode_append (max : Nat) (a b : List Bytes) : decode max (a ++ b)
    = decode max a ++ (decode max b).map (·.mapError (·.shifted (decode max a).length)) := by
  rw [length_decode, decode, decode, decode, List.flatMap_append, List.mapIdx_append]
  congr 1
  refine List.ext_getElem? fun i => ?_
  rw [List.getElem?_map, List.getElem?_mapIdx, List.getElem?_mapIdx, Option.map_map]
  exact congrArg (Option.map · _) (funext fun e => resolve_add max _ e i)

/-- A record that is not cut off is stored somewhere, and any maximum is held against its length. -/
theorem getElem?_decode_eq (hi : i < (sectors.flatMap entries).length) :
    (∀ max, (decode max sectors)[i]? = some (.error (.overrun i)))
      ∨ ∃ record, (∃ sec ∈ sectors, entry record <:+: sec) ∧ ∀ max, (decode max sectors)[i]?
        = some (if record.length ≤ max then .ok record
          else .error (.badLength i record.length max)) := by
  have hentry := List.getElem?_eq_getElem hi
  obtain ⟨sec, hsec, hmem⟩ := List.mem_flatMap.1 (List.getElem_mem hi)
  cases he : (sectors.flatMap entries)[i] with
  | cut =>
      refine Or.inl fun max => ?_
      rw [getElem?_decode, hentry, he]
      rfl
  | whole record =>
      refine Or.inr ⟨record, ⟨sec, hsec, ?_⟩, fun max => ?_⟩
      · obtain ⟨records, hstored, ⟨hentries, -⟩ | ⟨hentries, -⟩⟩ := entries_eq sec
        · rw [he, hentries] at hmem
          exact hstored record (by simpa using hmem)
        · rw [he, hentries] at hmem
          exact hstored record (by simpa using hmem)
      · rw [getElem?_decode, hentry, he, Option.map_some, resolve]
        by_cases hle : record.length ≤ max
        · rw [if_pos hle, if_neg (Nat.not_lt.2 hle)]
        · rw [if_neg hle, if_pos (Nat.not_le.1 hle)]

theorem getElem?_flatMap_entries (before after : List Bytes) (sec : Bytes)
    (hfirst : (before.flatMap entries).length ≤ i)
    (hlast : i < (before.flatMap entries).length + (entries sec).length) :
    ((before ++ sec :: after).flatMap entries)[i]?
      = (entries sec)[i - (before.flatMap entries).length]? := by
  rw [List.flatMap_append, List.flatMap_cons, List.getElem?_append_right hfirst,
    List.getElem?_append_left (by omega)]

/-- Among the entries of its sector the one that is cut off is the last, wherever the sector
stands. -/
theorem getElem?_decode_eq_overrun (before after : List Bytes) {j : Nat}
    (hfirst : (decode max before).length ≤ i)
    (hlast : i < (decode max before).length + (decode max [sec]).length) :
    (decode max (before ++ sec :: after))[i]? = some (.error (.overrun j))
      ↔ Overruns sec ∧ j = i
        ∧ i + 1 = (decode max before).length + (decode max [sec]).length := by
  rw [length_decode, length_decode, List.flatMap_singleton] at *
  rw [getElem?_decode, getElem?_flatMap_entries before after sec hfirst hlast]
  simp only [Option.map_eq_some_iff, resolve_eq_overrun]
  have hcut : (entries sec)[i - (before.flatMap entries).length]? = some .cut
      ↔ Overruns sec ∧ i - (before.flatMap entries).length + 1 = (entries sec).length :=
    getElem?_entries_eq_cut
  constructor
  · rintro ⟨e, he, rfl, rfl⟩
    obtain ⟨hover, hend⟩ := hcut.1 he
    exact ⟨hover, rfl, by omega⟩
  · rintro ⟨hover, rfl, hend⟩
    exact ⟨.cut, hcut.2 ⟨hover, by omega⟩, rfl, rfl⟩

/-- However damaged, sectors are read one by one, and the entries of a sector one by one: a length
byte that is too large spoils its own record, or cuts off the last one of its sector. -/
theorem damage_stays_local :
    (∀ max a b, decode max (a ++ b)
      = decode max a ++ (decode max b).map (·.mapError (·.shifted (decode max a).length)))
    ∧ (∀ sectors max max', (decode max sectors).length = (decode max' sectors).length)
    ∧ (∀ sectors max' i, i < (decode max' sectors).length →
      (∀ max, (decode max sectors)[i]? = some (.error (.overrun i)))
        ∨ ∃ record, (∃ sec ∈ sectors, entry record <:+: sec) ∧ ∀ max, (decode max sectors)[i]?
          = some (if record.length ≤ max then .ok record
            else .error (.badLength i record.length max)))
    ∧ (∀ max before sec after, (Overruns sec → 0 < (decode max [sec]).length) ∧
      ∀ i j, (decode max before).length ≤ i →
        i < (decode max before).length + (decode max [sec]).length →
        ((decode max (before ++ sec :: after))[i]? = some (.error (.overrun j))
          ↔ Overruns sec ∧ j = i
            ∧ i + 1 = (decode max before).length + (decode max [sec]).length))
    ∧ ∀ max sectors i (e : RecordError), (decode max sectors)[i]? = some (.error e) →
      e = .overrun i ∨ ∃ length, max < length ∧ e = .badLength i length max := by
  refine ⟨decode_append, fun sectors max max' => ?_, fun sectors max' i hi => ?_,
    fun max before sec after => ⟨fun hover => ?_, fun i j hfirst hlast =>
      getElem?_decode_eq_overrun before after hfirst hlast⟩, fun max sectors i e he => ?_⟩
  · rw [length_decode, length_decode]
  · rw [length_decode] at hi
    exact getElem?_decode_eq hi
  · rw [length_decode, List.flatMap_singleton]
    exact List.length_pos_of_mem (cut_mem_entries_iff.2 hover)
  · have hi := (List.getElem?_eq_some_iff.1 he).1
    rw [length_decode] at hi
    rcases getElem?_decode_eq hi with hcut | ⟨record, -, hrecord⟩
    · rw [hcut max] at he
      exact Or.inl (Except.error.inj (Option.some.inj he)).symm
    · rw [hrecord max] at he
      split at he
      · cases Option.some.inj he
      · rename_i hlong
        exact Or.inr ⟨record.length, Nat.not_le.1 hlong,
          (Except.error.inj (Option.some.inj he)).symm⟩

/-- The first sector ends with a length byte that claims two bytes more than there are, and the
second one begins with a record above the maximum. -/
theorem damage_stays_local_between :
    (decode 4 [[2, 0x4f, 0x4b, 3, 1], [5, 1, 2, 3, 4, 5, 1, 0x5a]])[1]?
        = some (.error (.overrun 1))
      ∧ (decode 4 [[2, 0x4f, 0x4b, 3, 1], [5, 1, 2, 3, 4, 5, 1, 0x5a]])[2]?
        = some (.error (.badLength 2 5 4)) := by
  have hover : Overruns [2, 0x4f, 0x4b, 3, 1] :=
    ⟨[[0x4f, 0x4b]], 3, [1], by decide, by decide, by decide, by decide⟩
  have hlen : (decode 4 [[2, 0x4f, 0x4b, 3, 1]]).length = 2 := by decide +kernel
  obtain ⟨-, -, -, hcut, -⟩ := damage_stays_local
  refine ⟨((hcut 4 [] _ [[5, 1, 2, 3, 4, 5, 1, 0x5a]]).2 1 1 (Nat.zero_le _) ?_).2
    ⟨hover, rfl, ?_⟩, by decide +kernel⟩
  · rw [hlen]; decide
  · rw [hlen]; decide

end Record.Variable

end TiBench
