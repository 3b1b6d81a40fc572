import TiBench.Proofs.Checked.Access
import TiBench.Proofs.Record
import TiBench.Proofs.Payload

/-!
# Records slot by slot

Storing and reading records by the accesses that a machine makes: slots of sectors by quotient and
remainder of a record's number, length bytes by their place. With a record length that a format
allows, no access is out of range, whatever the bytes are.
-/

namespace TiBench.Checked

open Record (Encoded countWord checkLengths)

variable {n : Nat} {pad : Padding}

/-! ## Slots of one length -/

namespace Fixed

def slots (n : Nat) : Checked Nat := do return min 255 (← div sectorSize n)

/-- The length of the first `stop` bytes without the padding at their end. -/
def trimmedLength (pad : UInt8) (b : Bytes) : (stop : Nat) → Checked Nat
  | 0 => return 0
  | stop + 1 => do
    if (← get b (← sub (stop + 1) 1)) = pad then trimmedLength pad b stop
    else return stop + 1

def unpad (pad : Padding) (b : Bytes) : Checked Bytes :=
  match pad with
  | .space => do slice b 0 (← trimmedLength Padding.space.byte b b.length)
  | .zero => return b

def read (n : Nat) (pad : Padding) (sectors : List Bytes) (slots index : Nat) :
    Checked (Except RecordError Bytes) := do
  let offset := (← mod index slots) * n
  match sectors[← div index slots]? with
  | some sec =>
    if offset + n ≤ sec.length then return .ok (← unpad pad (← slice sec offset (offset + n)))
    else return .error (.overrun index)
  | none => return .error (.overrun index)

def decode (n : Nat) (pad : Padding) (count : Nat) (sectors : List Bytes) :
    Checked (List (Except RecordError Bytes)) := do
  let slots ← slots n
  (List.range count).mapM (read n pad sectors slots)

/-- Puts the record with a number in its slot of the last sector, which is a new one if that is the
first slot. -/
def put (n : Nat) (pad : Padding) (slots index : Nat) (record : Bytes) (sectors : List Bytes) :
    Checked (List Bytes) := do
  let first := (← mod index slots) = 0
  let sectors := if first then sectors ++ [List.replicate sectorSize 0] else sectors
  let offset := (← mod index slots) * n
  let last ← sub sectors.length 1
  let slot ← splice (List.replicate n pad.byte) 0 record.length record
  set sectors last (← splice (← get sectors last) offset (offset + n) slot)

def place (n : Nat) (pad : Padding) (slots index : Nat) (record : Bytes) (sectors : List Bytes) :
    ExceptT RecordError Checked (List Bytes) := do
  if n < record.length then throw (.tooLong index record.length)
  else put n pad slots index record sectors

def encode (n : Nat) (pad : Padding) (records : List Bytes) :
    ExceptT RecordError Checked Encoded := do
  let slots ← slots n
  let count ← liftExcept (countWord records.length)
  let sectors ← loop records [] (place n pad slots)
  return ⟨sectors.map (Block.fit 0 sectorSize), 0, count⟩

theorem slots_eq (hn : 0 < n) : slots n = .ok (Record.Fixed.slots n) := by
  rw [slots, div_eq hn]; rfl

/-- No format has records of no bytes, which would fit a sector any number of times. -/
example : slots 0 = .error .division := rfl

/-! ### Reading -/

theorem trimmedLength_eq {p : UInt8} {b : Bytes} {stop : Nat} (h : stop ≤ b.length) :
    trimmedLength p b stop = .ok (Pieces.dropEndWhile (· == p) (b.take stop)).length := by
  induction stop with
  | zero => rfl
  | succ stop ih =>
      have hb : b[stop]? = some b[stop] := List.getElem?_eq_getElem h
      rw [trimmedLength, sub_eq (Nat.le_add_left 1 stop), Result.ok_bind, Nat.add_sub_cancel,
        get_eq hb, Result.ok_bind, List.take_succ_eq_append_getElem h,
        Pieces.dropEndWhile_concat, ih (Nat.le_of_lt h)]
      by_cases hp : b[stop] = p
      · rw [if_pos hp, if_pos (beq_iff_eq.2 hp)]
      · rw [if_neg hp, if_neg (mt beq_iff_eq.1 hp), List.length_append,
          List.length_take_of_le (Nat.le_of_lt h)]
        rfl

theorem unpad_eq (pad : Padding) (b : Bytes) : unpad pad b = .ok (Record.Fixed.unpad pad b) := by
  cases pad with
  | space =>
      have htrimmed := Pieces.isPrefix_dropEndWhile (· == Padding.space.byte) b
      rw [unpad, trimmedLength_eq (Nat.le_refl _), List.take_length, Result.ok_bind,
        slice_zero htrimmed.length_le, ← List.prefix_iff_eq_take.1 htrimmed]
      rfl
  | zero => rfl

theorem read_eq (hn : 0 < n) (hle : n ≤ 255) (pad : Padding) (sectors : List Bytes) (index : Nat) :
    read n pad sectors (Record.Fixed.slots n) index
      = .ok (Record.Fixed.read n pad sectors.toArray index) := by
  have hslots := Record.Fixed.slots_pos hn hle
  rw [read, mod_eq hslots, Result.ok_bind, div_eq hslots, Result.ok_bind, Record.Fixed.read,
    List.getElem?_toArray]
  cases sectors[index / Record.Fixed.slots n]? with
  | none => rfl
  | some sec =>
      dsimp only [Option.map_some]
      rw [List.length_take, List.length_drop]
      -- A slot is whole if and only if its end lies in the sector.
      by_cases hend : index % Record.Fixed.slots n * n + n ≤ sec.length
      · rw [if_pos hend, if_pos (by omega), slice_eq (Nat.le_add_right _ _) hend, Result.ok_bind,
          Nat.add_sub_cancel_left, unpad_eq]
        rfl
      · rw [if_neg hend, if_neg (by omega)]; rfl

theorem decode_eq (hn : 0 < n) (hle : n ≤ 255) (pad : Padding) (count : Nat)
    (sectors : List Bytes) :
    decode n pad count sectors = .ok (Record.Fixed.decode n pad count sectors) := by
  rw [decode, slots_eq hn, Result.ok_bind]
  exact Result.mapM_eq_ok fun index _ => read_eq hn hle pad sectors index

/-! ### Storing -/

/-- The bytes of the sectors of records. -/
def sectorsOf (n : Nat) (pad : Padding) (records : List Bytes) : List Bytes :=
  (Pieces.chunks (Record.Fixed.slots n) records).map fun c => (Record.Fixed.sector n pad c).bytes

theorem bytes_sector (n : Nat) (pad : Padding) (records : List Bytes) :
    (Record.Fixed.sector n pad records).bytes
      = Bytes.fit 0 sectorSize (records.flatMap (Bytes.fit pad.byte n)) := rfl

/-- A record more in a sector that has room for it. -/
theorem splice_sector {records : List Bytes} (h : records.length < Record.Fixed.slots n)
    (record : Bytes) :
    splice (Record.Fixed.sector n pad records).bytes (records.length * n) (records.length * n + n)
        (record.fit pad.byte n)
      = .ok (Record.Fixed.sector n pad (records ++ [record])).bytes := by
  have hlen := Bytes.length_flatMap_fit pad.byte n records
  have hroom : records.length * n + n ≤ sectorSize := by
    rw [← Nat.succ_mul]
    exact Nat.le_trans (Nat.mul_le_mul_right n h) (Record.Fixed.slots_mul_le n)
  rw [bytes_sector, bytes_sector, List.flatMap_append, List.flatMap_singleton, ← hlen]
  exact splice_fit (by rw [hlen, Bytes.length_fit]) (hlen ▸ hroom)

theorem put_eq (hn : 0 < n) (hle : n ≤ 255) (records : List Bytes) {record : Bytes}
    (h : record.length ≤ n) :
    put n pad (Record.Fixed.slots n) records.length record (sectorsOf n pad records)
      = .ok (sectorsOf n pad (records ++ [record])) := by
  have hslots := Record.Fixed.slots_pos hn hle
  obtain ⟨pieces, last, hlast, hnew, hold⟩ := Pieces.chunks_concat hslots records record
  have hroom : last.length < Record.Fixed.slots n := hlast ▸ Nat.mod_lt _ hslots
  let bytes (c : List Bytes) : Bytes := (Record.Fixed.sector n pad c).bytes
  -- Whether it is a new one or not, the last sector holds the records of its slots.
  have hsectors : (if last.length = 0
      then sectorsOf n pad records ++ [List.replicate sectorSize 0] else sectorsOf n pad records)
      = pieces.map bytes ++ [bytes last] := by
    rw [sectorsOf, hold]
    by_cases hnil : last = []
    · rw [if_pos (by rw [hnil]; rfl), if_pos hnil, hnil, ← fit_nil 0]; rfl
    · rw [if_neg (mt List.length_eq_zero_iff.1 hnil), if_neg hnil, List.map_append]; rfl
  have hplace : (pieces.map bytes).length = pieces.length := List.length_map _
  have hlength : (pieces.map bytes ++ [bytes last]).length = pieces.length + 1 := by
    rw [List.length_append, hplace]; rfl
  have hget : (pieces.map bytes ++ [bytes last])[pieces.length]? = some (bytes last) := by
    rw [← hplace, List.getElem?_concat_length]
  rw [put, mod_eq hslots, Result.ok_bind, ← hlast]
  dsimp only
  rw [hsectors, Result.ok_bind, hlength, sub_eq (Nat.le_add_left _ _), Result.ok_bind,
    splice_replicate h, Result.ok_bind, Nat.add_sub_cancel, get_eq hget, Result.ok_bind,
    splice_sector hroom, Result.ok_bind, set_eq (by rw [hlength]; exact Nat.lt_succ_self _),
    List.set_append_right _ _ (Nat.le_of_eq hplace), hplace, Nat.sub_self, sectorsOf, hnew,
    List.map_append]
  rfl

theorem place_eq (hn : 0 < n) (hle : n ≤ 255) (pad : Padding) (records : List Bytes)
    (record : Bytes) :
    (place n pad (Record.Fixed.slots n) records.length record (sectorsOf n pad records)).run
      = .ok (if n < record.length then .error (.tooLong records.length record.length)
        else .ok (sectorsOf n pad (records ++ [record]))) := by
  rw [place]
  by_cases h : n < record.length
  · rw [if_pos h, if_pos h]; rfl
  · rw [if_neg h, if_neg h, put_eq hn hle records (Nat.not_lt.1 h)]; rfl

theorem encode_eq (hn : 0 < n) (hle : n ≤ 255) (pad : Padding) (records : List Bytes) :
    (encode n pad records).run = .ok (Record.Fixed.encode n pad records) := by
  have hloop : (loop records [] (place n pad (Record.Fixed.slots n))).run
      = .ok ((checkLengths n records).map fun _ => sectorsOf n pad records) := by
    refine run_loop_eq (I := fun rs => (checkLengths n rs).map fun _ => sectorsOf n pad rs)
      ?_ (fun done record more sectors _ hdone => ?_) (fun done more e hdone => ?_)
    · rw [sectorsOf, Pieces.chunks_nil]; rfl
    · cases hlengths : checkLengths n done with
      | error e => rw [hlengths] at hdone; cases hdone
      | ok _ =>
          rw [hlengths] at hdone
          obtain rfl := Except.ok.inj hdone
          rw [place_eq hn hle, Record.checkLengths_concat, hlengths, Result.ok_bind]
          split <;> rfl
    · rw [Record.checkLengths_append]
      cases hlengths : checkLengths n done with
      | error e' => rw [hlengths] at hdone; exact hdone
      | ok _ => rw [hlengths] at hdone; cases hdone
  have hfit : (sectorsOf n pad records).map (Block.fit 0 sectorSize)
      = (Pieces.chunks (Record.Fixed.slots n) records).map (Record.Fixed.sector n pad) := by
    rw [sectorsOf, List.map_map]
    exact List.map_congr_left fun c _ => Block.ext (Bytes.fit_of_length_eq (Block.length_eq _))
  have hrest (count : UInt16) : (do
        let sectors ← loop records [] (place n pad (Record.Fixed.slots n))
        return ⟨sectors.map (Block.fit 0 sectorSize), 0, count⟩ : ExceptT RecordError Checked _).run
      = .ok (do
        let sectors ← (checkLengths n records).map fun _ => sectorsOf n pad records
        return (⟨sectors.map (Block.fit 0 sectorSize), 0, count⟩ : Encoded)) :=
    run_bind_eq hloop fun _ _ => rfl
  rw [encode, run_lift_bind (slots_eq hn),
    run_bind_eq (run_liftExcept _) fun count _ => hrest count, Record.Fixed.encode]
  congr 2
  funext count
  rw [← hfit]
  cases checkLengths n records <;> rfl

end Fixed

/-! ## Records of varying length -/

namespace Variable

open Record.Variable (endByte)

/-- Reads a sector from a place on, after the records in `done`. -/
def scan (max : Nat) (sec : Bytes) (place : Nat) (done : List (Except RecordError Bytes)) :
    Checked (List (Except RecordError Bytes)) := do
  if place < sec.length then
    let length ← get sec place
    if length = endByte then return done
    else
      let next := place + 1 + length.toNat
      if sec.length < next then return done ++ [.error (.overrun done.length)]
      else if max < length.toNat then
        scan max sec next (done ++ [.error (.badLength done.length length.toNat max)])
      else scan max sec next (done ++ [.ok (← slice sec (place + 1) next)])
  else return done
termination_by sec.length - place

def decode (max : Nat) (sectors : List Bytes) : Checked (List (Except RecordError Bytes)) :=
  sectors.foldlM (fun done sec => scan max sec 0 done) []

theorem scan_eq (max : Nat) (sec : Bytes) (place : Nat) (done : List (Except RecordError Bytes)) :
    scan max sec place done = .ok (done ++ (Record.Variable.entries (sec.drop place)).mapIdx
      fun i => Record.Variable.resolve max (done.length + i)) := by
  induction hleft : sec.length - place using Nat.strongRecOn generalizing place done with
  | ind k ih =>
      rw [scan]
      by_cases hplace : place < sec.length
      · have hdrop : sec.drop place = sec[place] :: sec.drop (place + 1) :=
          List.drop_eq_getElem_cons hplace
        rw [if_pos hplace, get_eq (List.getElem?_eq_getElem hplace), Result.ok_bind, hdrop,
          Record.Variable.entries]
        by_cases hend : sec[place] = endByte
        · rw [if_pos hend, if_pos hend, List.mapIdx_nil, List.append_nil]; rfl
        · rw [if_neg hend, if_neg hend]
          have hlength : ((sec.drop (place + 1)).take sec[place].toNat).length
              = min sec[place].toNat (sec.length - (place + 1)) := by
            rw [List.length_take, List.length_drop]
          dsimp only
          by_cases hcut : sec.length < place + 1 + sec[place].toNat
          · rw [if_pos hcut, if_pos (by omega)]; rfl
          · have hwhole : ((sec.drop (place + 1)).take sec[place].toNat).length
                = sec[place].toNat := by omega
            have hnext (x : Except RecordError Bytes) (i : Nat) :
                (done ++ [x]).length + i = done.length + (i + 1) := by
              rw [List.length_append, List.length_singleton]; omega
            rw [if_neg hcut, if_neg (Nat.not_lt.2 (Nat.le_of_eq hwhole.symm)), List.drop_drop,
              List.mapIdx_cons, Record.Variable.resolve, hwhole, slice_eq (Nat.le_add_right _ _)
                (Nat.not_lt.1 hcut), Result.ok_bind, Nat.add_sub_cancel_left]
            by_cases hlong : max < sec[place].toNat
            · rw [if_pos hlong, if_pos hlong, ih _ (by omega) _ _ rfl, List.append_assoc]
              simp only [hnext]
              rfl
            · rw [if_neg hlong, if_neg hlong, ih _ (by omega) _ _ rfl, List.append_assoc]
              simp only [hnext]
              rfl
      · rw [if_neg hplace, List.drop_eq_nil_of_le (Nat.not_lt.1 hplace), Record.Variable.entries,
          List.mapIdx_nil, List.append_nil]
        rfl

theorem decode_eq (max : Nat) (sectors : List Bytes) :
    decode max sectors = .ok (Record.Variable.decode max sectors) := by
  have hfrom (done : List (Except RecordError Bytes)) :
      sectors.foldlM (fun done sec => scan max sec 0 done) done
        = .ok (done ++ (sectors.flatMap Record.Variable.entries).mapIdx
          fun i => Record.Variable.resolve max (done.length + i)) := by
    induction sectors generalizing done with
    | nil => rw [List.flatMap_nil, List.mapIdx_nil, List.append_nil]; rfl
    | cons sec sectors ih =>
        have hplace (i : Nat) : done.length + (Record.Variable.entries sec).length + i
            = done.length + (i + (Record.Variable.entries sec).length) := by omega
        rw [List.foldlM_cons, scan_eq, Result.ok_bind, ih, List.flatMap_cons, List.mapIdx_append,
          List.append_assoc, List.drop_zero]
        simp only [List.length_append, List.length_mapIdx, hplace]
  rw [decode, hfrom]
  simp only [List.nil_append, List.length_nil, Nat.zero_add]
  rfl

end Variable

/-! ## Any format -/

def encode (f : FileFormat) (records : List Bytes) : ExceptT RecordError Checked Encoded :=
  match f with
  | .program => throw .notRecords
  | .records f =>
    match f.family with
    | .fixed => Fixed.encode f.length f.padding records
    -- Packing records of varying length appends to sectors, and indexes nothing.
    | .variable => liftExcept (Record.Variable.encode f.length records)

def decodeRecords (f : RecordFormat) (count : Nat) (sectors : List Bytes) :
    Checked (List (Except RecordError Bytes)) :=
  match f.family with
  | .fixed => Fixed.decode f.length f.padding count sectors
  | .variable => do
    Variable.decode f.length (← slice sectors 0 (min count sectors.length))

def decode (f : FileFormat) (count : Nat) (sectors : List Bytes) :
    ExceptT RecordError Checked (List (Except RecordError Bytes)) :=
  match f with
  | .program => throw .notRecords
  | .records f => decodeRecords f count sectors

/-- The number of records in a sector. -/
def perSector : FileFormat → Checked Nat
  | .program => return 0
  | .records f =>
    match f.family with
    | .fixed => do return min 255 (← div sectorSize f.length)
    | .variable => div (sectorSize - 1) (f.length + 1)

/-- Whether a payload is empty or ends in a line feed. -/
def ended (data : Bytes) : Checked Bool := do
  if data.length = 0 then return true
  else return (← get data (← sub data.length 1)) == Payload.lineFeed

def split (f : FileFormat) (data : Bytes) : ExceptT PaddedLine Checked (List Bytes) :=
  match f with
  | .program => return [data]
  | .records f =>
    match f.content with
    | .internal => chunks f.length data
    | .display => do
      let pieces := Pieces.splitOn (· == Payload.lineFeed) data
      let lines := if ← ended data then pieces.dropLast else pieces
      match f.family with
      | .variable => return lines
      | .fixed =>
        match lines.findIdx? (fun l => l.getLast? == some Padding.space.byte) with
        | some i => throw ⟨i + 1⟩
        | none => return lines

theorem encode_eq (f : FileFormat) (records : List Bytes) :
    (encode f records).run = .ok (f.encode records) := by
  cases f with
  | program => rfl
  | records f =>
      have hle := f.length_le
      rw [encode, FileFormat.encode, RecordFormat.encode]
      rcases hf : f.family with _ | _
      · rw [hf] at hle
        exact Fixed.encode_eq f.length_pos hle f.padding records
      · exact run_liftExcept _

theorem decodeRecords_eq (f : RecordFormat) (count : Nat) (sectors : List Bytes) :
    decodeRecords f count sectors = .ok (f.decode count sectors) := by
  have hle := f.length_le
  rw [decodeRecords, RecordFormat.decode]
  rcases hf : f.family with _ | _
  · rw [hf] at hle
    exact Fixed.decode_eq f.length_pos hle f.padding count sectors
  · dsimp only
    rw [slice_zero (Nat.min_le_right _ _), Result.ok_bind, Variable.decode_eq,
      ← List.take_eq_take_min]

theorem decode_eq (f : FileFormat) (count : Nat) (sectors : List Bytes) :
    (decode f count sectors).run = .ok (f.decode count sectors) := by
  cases f with
  | program => rfl
  | records f => rw [decode, decodeRecords_eq]; rfl

theorem perSector_eq (f : FileFormat) : perSector f = .ok f.perSector := by
  cases f with
  | program => rfl
  | records f =>
      rw [perSector, FileFormat.perSector, RecordFormat.perSector]
      rcases f.family with _ | _
      · dsimp only
        rw [div_eq f.length_pos]; rfl
      · exact div_eq (Nat.succ_pos _) _

theorem ended_eq (data : Bytes) :
    ended data = .ok (!data.getLast?.any (· != Payload.lineFeed)) := by
  rw [ended]
  by_cases hdata : data.length = 0
  · rw [if_pos hdata, List.length_eq_zero_iff.1 hdata]; rfl
  · have hlast : data.length - 1 < data.length := by omega
    rw [if_neg hdata, sub_eq (Nat.pos_of_ne_zero hdata), Result.ok_bind,
      get_eq (List.getElem?_eq_getElem hlast), List.getLast?_eq_getElem?,
      List.getElem?_eq_getElem hlast, Option.any_some, bne, Bool.not_not]
    rfl

theorem lines_eq (data : Bytes) : Payload.lines data
    = if !data.getLast?.any (· != Payload.lineFeed)
      then (Pieces.splitOn (· == Payload.lineFeed) data).dropLast
      else Pieces.splitOn (· == Payload.lineFeed) data := by
  obtain ⟨pieces, last, hsplit, -, hend⟩ := Payload.splitOn_eq_append data
  rw [Payload.lines, hsplit]
  simp only [List.getLast?_concat, Option.some.injEq, hend, Bool.not_eq_true']

theorem split_eq (f : FileFormat) (data : Bytes) :
    (split f data).run = .ok (Payload.split f data) := by
  cases f with
  | program => rfl
  | records f =>
      rw [split, Payload.split]
      rcases f.content with _ | _
      · dsimp only
        rw [run_lift_bind (ended_eq data), ← lines_eq]
        rcases f.family with _ | _
        · dsimp only
          cases (Payload.lines data).findIdx? fun l => l.getLast? == some Padding.space.byte <;> rfl
        · rfl
      · dsimp only
        rw [chunks_eq f.length_pos]; rfl

end TiBench.Checked
