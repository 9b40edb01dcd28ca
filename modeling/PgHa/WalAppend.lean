import PgHa.Wal

/-!
`WalWriter::append_record` against `replay_wal` (`pg-ha-dcs/src/wal.rs`): which appended
records a replay returns. The writer narrows the length to 32 bits and refuses nothing;
the reader stops at a payload above `MAX_PAYLOAD_SIZE` and at one it cannot decode.
-/

namespace PgHa.WalAppend

open Wal

variable {Payload : Type} (crc32 : Bytes → UInt32) (codec : Bincode Payload)

/-- `append_record`: whether it returns `Ok`, and the file. A write or sync that fails leaves
the first `reached` bytes of the record. -/
def appendRecord (file : Bytes) (record : Record) (failed : Option Nat) : Bool × Bytes :=
  match failed with
  | none => (true, file ++ writeRecordBytes crc32 record)
  | some reached => (false, file ++ (writeRecordBytes crc32 record).take reached)

/-- One record after the other, each with `Ok`. -/
def appendRecords (file : Bytes) (records : List Record) : Bytes :=
  records.foldl (fun file record => (appendRecord crc32 file record none).2) file

/-- The records that the loop of `replay_wal` reads and applies. -/
def recordsLoop : Nat → Bytes → List Record
  | 0, _ => []
  | turns + 1, reader =>
      match readOneRecord crc32 reader with
      | .ok (some (record, rest)) =>
          if (decode codec record).isSome then record :: recordsLoop turns rest else []
      | .ok none | .error _ => []

def replayedRecords (reader : Bytes) : List Record := recordsLoop crc32 codec reader.length reader

/-- `replay_wal` is what these records lead to. -/
theorem replayLoop_records (turns : Nat) (result : WalReplayResult Payload) (reader : Bytes) :
    (replayLoop crc32 codec turns result reader).state =
      logStateOf codec result.state (recordsLoop crc32 codec turns reader) := by
  induction turns generalizing result reader with
  | zero => rfl
  | succ turns ih =>
      rw [replayLoop, recordsLoop]
      cases readOneRecord crc32 reader with
      | error e => rfl
      | ok found =>
          cases found with
          | none => rfl
          | some found =>
              obtain ⟨record, rest⟩ := found
              dsimp only
              cases decoded : decode codec record with
              | none => simp [applyRecord, decoded, logStateOf]
              | some mutation =>
                  simp only [applyRecord, decoded, Option.map_some, ih, Option.isSome_some, if_true]
                  simp [logStateOf, decoded]

/-! ### The loop -/

theorem recordsLoop_turns (turns more : Nat) (reader : Bytes) (enough : reader.length ≤ turns)
    (larger : reader.length ≤ more) :
    recordsLoop crc32 codec turns reader = recordsLoop crc32 codec more reader := by
  induction turns generalizing more reader with
  | zero =>
      have empty : reader = [] := List.eq_nil_of_length_eq_zero (Nat.le_zero.mp enough)
      subst empty
      cases more <;> rfl
  | succ turns ih =>
      cases more with
      | zero =>
          have empty : reader = [] := List.eq_nil_of_length_eq_zero (Nat.le_zero.mp larger)
          subst empty
          rfl
      | succ more =>
          rw [recordsLoop, recordsLoop]
          cases found : readOneRecord crc32 reader with
          | error e => rfl
          | ok read =>
              cases read with
              | none => rfl
              | some read =>
                  have shorter := readOneRecord_shortens crc32 found
                  have positive := recordLen_pos read.1
                  dsimp only
                  rw [ih more read.2 (by omega) (by omega)]

theorem replayedRecords_record {reader rest : Bytes} {record : Record}
    (found : readOneRecord crc32 reader = .ok (some (record, rest))) :
    replayedRecords crc32 codec reader =
      if (decode codec record).isSome then record :: replayedRecords crc32 codec rest else [] := by
  have shorter := readOneRecord_shortens crc32 found
  rw [replayedRecords, recordsLoop_turns crc32 codec reader.length (reader.length + 1) reader le_rfl
    (Nat.le_succ _), recordsLoop, found]
  dsimp only
  rw [recordsLoop_turns crc32 codec reader.length rest.length rest (by omega) le_rfl]
  rfl

theorem replayedRecords_stops {reader : Bytes}
    (stops : ∀ found, readOneRecord crc32 reader ≠ .ok (some found)) :
    replayedRecords crc32 codec reader = [] := by
  rw [replayedRecords]
  cases reader.length with
  | zero => rfl
  | succ turns =>
      rw [recordsLoop]
      split
      · rename_i record rest found
        exact absurd found (stops (record, rest))
      · rfl
      · rfl

/-- Up to its valid length a file replays the same, whatever follows. By induction on the
bytes that are left. -/
theorem replayedRecords_valid (result : WalReplayResult Payload) (reader : Bytes) :
    ∃ used ≤ reader.length, (replayRest crc32 codec result reader).validLen =
      result.validLen + used ∧
      ∀ suffix, replayedRecords crc32 codec (reader.take used ++ suffix) =
        replayedRecords crc32 codec reader ++ replayedRecords crc32 codec suffix := by
  induction left : reader.length using Nat.strong_induction_on generalizing result reader with
  | _ left ih =>
      subst left
      have stopped : replayRest crc32 codec result reader = result →
          replayedRecords crc32 codec reader = [] →
          ∃ used ≤ reader.length, (replayRest crc32 codec result reader).validLen =
            result.validLen + used ∧
            ∀ suffix, replayedRecords crc32 codec (reader.take used ++ suffix) =
              replayedRecords crc32 codec reader ++ replayedRecords crc32 codec suffix := by
        intro here none
        refine ⟨0, Nat.zero_le _, by rw [here, Nat.add_zero], ?_⟩
        intro suffix
        rw [none, List.take_zero]
        rfl
      by_cases more : ∃ found, readOneRecord crc32 reader = .ok (some found)
      · obtain ⟨⟨record, rest⟩, read⟩ := more
        have listed := replayedRecords_record crc32 codec read
        cases decoded : decode codec record with
        | none =>
            have undecodable : applyRecord codec result record = none := by
              simp [applyRecord, decoded]
            refine stopped (replayRest_undecodable crc32 codec read undecodable) ?_
            rw [listed, decoded, Option.isSome_none, if_neg Bool.false_ne_true]
        | some mutation =>
            have applied : applyRecord codec result record =
                some ⟨mutation.apply result.state, result.validLen + recordLen record⟩ := by
              simp [applyRecord, decoded]
            obtain ⟨bytes, length, rfl, again⟩ := readOneRecord_split crc32 read
            have positive := recordLen_pos record
            obtain ⟨used, within, valid, goes⟩ :=
              ih rest.length (by rw [List.length_append]; omega)
                ⟨mutation.apply result.state, result.validLen + recordLen record⟩ rest rfl
            refine ⟨recordLen record + used, ?_, ?_, ?_⟩
            · rw [List.length_append]
              omega
            · rw [replayRest_record crc32 codec read applied, valid, Nat.add_assoc]
            · intro suffix
              have cut : (bytes ++ rest).take (recordLen record + used) = bytes ++
                  rest.take used := by
                rw [← length, List.take_length_add_append]
              rw [cut, List.append_assoc, replayedRecords_record crc32 codec (again _), goes,
                listed, decoded]
              rfl
      · rw [not_exists] at more
        exact stopped (replayRest_stops crc32 codec more) (replayedRecords_stops crc32 codec more)

/-- What is appended to an opened file is replayed after what it held. -/
theorem replayedRecords_opened (file : Option Bytes) (suffix : Bytes) :
    replayedRecords crc32 codec ((openWal crc32 codec file).1 ++ suffix) =
      replayedRecords crc32 codec (file.getD []) ++ replayedRecords crc32 codec suffix := by
  cases file with
  | none => rfl
  | some bytes =>
      obtain ⟨used, _, valid, goes⟩ := replayedRecords_valid crc32 codec .empty bytes
      have cut : (replayWal crc32 codec (some bytes)).validLen = used := by
        rw [replayWal_some, valid]
        exact Nat.zero_add used
      rw [openWal_bytes, cut]
      exact goes suffix

/-! ### What is appended -/

theorem appendRecords_bytes (file : Bytes) (records : List Record) :
    appendRecords crc32 file records = file ++ writeRecords crc32 records := by
  induction records generalizing file with
  | nil => exact (List.append_nil file).symm
  | cons record records ih =>
      rw [writeRecords_cons, ← List.append_assoc]
      exact ih (file ++ writeRecordBytes crc32 record)

/-- The reader takes back what was written exactly if the payload is short enough. -/
theorem readOneRecord_written_iff (record : Record) :
    (∀ rest, readOneRecord crc32 (writeRecordBytes crc32 record ++ rest) =
      .ok (some (record, rest))) ↔
      record.2.length ≤ maxPayloadSize := by
  constructor
  · intro read
    obtain ⟨front, stored, framed, _⟩ := readOneRecord_some crc32 (read [])
    exact framed.bounded
  · intro fits rest
    exact readOneRecord_written crc32 record fits rest

theorem replayedRecords_accepted (turns : Nat) (reader : Bytes) :
    ∀ record ∈ recordsLoop crc32 codec turns reader, Accepted codec record := by
  induction turns generalizing reader with
  | zero =>
      intro record mem
      cases mem
  | succ turns ih =>
      rw [recordsLoop]
      split
      · rename_i record rest found
        obtain ⟨front, stored, framed, _⟩ := readOneRecord_some crc32 found
        by_cases decodes : (decode codec record).isSome = true
        · rw [if_pos decodes]
          exact List.forall_mem_cons.mpr ⟨⟨framed.bounded, decodes⟩, ih rest⟩
        · rw [if_neg decodes]
          intro record mem
          cases mem
      · intro record mem
        cases mem
      · intro record mem
        cases mem

theorem replayedRecords_written {records : List Record}
    (accepted : ∀ record ∈ records, Accepted codec record) :
    replayedRecords crc32 codec (writeRecords crc32 records) = records := by
  induction records with
  | nil => rfl
  | cons record records ih =>
      have first := accepted record List.mem_cons_self
      rw [writeRecords_cons,
        replayedRecords_record crc32 codec (readOneRecord_written crc32 record first.fits _),
        if_pos first.decodes, ih fun other mem => accepted other (List.mem_cons_of_mem record mem)]

/-- Every `append_record` of the run returns `Ok`; a replay of the file returns all its records
exactly if each payload is within the limit of the reader and decodes. -/
theorem appended_records_replayed_iff :
    (∀ file records,
        replayedRecords crc32 codec (appendRecords crc32 (openWal crc32 codec file).1 records) =
            replayedRecords crc32 codec (file.getD []) ++ records ↔
          ∀ record ∈ records, Accepted codec record) ∧
      ∀ record : Record,
        (∀ rest, readOneRecord crc32 (writeRecordBytes crc32 record ++ rest) =
          .ok (some (record, rest))) ↔
          record.2.length ≤ maxPayloadSize := by
  constructor
  · intro file records
    rw [appendRecords_bytes, replayedRecords_opened, List.append_cancel_left_eq]
    constructor
    · intro same
      rw [← same]
      exact replayedRecords_accepted crc32 codec _ _
    · exact replayedRecords_written crc32 codec
  · exact readOneRecord_written_iff crc32

/-! ### One byte too many -/

/-- A length that fits the field but not the limit. -/
theorem readOneRecord_long (record : Record) (long : maxPayloadSize < record.2.length)
    (narrow : record.2.length < 2 ^ 32) (rest : Bytes) :
    readOneRecord crc32 (writeRecordBytes crc32 record ++ rest) = .error .payloadTooLarge := by
  have head : readExact headerSize (writeRecordBytes crc32 record ++ rest) =
      .ok (header record, record.2 ++ (checksum crc32 record ++ rest)) := by
    rw [writeRecordBytes, List.append_assoc, List.append_assoc, ← length_header record]
    exact readExact_append (header record) _
  have length : fromLeBytes ((header record).drop 3) = record.2.length :=
    fromLeBytes_toLeBytes 4 _ narrow
  have magic : (header record).take 2 = walMagic := rfl
  have type : RecordType.fromU8 ((header record).getD 2 0) = some record.1 := fromU8_code record.1
  simp only [readOneRecord, head, magic, type, length, long, ne_eq, not_true_eq_false,
    if_false, if_true]

def longRecord : Record := (.append, List.replicate (maxPayloadSize + 1) 0)

/-- It is appended with `Ok`; a replay returns neither it nor the record appended after it. -/
theorem long_record_lost :
    (appendRecord crc32fast [] longRecord none).1 = true ∧
      (appendRecord crc32fast (appendRecord crc32fast [] longRecord none).2
        (truncateRecord 3) none).1 = true ∧
      replayedRecords crc32fast blankBincode
        (appendRecords crc32fast [] [longRecord, truncateRecord 3]) =
        [] := by
  have length : longRecord.2.length = maxPayloadSize + 1 := List.length_replicate
  have long : maxPayloadSize < longRecord.2.length := length ▸ Nat.lt_succ_self maxPayloadSize
  have narrow : longRecord.2.length < 2 ^ 32 := by
    rw [length]
    decide
  refine ⟨rfl, rfl, ?_⟩
  rw [appendRecords_bytes, List.nil_append, writeRecords_cons]
  apply replayedRecords_stops
  intro found read
  rw [readOneRecord_long crc32fast longRecord long narrow] at read
  cases read

end PgHa.WalAppend
