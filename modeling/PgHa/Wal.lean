import Mathlib.Algebra.Group.Nat.Defs
import Mathlib.Order.Bounds.Basic
import Std.Data.ExtTreeMap

/-!
The write-ahead log of `pg-ha-dcs/src/wal.rs`: how a record is framed, how a file is
replayed, and what `WalWriter::open` does to a file whose last record is torn. A
file is its bytes. `crc32` is the checksum and `codec` bincode; neither is in the
repository.
-/

namespace PgHa.Wal

open Std (ExtTreeMap)

abbrev Bytes := List UInt8

def walMagic : Bytes := [0x52, 0x41]

def headerSize : Nat := 2 + 1 + 4

def crcSize : Nat := 4

def maxPayloadSize : Nat := 16 * 1024 * 1024

def compactionThreshold : Nat := 4 * 1024 * 1024

inductive RecordType where
  | append
  | purge
  | truncate
  deriving DecidableEq

def RecordType.code : RecordType → UInt8
  | .append => 1
  | .purge => 2
  | .truncate => 3

def RecordType.fromU8 : UInt8 → Option RecordType
  | 1 => some .append
  | 2 => some .purge
  | 3 => some .truncate
  | _ => none

structure LogId where
  term : UInt64
  node : UInt64
  index : UInt64
  deriving DecidableEq

structure LogEntry (Payload : Type) where
  logId : LogId
  payload : Payload
  deriving DecidableEq

/-- bincode on the three payloads: reading gives back what was written. -/
structure Bincode (Payload : Type) where
  entry : LogEntry Payload → Bytes
  purge : LogId → Bytes
  truncate : UInt64 → Bytes
  readEntry : Bytes → Option (LogEntry Payload)
  readPurge : Bytes → Option LogId
  readTruncate : Bytes → Option UInt64
  read_entry : ∀ written, readEntry (entry written) = some written
  read_purge : ∀ logId, readPurge (purge logId) = some logId
  read_truncate : ∀ since, readTruncate (truncate since) = some since

/-- `to_le_bytes` of an integer of so many bytes; higher bits are dropped. -/
def toLeBytes : Nat → Nat → Bytes
  | 0, _ => []
  | width + 1, n => .ofNat n :: toLeBytes width (n / 2 ^ 8)

def fromLeBytes : Bytes → Nat
  | [] => 0
  | byte :: rest => byte.toNat + 2 ^ 8 * fromLeBytes rest

/-- A record type with its payload. -/
abbrev Record := RecordType × Bytes

variable {Payload : Type} (crc32 : Bytes → UInt32) (codec : Bincode Payload)

def recordLen (record : Record) : Nat := headerSize + record.2.length + crcSize

def header (record : Record) : Bytes :=
  walMagic ++ [record.1.code] ++ toLeBytes 4 record.2.length

def checksum (record : Record) : Bytes :=
  toLeBytes crcSize (crc32 ([record.1.code] ++ toLeBytes 4 record.2.length ++ record.2)).toNat

def writeRecordBytes (record : Record) : Bytes :=
  header record ++ record.2 ++ checksum crc32 record

def writeRecords (records : List Record) : Bytes := records.flatMap (writeRecordBytes crc32)

/-! ### Replay -/

inductive ReadError where
  | badMagic
  | unknownRecordType
  | payloadTooLarge
  | unexpectedEof
  | crcMismatch

def readExact (count : Nat) (reader : Bytes) : Except ReadError (Bytes × Bytes) :=
  if count ≤ reader.length then .ok (reader.take count, reader.drop count)
  else .error .unexpectedEof

/-- The record and the bytes after it. A header that is cut short is the end of the
file. -/
def readOneRecord (reader : Bytes) : Except ReadError (Option (Record × Bytes)) :=
  match readExact headerSize reader with
  | .error _ => .ok none
  | .ok (header, body) =>
      if header.take 2 ≠ walMagic then .error .badMagic
      else match RecordType.fromU8 (header.getD 2 0) with
        | none => .error .unknownRecordType
        | some type =>
            if maxPayloadSize < fromLeBytes (header.drop 3) then .error .payloadTooLarge
            else do
              let (payload, tail) ← readExact (fromLeBytes (header.drop 3)) body
              let (stored, rest) ← readExact crcSize tail
              if (crc32 ([header.getD 2 0] ++ header.drop 3 ++ payload)).toNat ≠
                  fromLeBytes stored then
                .error .crcMismatch
              else .ok (some ((type, payload), rest))

/-- The log in memory and the last purge. -/
structure LogState (Payload : Type) where
  log : ExtTreeMap UInt64 (LogEntry Payload)
  lastPurged : Option LogId

def LogState.empty : LogState Payload := ⟨∅, none⟩

/-- A decoded record. -/
inductive Mutation (Payload : Type) where
  | append (entry : LogEntry Payload)
  | purge (logId : LogId)
  | truncate (since : UInt64)

def decode (record : Record) : Option (Mutation Payload) :=
  match record.1 with
  | .append => (codec.readEntry record.2).map .append
  | .purge => (codec.readPurge record.2).map .purge
  | .truncate => (codec.readTruncate record.2).map .truncate

/-- What `apply_record` does once the payload is deserialised. -/
def Mutation.apply (state : LogState Payload) : Mutation Payload → LogState Payload
  | .append entry => { state with log := state.log.insert entry.logId.index entry }
  | .purge logId =>
      { log := state.log.filter fun index _ => decide (logId.index < index)
        lastPurged := some logId }
  | .truncate since =>
      { state with log := state.log.filter fun index _ => decide (index < since) }

structure WalReplayResult (Payload : Type) where
  state : LogState Payload
  validLen : Nat

def WalReplayResult.empty : WalReplayResult Payload := ⟨.empty, 0⟩

def applyRecord (result : WalReplayResult Payload) (record : Record) :
    Option (WalReplayResult Payload) :=
  (decode codec record).map fun mutation =>
    ⟨mutation.apply result.state, result.validLen + recordLen record⟩

/-- The loop of `replay_wal`; every turn but the last takes bytes from the reader. -/
def replayLoop : Nat → WalReplayResult Payload → Bytes → WalReplayResult Payload
  | 0, result, _ => result
  | turns + 1, result, reader =>
      match readOneRecord crc32 reader with
      | .ok (some (record, rest)) =>
          match applyRecord codec result record with
          | some next => replayLoop turns next rest
          | none => result
      | .ok none | .error _ => result

/-- A file that does not exist replays to nothing. -/
def replayWal (file : Option Bytes) : WalReplayResult Payload :=
  match file with
  | none => .empty
  | some bytes => replayLoop crc32 codec bytes.length .empty bytes

/-- `WalWriter::open`: the file after a torn tail is cut off, and what it replayed to. -/
def openWal (file : Option Bytes) : Bytes × WalReplayResult Payload :=
  let replayed := replayWal crc32 codec file
  let bytes := file.getD []
  (if replayed.validLen < bytes.length then bytes.take replayed.validLen else bytes, replayed)

/-! ### Framing -/

@[simp] theorem length_toLeBytes (width n : Nat) : (toLeBytes width n).length = width := by
  induction width generalizing n with
  | zero => rfl
  | succ width ih => simp only [toLeBytes, List.length_cons, ih]

theorem fromLeBytes_toLeBytes (width n : Nat) (fits : n < 2 ^ (8 * width)) :
    fromLeBytes (toLeBytes width n) = n := by
  induction width generalizing n with
  | zero =>
      simp only [Nat.mul_zero, Nat.pow_zero, Nat.lt_one_iff] at fits
      exact fits.symm
  | succ width ih =>
      have smaller : n / 2 ^ 8 < 2 ^ (8 * width) := by
        rw [Nat.div_lt_iff_lt_mul (by decide), ← Nat.pow_add]
        exact fits
      simp only [toLeBytes, fromLeBytes, UInt8.toNat_ofNat', ih _ smaller]
      omega

theorem fromU8_code (type : RecordType) : RecordType.fromU8 type.code = some type := by
  cases type <;> rfl

@[simp] theorem length_header (record : Record) : (header record).length = headerSize := rfl

@[simp] theorem length_checksum (record : Record) : (checksum crc32 record).length = crcSize := rfl

@[simp] theorem length_writeRecordBytes (record : Record) :
    (writeRecordBytes crc32 record).length = recordLen record := by
  simp [writeRecordBytes, recordLen]
  omega

theorem readExact_append (front back : Bytes) :
    readExact front.length (front ++ back) = .ok (front, back) := by
  simp [readExact]

theorem readExact_ok {count : Nat} {reader front back : Bytes}
    (found : readExact count reader = .ok (front, back)) :
    front.length = count ∧ reader = front ++ back := by
  unfold readExact at found
  split at found
  · rename_i enough
    cases found
    exact ⟨List.length_take_of_le enough, (List.take_append_drop count reader).symm⟩
  · cases found

/-- The parts of a record that reads well. -/
structure Framed (front payload stored : Bytes) (type : RecordType) : Prop where
  header : front.length = headerSize
  magic : front.take 2 = walMagic
  type : RecordType.fromU8 (front.getD 2 0) = some type
  length : payload.length = fromLeBytes (front.drop 3)
  bounded : payload.length ≤ maxPayloadSize
  crc : stored.length = crcSize
  sum : (crc32 ([front.getD 2 0] ++ front.drop 3 ++ payload)).toNat = fromLeBytes stored

theorem readOneRecord_framed {front payload stored : Bytes} {type : RecordType}
    (framed : Framed crc32 front payload stored type) (rest : Bytes) :
    readOneRecord crc32 (front ++ payload ++ stored ++ rest) =
      .ok (some ((type, payload), rest)) := by
  have head : readExact headerSize (front ++ payload ++ stored ++ rest) =
      .ok (front, payload ++ (stored ++ rest)) := by
    rw [← framed.header, List.append_assoc, List.append_assoc]
    exact readExact_append front _
  have bounded : ¬ maxPayloadSize < fromLeBytes (front.drop 3) := by
    rw [← framed.length]
    exact Nat.not_lt.mpr framed.bounded
  have body := readExact_append payload (stored ++ rest)
  have tail := readExact_append stored rest
  rw [framed.length] at body
  rw [framed.crc] at tail
  simp only [readOneRecord, head, framed.magic, framed.type, bounded, body, tail, framed.sum,
    bind, Except.bind, ne_eq, not_true_eq_false, if_false]

/-- What is read back is framed, and the rest of the reader is left. -/
theorem readOneRecord_some {reader rest payload : Bytes} {type : RecordType}
    (found : readOneRecord crc32 reader = .ok (some ((type, payload), rest))) :
    ∃ front stored, Framed crc32 front payload stored type ∧
      reader = front ++ payload ++ stored ++ rest := by
  unfold readOneRecord at found
  cases head : readExact headerSize reader with
  | error e => simp [head] at found
  | ok parts =>
      obtain ⟨front, body⟩ := parts
      simp only [head] at found
      split at found
      · cases found
      · rename_i magic
        cases kind : RecordType.fromU8 (front.getD 2 0) with
        | none =>
            simp only [kind] at found
            cases found
        | some type' =>
            simp only [kind] at found
            split at found
            · cases found
            · rename_i bounded
              cases middle : readExact (fromLeBytes (front.drop 3)) body with
              | error e => simp [middle, bind, Except.bind] at found
              | ok parts =>
                  obtain ⟨payload', tail⟩ := parts
                  cases last : readExact crcSize tail with
                  | error e => simp [middle, last, bind, Except.bind] at found
                  | ok parts =>
                      obtain ⟨stored, rest'⟩ := parts
                      simp only [middle, last, bind, Except.bind] at found
                      split at found
                      · cases found
                      · rename_i sum
                        simp only [Except.ok.injEq, Option.some.injEq, Prod.mk.injEq] at found
                        obtain ⟨⟨rfl, rfl⟩, rfl⟩ := found
                        have first := readExact_ok head
                        have second := readExact_ok middle
                        have third := readExact_ok last
                        refine ⟨front, stored, ⟨first.1, not_not.mp magic, kind, second.1, ?_,
                          third.1, not_not.mp sum⟩, ?_⟩
                        · rw [second.1]
                          exact Nat.not_lt.mp bounded
                        · rw [first.2, second.2, third.2]
                          simp

/-- A record as `write_record_bytes` frames it. -/
theorem framed_written (record : Record) (fits : record.2.length ≤ maxPayloadSize) :
    Framed crc32 (header record) record.2 (checksum crc32 record) record.1 := by
  have small : record.2.length < 2 ^ 32 := Nat.lt_of_le_of_lt fits (by decide)
  refine ⟨rfl, rfl, fromU8_code record.1, ?_, fits, rfl, ?_⟩
  · exact (fromLeBytes_toLeBytes 4 _ small).symm
  · exact (fromLeBytes_toLeBytes crcSize _ (UInt32.toNat_lt _)).symm

theorem readOneRecord_written (record : Record) (fits : record.2.length ≤ maxPayloadSize)
    (rest : Bytes) :
    readOneRecord crc32 (writeRecordBytes crc32 record ++ rest) = .ok (some (record, rest)) :=
  readOneRecord_framed crc32 (framed_written crc32 record fits) rest

/-- The length field says how many bytes a record takes. -/
theorem framed_take {front payload stored rest : Bytes} {type : RecordType} (record : Record)
    (fits : record.2.length ≤ maxPayloadSize) {count : Nat}
    (framed : Framed crc32 front payload stored type)
    (cut : (writeRecordBytes crc32 record).take count = front ++ payload ++ stored ++ rest) :
    recordLen record ≤ count := by
  have small : record.2.length < 2 ^ 32 := Nat.lt_of_le_of_lt fits (by decide)
  have lengths := congrArg List.length cut
  simp only [List.length_take, length_writeRecordBytes, List.length_append, framed.header,
    framed.crc] at lengths
  have enough : headerSize ≤ count := by omega
  have same : front = header record := by
    have heads := congrArg (List.take headerSize) cut
    rw [List.take_take, Nat.min_eq_left enough, writeRecordBytes, List.append_assoc,
      List.take_left' (length_header record), List.append_assoc, List.append_assoc,
      List.take_left' framed.header] at heads
    exact heads.symm
  have payload_length : payload.length = record.2.length := by
    rw [framed.length, same]
    exact fromLeBytes_toLeBytes 4 _ small
  have total : recordLen record = headerSize + record.2.length + crcSize := rfl
  omega

/-- A record that is cut short is not read. -/
theorem readOneRecord_torn (record : Record) (fits : record.2.length ≤ maxPayloadSize)
    {count : Nat} (short : count < recordLen record) (found : Record × Bytes) :
    readOneRecord crc32 ((writeRecordBytes crc32 record).take count) ≠ .ok (some found) := by
  intro read
  obtain ⟨⟨type, payload⟩, rest⟩ := found
  obtain ⟨front, stored, framed, cut⟩ := readOneRecord_some crc32 read
  have := framed_take crc32 record fits framed cut
  omega

/-! ### The replay loop -/

/-- A record that reads well reads the same before any other rest. -/
theorem readOneRecord_split {reader rest : Bytes} {record : Record}
    (found : readOneRecord crc32 reader = .ok (some (record, rest))) :
    ∃ bytes, bytes.length = recordLen record ∧ reader = bytes ++ rest ∧
      ∀ suffix, readOneRecord crc32 (bytes ++ suffix) = .ok (some (record, suffix)) := by
  obtain ⟨front, stored, framed, rfl⟩ := readOneRecord_some crc32 found
  refine ⟨front ++ record.2 ++ stored, ?_, rfl, readOneRecord_framed crc32 framed⟩
  simp only [List.length_append, framed.header, framed.crc, recordLen]

theorem recordLen_pos (record : Record) : 0 < recordLen record := by
  simp only [recordLen, headerSize]
  omega

theorem readOneRecord_shortens {reader rest : Bytes} {record : Record}
    (found : readOneRecord crc32 reader = .ok (some (record, rest))) :
    reader.length = recordLen record + rest.length := by
  obtain ⟨bytes, length, rfl, _⟩ := readOneRecord_split crc32 found
  rw [List.length_append, length]

/-- More turns than bytes change nothing. By induction on the turns. -/
theorem replayLoop_turns (turns more : Nat) (result : WalReplayResult Payload) (reader : Bytes)
    (enough : reader.length ≤ turns) (larger : reader.length ≤ more) :
    replayLoop crc32 codec turns result reader = replayLoop crc32 codec more result reader := by
  induction turns generalizing more result reader with
  | zero =>
      have empty : reader = [] := List.eq_nil_of_length_eq_zero (Nat.le_zero.mp enough)
      subst empty
      cases more <;> rfl
  | succ turns ih =>
      cases more with
      | zero =>
          have empty : reader = [] := List.eq_nil_of_length_eq_zero (Nat.le_zero.mp larger)
          subst empty
          rfl
      | succ more =>
          unfold replayLoop
          split
          · rename_i record rest found
            have shorter := readOneRecord_shortens crc32 found
            have positive := recordLen_pos record
            split
            · exact ih more _ rest (by omega) (by omega)
            · rfl
          · rfl
          · rfl

/-- The replay of what is left of a file. -/
def replayRest (result : WalReplayResult Payload) (reader : Bytes) : WalReplayResult Payload :=
  replayLoop crc32 codec reader.length result reader

theorem replayRest_record {result next : WalReplayResult Payload} {reader rest : Bytes}
    {record : Record} (found : readOneRecord crc32 reader = .ok (some (record, rest)))
    (applied : applyRecord codec result record = some next) :
    replayRest crc32 codec result reader = replayRest crc32 codec next rest := by
  have shorter := readOneRecord_shortens crc32 found
  unfold replayRest
  rw [replayLoop_turns crc32 codec reader.length (reader.length + 1) result reader le_rfl
    (Nat.le_succ _)]
  simp only [replayLoop, found, applied]
  exact replayLoop_turns crc32 codec _ _ next rest (by omega) le_rfl

theorem replayRest_stops {result : WalReplayResult Payload} {reader : Bytes}
    (stops : ∀ found, readOneRecord crc32 reader ≠ .ok (some found)) :
    replayRest crc32 codec result reader = result := by
  unfold replayRest
  cases reader.length with
  | zero => rfl
  | succ turns =>
      unfold replayLoop
      split
      · rename_i record rest found
        exact absurd found (stops (record, rest))
      · rfl
      · rfl

theorem replayRest_undecodable {result : WalReplayResult Payload} {reader rest : Bytes}
    {record : Record} (found : readOneRecord crc32 reader = .ok (some (record, rest)))
    (undecodable : applyRecord codec result record = none) :
    replayRest crc32 codec result reader = result := by
  unfold replayRest
  cases reader.length with
  | zero => rfl
  | succ turns => simp only [replayLoop, found, undecodable]

theorem replayWal_some (bytes : Bytes) :
    replayWal crc32 codec (some bytes) = replayRest crc32 codec .empty bytes := rfl

/-- The bytes a replay used, after which it goes on with whatever follows. -/
def ContinuesAfter (result : WalReplayResult Payload) (reader : Bytes) (used : Nat) : Prop :=
  used ≤ reader.length ∧
    (replayRest crc32 codec result reader).validLen = result.validLen + used ∧
    ∀ suffix, replayRest crc32 codec result (reader.take used ++ suffix) =
      replayRest crc32 codec (replayRest crc32 codec result reader) suffix

theorem continuesAfter_zero {result : WalReplayResult Payload} {reader : Bytes}
    (here : replayRest crc32 codec result reader = result) :
    ContinuesAfter crc32 codec result reader 0 := by
  refine ⟨Nat.zero_le _, ?_, fun suffix => ?_⟩
  · rw [here, Nat.add_zero]
  · rw [here, List.take_zero, List.nil_append]

theorem continuesAfter_record {result next : WalReplayResult Payload} {reader rest : Bytes}
    {record : Record} {used : Nat}
    (found : readOneRecord crc32 reader = .ok (some (record, rest)))
    (applied : applyRecord codec result record = some next)
    (continues : ContinuesAfter crc32 codec next rest used) :
    ContinuesAfter crc32 codec result reader (recordLen record + used) := by
  obtain ⟨within, valid, goes⟩ := continues
  obtain ⟨bytes, length, rfl, again⟩ := readOneRecord_split crc32 found
  have whole := replayRest_record crc32 codec found applied
  refine ⟨?_, ?_, fun suffix => ?_⟩
  · rw [List.length_append]
    omega
  · obtain ⟨mutation, decoded, rfl⟩ := Option.map_eq_some_iff.mp applied
    rw [whole, valid, Nat.add_assoc]
  · have cut : (bytes ++ rest).take (recordLen record + used) = bytes ++ rest.take used := by
      rw [← length, List.take_length_add_append]
    rw [whole, cut, List.append_assoc, ← goes suffix]
    exact replayRest_record crc32 codec (again _) applied

/-- Up to its valid length a file replays the same, whatever follows. By induction on
the bytes that are left. -/
theorem replayRest_continues (result : WalReplayResult Payload) (reader : Bytes) :
    ∃ used, ContinuesAfter crc32 codec result reader used := by
  induction left : reader.length using Nat.strong_induction_on generalizing result reader with
  | _ left ih =>
      subst left
      cases read : readOneRecord crc32 reader with
      | error e =>
          exact ⟨0, continuesAfter_zero crc32 codec
            (replayRest_stops crc32 codec (by simp [read]))⟩
      | ok found =>
          cases found with
          | none =>
              exact ⟨0, continuesAfter_zero crc32 codec
                (replayRest_stops crc32 codec (by simp [read]))⟩
          | some found =>
              obtain ⟨record, rest⟩ := found
              have shorter := readOneRecord_shortens crc32 read
              have positive := recordLen_pos record
              cases applied : applyRecord codec result record with
              | none =>
                  exact ⟨0, continuesAfter_zero crc32 codec
                    (replayRest_undecodable crc32 codec read applied)⟩
              | some next =>
                  obtain ⟨used, continues⟩ := ih rest.length (by omega) next rest rfl
                  exact ⟨_, continuesAfter_record crc32 codec read applied continues⟩

/-! ### Torn tails -/

/-- A payload that replay accepts. -/
structure Accepted (record : Record) : Prop where
  fits : record.2.length ≤ maxPayloadSize
  decodes : (decode codec record).isSome = true

/-- The state that records lead to, one after the other. -/
def logStateOf (state : LogState Payload) (records : List Record) : LogState Payload :=
  records.foldl (fun state record => ((decode codec record).map (Mutation.apply state)).getD state)
    state

theorem applyRecord_accepted {record : Record} (accepted : Accepted codec record)
    (result : WalReplayResult Payload) :
    applyRecord codec result record =
      some ⟨logStateOf codec result.state [record], result.validLen + recordLen record⟩ := by
  obtain ⟨mutation, decoded⟩ := Option.isSome_iff_exists.mp accepted.decodes
  simp only [applyRecord, logStateOf, decoded, List.foldl_cons, List.foldl_nil, Option.map_some,
    Option.getD_some]

theorem writeRecords_cons (record : Record) (records : List Record) :
    writeRecords crc32 (record :: records) =
      writeRecordBytes crc32 record ++ writeRecords crc32 records := rfl

theorem writeRecords_append (first second : List Record) :
    writeRecords crc32 (first ++ second) = writeRecords crc32 first ++ writeRecords crc32 second :=
  List.flatMap_append

/-- By induction on the records: each is read back and applied. -/
theorem replayRest_written (records : List Record)
    (accepted : ∀ record ∈ records, Accepted codec record) (result : WalReplayResult Payload)
    (rest : Bytes) :
    replayRest crc32 codec result (writeRecords crc32 records ++ rest) =
      replayRest crc32 codec ⟨logStateOf codec result.state records,
        result.validLen + (writeRecords crc32 records).length⟩ rest := by
  induction records generalizing result with
  | nil => rfl
  | cons record records ih =>
      have first := accepted record List.mem_cons_self
      rw [writeRecords_cons, List.append_assoc,
        replayRest_record crc32 codec (readOneRecord_written crc32 record first.fits _)
          (applyRecord_accepted codec first result),
        ih fun other member => accepted other (List.mem_cons_of_mem record member)]
      simp only [List.length_append, length_writeRecordBytes, Nat.add_assoc]
      rfl

/-- How many records are whole in the first bytes of a file. -/
def wholeRecords : List Record → Nat → Nat
  | [], _ => 0
  | record :: records, bytes =>
      if recordLen record ≤ bytes then wholeRecords records (bytes - recordLen record) + 1 else 0

theorem wholeRecords_greatest (records : List Record) (bytes : Nat) :
    IsGreatest {count | count ≤ records.length ∧
      (writeRecords crc32 (records.take count)).length ≤ bytes} (wholeRecords records bytes) := by
  induction records generalizing bytes with
  | nil => exact ⟨⟨le_rfl, Nat.zero_le _⟩, fun count inside => inside.1⟩
  | cons record records ih =>
      unfold wholeRecords
      split
      · rename_i whole
        obtain ⟨⟨within, fits⟩, greatest⟩ := ih (bytes - recordLen record)
        refine ⟨⟨Nat.succ_le_succ within, ?_⟩, fun count inside => ?_⟩
        · simp only [List.take_succ_cons, writeRecords_cons, List.length_append,
            length_writeRecordBytes]
          omega
        · cases count with
          | zero => exact Nat.zero_le _
          | succ count =>
              obtain ⟨shorter, taken⟩ := inside
              simp only [List.take_succ_cons, writeRecords_cons, List.length_append,
                length_writeRecordBytes] at taken
              exact Nat.succ_le_succ (greatest ⟨Nat.le_of_succ_le_succ shorter, by omega⟩)
      · rename_i torn
        refine ⟨⟨Nat.zero_le _, Nat.zero_le _⟩, fun count inside => ?_⟩
        cases count with
        | zero => exact le_rfl
        | succ count =>
            obtain ⟨_, taken⟩ := inside
            simp only [List.take_succ_cons, writeRecords_cons, List.length_append,
              length_writeRecordBytes] at taken
            omega

/-- By induction on the records: the whole ones are applied, the first torn one ends
the replay. -/
theorem replayRest_cut (records : List Record)
    (accepted : ∀ record ∈ records, Accepted codec record) (bytes : Nat)
    (result : WalReplayResult Payload) :
    replayRest crc32 codec result ((writeRecords crc32 records).take bytes) =
      ⟨logStateOf codec result.state (records.take (wholeRecords records bytes)),
        result.validLen +
          (writeRecords crc32 (records.take (wholeRecords records bytes))).length⟩ := by
  induction records generalizing bytes result with
  | nil =>
      simp only [writeRecords, List.flatMap_nil, List.take_nil]
      rfl
  | cons record records ih =>
      have first := accepted record List.mem_cons_self
      have others := fun other member => accepted other (List.mem_cons_of_mem record member)
      rw [writeRecords_cons]
      unfold wholeRecords
      split
      · rename_i whole
        have cut : (writeRecordBytes crc32 record ++ writeRecords crc32 records).take bytes =
            writeRecordBytes crc32 record ++
              (writeRecords crc32 records).take (bytes - recordLen record) := by
          rw [List.take_append, length_writeRecordBytes,
            List.take_of_length_le (by rw [length_writeRecordBytes]; exact whole)]
        rw [cut, replayRest_record crc32 codec (readOneRecord_written crc32 record first.fits _)
          (applyRecord_accepted codec first result), ih others]
        simp only [List.take_succ_cons, writeRecords_cons, List.length_append,
          length_writeRecordBytes, Nat.add_assoc]
        rfl
      · rename_i torn
        have cut : (writeRecordBytes crc32 record ++ writeRecords crc32 records).take bytes =
            (writeRecordBytes crc32 record).take bytes := by
          rw [List.take_append_of_le_length]
          rw [length_writeRecordBytes]
          omega
        rw [cut, replayRest_stops crc32 codec
          (readOneRecord_torn crc32 record first.fits (Nat.not_le.mp torn))]
        rfl

/-- Opening keeps the valid bytes of a file. -/
theorem openWal_bytes (bytes : Bytes) :
    (openWal crc32 codec (some bytes)).1 =
      bytes.take (replayWal crc32 codec (some bytes)).validLen := by
  simp only [openWal, Option.getD_some]
  split
  · rfl
  · rename_i all
    exact (List.take_of_length_le (Nat.not_lt.mp all)).symm

theorem take_writeRecords (records : List Record) (count : Nat) :
    (writeRecords crc32 records).take (writeRecords crc32 (records.take count)).length =
      writeRecords crc32 (records.take count) := by
  conv =>
    lhs
    rw [← List.take_append_drop count records, writeRecords_append]
  rw [List.take_append_drop]
  exact List.take_left' rfl

/-- Wherever a file of whole records is cut, it replays to its longest prefix of whole
records, and once it is opened, records appended to it follow that prefix. -/
theorem torn_tail_replays_prefix (records : List Record)
    (accepted : ∀ record ∈ records, Accepted codec record) (bytes : Nat) :
    ∃ count, IsGreatest {count | count ≤ records.length ∧
        (writeRecords crc32 (records.take count)).length ≤ bytes} count ∧
      replayWal crc32 codec (some ((writeRecords crc32 records).take bytes)) =
        ⟨logStateOf codec .empty (records.take count),
          (writeRecords crc32 (records.take count)).length⟩ ∧
      ∀ more, (∀ record ∈ more, Accepted codec record) →
        replayWal crc32 codec
          (some ((openWal crc32 codec (some ((writeRecords crc32 records).take bytes))).1 ++
            writeRecords crc32 more)) =
          ⟨logStateOf codec .empty (records.take count ++ more),
            (writeRecords crc32 (records.take count ++ more)).length⟩ := by
  have greatest := wholeRecords_greatest crc32 records bytes
  have replayed : replayWal crc32 codec (some ((writeRecords crc32 records).take bytes)) =
      ⟨logStateOf codec .empty (records.take (wholeRecords records bytes)),
        (writeRecords crc32 (records.take (wholeRecords records bytes))).length⟩ := by
    rw [replayWal_some, replayRest_cut crc32 codec records accepted bytes]
    simp only [WalReplayResult.empty, Nat.zero_add]
  refine ⟨wholeRecords records bytes, greatest, replayed, fun more sound => ?_⟩
  have opened : (openWal crc32 codec (some ((writeRecords crc32 records).take bytes))).1 =
      writeRecords crc32 (records.take (wholeRecords records bytes)) := by
    rw [openWal_bytes, replayed, List.take_take, Nat.min_eq_left greatest.1.2]
    exact take_writeRecords crc32 records _
  have all : ∀ record ∈ records.take (wholeRecords records bytes) ++ more,
      Accepted codec record := by
    intro record member
    rcases List.mem_append.mp member with kept | new
    · exact accepted record (List.mem_of_mem_take kept)
    · exact sound record new
  have written := replayRest_written crc32 codec _ all .empty []
  rw [List.append_nil] at written
  rw [opened, ← writeRecords_append, replayWal_some, written]
  simp only [WalReplayResult.empty, Nat.zero_add]
  rfl

/-! ### Two records, cut in the second -/

/-- One bit of the reflected CRC-32. -/
def crcBit (crc : UInt32) : UInt32 :=
  if crc &&& 1 = 1 then (crc >>> 1) ^^^ 0xEDB88320 else crc >>> 1

def crcByte (crc : UInt32) (byte : UInt8) : UInt32 :=
  Nat.repeat crcBit 8 (crc ^^^ byte.toUInt32)

/-- The checksum of `crc32fast`. -/
def crc32fast (bytes : Bytes) : UInt32 := ~~~bytes.foldl crcByte 0xFFFFFFFF

example : crc32fast [0x31, 0x32, 0x33, 0x34, 0x35, 0x36, 0x37, 0x38, 0x39] = 0xCBF43926 := by
  decide +kernel

def u64Bytes (n : UInt64) : Bytes := toLeBytes 8 n.toNat

def readU64 (bytes : Bytes) : UInt64 := .ofNat (fromLeBytes (bytes.take 8))

theorem readU64_append (n : UInt64) (rest : Bytes) : readU64 (u64Bytes n ++ rest) = n := by
  have front : (u64Bytes n ++ rest).take 8 = u64Bytes n :=
    List.take_left' (length_toLeBytes 8 n.toNat)
  have value : fromLeBytes (u64Bytes n) = n.toNat :=
    fromLeBytes_toLeBytes 8 n.toNat n.toNat_lt
  rw [readU64, front, value, UInt64.ofNat_toNat]

def logIdBytes (logId : LogId) : Bytes :=
  u64Bytes logId.term ++ (u64Bytes logId.node ++ u64Bytes logId.index)

def readLogId (bytes : Bytes) : LogId :=
  ⟨readU64 bytes, readU64 (bytes.drop 8), readU64 (bytes.drop 16)⟩

theorem readLogId_append (logId : LogId) (rest : Bytes) :
    readLogId (logIdBytes logId ++ rest) = logId := by
  have second : (logIdBytes logId ++ rest).drop 8 =
      u64Bytes logId.node ++ (u64Bytes logId.index ++ rest) := by
    rw [logIdBytes, List.append_assoc, List.append_assoc]
    exact List.drop_left' (length_toLeBytes 8 logId.term.toNat)
  have third : (logIdBytes logId ++ rest).drop 16 = u64Bytes logId.index ++ rest := by
    rw [show (16 : Nat) = 8 + 8 from rfl, ← List.drop_drop, second]
    exact List.drop_left' (length_toLeBytes 8 logId.node.toNat)
  have first : readU64 (logIdBytes logId ++ rest) = logId.term := by
    rw [logIdBytes, List.append_assoc]
    exact readU64_append _ _
  rw [readLogId, first, second, third, readU64_append, readU64_append]

/-- bincode on a log of blank entries: the payload is the tag of its variant. -/
def blankBincode : Bincode Unit where
  entry written := logIdBytes written.logId ++ toLeBytes 4 0
  purge := logIdBytes
  truncate := u64Bytes
  readEntry bytes :=
    if bytes.length = 28 ∧
      bytes.drop 24 = toLeBytes 4 0 then some ⟨readLogId bytes, ()⟩ else none
  readPurge bytes := if bytes.length = 24 then some (readLogId bytes) else none
  readTruncate bytes := if bytes.length = 8 then some (readU64 bytes) else none
  read_entry written := by
    have tail : (logIdBytes written.logId ++ toLeBytes 4 0).drop 24 = toLeBytes 4 0 :=
      List.drop_left' (by simp [logIdBytes, u64Bytes])
    rw [if_pos ⟨by simp [logIdBytes, u64Bytes], tail⟩, readLogId_append]
  read_purge logId := by
    have whole := readLogId_append logId []
    rw [List.append_nil] at whole
    rw [if_pos (by simp [logIdBytes, u64Bytes]), whole]
  read_truncate since := by
    have whole := readU64_append since []
    rw [List.append_nil] at whole
    rw [if_pos (by simp [u64Bytes]), whole]

def truncateRecord (since : UInt64) : Record := (.truncate, u64Bytes since)

theorem accepted_truncate (since : UInt64) : Accepted blankBincode (truncateRecord since) := by
  refine ⟨by simp [truncateRecord, u64Bytes, maxPayloadSize], ?_⟩
  have read := blankBincode.read_truncate since
  simp only [decode, truncateRecord]
  change (Option.map Mutation.truncate
    (blankBincode.readTruncate (blankBincode.truncate since))).isSome
    = true
  rw [read]
  rfl

/-- The cut falls in the header of the second record. -/
theorem torn_tail_replays_prefix_secondHeader :
    (replayWal crc32fast blankBincode
      (some ((writeRecords crc32fast [truncateRecord 9, truncateRecord 3]).take 22))).validLen =
        19 := by
  have accepted : ∀ record ∈ [truncateRecord 9, truncateRecord 3],
      Accepted blankBincode record := by
    intro record member
    simp only [List.mem_cons, List.not_mem_nil, or_false] at member
    rcases member with rfl | rfl
    · exact accepted_truncate 9
    · exact accepted_truncate 3
  obtain ⟨count, greatest, replayed, _⟩ :=
    torn_tail_replays_prefix crc32fast blankBincode _ accepted 22
  have one : count = 1 := greatest.unique
    (wholeRecords_greatest crc32fast [truncateRecord 9, truncateRecord 3] 22)
  rw [replayed, one]
  rfl

end PgHa.Wal
