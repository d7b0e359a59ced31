import Dbx.Protocol.Response
import Dbx.Query.ReplayAgreement

/-!
# Strings across a restart

A value travels to the log as bytes, where an empty slice and no slice are the same, and comes back
as no slice.
-/

set_option autoImplicit false

namespace Dbx.Query

open Dbx.Engine Dbx.Persistence Dbx.Protocol

variable {now later : Int64} {cmd : Command} {key : Bytes} {slice : Option Bytes}
  {kv kv' : KVStore MMapVectorIndex} {pairs : AList fun _ : Bytes => Option Bytes}

def held (kv : KVStore MMapVectorIndex) (key : Bytes) :
    Option (Value MMapVectorIndex × DataType × Int64) :=
  (kv.data.lookup key).map fun entry => (entry.value, entry.type, entry.expiresAt)

def HoldsSlice (kv : KVStore MMapVectorIndex) (key : Bytes) (slice : Option Bytes) : Prop :=
  held kv key = some (.bytes slice, .string, 0)

theorem HoldsSlice.get (holds : HoldsSlice kv key slice) (now : Int64) :
    ∃ version, kv.get now key = some ⟨.bytes slice, .string, 0, version⟩ := by
  obtain ⟨⟨value, type, expiresAt, version⟩, found, same⟩ := Option.map_eq_some_iff.mp holds
  cases same
  refine ⟨version, ?_⟩
  rw [KVStore.get, found]
  rfl

theorem holdsSlice_insert {entry : Entry MMapVectorIndex}
    (same : (entry.value, entry.type, entry.expiresAt) = (.bytes slice, .string, 0))
    (data : kv.data = kv'.data.insert key entry) : HoldsSlice kv key slice := by
  rw [HoldsSlice, held, data, AList.lookup_insert, Option.map_some, same]

theorem holdsSlice_set (now : Int64) (key : Bytes) (slice : Option Bytes)
    (kv : KVStore MMapVectorIndex) :
    HoldsSlice (kv.set now key (.bytes slice) .string 0) key slice :=
  holdsSlice_insert rfl rfl

theorem held_set_other {other : Bytes} (different : key ≠ other) (now : Int64)
    (slice : Option Bytes) (kv : KVStore MMapVectorIndex) :
    held (kv.set now other (.bytes slice) .string 0) key = held kv key := by
  rw [held, held, KVStore.set, AList.lookup_insert_ne different]

def decoded (slice : Option Bytes) : Option Bytes :=
  if slice.getD [] = [] then none else some (slice.getD [])

theorem decoded_eq_iff : decoded slice = slice ↔ slice ≠ some [] := by
  unfold decoded
  rcases slice with _ | _ | ⟨byte, rest⟩ <;> simp

def reads : List CommandName := [.get, .strlen, .exists, .mget]

def readBytes (now : Int64) (name : CommandName) (key : Bytes)
    (kv : KVStore MMapVectorIndex) : Option Bytes :=
  (readReply now name ⟨ascii name.text, [some key]⟩ kv).map encodeReply

theorem HoldsSlice.readBytes (holds : HoldsSlice kv key slice) (now : Int64) :
    readBytes now .get key kv = some (encodeReply (.bulk slice)) ∧
      readBytes now .strlen key kv = some (encodeReply (.integer (slice.getD []).length)) ∧
      readBytes now .exists key kv = some (encodeReply (.integer 1)) ∧
      readBytes now .mget key kv = some (encodeReply (.array [.bulk slice])) := by
  obtain ⟨version, found⟩ := holds.get now
  have value : StringStore.get now key kv = .ok slice := by
    rw [StringStore.get, found]
    rfl
  have present : kv.exists now key = true := by
    rw [KVStore.exists, found]
    rfl
  refine ⟨?_, ?_, ?_, ?_⟩ <;>
    simp [Query.readBytes, readReply, Command.numArgs, Command.arg, Command.keys, replyOf,
      StringStore.strlen, StringStore.mGet, value, present, Except.map]

theorem reads_agree_iff {recovered : KVStore MMapVectorIndex} (live : HoldsSlice kv key slice)
    (after : HoldsSlice recovered key (decoded slice)) :
    (∀ name ∈ reads, ∀ later, readBytes later name key recovered = readBytes later name key kv) ↔
      slice ≠ some [] := by
  constructor
  · rintro same rfl
    have get := same .get (by decide) 0
    rw [(live.readBytes 0).1, (after.readBytes 0).1] at get
    exact absurd get (by decide)
  · intro nonempty name member later
    rw [decoded_eq_iff.mpr nonempty] at after
    obtain ⟨get, strlen, «exists», mget⟩ := live.readBytes later
    obtain ⟨get', strlen', exists', mget'⟩ := after.readBytes later
    simp only [reads, List.mem_cons, List.not_mem_nil, or_false] at member
    rcases member with rfl | rfl | rfl | rfl
    · rw [get, get']
    · rw [strlen, strlen']
    · rw [«exists», exists']
    · rw [mget, mget']

def insertAll (list : List (Bytes × Option Bytes)) (pairs : AList fun _ : Bytes => Option Bytes) :
    AList fun _ : Bytes => Option Bytes :=
  list.foldl (fun pairs pair => pairs.insert pair.1 pair.2) pairs

def puts (list : List (Bytes × Option Bytes)) : List WALEffect :=
  list.map fun pair => put pair.1 (pair.2.getD []) 0

-- Over the list, with the pairs that have been replayed already.
theorem replay_puts (vectors : VectorConfig) (now : Int64) (sequence : UInt64)
    (list : List (Bytes × Option Bytes)) {store replayed : Store}
    (before : ∀ key slice, pairs.lookup key = some slice → HoldsSlice store.kv key (decoded slice))
    (ran : replayEffects vectors now sequence (puts list) store = (.ok (), replayed)) :
    ∀ key slice, (insertAll list pairs).lookup key = some slice →
      HoldsSlice replayed.kv key (decoded slice) := by
  induction list generalizing pairs store with
  | nil =>
    cases ran
    exact before
  | cons pair list ih =>
    have applied : applyRecoveredEffect vectors now sequence (put pair.1 (pair.2.getD []) 0)
        store = _ := applyRecoveredEffect_set rfl ..
    simp only [puts, List.map_cons, replayEffects, applied] at ran
    refine ih (fun key slice found => ?_) ran
    have installed : (recoverySet now (put pair.1 (pair.2.getD []) 0) store).kv =
        store.kv.set now pair.1 (.bytes (decoded pair.2)) .string 0 := rfl
    rw [installed]
    by_cases same : key = pair.1
    · subst same
      rw [AList.lookup_insert] at found
      cases found
      exact holdsSlice_set ..
    · rw [AList.lookup_insert_ne same] at found
      exact (held_set_other same ..).trans (before key slice found)

theorem replayRecords_snoc {config : VectorConfig} {rec : WALRecord} {records : List WALRecord}
    {store replayed : Store}
    (ran : replayRecords config now (records ++ [rec]) store = (.ok (), replayed)) :
    ∃ before, replayEffects config now rec.sequence rec.effects before = (.ok (), replayed) := by
  induction records generalizing store with
  | nil =>
    rw [List.nil_append, replayRecords] at ran
    split at ran
    · cases ran
    rename_i last
    cases ran
    exact ⟨store, last⟩
  | cons head records ih =>
    rw [List.cons_append, replayRecords] at ran
    split at ran
    · cases ran
    · exact ih ran

theorem recover_last {config : VectorConfig} {enc : Option Encryptor} {log : LogDir}
    {snapshots : SnapshotDir} {disk : Disk} {loaded : Loaded} {records : List WALRecord}
    {rec : WALRecord} {recovered : Store} (image : loadLatest later snapshots = .ok loaded)
    (read : readAll enc log = .ok (records ++ [rec])) (fresh : loaded.sequence < rec.sequence)
    (ran : recover config enc later log snapshots disk = (.ok (), recovered)) :
    ∃ before, replayEffects config later rec.sequence rec.effects before = (.ok (), recovered) := by
  have last : replaySuffix loaded.sequence (records ++ [rec]) =
      replaySuffix loaded.sequence records ++ [rec] := by
    rw [replaySuffix, List.filter_append]
    simp [replaySuffix, fresh]
  simp only [recover, image, read, last] at ran
  split at ran
  · cases ran
  split at ran
  · cases ran
  · exact replayRecords_snoc ran

def stringWrites : List CommandName := [.set, .setnx, .getset, .mset, .append]

def appendedTo (now : Int64) (cmd : Command) (kv : KVStore MMapVectorIndex) : Option Bytes :=
  match (kv.get now (cmd.arg 0)).map Entry.value with
  | some (.bytes data) => StringStore.appendSlice data (cmd.argBytes 1)
  | _ => cmd.argBytes 1

def writtenPairs (now : Int64) (name : CommandName) (cmd : Command)
    (kv : KVStore MMapVectorIndex) : List (Bytes × Option Bytes) :=
  match name with
  | .set =>
    match parseSetArgs cmd.args.tail with
    | .error _ => []
    | .ok parsed => [(cmd.arg 0, parsed.value)]
  | .setnx | .getset => [(cmd.arg 0, cmd.argBytes 1)]
  | .mset => argPairs cmd.args
  | .append => [(cmd.arg 0, appendedTo now cmd kv)]
  | _ => []

def Untimed (now : Int64) (name : CommandName) (cmd : Command)
    (kv : KVStore MMapVectorIndex) : Prop :=
  match name with
  | .set => ∀ parsed, parseSetArgs cmd.args.tail = .ok parsed → parsed.ttlSec = 0
  | .append => ∀ entry, kv.get now (cmd.arg 0) = some entry → entry.expiresAt = 0
  | _ => True

def Acknowledges (name : CommandName) (reply : Reply) : Prop :=
  match name with
  | .set => reply = .simple "OK"
  | .setnx => reply = .integer 1
  | _ => reply.isError = false

theorem Acknowledges.success {name : CommandName} {reply : Reply}
    (acknowledged : Acknowledges name reply) : reply.isError = false := by
  unfold Acknowledges at acknowledged
  split at acknowledged
  · rw [acknowledged]
    rfl
  · rw [acknowledged]
    rfl
  · exact acknowledged

/-- A command has stored a list of values and logged it in one transaction. -/
structure Stores (list : List (Bytes × Option Bytes)) (session : Session) : Prop where
  holds : ∀ key slice, (insertAll list ∅).lookup key = some slice →
    HoldsSlice session.store.kv key slice
  logs : session.appended = [puts list]

theorem stores_single {session : Session} (holds : HoldsSlice session.store.kv key slice)
    (logs : session.appended = [[put key (slice.getD []) 0]]) :
    Stores [(key, slice)] session := by
  refine ⟨fun other found lookup => ?_, logs⟩
  by_cases same : other = key
  · subst same
    rw [insertAll, List.foldl_cons, List.foldl_nil, AList.lookup_insert] at lookup
    cases lookup
    exact holds
  · rw [insertAll, List.foldl_cons, List.foldl_nil, AList.lookup_insert_ne same,
      AList.lookup_empty] at lookup
    cases lookup

theorem dispatchSetnx_stores {store : Store}
    (stored : (dispatchSetnx ⟨now, prepareSetnx now cmd store.kv ≠ []⟩ cmd
      (prepared (prepareSetnx now cmd store.kv) store)).1 = .integer 1) :
    Stores [(cmd.arg 0, cmd.argBytes 1)]
      (dispatchSetnx ⟨now, prepareSetnx now cmd store.kv ≠ []⟩ cmd
        (prepared (prepareSetnx now cmd store.kv) store)).2 := by
  unfold dispatchSetnx prepareSetnx stringState StringStore.set KVStore.exists at *
  by_cases arity : cmd.numArgs < 2
  · simp [arity] at stored
  simp only [arity, if_false, prepared_store] at stored ⊢
  cases found : store.kv.get now (cmd.arg 0) with
  | some entry => simp [found] at stored
  | none =>
    simp only [StringState.ofEntry, Option.isSome_none]
    exact stores_single (holdsSlice_set ..) rfl

theorem dispatchGetset_stores {store : Store} (arity : 2 ≤ cmd.numArgs)
    (stored : (dispatchGetset ⟨now, prepareGetset now cmd store.kv ≠ []⟩ cmd
      (prepared (prepareGetset now cmd store.kv) store)).1.isError = false) :
    Stores [(cmd.arg 0, cmd.argBytes 1)]
      (dispatchGetset ⟨now, prepareGetset now cmd store.kv ≠ []⟩ cmd
        (prepared (prepareGetset now cmd store.kv) store)).2 := by
  unfold dispatchGetset prepareGetset stringState StringStore.getSet StringStore.get at *
  simp only [Nat.not_lt.mpr arity, if_false, prepared_store] at stored ⊢
  cases found : store.kv.get now (cmd.arg 0) with
  | none =>
    simp only [StringState.ofEntry]
    exact stores_single (holdsSlice_set ..) rfl
  | some entry =>
    simp only [found, StringState.ofEntry] at stored ⊢
    by_cases string : entry.type = .string
    · simp only [string, ne_eq, not_true, if_false] at stored ⊢
      cases value : entry.value with
      | index | other | nil => simp [value, replyOf, Reply.isError] at stored
      | bytes data => exact stores_single (holdsSlice_set ..) rfl
    · simp [string, replyOf, Reply.isError] at stored

theorem dispatchMset_stores {store : Store}
    (stored : (dispatchMset ⟨now, prepareMset cmd ≠ []⟩ cmd
      (prepared (prepareMset cmd) store)).1.isError = false) :
    Stores (argPairs cmd.args) (dispatchMset ⟨now, prepareMset cmd ≠ []⟩ cmd
      (prepared (prepareMset cmd) store)).2 := by
  unfold dispatchMset at *
  by_cases arity : cmd.numArgs < 2 ∨ cmd.numArgs % 2 ≠ 0
  · rw [if_pos arity] at stored
    cases stored
  have effects : prepareMset cmd = puts (argPairs cmd.args) := if_neg arity
  have logged := prepareMset_ne_nil arity
  simp only [arity, if_false, prepared_store]
  rw [List.foldl_fixed' fun pair => Session.writeWAL_suppressed (by simpa using logged) ..]
  refine ⟨fun key slice found => ?_, ?_⟩
  · have observed := KeyedStore.foldl_observed held
      (fun kv key value => KVStore.set now key (.bytes value) .string 0 kv)
      (fun _ value _ => some (.bytes value, .string, 0))
      (fun kv key value => holdsSlice_set now key value kv)
      (fun kv key value other different => held_set_other different now value kv)
      (msetPairs cmd).nodupKeys store.kv key
    have looked : List.dlookup key (msetPairs cmd).entries = some slice := found
    rw [looked] at observed
    exact observed
  · rw [Session.withKV_appended, prepared, if_neg logged, effects]

theorem dispatchAppend_stores {store : Store}
    (untimed : ∀ entry, store.kv.get now (cmd.arg 0) = some entry → entry.expiresAt = 0)
    (stored : (dispatchAppend ⟨now, prepareAppend now cmd store.kv ≠ []⟩ cmd
      (prepared (prepareAppend now cmd store.kv) store)).1.isError = false) :
    Stores [(cmd.arg 0, appendedTo now cmd store.kv)]
      (dispatchAppend ⟨now, prepareAppend now cmd store.kv ≠ []⟩ cmd
        (prepared (prepareAppend now cmd store.kv) store)).2 := by
  unfold dispatchAppend StringStore.append prepareAppend stringState appendedTo at *
  by_cases arity : cmd.numArgs < 2
  · simp [arity, Reply.isError] at stored
  simp only [arity, if_false, prepared_store] at stored ⊢
  cases found : store.kv.get now (cmd.arg 0) with
  | none =>
    obtain ⟨kv, dropped, -⟩ := KVStore.getForWrite_none found
    simp only [dropped, StringState.ofEntry]
    exact stores_single (holdsSlice_insert rfl rfl) rfl
  | some entry =>
    obtain ⟨value, type, expiresAt, version⟩ := entry
    obtain rfl : expiresAt = 0 := untimed _ found
    simp only [KVStore.getForWrite_some found, StringState.ofEntry] at stored ⊢
    by_cases string : type = .string
    · subst string
      cases value with
      | index | other | nil => simp [replyOf, Reply.isError] at stored
      | bytes data =>
        refine stores_single (holdsSlice_insert rfl rfl) ?_
        simp [prepared, appendSlice_content, Command.arg, Command.argBytes]
    · simp [string, replyOf, Reply.isError] at stored

theorem dispatched_stores (config : ExecutorConfig) {name : CommandName} {store : Store}
    (writes : name ∈ stringWrites) (arity : 2 ≤ cmd.numArgs)
    (untimed : Untimed now name cmd store.kv)
    (stored : Acknowledges name (dispatched config now name cmd store).1) :
    Stores (writtenPairs now name cmd store.kv) (dispatched config now name cmd store).2 := by
  simp only [stringWrites, List.mem_cons, List.not_mem_nil, or_false] at writes
  rcases writes with rfl | rfl | rfl | rfl | rfl
  · obtain ⟨parsed, parse, ran⟩ := dispatchSet_stored stored
    have forever := untimed parsed parse
    simp only [writtenPairs, parse]
    refine (congrArg (Stores _) ran).mpr (stores_single ?_ ?_)
    · rw [forever]
      exact holdsSlice_set ..
    · simp only [setDeadline, forever]
      split <;> rfl
  · exact dispatchSetnx_stores stored
  · exact dispatchGetset_stores arity stored
  · exact dispatchMset_stores stored
  · exact dispatchAppend_stores untimed stored

theorem execute_survives_iff (config : ExecutorConfig) (enc : Option Encryptor) {name : CommandName}
    {executor : Executor} {log : LogDir} {snapshots : SnapshotDir} {disk : Disk} {loaded : Loaded}
    {records : List WALRecord} {rec : WALRecord} {recovered : Store}
    (known : lookup cmd.normalized = some name) (writes : name ∈ stringWrites)
    (arity : 2 ≤ cmd.numArgs) (untimed : Untimed now name cmd executor.store.kv)
    (stored : Acknowledges name (execute config now cmd executor).reply)
    (appended : (execute config now cmd executor).appended = [rec.effects])
    (image : loadLatest later snapshots = .ok loaded)
    (read : readAll enc log = .ok (records ++ [rec])) (fresh : loaded.sequence < rec.sequence)
    (ran : recover config.vectors enc later log snapshots disk = (.ok (), recovered))
    (written : (insertAll (writtenPairs now name cmd executor.store.kv) ∅).lookup key =
      some slice) :
    (∀ name ∈ reads, ∀ later, readBytes later name key recovered.kv =
        readBytes later name key (execute config now cmd executor).executor.store.kv) ↔
      slice ≠ some [] := by
  have follows := execute_follows known stored.success
  rw [follows.reply] at stored
  have live := dispatched_stores config writes arity untimed stored
  obtain ⟨before, replayed⟩ := recover_last image read fresh ran
  have logged : rec.effects = puts (writtenPairs now name cmd executor.store.kv) := by
    have same := appended.symm.trans (follows.appended.trans live.logs)
    exact List.cons.inj same |>.1
  rw [logged] at replayed
  rw [follows.store]
  refine reads_agree_iff (live.holds key slice written) ?_
  exact replay_puts _ _ _ _ (fun _ _ none => by cases none) replayed key slice written

def setK (value : Bytes) : Command := ⟨ascii "SET", [some [0x6b], some value]⟩

def setLog (value : Bytes) : LogImage :=
  ⟨[], [⟨.zero, 1, 0, [put [0x6b] value 0]⟩]⟩

theorem recover_setLog {value : Bytes} (fits : RecordFits none ⟨1, 0, [put [0x6b] value 0]⟩) :
    readAll none ((setLog value).dir none) = .ok ([] ++ [⟨1, 0, [put [0x6b] value 0]⟩]) ∧
      recover keysOnly.vectors none 0 ((setLog value).dir none) .empty Store.empty.disk =
        (.ok (), ⟨KVStore.new.set 0 [0x6b] (sliceOf value) .string 0, Store.empty.disk⟩) := by
  have read : readAll none ((setLog value).dir none) = .ok [⟨1, 0, [put [0x6b] value 0]⟩] :=
    readAll_dir (by simpa [setLog, LogImage.entries] using fits) (List.pairwise_singleton _ _)
  refine ⟨read, ?_⟩
  unfold recover
  rw [read]
  rfl

theorem empty_value_lost :
    (execute keysOnly 0 (setK []) ⟨.empty, 0⟩).appended = [[put [0x6b] [] 0]] ∧
      readBytes 0 .get [0x6b] (execute keysOnly 0 (setK []) ⟨.empty, 0⟩).executor.store.kv =
        some (ascii "$0\r\n\r\n") ∧
      readBytes 0 .get [0x6b]
        (recover keysOnly.vectors none 0 ((setLog []).dir none) .empty Store.empty.disk).2.kv =
          some (ascii "$-1\r\n") := by
  refine ⟨by decide +kernel, by decide +kernel, ?_⟩
  rw [(recover_setLog (by decide)).2]
  decide +kernel

theorem value_survives :
    readBytes 0 .get [0x6b]
        (recover keysOnly.vectors none 0 ((setLog [0x76]).dir none) .empty Store.empty.disk).2.kv =
      readBytes 0 .get [0x6b] (execute keysOnly 0 (setK [0x76]) ⟨.empty, 0⟩).executor.store.kv := by
  obtain ⟨read, ran⟩ := @recover_setLog [0x76] (by decide)
  have known : lookup (setK [0x76]).normalized = some .set := by decide
  have stored : Acknowledges .set (execute keysOnly 0 (setK [0x76]) ⟨.empty, 0⟩).reply :=
    show _ = Reply.simple "OK" from rfl
  rw [ran]
  exact (execute_survives_iff keysOnly none known (by decide) (by decide)
    (fun parsed parse => by cases parse; rfl) stored rfl rfl read (by decide) ran rfl).mpr
    (by decide) .get (by decide) 0

end Dbx.Query
