import Dbx.Engine.VectorStore
import Dbx.Query.Effects

/-!
# Key and string commands

What `Dispatch` does for the commands on keys and strings of a durable tenant.
-/

set_option autoImplicit false

namespace Dbx.Query

open Dbx.Engine Dbx.Persistence Dbx.Protocol

/-- The tenant while one command runs, and the transactions that the command has
appended to the log. -/
structure Session where
  store : Store
  appended : List (List WALEffect)

/-- The clock and the standing of the log while a command runs. -/
structure Moment where
  now : Int64
  suppressWAL : Bool
deriving DecidableEq, Repr

/-- The deadline that the log gives to a record of one effect: a time to live is
counted from the append, except that one of `RecordExpire` is only where it lies
in the past as an instant. -/
def legacyExpiry (timestamp : Int64) (type : UInt8) (ttlNano : Int64) : Int64 :=
  if 0 < ttlNano ∧ (type ≠ recordExpire ∨ ttlNano < timestamp) then timestamp + ttlNano
  else ttlNano

/-- Append a record of one effect, unless the effects have been written already. -/
def Session.writeWAL (moment : Moment) (type : UInt8) (key value : Bytes) (ttlNano : Int64)
    (session : Session) : Session :=
  if moment.suppressWAL then session
  else { session with
    appended := session.appended ++ [[⟨type, key, value, legacyExpiry moment.now type ttlNano⟩]] }

def Session.withKV (kv : KVStore MMapVectorIndex) (session : Session) : Session :=
  { session with store := { session.store with kv := kv } }

def replyOf {α : Type} (result : Except String α) (reply : α → Reply) : Reply :=
  match result with
  | .error message => .error message
  | .ok value => reply value

def dispatchDel (moment : Moment) (cmd : Command) (session : Session) : Reply × Session :=
  if cmd.numArgs < 1 then (.error (wrongNumArgsError "DEL"), session)
  else
    let (deleted, store) := session.store.delete moment.now cmd.keys
    let session := { session with store := store }
    let session :=
      if 0 < deleted then
        cmd.keys.foldl (fun session key =>
          session.writeWAL moment recordDelete key [] 0) session
      else session
    (.integer deleted, session)

def dispatchExpire (moment : Moment) (cmd : Command) (session : Session) : Reply × Session :=
  if cmd.numArgs < 2 then (.error (wrongNumArgsError "EXPIRE"), session)
  else
    match parseInt (cmd.arg 1) with
    | none => (.error errNotInteger, session)
    | some sec =>
      match session.store.kv.expire moment.now (cmd.arg 0) sec with
      | (false, kv) => (.integer 0, session.withKV kv)
      | (true, kv) =>
        (.integer 1, (session.withKV kv).writeWAL moment recordExpire
          (cmd.arg 0) [] (sec * second))

def dispatchPersist (moment : Moment) (cmd : Command) (session : Session) : Reply × Session :=
  match session.store.kv.persist moment.now (cmd.arg 0) with
  | (removed, kv) => (.integer (if removed then 1 else 0), session.withKV kv)

def dispatchRename (moment : Moment) (cmd : Command) (session : Session) : Reply × Session :=
  if cmd.numArgs < 2 then (.error (wrongNumArgsError "RENAME"), session)
  else
    match session.store.rename moment.now (cmd.arg 0) (cmd.arg 1) with
    | (result, store) =>
      (replyOf result fun _ => .simple "OK", { session with store := store })

/-- Milliseconds stand in the place of seconds where `SET` and `SETEX` hand their
time to live to the log themselves. -/
def millisecond : Int64 := 1000000

def dispatchSet (moment : Moment) (cmd : Command) (session : Session) : Reply × Session :=
  if cmd.numArgs < 2 then (.error (wrongNumArgsError "SET"), session)
  else
    let parsed : Except String SetArgs :=
      if cmd.numArgs = 2 then .ok ⟨cmd.argBytes 1, 0, false, false⟩
      else parseSetArgs cmd.args.tail
    match parsed with
    | .error message => (.error message, session)
    | .ok parsed =>
      match StringStore.set moment.now (cmd.arg 0) parsed.value parsed.ttlSec parsed.nx parsed.xx
        session.store.kv with
      | (false, kv) => (.null, session.withKV kv)
      | (true, kv) =>
        (.simple "OK", (session.withKV kv).writeWAL moment recordSet
          (cmd.arg 0) (parsed.value.getD []) (parsed.ttlSec * millisecond))

def dispatchSetex (moment : Moment) (cmd : Command) (session : Session) : Reply × Session :=
  if cmd.numArgs < 3 then (.error (wrongNumArgsError "SETEX"), session)
  else
    match parseInt (cmd.arg 1) with
    | none => (.error "ERR invalid expire time in 'setex' command", session)
    | some seconds =>
      if seconds ≤ 0 then (.error "ERR invalid expire time in 'setex' command", session)
      else
        let (_, kv) := StringStore.set moment.now (cmd.arg 0) (cmd.argBytes 2) seconds false false
          session.store.kv
        (.simple "OK", (session.withKV kv).writeWAL moment recordSet
          (cmd.arg 0) (cmd.arg 2) (seconds * millisecond))

/-- The pairs of `MSET` as a map, in which the last value of a key counts. -/
def msetPairs (cmd : Command) : AList fun _ : Bytes => Option Bytes :=
  (argPairs cmd.args).foldl (fun pairs pair => pairs.insert pair.1 pair.2) ∅

def dispatchMset (moment : Moment) (cmd : Command) (session : Session) : Reply × Session :=
  if cmd.numArgs < 2 ∨ cmd.numArgs % 2 ≠ 0 then (.error (wrongNumArgsError "MSET"), session)
  else
    let pairs := msetPairs cmd
    let session := session.withKV (StringStore.mSet moment.now pairs session.store.kv)
    (.simple "OK", pairs.entries.foldl (fun session pair =>
      session.writeWAL moment recordSet pair.1 (pair.2.getD []) 0) session)

def dispatchSetnx (moment : Moment) (cmd : Command) (session : Session) : Reply × Session :=
  if cmd.numArgs < 2 then (.error (wrongNumArgsError "SETNX"), session)
  else
    match StringStore.set moment.now (cmd.arg 0) (cmd.argBytes 1) 0 true false session.store.kv with
    | (stored, kv) => (.integer (if stored then 1 else 0), session.withKV kv)

def dispatchGetset (moment : Moment) (cmd : Command) (session : Session) : Reply × Session :=
  match StringStore.getSet moment.now (cmd.arg 0) (cmd.argBytes 1) session.store.kv with
  | (result, kv) => (replyOf result .bulk, session.withKV kv)

/-- `INCR` and `DECR` with the amount they add. -/
def dispatchIncr (moment : Moment) (amount : Int64) (cmd : Command) (session : Session) :
    Reply × Session :=
  match StringStore.incr moment.now (cmd.arg 0) amount session.store.kv with
  | (result, kv) => (replyOf result fun sum => .integer sum.toInt, session.withKV kv)

/-- `INCRBY` and `DECRBY` with their name and what they do to the amount. -/
def dispatchIncrBy (moment : Moment) (name : String) (signed : Int64 → Int64) (cmd : Command)
    (session : Session) : Reply × Session :=
  if cmd.numArgs < 2 then (.error (wrongNumArgsError name), session)
  else
    match parseInt (cmd.arg 1) with
    | none => (.error errNotInteger, session)
    | some amount => dispatchIncr moment (signed amount) cmd session

def dispatchAppend (moment : Moment) (cmd : Command) (session : Session) : Reply × Session :=
  if cmd.numArgs < 2 then (.error (wrongNumArgsError "APPEND"), session)
  else
    match StringStore.append moment.now (cmd.arg 0) (cmd.argBytes 1) session.store.kv with
    | (result, kv) => (replyOf result fun length => .integer length, session.withKV kv)

/-- `strconv.Atoi` with its error dropped: a text out of range yields the bound
it exceeds, and any other text that is not a number yields zero. -/
def atoiOrZero (text : Bytes) : Int :=
  match parseInt text with
  | some number => number.toInt
  | none =>
    let (negative, digits) : Bool × Bytes := match text with
      | 0x2d :: digits => (true, digits)
      | 0x2b :: digits => (false, digits)
      | digits => (false, digits)
    match parseDigits digits with
    | none => 0
    | some _ => if negative then -2 ^ 63 else 2 ^ 63 - 1

/-- The reads on keys and strings, and the commands that touch no data. None for
every other command. -/
def readReply (now : Int64) (name : CommandName) (cmd : Command)
    (kv : KVStore MMapVectorIndex) : Option Reply :=
  let arity (least : Nat) (reply : Reply) : Option Reply :=
    some (if cmd.numArgs < least then .error (wrongNumArgsError name.text) else reply)
  match name with
  | .ping => some (if 0 < cmd.numArgs then .bulk (some (cmd.arg 0)) else .simple "PONG")
  | .echo => arity 1 (.bulk (cmd.argBytes 0))
  | .quit => some .quit
  | .dbsize => some (.integer (kv.dbSize now))
  | .command => some (.array [])
  | .«exists» =>
    arity 1 (.integer ((cmd.keys.filter fun key => kv.exists now key).length : Nat))
  | .type => some (.simple (kv.type now (cmd.arg 0)).name)
  | .ttl => arity 1 (.integer (kv.ttl now (cmd.arg 0)).toInt)
  | .get => arity 1 (replyOf (StringStore.get now (cmd.arg 0) kv) .bulk)
  | .mget => some (.array ((StringStore.mGet now cmd.keys kv).map .bulk))
  | .strlen =>
    some (replyOf (StringStore.strlen now (cmd.arg 0) kv) fun length => .integer length)
  | .getrange =>
    arity 3 (replyOf (StringStore.getRange now (cmd.arg 0) (atoiOrZero (cmd.arg 1))
      (atoiOrZero (cmd.arg 2)) kv) .bulk)
  | .auth | .select | .setrange =>
    some (.error ("ERR unknown command '" ++ rawText cmd.name ++ "'"))
  | _ => none

end Dbx.Query
