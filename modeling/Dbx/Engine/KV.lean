import Dbx.Basic
import Dbx.Library.KeyedStore

/-!
# The key-value store

The sharded map as one map, with the clock as an argument of every operation
that reads it. `Index` is the type of the vector indexes an entry may hold.
-/

set_option autoImplicit false

namespace Dbx.Engine

inductive DataType where
  | string | hash | list | set | zset | stream | document | bitmap | geo | vector | none
deriving DecidableEq, Repr

def DataType.name : DataType → String
  | .string => "string"
  | .hash => "hash"
  | .list => "list"
  | .set => "set"
  | .zset => "zset"
  | .stream => "stream"
  | .document => "document"
  | .bitmap => "bitmap"
  | .geo => "geo"
  | .vector => "vector"
  | .none => "none"

/-- What an entry holds. A byte slice may itself be nil, which is not the nil
interface; values of the other data types are never looked into. -/
inductive Value (Index : Type) where
  | bytes (data : Option Bytes)
  | index (idx : Index)
  | other
  | nil
deriving DecidableEq, Repr

structure Entry (Index : Type) where
  value : Value Index
  type : DataType
  expiresAt : Int64
  version : UInt64
deriving DecidableEq, Repr

structure ExpiryItem where
  key : Bytes
  deadline : Int64
  version : UInt64
deriving DecidableEq, Repr

/-- The map, the pending items of the deadline heaps and the version counter. -/
structure KVStore (Index : Type) where
  data : AList fun _ : Bytes => Entry Index
  expiries : List ExpiryItem
  version : UInt64

variable {Index : Type}

def Entry.isExpired (now : Int64) (entry : Entry Index) : Bool :=
  entry.expiresAt ≠ 0 && entry.expiresAt < now

/-- Whether a deadline leaves no time at `now`. Zero and negative ones are no
deadlines. -/
def deadlinePassed (now expiresAt : Int64) : Bool :=
  0 < expiresAt && expiresAt - now ≤ 0

def remainingTTL (now expiresAt : Int64) : Int64 :=
  if 0 < expiresAt then expiresAt - now else 0

/-- The length of a string value, as the memory meters count it. -/
def Value.length : Value Index → Nat
  | .bytes data => (data.getD []).length
  | _ => 0

namespace KVStore

def new : KVStore Index := ⟨∅, [], 0⟩

/-- Store a value; a positive time to live in nanoseconds sets a deadline. -/
def set (now : Int64) (key : Bytes) (value : Value Index) (type : DataType) (ttlNano : Int64)
    (kv : KVStore Index) : KVStore Index :=
  let exp := if 0 < ttlNano then now + ttlNano else 0
  let version := kv.version + 1
  { data := kv.data.insert key ⟨value, type, exp, version⟩
    expiries := if 0 < exp then ⟨key, exp, version⟩ :: kv.expiries else kv.expiries
    version := version }

def get (now : Int64) (key : Bytes) (kv : KVStore Index) : Option (Entry Index) :=
  (kv.data.lookup key).filter fun entry => !entry.isExpired now

/-- Drop the key if it is expired, as taking it for writing does. -/
def getForWrite (now : Int64) (key : Bytes) (kv : KVStore Index) :
    Option (Entry Index) × KVStore Index :=
  match kv.data.lookup key with
  | none => (none, kv)
  | some entry =>
    if entry.isExpired now then (none, { kv with data := kv.data.erase key })
    else (some entry, kv)

def put (key : Bytes) (entry : Entry Index) (kv : KVStore Index) : KVStore Index :=
  { kv with data := kv.data.insert key entry }

def erase (key : Bytes) (kv : KVStore Index) : KVStore Index :=
  { kv with data := kv.data.erase key }

def contains (key : Bytes) (kv : KVStore Index) : Bool :=
  (kv.data.lookup key).isSome

/-- Remove keys, expired or not, and count those that were present. -/
def delete (keys : List Bytes) (kv : KVStore Index) : Nat × KVStore Index :=
  keys.foldl
    (fun (deleted, kv) key =>
      if kv.contains key then (deleted + 1, kv.erase key) else (deleted, kv))
    (0, kv)

def «exists» (now : Int64) (key : Bytes) (kv : KVStore Index) : Bool :=
  (kv.get now key).isSome

def type (now : Int64) (key : Bytes) (kv : KVStore Index) : DataType :=
  match kv.get now key with
  | none => .none
  | some entry => entry.type

/-- Set a time to live in seconds; one that is not positive removes the key. -/
def expire (now : Int64) (key : Bytes) (seconds : Int64) (kv : KVStore Index) :
    Bool × KVStore Index :=
  match kv.get now key with
  | none => (false, kv)
  | some entry =>
    if seconds ≤ 0 then (true, kv.erase key)
    else
      let deadline := now + seconds * second
      let version := kv.version + 1
      (true, {
        data := kv.data.insert key { entry with expiresAt := deadline, version := version }
        expiries := ⟨key, deadline, version⟩ :: kv.expiries
        version := version })

def ttl (now : Int64) (key : Bytes) (kv : KVStore Index) : Int64 :=
  match kv.get now key with
  | none => -2
  | some entry =>
    if entry.expiresAt = 0 then -1
    else
      let remaining := entry.expiresAt - now
      if remaining ≤ 0 then -2 else remaining / second

/-- Remove the deadline of a key. The version stays, unlike in `expire`. -/
def persist (now : Int64) (key : Bytes) (kv : KVStore Index) : Bool × KVStore Index :=
  match kv.get now key with
  | none => (false, kv)
  | some entry =>
    if entry.expiresAt = 0 then (false, kv)
    else (true, kv.put key { entry with expiresAt := 0 })

/-- What an entry still holds after the index in it has been closed. -/
def closedValue (entry : Entry Index) : Value Index :=
  match entry.type, entry.value with
  | .vector, .index _ => .nil
  | _, value => value

/-- Move an entry to another key. The key is gone by the time a deadline that
has just been reached makes the operation fail. -/
def rename (now : Int64) (key newKey : Bytes) (kv : KVStore Index) :
    Except String Unit × KVStore Index :=
  match kv.get now key with
  | none => (.error errNotFound, kv)
  | some entry =>
    let kv := kv.erase key
    if deadlinePassed now entry.expiresAt then (.error errNotFound, kv)
    else
      (.ok (), kv.set now newKey (closedValue entry) entry.type
        (remainingTTL now entry.expiresAt))

def dbSize (now : Int64) (kv : KVStore Index) : Nat :=
  (kv.data.entries.filter fun entry => !entry.2.isExpired now).length

/-- Take an item off the deadline heaps. The entry goes with it if the item was
pushed for the deadline that the entry still has. -/
def popExpiry (item : ExpiryItem) (kv : KVStore Index) : KVStore Index :=
  let kv := { kv with expiries := kv.expiries.erase item }
  match kv.data.lookup item.key with
  | none => kv
  | some entry =>
    if entry.version ≠ item.version ∨ entry.expiresAt ≠ item.deadline then kv
    else kv.erase item.key

/-- Take due items off the heaps. Which ones, and in which order, depends on the
limit and on the order of the shards, so they are given. -/
def deleteExpiredLimit (popped : List ExpiryItem) (kv : KVStore Index) : KVStore Index :=
  popped.foldl (fun kv item => kv.popExpiry item) kv

def snapshot (now : Int64) (kv : KVStore Index) : AList fun _ : Bytes => Entry Index :=
  KeyedStore.filter (fun _ entry => !entry.isExpired now) kv.data

/-- Bytes charged for keys, entry metadata, string values and pending deadlines. -/
def memoryUsage (now : Int64) (kv : KVStore Index) : Int :=
  ((kv.data.entries.filter fun entry => !entry.2.isExpired now).map fun entry =>
    ((entry.1.length + 96 : Nat) : Int) +
      if entry.2.type = .string then (entry.2.value.length : Int) else 0).sum +
    (kv.expiries.length : Int) * 48

end KVStore

end Dbx.Engine
