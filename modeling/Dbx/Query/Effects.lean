import Dbx.Persistence.Frame
import Dbx.Protocol.Command

/-!
# Effects that are written before a command runs

Durable string commands predict the final states they install, which are
appended to the log as one transaction.
-/

set_option autoImplicit false

namespace Dbx.Query

open Dbx.Engine Dbx.Persistence Dbx.Protocol

variable {Index : Type}

inductive StringState where
  | absent
  | invalid
  | valid (value : Bytes) (expiresAt : Int64)
deriving DecidableEq, Repr

def StringState.ofEntry : Option (Entry Index) → StringState
  | none => .absent
  | some entry =>
    if entry.type ≠ .string then .invalid
    else
      match entry.value with
      | .bytes data => .valid (data.getD []) entry.expiresAt
      | _ => .invalid

def stringState (now : Int64) (key : Bytes) (kv : KVStore Index) : StringState :=
  .ofEntry (kv.get now key)

def StringState.exists : StringState → Bool
  | .absent => false
  | _ => true

def put (key value : Bytes) (expiresAt : Int64) : WALEffect :=
  ⟨recordSet, key, value, expiresAt⟩

def prepareSet (now : Int64) (cmd : Command) (kv : KVStore Index) : List WALEffect :=
  if cmd.numArgs < 2 then []
  else
    match parseSetArgs cmd.args.tail with
    | .error _ => []
    | .ok parsed =>
      let state := stringState now (cmd.arg 0) kv
      if state = .invalid ∨ (parsed.nx ∧ state.exists) ∨ (parsed.xx ∧ ¬ state.exists) then []
      else
        let expiresAt := if 0 < parsed.ttlSec then now + parsed.ttlSec * second else 0
        [put (cmd.arg 0) (parsed.value.getD []) expiresAt]

def prepareSetex (now : Int64) (cmd : Command) : List WALEffect :=
  if cmd.numArgs < 3 then []
  else
    match parseInt (cmd.arg 1) with
    | none => []
    | some seconds =>
      if seconds ≤ 0 then [] else [put (cmd.arg 0) (cmd.arg 2) (now + seconds * second)]

def prepareSetnx (now : Int64) (cmd : Command) (kv : KVStore Index) : List WALEffect :=
  if cmd.numArgs < 2 then []
  else
    match stringState now (cmd.arg 0) kv with
    | .absent => [put (cmd.arg 0) (cmd.arg 1) 0]
    | _ => []

def prepareGetset (now : Int64) (cmd : Command) (kv : KVStore Index) : List WALEffect :=
  if cmd.numArgs < 2 then []
  else
    match stringState now (cmd.arg 0) kv with
    | .invalid => []
    | _ => [put (cmd.arg 0) (cmd.arg 1) 0]

def argPairs : List (Option Bytes) → List (Bytes × Option Bytes)
  | key :: value :: rest => (key.getD [], value) :: argPairs rest
  | _ => []

def prepareMset (cmd : Command) : List WALEffect :=
  if cmd.numArgs < 2 ∨ cmd.numArgs % 2 ≠ 0 then []
  else (argPairs cmd.args).map fun pair => put pair.1 (pair.2.getD []) 0

def prepareDel (now : Int64) (cmd : Command) (kv : KVStore Index) : List WALEffect :=
  (cmd.keys.filter fun key => kv.exists now key).map fun key => ⟨recordDelete, key, [], 0⟩

def prepareExpire (now : Int64) (cmd : Command) (kv : KVStore Index) : List WALEffect :=
  if cmd.numArgs < 2 then []
  else
    match parseInt (cmd.arg 1) with
    | none => []
    | some seconds =>
      if kv.exists now (cmd.arg 0) then
        [⟨recordExpire, cmd.arg 0, [], now + seconds * second⟩]
      else []

def preparePersist (now : Int64) (cmd : Command) (kv : KVStore Index) : List WALEffect :=
  match kv.get now (cmd.arg 0) with
  | none => []
  | some entry => if entry.expiresAt = 0 then [] else [⟨recordExpire, cmd.arg 0, [], 0⟩]

def prepareRename (now : Int64) (cmd : Command) (kv : KVStore Index) : List WALEffect :=
  if cmd.numArgs < 2 then []
  else
    match stringState now (cmd.arg 0) kv with
    | .valid value expiresAt =>
      [put (cmd.arg 1) value expiresAt, ⟨recordDelete, cmd.arg 0, [], 0⟩]
    | _ => []

/-- The family `INCR`, `INCRBY`, `DECR`, `DECRBY`, with the amount to add. -/
def prepareIncr (now : Int64) (amount : Option Int64) (cmd : Command) (kv : KVStore Index) :
    List WALEffect :=
  let increment (current expiresAt : Int64) : List WALEffect :=
    match amount with
    | none => []
    | some amount => [put (cmd.arg 0) (formatInt (current + amount)) expiresAt]
  match stringState now (cmd.arg 0) kv with
  | .invalid => []
  | .absent => increment 0 0
  | .valid value expiresAt =>
    match parseInt value with
    | none => []
    | some current => increment current expiresAt

def prepareAppend (now : Int64) (cmd : Command) (kv : KVStore Index) : List WALEffect :=
  if cmd.numArgs < 2 then []
  else
    match stringState now (cmd.arg 0) kv with
    | .invalid => []
    | .absent => [put (cmd.arg 0) (cmd.arg 1) 0]
    | .valid value expiresAt => [put (cmd.arg 0) (value ++ cmd.arg 1) expiresAt]

def prepareDurableEffects (now : Int64) (name : CommandName) (cmd : Command)
    (kv : KVStore Index) : Option (List WALEffect) :=
  match name with
  | .set => some (prepareSet now cmd kv)
  | .setex => some (prepareSetex now cmd)
  | .setnx => some (prepareSetnx now cmd kv)
  | .getset => some (prepareGetset now cmd kv)
  | .mset => some (prepareMset cmd)
  | .del => some (prepareDel now cmd kv)
  | .expire => some (prepareExpire now cmd kv)
  | .persist => some (preparePersist now cmd kv)
  | .rename => some (prepareRename now cmd kv)
  | .incr => some (prepareIncr now (some 1) cmd kv)
  | .decr => some (prepareIncr now (some (-1)) cmd kv)
  | .incrby => some (prepareIncr now (parseInt (cmd.arg 1)) cmd kv)
  | .decrby => some (prepareIncr now ((parseInt (cmd.arg 1)).map fun number => -number) cmd kv)
  | .append => some (prepareAppend now cmd kv)
  | _ => none

def finalEffects (effects : List WALEffect) : AList fun _ : Bytes => WALEffect :=
  effects.foldl (fun final effect =>
    if effect.type = recordSet ∨ effect.type = recordDelete then final.insert effect.key effect
    else final) ∅

/-- What an effect adds to the memory that is accounted for its key. -/
def effectGrowth (now : Int64) (kv : KVStore Index) (key : Bytes) (effect : WALEffect) : Int :=
  let freed : Int :=
    match kv.get now key with
    | none => 0
    | some entry =>
      (key.length + 96 : Nat) +
        if entry.type = .string then (entry.value.length : Int) else 0
  let added : Int :=
    if effect.type = recordSet then (key.length + effect.value.length + 96 : Nat) else 0
  added - freed

/-- Whether the projected memory stays within the limit, with the projection. -/
def effectsFitQuota (now : Int64) (maxMemory accounted : Int) (effects : List WALEffect)
    (kv : KVStore Index) : Bool × Int :=
  let projected := (finalEffects effects).entries.foldl
    (fun projected entry => projected + effectGrowth now kv entry.1 entry.2) accounted
  (maxMemory ≤ 0 || projected ≤ maxMemory, projected)

end Dbx.Query
