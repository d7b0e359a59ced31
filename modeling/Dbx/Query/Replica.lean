import Dbx.Persistence.Recovery

/-!
# Applying replicated records

How a replica installs the records that its primary sends. The records of a
stream come out of the primary's log, so each carries its effects.
-/

set_option autoImplicit false

namespace Dbx.Query

open Dbx.Engine Dbx.Persistence

def errorOf {α : Type} (result : Except String α × Store) : Except String Unit × Store :=
  match result with
  | (.ok _, store) => (.ok (), store)
  | (.error message, store) => (.error message, store)

def replicatedExpire (now : Int64) (effect : WALEffect) (store : Store) :
    Except String Unit × Store :=
  if effect.expiresAt ≤ 0 then (.ok (), { store with kv := (store.kv.persist now effect.key).2 })
  else if deadlinePassed now effect.expiresAt then (.ok (), store.delete1 now effect.key)
  else
    match store.kv.expire now effect.key (replaySeconds (remainingTTL now effect.expiresAt)) with
    | (true, kv) => (.ok (), { store with kv := kv })
    | (false, kv) =>
      (.error ("replication: key " ++ quote effect.key ++ " not found for expire"),
        { store with kv := kv })

/-- Install one effect of a record. What a SET does is what recovery does. -/
def applyReplicatedEffect (config : VectorConfig) (now : Int64) (effect : WALEffect)
    (store : Store) : Except String Unit × Store :=
  if effect.type = recordSet then (.ok (), recoverySet now effect store)
  else if effect.type = recordDelete ∨ effect.type = recordDeleteIndex then
    (.ok (), store.delete1 now effect.key)
  else if effect.type = recordExpire then replicatedExpire now effect store
  else if effect.type = recordVAdd then
    let (id, vector) := decodeVAddPayload effect.value
    store.vAdd config now effect.key id vector
  else if effect.type = recordVAddBatch then
    match decodeVAddBatchPayload effect.value with
    | none => (.error "runtime error: slice bounds out of range", store)
    | some (dim, items) => store.vAddBatch config now effect.key dim items
  else if effect.type = recordVTombstone then
    errorOf (store.vDel config now effect.key effect.value)
  else if effect.type = recordVMigrateStart then
    match decodeVMigrateStartPayload effect.value with
    | .error message => (.error message, store)
    | .ok (dim, encoding) => store.startMigration config now effect.key dim encoding
  else if effect.type = recordVMigrateAdd then
    let (id, vector) := decodeVAddPayload effect.value
    store.insertShadowVector config now effect.key id vector
  else if effect.type = recordVMigrateSwap then store.swapMigration config now effect.key
  else if effect.type = recordVMigrateCancel then store.cancelMigration config now effect.key
  else (.error ("replication: unsupported WAL effect type " ++ toString effect.type.toNat), store)

end Dbx.Query
