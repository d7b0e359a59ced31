import Dbx.Persistence.Recovery

/-!
# A tenant and its directory

The open log, the checkpoint images, and the keyspace with the index files under
it. Checkpoints exclude mutations, and the process can stop at any time and start
again from its directory.
-/

set_option autoImplicit false

namespace Dbx.Query

open Dbx.Engine Dbx.Persistence

structure Tenant where
  wal : WAL
  snapshots : SnapshotDir
  store : Store

structure TenantConfig where
  vectors : VectorConfig
  enc : Option Encryptor

/-- `saveTenantCheckpoint`: flush the index metadata, seal it and write the image. -/
def Tenant.saveCheckpoint (now : Int64) (sequence : UInt64) (tenant : Tenant) : Tenant :=
  let store := tenant.store.flushDurable now
  { tenant with
    store := store
    snapshots := Persistence.saveCheckpoint now store.kv sequence store.indexSeals
      tenant.snapshots }

/-- Install an image, archive the log and remove the segments it covers. -/
def Tenant.checkpoint (config : TenantConfig) (now : Int64) (tenant : Tenant) : Tenant :=
  let sequence := tenant.wal.seq
  let tenant := tenant.saveCheckpoint now sequence
  let rotated := tenant.wal.rotate config.enc
  { tenant with wal := { rotated with dir := compactThrough sequence rotated.dir } }

/-- Start again from the directory: open the log and recover into an empty
keyspace. -/
def Tenant.restart (config : TenantConfig) (now : Int64) (tenant : Tenant) :
    Except String Tenant :=
  match openWALEncrypted config.enc tenant.wal.dir with
  | .error message => .error ("WAL init failed: " ++ message)
  | .ok wal =>
    match recover config.vectors config.enc now wal.dir tenant.snapshots tenant.store.disk with
    | (.error message, _) => .error ("recovery failed: " ++ message)
    | (.ok (), store) => .ok { tenant with wal := wal, store := store }

def Tenant.create (config : TenantConfig) : Tenant :=
  { wal := ⟨⟨[], some (walHeader config.enc)⟩, 0⟩
    snapshots := .empty
    store := .empty }

end Dbx.Query
