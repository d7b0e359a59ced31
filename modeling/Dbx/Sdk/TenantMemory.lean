import Dbx.Library.Calls
import Dbx.Query.DispatchLocality
import Dbx.Query.HitRanking
import Dbx.Query.Quiet

/-!
# The memory of a tenant in the SDK

`TenantMemory` of the Python client over the commands of one tenant. The Redis client hands
arguments and replies through; the errors that the server replies are raised.
-/

set_option autoImplicit false

namespace Dbx.Sdk

open Dbx.Persistence Dbx.Protocol Dbx.Query Runs

structure Server where
  executor : Executor
  served : Nat

/-- A call of the client, which returns or raises the text of an error. -/
abbrev Call (α : Type) : Type := Calls.Call Server String α

def isNumberByte (byte : UInt8) : Bool :=
  (0x30 ≤ byte && byte ≤ 0x39) || byte ∈ ascii "+-.einfa"

/-- A number in the text that Python gives it: digits, signs, points and exponents, or the
words for what is not finite. -/
structure Number where
  text : Bytes
  plain : text.all isNumberByte = true

/-- The tenant at the other end. The effects in the log are read by `AS_OF` alone. -/
structure DBXClient where
  config : ExecutorConfig
  graphs : Graphs
  others : Ranking
  history : Bytes → List (Int64 × WALEffect)
  clock : Nat → Int64

namespace DBXClient

def executorAt (now : Int64) (client : DBXClient) : ExecutorConfig :=
  client.config.reading (client.graphs.ranking client.others) now client.history

def executeCommand (name : String) (args : List Bytes) (client : DBXClient) : Call Reply :=
  fun server =>
    let now := client.clock server.served
    let outcome := execute (client.executorAt now) now ⟨ascii name, args.map some⟩ server.executor
    let server := ⟨outcome.executor, server.served + 1⟩
    match outcome.reply with
    | .error message => (.error message, server)
    | reply => (.ok reply, server)

def set (key val : Bytes) (client : DBXClient) : Call Bool := do
  let reply ← client.executeCommand "SET" [key, val]
  return match reply with
    | .simple text => text = "OK"
    | _ => false

def get (key : Bytes) (client : DBXClient) : Call (Option Bytes) := do
  let reply ← client.executeCommand "GET" [key]
  return match reply with
    | .bulk data => data
    | _ => none

def delete (key : Bytes) (client : DBXClient) : Call Int := do
  let reply ← client.executeCommand "DEL" [key]
  return match reply with
    | .integer number => number
    | _ => 0

def option (keyword : String) : Option Bytes → List Bytes
  | none => []
  | some [] => []
  | some value => [ascii keyword, value]

def number (keyword : String) : Option Number → List Bytes
  | none => []
  | some value => [ascii keyword, value.text]

def vectorFlags (minScore ef : Option Number) (space withDocs filterContains : Option Bytes) :
    List Bytes :=
  option "WITHDOCS" withDocs ++ option "FILTER_CONTAINS" filterContains ++
    number "MIN_SCORE" minScore ++ number "EF" ef ++ option "SPACE" space

def parseVectorHits : Reply → List (Bytes × Bytes)
  | .array items => items.filterMap fun item =>
    match item with
    | .array (.bulk (some id) :: .bulk (some score) :: _) => some (id, score)
    | _ => none
  | _ => []

def vadd (indexName docID : Bytes) (vector : List Number) (space : Option Bytes)
    (client : DBXClient) : Call Bool := do
  let reply ← client.executeCommand "VADD"
    (indexName :: docID :: (option "SPACE" space ++ vector.map Number.text))
  return match reply with
    | .integer number => number = 1
    | _ => false

def vsearch (indexName : Bytes) (queryVector : List Number) (topK : Number)
    (minScore ef : Option Number) (space withDocs filterContains : Option Bytes)
    (client : DBXClient) : Call (List (Bytes × Bytes)) := do
  let reply ← client.executeCommand "VSEARCH"
    (indexName :: (queryVector.map Number.text ++ topK.text ::
      vectorFlags minScore ef space withDocs filterContains))
  return parseVectorHits reply

def vsim (indexName docID : Bytes) (topK : Number) (minScore ef : Option Number)
    (space withDocs filterContains : Option Bytes) (client : DBXClient) :
    Call (List (Bytes × Bytes)) := do
  let reply ← client.executeCommand "VSIM"
    (indexName :: docID :: topK.text :: vectorFlags minScore ef space withDocs filterContains)
  return parseVectorHits reply

def joinNumbers (numbers : List Number) : Bytes :=
  List.intercalate [0x2c] (numbers.map Number.text)

def vfuse (indexName : Bytes) (queries : List (Bytes × List Number)) (topK : Number)
    (weights : Option (List Number)) (minScore ef : Option Number)
    (withDocs filterContains : Option Bytes) (client : DBXClient) :
    Call (List (Bytes × Bytes)) := do
  if queries.length < 2 then Calls.Call.raise "vfuse requires at least two named spaces"
  else
    let segments := queries.flatMap fun (space, vector) =>
      ascii "SPACE" :: space :: vector.map Number.text
    let weighted := match weights with
      | none => []
      | some weights => [ascii "WEIGHTS", joinNumbers weights]
    let reply ← client.executeCommand "VFUSE"
      (indexName :: (segments ++ topK.text :: weighted ++
        vectorFlags minScore ef none withDocs filterContains))
    return parseVectorHits reply

def vdel (indexName docID : Bytes) (space : Option Bytes) (client : DBXClient) : Call Bool := do
  let reply ← client.executeCommand "VDEL" (indexName :: docID :: option "SPACE" space)
  return match reply with
    | .integer number => number ≠ 0
    | _ => false

end DBXClient

structure TenantMemory where
  client : DBXClient
  index : Bytes

namespace TenantMemory

def remember (key value : Bytes) (vector : Option (List Number)) (space : Option Bytes)
    (memory : TenantMemory) : Call Unit := do
  if !(← memory.client.set key value) then Calls.Call.raise "SET failed"
  else
    match vector with
    | none => return ()
    | some vector =>
      if !(← memory.client.vadd memory.index key vector space) then Calls.Call.raise "VADD failed"
      else return ()

def readItems (memory : TenantMemory) : List (Bytes × Bytes) → Call (List (Bytes × Bytes × Bytes))
  | [] => return []
  | (docID, score) :: hits => do
    let stored ← memory.client.get docID
    let items ← memory.readItems hits
    return (docID, stored.getD [], score) :: items

def «recall» (vector : List Number) (topK : Number) (minScore : Option Number)
    (space : Option Bytes) (memory : TenantMemory) : Call (List (Bytes × Bytes × Bytes)) := do
  memory.readItems (← memory.client.vsearch memory.index vector topK minScore none space none none)

def similar (itemID : Bytes) (topK : Number) (minScore : Option Number) (space : Option Bytes)
    (memory : TenantMemory) : Call (List (Bytes × Bytes × Bytes)) := do
  memory.readItems (← memory.client.vsim memory.index itemID topK minScore none space none none)

def fuse (queries : List (Bytes × List Number)) (topK : Number) (weights : Option (List Number))
    (minScore : Option Number) (memory : TenantMemory) :
    Call (List (Bytes × Bytes × Bytes)) := do
  memory.readItems
    (← memory.client.vfuse memory.index queries topK weights minScore none none none)

def get (key : Bytes) (memory : TenantMemory) : Call (Option Bytes) := memory.client.get key

def forget (key : Bytes) (memory : TenantMemory) : Call Unit := do
  let _ ← memory.client.delete key
  let _ ← memory.client.vdel memory.index key none
  return ()

end TenantMemory

inductive MemoryCall where
  | remember (key value : Bytes) (vector : Option (List Number)) (space : Option Bytes)
  | forget (key : Bytes)
  | get (key : Bytes)
  | recall (vector : List Number) (topK : Number) (minScore : Option Number)
      (space : Option Bytes)
  | similar (itemID : Bytes) (topK : Number) (minScore : Option Number) (space : Option Bytes)
  | fuse (queries : List (Bytes × List Number)) (topK : Number) (weights : Option (List Number))
      (minScore : Option Number)

/-- The tenant with the keys that have been forgotten and not remembered since. -/
structure MemoryRun where
  server : Server
  forgotten : List Bytes

namespace MemoryRun

def start : MemoryRun := ⟨⟨⟨.empty, 0⟩, 0⟩, []⟩

/-- A call that raises an error may have changed the tenant, and the run goes on. -/
def step (memory : TenantMemory) (run : MemoryRun) : MemoryCall → Except String MemoryRun
  | .remember key value vector space =>
    .ok ⟨(memory.remember key value vector space run.server).2, run.forgotten.filter (· ≠ key)⟩
  | .forget key =>
    match memory.forget key run.server with
    | (.error _, server) => .ok ⟨server, run.forgotten⟩
    | (.ok (), server) => .ok ⟨server, key :: run.forgotten⟩
  | .get key => .ok { run with server := (memory.get key run.server).2 }
  | .recall vector topK minScore space =>
    .ok { run with server := (memory.recall vector topK minScore space run.server).2 }
  | .similar itemID topK minScore space =>
    .ok { run with server := (memory.similar itemID topK minScore space run.server).2 }
  | .fuse queries topK weights minScore =>
    .ok { run with server := (memory.fuse queries topK weights minScore run.server).2 }

/-- A key is forgotten only if it is not where the memory keeps an index, and if it has no
vector in a named space. -/
def Forgettable (memory : TenantMemory) (run : MemoryRun) : MemoryCall → Prop
  | .forget key =>
    (∀ space, key ≠ vectorSpaceKey memory.index space) ∧ ∀ space, space ≠ [] →
      (run.server.executor.store.hasLiveVector memory.client.config.vectors
        (memory.client.clock run.server.served) (vectorSpaceKey memory.index space) key).1 ≠
          .ok true
  | _ => True

end MemoryRun

structure Forgotten (memory : TenantMemory) (key : Bytes) (server : Server) : Prop where
  get : (memory.get key server).1 = .ok none
  «recall» : ∀ vector topK minScore space items,
    (memory.recall vector topK minScore space server).1 = .ok items →
      ∀ item ∈ items, item.1 ≠ key
  similar : ∀ itemID topK minScore space items,
    (memory.similar itemID topK minScore space server).1 = .ok items →
      ∀ item ∈ items, item.1 ≠ key
  fuse : ∀ queries topK weights minScore items,
    (memory.fuse queries topK weights minScore server).1 = .ok items →
      ∀ item ∈ items, item.1 ≠ key

end Dbx.Sdk
