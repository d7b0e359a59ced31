import Dbx.Engine.VectorLocality
import Dbx.Query.Executor

/-!
# What a search returns

The hits of the search commands, with the documents that are read for them. How the
graphs of an index rank its rows is a parameter; so is how a reply reads an entry of
another data type.
-/

set_option autoImplicit false

namespace Dbx.Query

open Dbx.Engine Dbx.Persistence Dbx.Protocol

abbrev Hit := Bytes × UInt32

structure SearchOpts where
  k : Int64
  minScore : Option UInt32
  efSearch : Nat
  excludeID : Bytes
deriving DecidableEq, Repr

structure Ranking where
  /-- The best rows of an index with its mapped bytes, among the ids that pass. -/
  rank : MMapIndex → Bytes → Vec → SearchOpts → (Bytes → Bool) → List Hit
  fuse : List UInt32 → SearchOpts → List (List Hit) → List Hit
  decodeRow : VectorEncoding → Bytes → Vec
  /-- A search in an index that is built from the effects on its key. -/
  past : List (Int64 × WALEffect) → Int64 → Vec → SearchOpts → (Bytes → Bool) →
    Except String (List Hit)
  /-- `%f`. -/
  formatScore : UInt32 → Bytes
  look : CommandName → Command → Option (Entry MMapVectorIndex) → Reply

def nothingRanked : Ranking where
  rank _ _ _ _ _ := []
  fuse _ _ _ := []
  decodeRow _ _ := []
  past _ _ _ _ _ := .ok []
  formatScore _ := []
  look _ _ _ := .null

structure HitFlags where
  withDocs : Bytes
  filterContains : Bytes
  minScore : Option UInt32
  ef : Nat
deriving DecidableEq, Repr

def HitFlags.none : HitFlags := ⟨[], [], .none, 0⟩

/-- The options that shape the hits, read from the end of arguments that
`stripVectorFlags` has accepted. -/
def hitFlags (parseFloat : Bytes → Option UInt32) (cmd : Command) : Nat → HitFlags → HitFlags
  | stop + 2, flags =>
    let flag := toUpper (cmd.arg stop)
    let value := cmd.arg (stop + 1)
    let next := hitFlags parseFloat cmd stop
    if flag = ascii "WITHDOCS" then next { flags with withDocs := value }
    else if flag = ascii "FILTER_CONTAINS" then next { flags with filterContains := value }
    else if flag = ascii "MIN_SCORE" then next { flags with minScore := parseFloat value }
    else if flag = ascii "EF" then next { flags with ef := (parseDim value).getD 0 }
    else if flag = ascii "SPACE" ∨ flag = ascii "WEIGHTS" ∨ flag = ascii "AS_OF" then next flags
    else flags
  | _, flags => flags

def Command.hitFlags (parseFloat : Bytes → Option UInt32) (cmd : Command) : HitFlags :=
  Query.hitFlags parseFloat cmd cmd.numArgs .none

/-- The key that `FILTER_CONTAINS` looks at for an id. -/
def filterKey (index id : Bytes) : Bytes := ascii "doc:" ++ index ++ ascii ":" ++ id

/-- The key that `WITHDOCS` looks at for an id. -/
def docKey (docs id : Bytes) : Bytes := docs ++ ascii ":" ++ id

def document (now : Int64) (key : Bytes) (kv : KVStore MMapVectorIndex) : Option Bytes :=
  match kv.get now key with
  | none => none
  | some entry =>
    if entry.type ≠ .string then none
    else
      match entry.value with
      | .bytes data => some (data.getD [])
      | _ => some []

/-- `strings.Contains`. -/
def containsText (text substr : Bytes) : Bool :=
  text.tails.any fun rest => substr.isPrefixOf rest

def vectorContainsFilter (now : Int64) (index substr : Bytes) (kv : KVStore MMapVectorIndex)
    (id : Bytes) : Bool :=
  substr = [] || (document now (filterKey index id) kv).any fun text => containsText text substr

def writeVectorHits (ranking : Ranking) (now : Int64) (withDocs : Bytes) (results : List Hit)
    (kv : KVStore MMapVectorIndex) : List Reply :=
  results.map fun (id, score) =>
    let head : List Reply := [.bulk (some id), .bulk (some (ranking.formatScore score))]
    if withDocs = [] then .array head
    else .array (head ++ [.bulk (document now (docKey withDocs id) kv)])

/-- The hits in the index of a key, which has been looked up before. -/
def indexHits (ranking : Ranking) (vectors : VectorConfig) (now : Int64) (key : Bytes)
    (query : Vec) (opts : SearchOpts) (filter : Bytes → Bool) (store : Store) : List Hit :=
  match store.getReadOnly vectors now key with
  | (.ok (some idx), store) =>
    if idx.count = 0 ∨ opts.k ≤ 0 then []
    else ranking.rank idx.toMMapIndex (idx.mmap store.disk) query opts filter
  | _ => []

/-- The vector that `VSIM` searches with. -/
def storedVector (ranking : Ranking) (vectors : VectorConfig) (now : Int64) (key id : Bytes)
    (store : Store) : Vec :=
  match store.getReadOnly vectors now key with
  | (.ok (some idx), store) =>
    match idx.rowOf? id with
    | none => []
    | some row => ranking.decodeRow idx.encoding (readRow idx.rowBytes row (idx.mmap store.disk))
  | _ => []

/-- Candidates that `VFUSE` fetches from each space. -/
def fetchK (k : Int64) : Int64 :=
  let fetch := k * 8
  let fetch := if fetch < 32 then 32 else fetch
  if 256 < fetch then 256 else fetch

def searchOpts (flags : HitFlags) (k : Int64) (excludeID : Bytes) : SearchOpts :=
  ⟨k, flags.minScore, flags.ef, excludeID⟩

def searchHits (ranking : Ranking) (parseFloat : Bytes → Option UInt32) (vectors : VectorConfig)
    (now : Int64) (name : CommandName) (cmd : Command) (store : Store) : List Reply :=
  let shape := Command.hitFlags parseFloat cmd
  let index := cmd.arg 0
  let filter := vectorContainsFilter now index shape.filterContains store.kv
  match name, stripVectorFlags parseFloat true false cmd cmd.numArgs ⟨[], [], 0⟩,
    stripVectorFlags parseFloat false true cmd cmd.numArgs ⟨[], [], 0⟩ with
  | .vsearch, .ok (stop, flags), _ =>
    match parseInt (cmd.arg (stop - 1)), parseFloatArgs parseFloat (argSlice cmd 1 (stop - 1)) with
    | some k, .ok query =>
      writeVectorHits ranking now shape.withDocs (indexHits ranking vectors now
        (vectorSpaceKey index flags.space) query (searchOpts shape k []) filter store) store.kv
    | _, _ => []
  | .vsim, .ok (_, flags), _ =>
    match parseInt (cmd.arg 2) with
    | some k =>
      let key := vectorSpaceKey index flags.space
      let query := storedVector ranking vectors now key (cmd.arg 1) store
      writeVectorHits ranking now shape.withDocs (indexHits ranking vectors now key query
        (searchOpts shape k (cmd.arg 1)) filter store) store.kv
    | none => []
  | .vfuse, _, .ok (stop, flags) =>
    match parseFuseQueries parseFloat cmd stop with
    | .ok (k, queries) =>
      let hits := queries.map fun (space, query) =>
        indexHits ranking vectors now (vectorSpaceKey index space) query
          ⟨fetchK k, none, shape.ef, []⟩ filter store
      writeVectorHits ranking now shape.withDocs
        (ranking.fuse flags.weights (searchOpts shape k []) hits) store.kv
    | .error _ => []
  | _, _, _ => []

/-- `executeTimeTravelSearch` with the effects that the log holds for each key. -/
def timeTravelSearch (ranking : Ranking) (parseFloat : Bytes → Option UInt32) (now : Int64)
    (history : Bytes → List (Int64 × WALEffect)) (cmd : Command) (store : Store) :
    Except String (List Reply) :=
  let shape := Command.hitFlags parseFloat cmd
  let index := cmd.arg 0
  let filter := vectorContainsFilter now index shape.filterContains store.kv
  match stripVectorFlags parseFloat true false cmd cmd.numArgs ⟨[], [], 0⟩ with
  | .error message => .error message
  | .ok (stop, flags) =>
    match parseInt (cmd.arg (stop - 1)), parseFloatArgs parseFloat (argSlice cmd 1 (stop - 1)) with
    | some k, .ok query =>
      (ranking.past (history (vectorSpaceKey index flags.space)) flags.asOf query
        (searchOpts shape k []) filter).map fun results =>
          writeVectorHits ranking now shape.withDocs results store.kv
    | _, _ => .ok []

/-- An executor whose searches and other reads look at the tenant as described here. -/
def ExecutorConfig.reading (config : ExecutorConfig) (ranking : Ranking) (now : Int64)
    (history : Bytes → List (Int64 × WALEffect)) : ExecutorConfig :=
  { config with
    hits := searchHits ranking config.parseFloat config.vectors now
    timeTravel := timeTravelSearch ranking config.parseFloat now history
    read := fun name cmd kv => ranking.look name cmd (kv.shown now (cmd.arg 0)) }

end Dbx.Query
