import Dbx.Persistence.Payload
import Dbx.Query.KeyCommands

/-!
# Vector commands

What `Dispatch` does for the vector commands of a durable tenant. The parser of
decimal floats and the hits of a search are parameters.
-/

set_option autoImplicit false

namespace Dbx.Query

open Dbx.Engine Dbx.Persistence Dbx.Protocol

structure Surroundings where
  vectors : VectorConfig
  /-- `strconv.ParseFloat(text, 32)`, as the bits of the number. -/
  parseFloat : Bytes → Option UInt32
  hits : CommandName → Command → Store → List Reply
  /-- A search in the past, which replays the log into a scratch directory. -/
  timeTravel : Command → Store → Except String (List Reply)

/-!
## Arguments
-/

def isSpaceByte (byte : UInt8) : Bool :=
  (0x61 ≤ byte && byte ≤ 0x7a) || (0x41 ≤ byte && byte ≤ 0x5a) || (0x30 ≤ byte && byte ≤ 0x39) ||
    byte = 0x5f || byte = 0x2d || byte = 0x2e

def validateSpaceName (name : Bytes) : Except String Unit :=
  if name = [] then .error "space name must not be empty"
  else if 64 < name.length then .error "space name must be at most 64 bytes"
  else if name.all isSpaceByte then .ok ()
  else .error "space name may contain letters, digits, '_', '-', and '.' only"

def vectorSpaceKey (index space : Bytes) : Bytes :=
  if space = [] then index else [0x00] ++ ascii "spc:" ++ index ++ [0x1f] ++ space

/-- `strings.EqualFold(text, "SPACE")`. -/
def isSpaceKeyword (text : Bytes) : Bool := toUpper text = ascii "SPACE"

/-- The space named at an argument, and the argument behind it. -/
def parseOptionalSpace (cmd : Command) (index : Nat) : Except String (Bytes × Nat) :=
  if cmd.numArgs ≤ index + 1 ∨ ¬ isSpaceKeyword (cmd.arg index) then .ok ([], index)
  else
    match validateSpaceName (cmd.arg (index + 1)) with
    | .error message => .error message
    | .ok () => .ok (cmd.arg (index + 1), index + 2)

def parseFloats (parseFloat : Bytes → Option UInt32) : List Bytes → Except Bytes Vec
  | [] => .ok []
  | text :: texts =>
    match parseFloat text with
    | none => .error text
    | some bits =>
      match parseFloats parseFloat texts with
      | .error text => .error text
      | .ok vec => .ok (bits :: vec)

def parseFloatArgs (parseFloat : Bytes → Option UInt32) (texts : List Bytes) :
    Except String Vec :=
  match parseFloats parseFloat texts with
  | .error text => .error ("value is not a valid float: '" ++ rawText text ++ "'")
  | .ok vec => .ok vec

def argSlice (cmd : Command) (start stop : Nat) : List Bytes :=
  (cmd.keys.drop start).take (stop - start)

/-- `strconv.Atoi` of a number that has to be positive. -/
def parseDim (text : Bytes) : Option Nat :=
  match parseInt text with
  | none => none
  | some number => if number ≤ 0 then none else some number.toInt.toNat

/-- The items of a batch: an id and as many numbers as the vectors have
dimensions. -/
def parseItems (parseFloat : Bytes → Option UInt32) (dim : Nat) :
    Nat → List Bytes → Except String (List (Bytes × Vec))
  | 0, _ => .ok []
  | count + 1, args =>
    match parseFloats parseFloat ((args.drop 1).take dim) with
    | .error text => .error ("ERR value is not a valid float: '" ++ rawText text ++ "'")
    | .ok vec =>
      match parseItems parseFloat dim count (args.drop (dim + 1)) with
      | .error message => .error message
      | .ok items => .ok ((args.headD [], vec) :: items)

def machineWords : Bytes → Vec
  | b0 :: b1 :: b2 :: b3 :: rest =>
    (b0.toUInt32 ||| b1.toUInt32 <<< 8 ||| b2.toUInt32 <<< 16 ||| b3.toUInt32 <<< 24) ::
      machineWords rest
  | _ => []

/-- The items of a binary batch. The end of a vector wraps around for the dimensions that
overflow it. If it is then found inside the batch, taking the bytes or the words panics. -/
def parseBinaryItems (dim length : Nat) : Nat → Bytes → Except String (List (Bytes × Vec))
  | 0, _ => .ok []
  | _ + 1, [] => .ok []
  | fuel + 1, idLen :: rest =>
    if rest.length < idLen.toNat then .error "ERR malformed binary payload (id bounds)"
    else
      let id := rest.take idLen.toNat
      let rest := rest.drop idLen.toNat
      let stop := Int64.ofNat (length - rest.length) + Int64.ofNat dim * 4
      if Int64.ofNat length < stop then .error "ERR malformed binary payload (vector bounds)"
      else if 2 ^ 63 ≤ length - rest.length + dim * 4 then .error errPanic
      else
        match parseBinaryItems dim length fuel (rest.drop (dim * 4)) with
        | .error message => .error message
        | .ok items => .ok ((id, machineWords (rest.take (dim * 4))) :: items)

/-!
## Mutations
-/

def Session.step {α : Type} (session : Session) (result : Except String α × Store)
    (failed : String → String) (next : α → Session → Reply × Session) : Reply × Session :=
  let session := { session with store := result.2 }
  match result.1 with
  | .error message => (.error (failed message), session)
  | .ok value => next value session

def dispatchVadd (env : Surroundings) (moment : Moment) (cmd : Command) (session : Session) :
    Reply × Session :=
  if cmd.numArgs < 3 then (.error (wrongNumArgsError "VADD"), session)
  else
    match parseOptionalSpace cmd 2 with
    | .error message => (.error message, session)
    | .ok (space, start) =>
      if cmd.numArgs ≤ start then (.error (wrongNumArgsError "VADD"), session)
      else
        match parseFloatArgs env.parseFloat (argSlice cmd start cmd.numArgs) with
        | .error message => (.error message, session)
        | .ok vec =>
          let storageKey := vectorSpaceKey (cmd.arg 0) space
          let docID := cmd.arg 1
          session.step (session.store.validateAdd env.vectors moment.now storageKey docID vec) id
            fun _ session =>
              let session := session.writeWAL moment recordVAdd storageKey
                (encodeVAddPayload docID vec) 0
              session.step (session.store.vAdd env.vectors moment.now storageKey docID vec)
                ("ERR vector apply failed after WAL append: " ++ ·)
                fun _ session => (.integer 1, session)

def addBatch (env : Surroundings) (moment : Moment) (key : Bytes) (dim : Nat)
    (items : List (Bytes × Vec)) (session : Session) : Reply × Session :=
  session.step (session.store.validateAddBatch env.vectors moment.now key dim items) id
    fun _ session =>
      let session := session.writeWAL moment recordVAddBatch key
        (encodeVAddBatchPayload dim items) 0
      session.step (session.store.vAddBatch env.vectors moment.now key dim items)
        ("ERR vector apply failed after WAL append: " ++ ·)
        fun _ session => (.integer items.length, session)

def dispatchVaddBatch (env : Surroundings) (moment : Moment) (cmd : Command) (session : Session) :
    Reply × Session :=
  if cmd.numArgs < 4 then (.error (wrongNumArgsError "VADD_BATCH"), session)
  else
    match parseDim (cmd.arg 1) with
    | none => (.error "ERR dim is not a valid positive integer", session)
    | some dim =>
      match parseOptionalSpace cmd 2 with
      | .error message => (.error message, session)
      | .ok (space, start) =>
        let argsRemaining := cmd.numArgs - start
        if argsRemaining % (dim + 1) ≠ 0 then
          (.error "ERR incorrect number of arguments for the given dimension", session)
        else if 1000 < argsRemaining / (dim + 1) then
          (.error "ERR batch size too large, maximum is 1000 vectors per command", session)
        else
          match parseItems env.parseFloat dim (argsRemaining / (dim + 1))
            (cmd.keys.drop start) with
          | .error message => (.error message, session)
          | .ok items => addBatch env moment (vectorSpaceKey (cmd.arg 0) space) dim items session

def dispatchVaddbin (env : Surroundings) (moment : Moment) (cmd : Command) (session : Session) :
    Reply × Session :=
  if cmd.numArgs ≠ 3 then (.error (wrongNumArgsError "VADDBIN"), session)
  else
    match parseDim (cmd.arg 1) with
    | none => (.error "ERR invalid dimension", session)
    | some dim =>
      let blob := cmd.arg 2
      match parseBinaryItems dim blob.length blob.length blob with
      | .error message => (.error message, session)
      | .ok items => addBatch env moment (cmd.arg 0) dim items session

def dispatchVdel (env : Surroundings) (moment : Moment) (cmd : Command) (session : Session) :
    Reply × Session :=
  if cmd.numArgs < 2 then (.error (wrongNumArgsError "VDEL"), session)
  else
    match parseOptionalSpace cmd 2 with
    | .error message => (.error message, session)
    | .ok (space, next) =>
      if next ≠ cmd.numArgs then (.error (wrongNumArgsError "VDEL"), session)
      else
        let storageKey := vectorSpaceKey (cmd.arg 0) space
        let docID := cmd.arg 1
        session.step (session.store.hasLiveVector env.vectors moment.now storageKey docID) id
          fun live session =>
            if !live then (.integer 0, session)
            else
              let session := session.writeWAL moment recordVTombstone
                storageKey docID 0
              session.step (session.store.vDel env.vectors moment.now storageKey docID)
                ("ERR vector tombstone apply failed after WAL append: " ++ ·)
                fun deleted session =>
                  let reply : Reply := .integer (if deleted then 1 else 0)
                  let (exceeds, store) :=
                    session.store.tombstoneRatioExceeds env.vectors moment.now storageKey
                  let session := { session with store := store }
                  if !exceeds then (reply, session)
                  else
                    session.step (session.store.vCompact env.vectors moment.now storageKey)
                      ("ERR vector compaction failed: " ++ ·) fun _ session => (reply, session)

def dispatchVcompact (env : Surroundings) (moment : Moment) (cmd : Command) (session : Session) :
    Reply × Session :=
  if cmd.numArgs < 1 then (.error (wrongNumArgsError "VCOMPACT"), session)
  else
    match parseOptionalSpace cmd 1 with
    | .error message => (.error message, session)
    | .ok (space, next) =>
      if next ≠ cmd.numArgs then (.error (wrongNumArgsError "VCOMPACT"), session)
      else
        session.step (session.store.vCompact env.vectors moment.now
          (vectorSpaceKey (cmd.arg 0) space)) id fun removed session => (.integer removed, session)

/-!
## Migrations
-/

/-- The record is appended before anything about the key is checked. -/
def migrateStart (env : Surroundings) (moment : Moment) (cmd : Command) (session : Session) :
    Reply × Session :=
  if cmd.numArgs < 3 then
    (.error "ERR wrong number of arguments for VMIGRATE START", session)
  else
    match parseDim (cmd.arg 2) with
    | none => (.error "ERR invalid dimension", session)
    | some dim =>
      let encoding := if 4 ≤ cmd.numArgs then cmd.arg 3 else ascii "sq8"
      match normalizeVectorEncoding encoding with
      | .error message => (.error message, session)
      | .ok encoding =>
        let session := session.writeWAL moment recordVMigrateStart (cmd.arg 1)
          (encodeVMigrateStartPayload dim encoding.name) 0
        session.step
          (session.store.startMigration env.vectors moment.now (cmd.arg 1) dim encoding.name)
          ("ERR migrate start failed after WAL append: " ++ ·)
          fun _ session => (.simple "OK", session)

def migrateAdd (env : Surroundings) (moment : Moment) (cmd : Command) (session : Session) :
    Reply × Session :=
  if cmd.numArgs < 4 then (.error "ERR wrong number of arguments for VMIGRATE ADD", session)
  else
    match parseFloatArgs env.parseFloat (argSlice cmd 3 cmd.numArgs) with
    | .error message => (.error message, session)
    | .ok vec =>
      let (active, store) := session.store.migrationActive env.vectors moment.now (cmd.arg 1)
      let session := { session with store := store }
      if !active then (.error "ERR no migration in progress", session)
      else
        let session := session.writeWAL moment recordVMigrateAdd (cmd.arg 1)
          (encodeVAddPayload (cmd.arg 2) vec) 0
        session.step
          (session.store.insertShadowVector env.vectors moment.now (cmd.arg 1) (cmd.arg 2) vec)
          ("ERR migrate add failed after WAL append: " ++ ·)
          fun _ session => (.integer 1, session)

def migrateSwap (env : Surroundings) (moment : Moment) (cmd : Command) (session : Session) :
    Reply × Session :=
  session.step (session.store.validateSwapMigration env.vectors moment.now (cmd.arg 1)) id
    fun _ session =>
      let session := session.writeWAL moment recordVMigrateSwap (cmd.arg 1) [] 0
      session.step (session.store.swapMigration env.vectors moment.now (cmd.arg 1))
        ("ERR migrate swap failed after WAL append: " ++ ·)
        fun _ session => (.simple "OK", session)

/-- As for a start, the record is appended before the key is looked up. -/
def migrateCancel (env : Surroundings) (moment : Moment) (cmd : Command) (session : Session) :
    Reply × Session :=
  let session := session.writeWAL moment recordVMigrateCancel (cmd.arg 1) [] 0
  session.step (session.store.cancelMigration env.vectors moment.now (cmd.arg 1))
    ("ERR migrate cancel failed after WAL append: " ++ ·)
    fun _ session => (.simple "OK", session)

def dispatchVmigrate (env : Surroundings) (moment : Moment) (cmd : Command) (session : Session) :
    Reply × Session :=
  if cmd.numArgs < 2 then (.error (wrongNumArgsError "VMIGRATE"), session)
  else
    let subcmd := toUpper (cmd.arg 0)
    if subcmd = ascii "START" then migrateStart env moment cmd session
    else if subcmd = ascii "ADD" then migrateAdd env moment cmd session
    else if subcmd = ascii "SWAP" then migrateSwap env moment cmd session
    else if subcmd = ascii "CANCEL" then migrateCancel env moment cmd session
    else (.error "ERR unknown VMIGRATE subcommand", session)

/-!
## Searches

A search opens the index it reads where that is not open, and changes nothing
else.
-/

structure VectorFlags where
  space : Bytes
  weights : List UInt32
  asOf : Int64
deriving DecidableEq, Repr

/-- Read options from the end of the arguments. Of those that only shape the
hits, nothing is kept. -/
def stripVectorFlags (parseFloat : Bytes → Option UInt32) (allowSpace allowWeights : Bool)
    (cmd : Command) : Nat → VectorFlags → Except String (Nat × VectorFlags)
  | stop + 2, flags =>
    let flag := toUpper (cmd.arg stop)
    let value := cmd.arg (stop + 1)
    let next := stripVectorFlags parseFloat allowSpace allowWeights cmd stop
    if flag = ascii "WITHDOCS" ∨ flag = ascii "FILTER_CONTAINS" then next flags
    else if flag = ascii "MIN_SCORE" then
      if (parseFloat value).isNone then .error "MIN_SCORE is not a valid float" else next flags
    else if flag = ascii "EF" then
      if (parseDim value).isNone then .error "EF is not a valid positive integer" else next flags
    else if flag = ascii "SPACE" then
      if !allowSpace then .error "SPACE must appear as a query segment on VFUSE"
      else
        match validateSpaceName value with
        | .error message => .error message
        | .ok () => next { flags with space := value }
    else if flag = ascii "WEIGHTS" then
      if !allowWeights then .error "WEIGHTS is only valid on VFUSE"
      else
        match parseFloats parseFloat ((value.splitOn 0x2c).map trimSpace) with
        | .error _ => .error "WEIGHTS is not a valid float list"
        | .ok weights => next { flags with weights := weights }
    else if flag = ascii "AS_OF" then
      match parseInt value with
      | none => .error "AS_OF is not a valid positive unix timestamp"
      | some parsed =>
        if parsed ≤ 0 then .error "AS_OF is not a valid positive unix timestamp"
        else next { flags with asOf := parsed }
    else .ok (stop + 2, flags)
  | stop, flags => .ok (stop, flags)

/-- Open the index of a key and compare its dimensions with those of a query. -/
def vSearchOpts (env : Surroundings) (now : Int64) (key : Bytes) (dim : Nat) (store : Store) :
    Except String Unit × Store :=
  match store.getReadOnly env.vectors now key with
  | (.error message, store) => (.error message, store)
  | (.ok none, store) => (.ok (), store)
  | (.ok (some idx), store) =>
    if idx.count = 0 then (.ok (), store)
    else if dim ≠ idx.dim then (.error (dimensionMismatch idx.dim dim), store)
    else (.ok (), store)

def getVector (env : Surroundings) (now : Int64) (key docID : Bytes) (store : Store) :
    Except String Nat × Store :=
  match store.getReadOnly env.vectors now key with
  | (.error message, store) => (.error message, store)
  | (.ok none, store) => (.error "vector id not found", store)
  | (.ok (some idx), store) =>
    let mapped := match idx.rowOf? docID with
      | none => false
      | some row => decide ((row + 1) * idx.rowBytes ≤ (idx.mmap store.disk).length)
    if idx.hasLive docID && mapped then (.ok idx.dim, store)
    else (.error "vector id not found", store)

def dispatchVsearch (env : Surroundings) (moment : Moment) (cmd : Command) (session : Session) :
    Reply × Session :=
  if cmd.numArgs < 3 then (.error (wrongNumArgsError "VSEARCH"), session)
  else
    match stripVectorFlags env.parseFloat true false cmd cmd.numArgs ⟨[], [], 0⟩ with
    | .error message => (.error message, session)
    | .ok (stop, flags) =>
      if stop < 3 then (.error (wrongNumArgsError "VSEARCH"), session)
      else if (parseInt (cmd.arg (stop - 1))).isNone then
        (.error "ERR k is not a valid integer", session)
      else
        match parseFloatArgs env.parseFloat (argSlice cmd 1 (stop - 1)) with
        | .error message =>
          (.error ("ERR query is not a valid float: '" ++ message ++ "'"), session)
        | .ok query =>
          if query = [] then (.error "ERR missing query vector", session)
          else if 0 < flags.asOf then
            (replyOf (env.timeTravel cmd session.store) .array, session)
          else
            session.step (vSearchOpts env moment.now (vectorSpaceKey (cmd.arg 0) flags.space)
              query.length session.store) id
              fun _ session => (.array (env.hits .vsearch cmd session.store), session)

def dispatchVsim (env : Surroundings) (moment : Moment) (cmd : Command) (session : Session) :
    Reply × Session :=
  if cmd.numArgs < 3 then (.error (wrongNumArgsError "VSIM"), session)
  else
    match stripVectorFlags env.parseFloat true false cmd cmd.numArgs ⟨[], [], 0⟩ with
    | .error message => (.error message, session)
    | .ok (stop, flags) =>
      if stop ≠ 3 then (.error (wrongNumArgsError "VSIM"), session)
      else if (parseInt (cmd.arg 2)).isNone then (.error "ERR k is not a valid integer", session)
      else
        let storageKey := vectorSpaceKey (cmd.arg 0) flags.space
        session.step (getVector env moment.now storageKey (cmd.arg 1) session.store) id
          fun dim session =>
            session.step (vSearchOpts env moment.now storageKey dim session.store) id
              fun _ session => (.array (env.hits .vsim cmd session.store), session)

/-- The segments of `VFUSE`: a space and the numbers up to the next keyword. -/
def parseFuseSegments (parseFloat : Bytes → Option UInt32) :
    Nat → List Bytes → Except String (List (Bytes × Vec))
  | 0, _ => .ok []
  | _ + 1, [] => .ok []
  | fuel + 1, keyword :: args =>
    if !isSpaceKeyword keyword then .error "VFUSE expected SPACE name then floats"
    else
      match args with
      | [] => .error "VFUSE missing space name"
      | name :: args =>
        match validateSpaceName name with
        | .error message => .error message
        | .ok () =>
          let numbers := args.takeWhile fun text => !isSpaceKeyword text
          if numbers = [] then .error ("empty query vector for SPACE " ++ quote name)
          else
            match parseFloatArgs parseFloat numbers with
            | .error message => .error message
            | .ok query =>
              match parseFuseSegments parseFloat fuel (args.drop numbers.length) with
              | .error message => .error message
              | .ok segments => .ok ((name, query) :: segments)

def parseFuseQueries (parseFloat : Bytes → Option UInt32) (cmd : Command) (stop : Nat) :
    Except String (Int64 × List (Bytes × Vec)) :=
  if stop < 2 then .error "wrong number of arguments for 'VFUSE' command"
  else
    match parseInt (cmd.arg (stop - 1)) with
    | none => .error "k is not a valid integer"
    | some k =>
      match parseFuseSegments parseFloat stop (argSlice cmd 1 (stop - 1)) with
      | .error message => .error message
      | .ok queries =>
        if queries.length < 2 then .error "VFUSE requires at least two SPACE queries"
        else .ok (k, queries)

/-- The checks of `VFuse` that look at no index. -/
def validateFuse (queries : List (Bytes × Vec)) (weights : List UInt32) : Except String Unit :=
  let spaces := queries.map Prod.fst
  if let some space := (spaces.zipIdx.find? fun space => space.1 ∈ spaces.take space.2) then
    .error ("duplicate SPACE " ++ quote space.1)
  else
    let weights := (if weights = [] then queries.map fun _ => 0x3F800000 else weights).map
      Float32.ofBits
    if weights.length ≠ queries.length then .error "WEIGHTS count must match SPACE count"
    else if weights.any fun weight => weight < 0 || weight.isNaN || weight.isInf then
      .error "WEIGHTS must be finite and non-negative"
    else if weights.foldl (· + ·) 0 == 0 then .error "WEIGHTS must sum to a positive value"
    else .ok ()

/-- Search one space after another, up to the first that fails. -/
def fuseSearch (env : Surroundings) (now : Int64) (index : Bytes) :
    List (Bytes × Vec) → Store → Except String Unit × Store
  | [], store => (.ok (), store)
  | (space, query) :: queries, store =>
    match vSearchOpts env now (vectorSpaceKey index space) query.length store with
    | (.error message, store) => (.error message, store)
    | (.ok (), store) => fuseSearch env now index queries store

def dispatchVfuse (env : Surroundings) (moment : Moment) (cmd : Command) (session : Session) :
    Reply × Session :=
  if cmd.numArgs < 8 then (.error (wrongNumArgsError "VFUSE"), session)
  else
    match stripVectorFlags env.parseFloat false true cmd cmd.numArgs ⟨[], [], 0⟩ with
    | .error message => (.error message, session)
    | .ok (stop, flags) =>
      match parseFuseQueries env.parseFloat cmd stop with
      | .error message => (.error message, session)
      | .ok (k, queries) =>
        match validateFuse queries flags.weights with
        | .error message => (.error message, session)
        | .ok () =>
          if k ≤ 0 then (.array [], session)
          else
            session.step (fuseSearch env moment.now (cmd.arg 0) queries session.store) id
              fun _ session => (.array (env.hits .vfuse cmd session.store), session)

end Dbx.Query
