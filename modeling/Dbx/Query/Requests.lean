import Dbx.Engine.VectorAdmission
import Dbx.Query.SearchHits

/-!
# What a vector command asks for

The arguments of additions and searches, read without a look at the store, and what
`Dispatch` does with them.
-/

set_option autoImplicit false

namespace Dbx.Query

open Dbx.Engine Dbx.Persistence Dbx.Protocol

/-!
## Additions
-/

/-- The addition that a command asks for, with the key of its index. -/
def additionOf (parseFloat : Bytes → Option UInt32) (name : CommandName) (cmd : Command) :
    Except String (Bytes × VectorWrite) :=
  match name with
  | .vadd =>
    if cmd.numArgs < 3 then .error (wrongNumArgsError "VADD")
    else
      match parseOptionalSpace cmd 2 with
      | .error message => .error message
      | .ok (space, start) =>
        if cmd.numArgs ≤ start then .error (wrongNumArgsError "VADD")
        else
          match parseFloatArgs parseFloat (argSlice cmd start cmd.numArgs) with
          | .error message => .error message
          | .ok vec => .ok (vectorSpaceKey (cmd.arg 0) space, .vAdd (cmd.arg 1) vec)
  | .vaddBatch =>
    if cmd.numArgs < 4 then .error (wrongNumArgsError "VADD_BATCH")
    else
      match parseDim (cmd.arg 1) with
      | none => .error "ERR dim is not a valid positive integer"
      | some dim =>
        match parseOptionalSpace cmd 2 with
        | .error message => .error message
        | .ok (space, start) =>
          let argsRemaining := cmd.numArgs - start
          if argsRemaining % (dim + 1) ≠ 0 then
            .error "ERR incorrect number of arguments for the given dimension"
          else if 1000 < argsRemaining / (dim + 1) then
            .error "ERR batch size too large, maximum is 1000 vectors per command"
          else
            match parseItems parseFloat dim (argsRemaining / (dim + 1))
              (cmd.keys.drop start) with
            | .error message => .error message
            | .ok items => .ok (vectorSpaceKey (cmd.arg 0) space, .vAddBatch dim items)
  | .vaddbin =>
    if cmd.numArgs ≠ 3 then .error (wrongNumArgsError "VADDBIN")
    else
      match parseDim (cmd.arg 1) with
      | none => .error "ERR invalid dimension"
      | some dim =>
        match parseBinaryItems dim (cmd.arg 2).length (cmd.arg 2).length (cmd.arg 2) with
        | .error message => .error message
        | .ok items => .ok (cmd.arg 0, .vAddBatch dim items)
  | _ => .error "no addition"

def additionRecord : VectorWrite → UInt8 × Bytes
  | .vAdd id vec => (recordVAdd, encodeVAddPayload id vec)
  | .vAddBatch dim items => (recordVAddBatch, encodeVAddBatchPayload dim items)

def addVectors (env : Surroundings) (moment : Moment) (key : Bytes) (write : VectorWrite)
    (session : Session) : Reply × Session :=
  session.step (write.validate env.vectors moment.now key session.store) id
    fun _ session =>
      let session := session.writeWAL moment (additionRecord write).1 key (additionRecord write).2 0
      session.step (write.apply env.vectors moment.now key session.store)
        ("ERR vector apply failed after WAL append: " ++ ·)
        fun _ session => (.integer write.items.length, session)

theorem dispatch_adds (config : ExecutorConfig) (moment : Moment) {name : CommandName}
    (adds : name = .vadd ∨ name = .vaddBatch ∨ name = .vaddbin) (cmd : Command)
    (session : Session) :
    dispatch config moment name cmd session =
      match additionOf config.parseFloat name cmd with
      | .error message => (.error message, session)
      | .ok (key, write) => addVectors config.toSurroundings moment key write session := by
  rcases adds with rfl | rfl | rfl
  · simp only [dispatch, readReply, additionOf, dispatchVadd]
    split
    · rfl
    cases parseOptionalSpace cmd 2 with
    | error message => rfl
    | ok found =>
      dsimp only
      split
      · rfl
      · cases parseFloatArgs config.parseFloat (argSlice cmd found.2 cmd.numArgs) <;> rfl
  · simp only [dispatch, readReply, additionOf, dispatchVaddBatch]
    split
    · rfl
    cases parseDim (cmd.arg 1) with
    | none => rfl
    | some dim =>
      dsimp only
      cases parseOptionalSpace cmd 2 with
      | error message => rfl
      | ok found =>
        dsimp only
        split
        · rfl
        split
        · rfl
        · cases parseItems config.parseFloat dim ((cmd.numArgs - found.2) / (dim + 1))
            (cmd.keys.drop found.2) <;> rfl
  · simp only [dispatch, readReply, additionOf, dispatchVaddbin]
    split
    · rfl
    cases parseDim (cmd.arg 1) with
    | none => rfl
    | some dim =>
      dsimp only
      cases parseBinaryItems dim (cmd.arg 2).length (cmd.arg 2).length (cmd.arg 2) <;> rfl

/-!
## Searches
-/

inductive SearchRequest where
  | vSearch (key : Bytes) (query : Vec) (k : Int64)
  | timeTravel (key : Bytes) (asOf : Int64) (query : Vec) (k : Int64)
  | vSim (key docID : Bytes) (k : Int64)
  | vFuse (index : Bytes) (queries : List (Bytes × Vec)) (weights : List UInt32) (k : Int64)

/-- The search that a command asks for. -/
def searchOf (parseFloat : Bytes → Option UInt32) (name : CommandName) (cmd : Command) :
    Except String SearchRequest :=
  match name with
  | .vsearch =>
    if cmd.numArgs < 3 then .error (wrongNumArgsError "VSEARCH")
    else
      match stripVectorFlags parseFloat true false cmd cmd.numArgs ⟨[], [], 0⟩ with
      | .error message => .error message
      | .ok (stop, flags) =>
        if stop < 3 then .error (wrongNumArgsError "VSEARCH")
        else
          match parseInt (cmd.arg (stop - 1)) with
          | none => .error "ERR k is not a valid integer"
          | some k =>
            match parseFloatArgs parseFloat (argSlice cmd 1 (stop - 1)) with
            | .error message => .error ("ERR query is not a valid float: '" ++ message ++ "'")
            | .ok query =>
              let key := vectorSpaceKey (cmd.arg 0) flags.space
              if query = [] then .error "ERR missing query vector"
              else if 0 < flags.asOf then .ok (.timeTravel key flags.asOf query k)
              else .ok (.vSearch key query k)
  | .vsim =>
    if cmd.numArgs < 3 then .error (wrongNumArgsError "VSIM")
    else
      match stripVectorFlags parseFloat true false cmd cmd.numArgs ⟨[], [], 0⟩ with
      | .error message => .error message
      | .ok (stop, flags) =>
        if stop ≠ 3 then .error (wrongNumArgsError "VSIM")
        else
          match parseInt (cmd.arg 2) with
          | none => .error "ERR k is not a valid integer"
          | some k => .ok (.vSim (vectorSpaceKey (cmd.arg 0) flags.space) (cmd.arg 1) k)
  | .vfuse =>
    if cmd.numArgs < 8 then .error (wrongNumArgsError "VFUSE")
    else
      match stripVectorFlags parseFloat false true cmd cmd.numArgs ⟨[], [], 0⟩ with
      | .error message => .error message
      | .ok (stop, flags) =>
        match parseFuseQueries parseFloat cmd stop with
        | .error message => .error message
        | .ok (k, queries) =>
          match validateFuse queries flags.weights with
          | .error message => .error message
          | .ok () => .ok (.vFuse (cmd.arg 0) queries flags.weights k)
  | _ => .error "no search"

namespace SearchRequest

def k : SearchRequest → Int64
  | .vSearch _ _ k | .timeTravel _ _ _ k | .vSim _ _ k | .vFuse _ _ _ k => k

/-- The keys of the indexes that are searched. A fusion that wants no hits looks at none. -/
def indexes : SearchRequest → List Bytes
  | .vSearch key _ _ | .vSim key _ _ => [key]
  | .timeTravel _ _ _ _ => []
  | .vFuse index queries _ k =>
    if k ≤ 0 then [] else queries.map fun query => vectorSpaceKey index query.1

/-- The keys whose effects in the log are searched. -/
def logs : SearchRequest → List Bytes
  | .timeTravel key _ _ _ => [key]
  | _ => []

/-- The id that is not to be found. -/
def excludeID : SearchRequest → Bytes
  | .vSim _ docID _ => docID
  | _ => []

/-- Open the indexes and compare their dimensions with the query. -/
def lookUp (env : Surroundings) (now : Int64) (store : Store) :
    SearchRequest → Except String Unit × Store
  | .vSearch key query _ => vSearchOpts env now key query.length store
  | .timeTravel _ _ _ _ => (.ok (), store)
  | .vSim key docID _ =>
    match getVector env now key docID store with
    | (.error message, store) => (.error message, store)
    | (.ok dim, store) => vSearchOpts env now key dim store
  | .vFuse index queries _ k =>
    if k ≤ 0 then (.ok (), store) else fuseSearch env now index queries store

/-- The hits in a store whose indexes have been looked up. -/
def results (ranking : Ranking) (vectors : VectorConfig) (now : Int64)
    (history : Bytes → List (Int64 × WALEffect)) (shape : HitFlags) (filter : Bytes → Bool)
    (store : Store) : SearchRequest → Except String (List Hit)
  | .vSearch key query k =>
    .ok (indexHits ranking vectors now key query (searchOpts shape k []) filter store)
  | .timeTravel key asOf query k =>
    ranking.past (history key) asOf query (searchOpts shape k []) filter
  | .vSim key docID k =>
    .ok (indexHits ranking vectors now key (storedVector ranking vectors now key docID store)
      (searchOpts shape k docID) filter store)
  | .vFuse index queries weights k =>
    if k ≤ 0 then .ok []
    else
      .ok (ranking.fuse weights (searchOpts shape k []) (queries.map fun (space, query) =>
        indexHits ranking vectors now (vectorSpaceKey index space) query
          ⟨fetchK k, none, shape.ef, []⟩ filter store))

/-- The hits of a command, among the ids whose documents pass. -/
def hits (config : ExecutorConfig) (ranking : Ranking) (now : Int64)
    (history : Bytes → List (Int64 × WALEffect)) (cmd : Command) (store : Store)
    (request : SearchRequest) : Except String (List Hit) :=
  let shape := Command.hitFlags config.parseFloat cmd
  request.results ranking config.vectors now history shape
    (vectorContainsFilter now (cmd.arg 0) shape.filterContains store.kv) store

def answer (config : ExecutorConfig) (ranking : Ranking) (now : Int64)
    (history : Bytes → List (Int64 × WALEffect)) (cmd : Command) (store : Store)
    (request : SearchRequest) : Except String (List Reply) :=
  (request.hits config ranking now history cmd store).map fun hits =>
    writeVectorHits ranking now (Command.hitFlags config.parseFloat cmd).withDocs hits store.kv

end SearchRequest

theorem dispatch_searches (config : ExecutorConfig) (ranking : Ranking) (moment : Moment)
    (history : Bytes → List (Int64 × WALEffect)) {name : CommandName}
    (searches : name = .vsearch ∨ name = .vsim ∨ name = .vfuse) (cmd : Command)
    (session : Session) :
    dispatch (config.reading ranking moment.now history) moment name cmd session =
      match searchOf config.parseFloat name cmd with
      | .error message => (.error message, session)
      | .ok request =>
        session.step (request.lookUp (config.reading ranking moment.now history).toSurroundings
          moment.now session.store) id fun _ session =>
            (replyOf (request.answer config ranking moment.now history cmd session.store) .array,
              session) := by
  rcases searches with rfl | rfl | rfl
  · simp only [dispatch, readReply, dispatchVsearch, searchOf]
    by_cases few : cmd.numArgs < 3
    · simp only [few, if_true]
    simp only [few, if_false, ExecutorConfig.reading]
    cases stripped : stripVectorFlags config.parseFloat true false cmd cmd.numArgs ⟨[], [], 0⟩ with
    | error message => rfl
    | ok found =>
      obtain ⟨stop, flags⟩ := found
      by_cases short : stop < 3
      · simp only [short, if_true]
      simp only [short, if_false]
      cases count : parseInt (cmd.arg (stop - 1)) with
      | none => rfl
      | some k =>
        simp only [Option.isNone_some, Bool.false_eq_true, if_false]
        cases parsed : parseFloatArgs config.parseFloat (argSlice cmd 1 (stop - 1)) with
        | error message => rfl
        | ok query =>
          by_cases empty : query = []
          · simp only [empty, if_true]
          by_cases past : 0 < flags.asOf
          · simp only [empty, past, if_true, if_false, timeTravelSearch, stripped, count, parsed]
            rfl
          · simp only [empty, past, if_false, searchHits, stripped, count, parsed]
            rfl
  · simp only [dispatch, readReply, dispatchVsim, searchOf]
    by_cases few : cmd.numArgs < 3
    · simp only [few, if_true]
    simp only [few, if_false, ExecutorConfig.reading]
    cases stripped : stripVectorFlags config.parseFloat true false cmd cmd.numArgs ⟨[], [], 0⟩ with
    | error message => rfl
    | ok found =>
      obtain ⟨stop, flags⟩ := found
      by_cases three : stop = 3
      · simp only [three, ne_eq, not_true, if_false]
        cases count : parseInt (cmd.arg 2) with
        | none => rfl
        | some k =>
          simp only [Option.isNone_some, Bool.false_eq_true, if_false, SearchRequest.lookUp,
            searchHits, stripped, count]
          rw [Session.step, Session.step]
          generalize getVector _ moment.now _ (cmd.arg 1) session.store = looked
          obtain ⟨_ | dim, store⟩ := looked <;> rfl
      · simp only [three, ne_eq, not_false_eq_true, if_true]
  · simp only [dispatch, readReply, dispatchVfuse, searchOf]
    by_cases few : cmd.numArgs < 8
    · simp only [few, if_true]
    simp only [few, if_false, ExecutorConfig.reading]
    cases stripped : stripVectorFlags config.parseFloat false true cmd cmd.numArgs ⟨[], [], 0⟩ with
    | error message => rfl
    | ok found =>
      obtain ⟨stop, flags⟩ := found
      dsimp only
      cases parsed : parseFuseQueries config.parseFloat cmd stop with
      | error message => rfl
      | ok fused =>
        obtain ⟨k, queries⟩ := fused
        dsimp only
        cases validateFuse queries flags.weights with
        | error message => rfl
        | ok =>
          by_cases none : k ≤ 0
          · simp only [none, if_true, SearchRequest.lookUp, SearchRequest.answer,
              SearchRequest.hits, SearchRequest.results]
            rfl
          · simp only [none, if_false, SearchRequest.lookUp, SearchRequest.answer,
              SearchRequest.hits, SearchRequest.results, searchHits, stripped, parsed]
            rfl

end Dbx.Query
