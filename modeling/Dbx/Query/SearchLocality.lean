import Dbx.Query.DispatchLocality
import Dbx.Query.HitRanking

/-!
# The searches are confined

A search looks at the indexes of its spaces and at the documents that its options
name.
-/

set_option autoImplicit false

namespace Dbx.Query

open Simulation Dbx.Engine Dbx.Persistence Dbx.Protocol
open Session (Local local_step)

variable {α : Type} {vectors : VectorConfig}

section Stores

variable (env : Surroundings) {places : Set Location}

section

variable {key index : Bytes} (now : Int64)

theorem local_vSearchOpts (covers : Store.Covers places key) (dim : Nat) :
    Store.Local env.vectors now places True (vSearchOpts env now key dim) := by
  refine Store.local_inspect env.vectors now covers (fun found =>
    found.elim (.ok ()) fun idx =>
      if idx.count = 0 then .ok ()
      else if dim ≠ idx.dim then .error (dimensionMismatch idx.dim dim)
      else .ok ()) ?_ ?_
  · intro store message after failed
    simp only [vSearchOpts, failed]
  · intro store found after looked
    simp only [vSearchOpts, looked]
    cases found with
    | none => rfl
    | some idx =>
      dsimp only [Option.elim_some]
      by_cases empty : idx.count = 0
      · simp only [empty, ↓reduceIte]
      by_cases fits : dim = idx.dim
      · simp [empty, fits]
      · simp [empty, fits]

theorem local_getVector (covers : Store.Covers places key) (docID : Bytes) :
    Store.Local env.vectors now places True (getVector env now key docID) := by
  refine Store.local_peek env.vectors now covers (.error "vector id not found") (fun idx mapping =>
    let mapped := (idx.rowOf? docID).any fun row =>
      decide ((row + 1) * idx.rowBytes ≤ mapping.length)
    if idx.hasLive docID && mapped then .ok idx.dim else .error "vector id not found") ?_ ?_ ?_
  · intro store message after failed
    simp only [getVector, failed]
  · intro store after missing
    simp only [getVector, missing]
  · intro store idx after found
    simp only [getVector, found]
    cases idx.rowOf? docID <;> dsimp only [Option.any] <;> split <;> rfl

theorem local_fuseSearch {queries : List (Bytes × Vec)}
    (covers : ∀ query ∈ queries, Store.Covers places (vectorSpaceKey index query.1)) :
    Store.Local env.vectors now places True (fuseSearch env now index queries) := by
  induction queries with
  | nil => exact .pure (Except.ok ())
  | cons query queries ih =>
    obtain ⟨space, query⟩ := query
    have first := local_vSearchOpts env now (covers _ List.mem_cons_self) query.length
    refine first.andThen (fun _ => True) (fun _ _ _ _ _ => trivial) (fun _ => ih fun query member =>
      covers query (List.mem_cons_of_mem _ member)) ?_ ?_
    · intro store message after failed
      simp only [fuseSearch, failed]
    · intro store value after searched
      simp only [fuseSearch, searched]

/-- What is read of a store depends on nothing but what the places show at an instant. -/
def Determined (vectors : VectorConfig) (now : Int64) (places : Set Location)
    (value : Store → α) : Prop :=
  ∀ left right : Store, Alike (Store.Twins now) Store.view (Store.Placed vectors) places True
    left right → value left = value right

theorem document_determined (covered : .entry key ∈ places) :
    Determined vectors now places fun store => document now key store.kv := by
  intro left right alike
  rcases KVStore.shown_cases (Store.alike_shown covered alike) with
    ⟨here, there⟩ | ⟨_, _, _, _, _, here, there⟩
  · simp [document, here, there]
  · simp [document, here, there]

theorem filter_congr {left right : Store} {substr : Bytes}
    (same : substr ≠ [] → ∀ id, document now (filterKey index id) left.kv =
      document now (filterKey index id) right.kv) :
    vectorContainsFilter now index substr left.kv =
      vectorContainsFilter now index substr right.kv := by
  funext id
  by_cases empty : substr = []
  · simp [vectorContainsFilter, empty]
  · simp only [vectorContainsFilter, same empty id]

theorem writeVectorHits_congr (ranking : Ranking) {left right : Store} {withDocs : Bytes}
    {results : List Hit}
    (same : withDocs ≠ [] → ∀ hit ∈ results, document now (docKey withDocs hit.1) left.kv =
      document now (docKey withDocs hit.1) right.kv) :
    writeVectorHits ranking now withDocs results left.kv =
      writeVectorHits ranking now withDocs results right.kv := by
  refine List.map_congr_left fun hit member => ?_
  by_cases empty : withDocs = []
  · simp only [empty, ↓reduceIte]
  · simp only [same empty hit member]

/-- The index of a key and its mapped bytes, where the lookup finds one. -/
def lookedUp (vectors : VectorConfig) (now : Int64) (key : Bytes) (store : Store) :
    Option (MMapVectorIndex × Bytes) :=
  match store.getReadOnly vectors now key with
  | (.ok (some idx), store) => some (idx, idx.mmap store.disk)
  | _ => none

def mappedIndex (vectors : VectorConfig) (now : Int64) (key : Bytes) (store : Store) :
    Except String (Option (MMapVectorIndex × Bytes)) × Store :=
  match store.getReadOnly vectors now key with
  | (.error message, store) => (.error message, store)
  | (.ok none, store) => (.ok none, store)
  | (.ok (some idx), store) => (.ok (some (idx, idx.mmap store.disk)), store)

theorem lookedUp_determined (covers : Store.Covers places key) :
    Determined vectors now places (lookedUp vectors now key) := by
  have narrow : Store.Local vectors now places True (mappedIndex vectors now key) := by
    refine Store.local_peek vectors now covers (.ok none)
      (fun idx mapping => .ok (some (idx, mapping))) ?_ ?_ ?_
    · intro store message after failed
      simp only [mappedIndex, failed]
    · intro store after missing
      simp only [mappedIndex, missing]
    · intro store idx after found
      simp only [mappedIndex, found]
  have read (store : Store) : lookedUp vectors now key store =
      (mappedIndex vectors now key store).1.toOption.join := by
    dsimp only [lookedUp, mappedIndex]
    rcases store.getReadOnly vectors now key with ⟨_ | _ | _, _⟩ <;> rfl
  intro left right alike
  rw [read, read, narrow.same alike]

end

theorem indexHits_eq (ranking : Ranking) (now : Int64) (key : Bytes) (query : Vec)
    (opts : SearchOpts) (filter : Bytes → Bool) (store : Store) :
    indexHits ranking vectors now key query opts filter store =
      match lookedUp vectors now key store with
      | some (idx, mapping) =>
        if idx.count = 0 ∨ opts.k ≤ 0 then []
        else ranking.rank idx.toMMapIndex mapping query opts filter
      | none => [] := by
  rw [indexHits, lookedUp]
  rcases store.getReadOnly vectors now key with ⟨_ | _ | _, _⟩ <;> rfl

theorem storedVector_eq (ranking : Ranking) (now : Int64) (key id : Bytes) (store : Store) :
    storedVector ranking vectors now key id store =
      match lookedUp vectors now key store with
      | some (idx, mapping) =>
        match idx.rowOf? id with
        | none => []
        | some row => ranking.decodeRow idx.encoding (readRow idx.rowBytes row mapping)
      | none => [] := by
  rw [storedVector, lookedUp]
  rcases store.getReadOnly vectors now key with ⟨_ | _ | _, _⟩ <;> rfl

end Stores

theorem indexHits_congr {ranking : Ranking} {now : Int64} {key : Bytes} {left right : Store}
    {filter filter' : Bytes → Bool} {opts : SearchOpts}
    (looked : lookedUp vectors now key left = lookedUp vectors now key right)
    (ranks : ∀ idx mapping, lookedUp vectors now key left = some (idx, mapping) → 0 < opts.k →
      ∀ query, ranking.rank idx.toMMapIndex mapping query opts filter =
        ranking.rank idx.toMMapIndex mapping query opts filter') (query : Vec) :
    indexHits ranking vectors now key query opts filter left =
      indexHits ranking vectors now key query opts filter' right := by
  rw [indexHits_eq, indexHits_eq, ← looked]
  cases found : lookedUp vectors now key left with
  | none => rfl
  | some found' =>
    dsimp only
    split
    · rfl
    · rename_i wanted
      exact ranks _ _ found (Int64.not_le.mp fun none => wanted (.inr none)) query

def candidateIDs (excludeID : Bytes) (idx : MMapIndex) : List Bytes :=
  (idx.rows.filter fun row =>
    !row.tombstone && (excludeID = [] || row.id ≠ excludeID)).map Row.id

/-- The ids that logged effects have added. -/
def loggedIDs (effects : List (Int64 × WALEffect)) : List Bytes :=
  effects.flatMap fun (_, effect) =>
    if effect.type = recordVAdd then [(decodeVAddPayload effect.value).1]
    else if effect.type = recordVAddBatch then
      ((decodeVAddBatchPayload effect.value).elim [] Prod.snd).map Prod.fst
    else []

/-- A filter is asked about ids of the searched index, of rows that are neither deleted nor
excluded, and about none where no hits are wanted. -/
structure Ranking.Asks (ranking : Ranking) : Prop where
  rank : ∀ idx mapping query opts filter filter',
    (∀ id ∈ candidateIDs opts.excludeID idx, filter id = filter' id) →
    ranking.rank idx mapping query opts filter = ranking.rank idx mapping query opts filter'
  past : ∀ effects asOf query opts filter filter',
    (0 < opts.k → ∀ id ∈ loggedIDs effects, filter id = filter' id) →
    ranking.past effects asOf query opts filter = ranking.past effects asOf query opts filter'

theorem Graphs.ranking_asks (graphs : Graphs) {others : Ranking} (asks : others.Asks) :
    (graphs.ranking others).Asks := by
  refine ⟨fun idx mapping query opts filter filter' same => ?_, asks.past⟩
  have rows : hnswFilter idx opts filter = hnswFilter idx opts filter' := by
    funext row
    unfold hnswFilter
    cases found : idx.rows[row]? with
    | none => rfl
    | some row =>
      dsimp only
      cases passes : !row.tombstone && (opts.excludeID = [] || row.id ≠ opts.excludeID) with
      | false => rw [Bool.false_and, Bool.false_and]
      | true =>
        have listed : row ∈ idx.rows.filter fun row =>
            !row.tombstone && (opts.excludeID = [] || row.id ≠ opts.excludeID) :=
          List.mem_filter.mpr ⟨List.mem_of_getElem? found, passes⟩
        rw [same row.id (List.mem_map_of_mem listed)]
  simp only [Graphs.ranking, Graphs.vSearchOpts, ShardedIndex.vSearchOpts, ShardedIndex.found, rows]

namespace SearchRequest

variable {places : Set Location} {request : SearchRequest}

theorem local_lookUp (env : Surroundings) (now : Int64)
    (covers : ∀ key ∈ request.indexes, Store.Covers places key) :
    Store.Local env.vectors now places True fun store => request.lookUp env now store := by
  cases request with
  | vSearch key query k => exact local_vSearchOpts env now (covers key List.mem_cons_self) _
  | timeTravel key asOf query k => exact .pure _
  | vSim key docID k =>
    have covers := covers key List.mem_cons_self
    refine (local_getVector env now covers docID).andThen (fun _ => True)
      (fun _ _ _ _ _ => trivial) (fun dim => local_vSearchOpts env now covers dim) ?_ ?_
    · intro store message after failed
      simp only [lookUp, failed]
    · intro store dim after found
      simp only [lookUp, found]
  | vFuse index queries weights k =>
    by_cases none : k ≤ 0
    · simp only [lookUp, none, if_true]
      exact .pure _
    · simp only [lookUp, none, if_false]
      refine local_fuseSearch env now fun query member => covers _ ?_
      rw [indexes, if_neg none]
      exact List.mem_map_of_mem member

variable {now : Int64} {ranking : Ranking} {left right : Store}
  {history history' : Bytes → List (Int64 × WALEffect)}

theorem results_congr {shape : HitFlags} {filter filter' : Bytes → Bool}
    (looked : ∀ key ∈ request.indexes,
      lookedUp vectors now key left = lookedUp vectors now key right)
    (ranks : 0 < request.k → ∀ key ∈ request.indexes, ∀ idx mapping,
      lookedUp vectors now key left = some (idx, mapping) → ∀ query opts,
      opts.excludeID = request.excludeID →
      ranking.rank idx.toMMapIndex mapping query opts filter =
        ranking.rank idx.toMMapIndex mapping query opts filter')
    (pasts : ∀ key ∈ request.logs, ∀ asOf query,
      ranking.past (history key) asOf query (searchOpts shape request.k []) filter =
        ranking.past (history' key) asOf query (searchOpts shape request.k []) filter') :
    request.results ranking vectors now history shape filter left =
      request.results ranking vectors now history' shape filter' right := by
  cases request with
  | vSearch key query k =>
    have looked := looked key List.mem_cons_self
    have hits := indexHits_congr looked (fun idx mapping found (wanted : 0 < k) query =>
      ranks wanted key List.mem_cons_self idx mapping found query (searchOpts shape k []) rfl) query
    simp only [results, hits]
  | timeTravel key asOf query k => exact pasts key List.mem_cons_self asOf query
  | vSim key docID k =>
    have looked := looked key List.mem_cons_self
    have hits := indexHits_congr looked (fun idx mapping found (wanted : 0 < k) query =>
      ranks wanted key List.mem_cons_self idx mapping found query (searchOpts shape k docID) rfl)
    simp only [results, storedVector_eq, looked, hits]
  | vFuse index queries weights k =>
    by_cases none : k ≤ 0
    · simp only [results, none, if_true]
    · have member (query : Bytes × Vec) (named : query ∈ queries) :
          vectorSpaceKey index query.1 ∈ (vFuse index queries weights k).indexes := by
        rw [indexes, if_neg none]
        exact List.mem_map_of_mem named
      have each := List.map_congr_left fun (query : Bytes × Vec) named =>
        indexHits_congr (looked _ (member query named)) (fun idx mapping found _ vec =>
          ranks (Int64.not_le.mp none) _ (member query named) idx mapping found vec
            ⟨fetchK k, .none, shape.ef, []⟩ rfl) query.2
      simp only [results, none, if_false, each]

variable {config : ExecutorConfig} {cmd : Command}

theorem answer_congr
    (hits : request.hits config ranking now history cmd left =
      request.hits config ranking now history' cmd right)
    (documents : (Command.hitFlags config.parseFloat cmd).withDocs ≠ [] → ∀ hits,
      request.hits config ranking now history cmd left = .ok hits → ∀ hit ∈ hits,
        document now (docKey (Command.hitFlags config.parseFloat cmd).withDocs hit.1) left.kv =
          document now (docKey (Command.hitFlags config.parseFloat cmd).withDocs hit.1) right.kv) :
    request.answer config ranking now history cmd left =
      request.answer config ranking now history' cmd right := by
  unfold answer
  rw [← hits]
  cases found : request.hits config ranking now history cmd left with
  | error message => rfl
  | ok hits =>
    exact congrArg Except.ok (writeVectorHits_congr now ranking fun named =>
      documents named hits found)

/-!
## Documents that are read
-/

/-- The ids that a filter is asked about in a store whose indexes have been looked up. -/
def candidates (vectors : VectorConfig) (now : Int64)
    (history : Bytes → List (Int64 × WALEffect)) (store : Store) (request : SearchRequest) :
    List Bytes :=
  if request.k ≤ 0 then []
  else
    (request.indexes.flatMap fun key =>
      match lookedUp vectors now key store with
      | none => []
      | some (idx, _) => candidateIDs request.excludeID idx.toMMapIndex) ++
    request.logs.flatMap fun key => loggedIDs (history key)

theorem answer_same (asks : ranking.Asks)
    (alike : Alike (Store.Twins now) Store.view (Store.Placed config.vectors) places True left
      right)
    (covers : ∀ key ∈ request.indexes, Store.Covers places key)
    (histories : ∀ key ∈ request.logs, history key = history' key)
    (filtered : (Command.hitFlags config.parseFloat cmd).filterContains ≠ [] →
      ∀ id ∈ request.candidates config.vectors now history left,
        .entry (filterKey (cmd.arg 0) id) ∈ places)
    (documents : (Command.hitFlags config.parseFloat cmd).withDocs ≠ [] → ∀ hits,
      request.hits config ranking now history cmd left = .ok hits → ∀ hit ∈ hits,
        .entry (docKey (Command.hitFlags config.parseFloat cmd).withDocs hit.1) ∈ places) :
    request.answer config ranking now history cmd left =
      request.answer config ranking now history' cmd right := by
  have shown {key : Bytes} (covered : .entry key ∈ places) :
      document now key left.kv = document now key right.kv :=
    document_determined now covered left right alike
  have passes (id : Bytes) (asked : id ∈ request.candidates config.vectors now history left) :
      vectorContainsFilter now (cmd.arg 0)
          (Command.hitFlags config.parseFloat cmd).filterContains left.kv id =
        vectorContainsFilter now (cmd.arg 0)
          (Command.hitFlags config.parseFloat cmd).filterContains right.kv id := by
    by_cases empty : (Command.hitFlags config.parseFloat cmd).filterContains = []
    · simp [vectorContainsFilter, empty]
    · simp only [vectorContainsFilter, shown (filtered empty id asked)]
  refine answer_congr (results_congr (fun key member =>
    lookedUp_determined now (covers key member) left right alike) ?_ ?_)
    fun named hits found hit member => shown (documents named hits found hit member)
  · intro wanted key member idx mapping found query opts excluded
    refine asks.rank _ _ _ _ _ _ fun id asked => passes id ?_
    rw [candidates, if_neg (Int64.not_le.mpr wanted)]
    refine List.mem_append_left _ (List.mem_flatMap.mpr ⟨key, member, ?_⟩)
    rw [found]
    exact excluded ▸ asked
  · intro key member asOf query
    rw [histories key member]
    refine asks.past _ _ _ _ _ _ fun (wanted : 0 < request.k) id logged => passes id ?_
    rw [candidates, if_neg (Int64.not_le.mpr wanted)]
    refine List.mem_append_right _ (List.mem_flatMap.mpr ⟨key, member, ?_⟩)
    rw [histories key member]
    exact logged

end SearchRequest

/-!
## Documents of every id
-/

def documentKeys (parseFloat : Bytes → Option UInt32) (cmd : Command) : Set Bytes :=
  let shape := Command.hitFlags parseFloat cmd
  {key | (shape.withDocs ≠ [] ∧ ∃ id, key = docKey shape.withDocs id) ∨
    (shape.filterContains ≠ [] ∧ ∃ id, key = filterKey (cmd.arg 0) id)}

structure SearchCovered (parseFloat : Bytes → Option UInt32) (cmd : Command)
    (places : Set Location) (request : SearchRequest) : Prop where
  indexes : ∀ key ∈ request.indexes, Store.Covers places key
  documents : ∀ key ∈ documentKeys parseFloat cmd, .entry key ∈ places

section Searches

variable {config : ExecutorConfig} {cmd : Command} {request : SearchRequest} {now : Int64}

theorem SearchCovered.determined {places : Set Location}
    (covered : SearchCovered config.parseFloat cmd places request) (ranking : Ranking)
    (history : Bytes → List (Int64 × WALEffect)) :
    Determined config.vectors now places (request.answer config ranking now history cmd) := by
  intro left right alike
  have shown (key : Bytes) (member : key ∈ documentKeys config.parseFloat cmd) :=
    document_determined now (covered.documents key member) left right alike
  have filters := @filter_congr (cmd.arg 0) now left right
    (Command.hitFlags config.parseFloat cmd).filterContains fun filtered id =>
      shown (filterKey (cmd.arg 0) id) (.inr ⟨filtered, id, rfl⟩)
  refine SearchRequest.answer_congr ?_ fun named _ _ hit _ =>
    shown _ (.inl ⟨named, hit.1, rfl⟩)
  unfold SearchRequest.hits
  dsimp only
  rw [filters]
  exact SearchRequest.results_congr
    (fun key member => lookedUp_determined now (covered.indexes key member) left right alike)
    (fun _ _ _ _ _ _ _ _ _ => rfl) fun _ _ _ _ => rfl

variable {scope : Set Place} (ranking : Ranking) (moment : Moment)
  (history : Bytes → List (Int64 × WALEffect))

theorem local_dispatchSearches {name : CommandName}
    (searches : name = .vsearch ∨ name = .vsim ∨ name = .vfuse)
    (covered : ∀ request, searchOf config.parseFloat name cmd = .ok request →
      SearchCovered config.parseFloat cmd (stored scope) request) :
    Local config.vectors moment.now scope
      (dispatch (config.reading ranking moment.now history) moment name cmd) := by
  rw [funext (dispatch_searches config ranking moment history searches cmd)]
  cases asked : searchOf config.parseFloat name cmd with
  | error message => exact .pure _
  | ok request =>
    have covered := covered request asked
    let env := (config.reading ranking moment.now history).toSurroundings
    exact local_step id (request.local_lookUp env moment.now covered.indexes) fun _ =>
      .read _ fun _ _ alike => congrArg (replyOf · Reply.array)
        (covered.determined ranking history _ _ (Session.alike_store alike))

end Searches

end Dbx.Query
