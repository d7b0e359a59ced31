import Dbx.Auth.ACL
import Dbx.Library.Runs
import Dbx.Orchestrator.Manager

/-!
# The credentials of a tenant

The key records change under the manager's lock, and reach the engine outside it:
through the file `acl.json`, which the engine also polls, and, for an engine in the
same process, through its user table. Calls on one tenant are taken apart into the
steps between which others may run. The text of a list of users, which the JSON
library makes, is a parameter.
-/

set_option autoImplicit false

namespace Dbx.Orchestrator

open Dbx.Auth Dbx.Engine Dbx.Protocol

def rolePermissions : KeyRole → Int64
  | .reader => permRead
  | .writer => permRead ||| permWrite
  | .tenantAdmin => permRead ||| permWrite ||| permAdmin

def tenantUser (key : TenantKey) : User :=
  { name := key.id
    passwordHash := key.hash
    enabled := !key.revoked
    permissions := rolePermissions key.role
    allowedKeys := key.keyPatterns
    noPass := false }

abbrev KeyTable := AList (fun _ : Bytes => TenantKey)

abbrev UserTable := AList (fun _ : Bytes => User)

/-- The users of the keys that are not revoked. The tenant is no replica. -/
def collectTenantUsers (keys : KeyTable) : List User :=
  (keys.entries.filter fun entry => !entry.2.revoked).map fun entry => tenantUser entry.2

/-- `ReplaceUsers`: a name that comes twice has its last user. -/
def replaceUsers (users : List User) : UserTable :=
  users.foldl (fun table user => if user.name = [] then table else table.insert user.name user) ∅

/-- The content of `acl.json`, with the list that was written last since the file was
truncated. -/
inductive ACLFile where
  | missing
  | text (content : Bytes) (written : Option (List User))
deriving DecidableEq, Repr

namespace ACLFile

def content : ACLFile → Bytes
  | .missing => []
  | .text content _ => content

def truncated : ACLFile := .text [] none

/-- Calls that write at the same time have each their own offset, so the text goes to
the start of the file: a longer one that is there shows behind it. -/
def write (marshal : List User → Bytes) (users : List User) (file : ACLFile) : ACLFile :=
  .text (marshal users ++ file.content.drop (marshal users).length) (some users)

/-- A list is read when nothing follows it. -/
def read (marshal : List User → Bytes) : ACLFile → Option (List User)
  | .text content (some users) => if content = marshal users then some users else none
  | _ => none

end ACLFile

inductive CallKind where
  | create (keyID : Bytes)
  | revoke (keyID : Bytes)
  | start
deriving DecidableEq, Repr

/-- Where a call is, with what it has read and not yet written. -/
inductive CallPhase where
  | collect
  | write (users : List User) (worker : Bool)
  | fill (users : List User) (worker : Bool)
  | reload
  | install (users : List User)
  | push
  | upsert (user : User)
  | load (users : List User)
  | boot (users : List User)
  | register
  | upserts (users : List User)
  | done
deriving DecidableEq, Repr

structure Call where
  kind : CallKind
  captured : Bool
  phase : CallPhase
deriving DecidableEq, Repr

structure KeySite where
  keys : KeyTable
  file : ACLFile
  engine : Option UserTable
  registered : Bool
  starting : Bool
  /-- What the poll of the engine has read and not yet installed. -/
  polling : Option (List User)
  calls : AList (fun _ : Nat => Call)
  overlaps : Nat → List Nat

/-- `saved` tells whether the state file could be written. In `fail` the operation that
the call is at fails, and writes nothing. -/
inductive KeyEvent where
  | create (cid : Nat) (key : TenantKey) (saved : Bool)
  | revoke (cid : Nat) (keyID : Bytes) (saved : Bool)
  | start (cid : Nat)
  | advance (cid : Nat)
  | fail (cid : Nat)
  | pollRead
  | pollInstall

namespace KeySite

def empty : KeySite where
  keys := ∅
  file := .missing
  engine := none
  registered := false
  starting := false
  polling := none
  calls := ∅
  overlaps _ := []

def inFlight (site : KeySite) : List Nat :=
  (site.calls.entries.filter fun entry => entry.2.phase ≠ .done).map Sigma.fst

def begin (site : KeySite) (cid : Nat) (kind : CallKind) (captured : Bool) : KeySite :=
  { site with
    calls := site.calls.insert cid ⟨kind, captured, .collect⟩
    overlaps := fun other =>
      if other = cid then site.inFlight
      else if other ∈ site.inFlight then cid :: site.overlaps other
      else site.overlaps other }

def setPhase (site : KeySite) (cid : Nat) (call : Call) (phase : CallPhase) : KeySite :=
  { site with calls := site.calls.insert cid { call with phase } }

def advance (marshal : List User → Bytes) (isolated : Bool) (site : KeySite) (cid : Nat)
    (call : Call) : Option KeySite :=
  match call.phase with
  | .collect =>
    -- A start writes the file for an engine that is not there yet.
    let worker := isolated && site.registered && call.kind ≠ .start
    some (site.setPhase cid call (.write (collectTenantUsers site.keys) worker))
  | .write users worker =>
    some ({ site with file := .truncated }.setPhase cid call (.fill users worker))
  | .fill users worker =>
    let next : CallPhase :=
      if call.kind = .start then .load users else if worker then .reload else .push
    some ({ site with file := site.file.write marshal users }.setPhase cid call next)
  | .reload =>
    match site.file.read marshal with
    | some users => some (site.setPhase cid call (.install users))
    | none => some (site.setPhase cid call .push)
  | .install users =>
    some ({ site with engine := site.engine.map fun _ => replaceUsers users }.setPhase cid call
      .push)
  | .push =>
    match call.kind with
    | .create keyID =>
      match call.captured, site.keys.lookup keyID with
      | true, some key => some (site.setPhase cid call (.upsert (tenantUser key)))
      | _, _ => some (site.setPhase cid call .done)
    | .revoke keyID =>
      let engine := if call.captured then site.engine.map (AList.erase keyID) else site.engine
      some ({ site with engine }.setPhase cid call .done)
    | .start => some (site.setPhase cid call .done)
  | .upsert user =>
    some ({ site with engine := site.engine.map (AList.insert user.name user) }.setPhase cid call
      .done)
  | .load initial =>
    match site.file.read marshal with
    | some users => some (site.setPhase cid call (.boot users))
    | none =>
      -- A worker has no initial users. A file that can not be read ends the start.
      if site.file = .missing then
        some (site.setPhase cid call (.boot (if isolated then [] else initial)))
      else some ({ site with starting := false }.setPhase cid call .done)
  | .boot users =>
    some ({ site with engine := some (replaceUsers users) }.setPhase cid call .register)
  | .register =>
    if isolated then
      some ({ site with registered := true, starting := false }.setPhase cid call .done)
    else
      some ({ site with registered := true }.setPhase cid call
        (.upserts (collectTenantUsers site.keys)))
  | .upserts [] => some ({ site with starting := false }.setPhase cid call .done)
  | .upserts (user :: users) =>
    some ({ site with engine := site.engine.map (AList.insert user.name user) }.setPhase cid call
      (.upserts users))
  | .done => none

def fail (site : KeySite) (cid : Nat) (call : Call) : Option KeySite :=
  match call.phase with
  | .write _ _ | .fill _ _ =>
    if call.kind = .start then some ({ site with starting := false }.setPhase cid call .done)
    else some (site.setPhase cid call .push)
  | .reload => some (site.setPhase cid call .push)
  | .load _ => some ({ site with starting := false }.setPhase cid call .done)
  | .register =>
    -- The engine does not bind its sockets and is stopped.
    some ({ site with engine := none, polling := none, starting := false }.setPhase cid call .done)
  | _ => none

/-- One step. `isolated` tells whether the engine is a worker process. A new key has a
random id, which no other key has. -/
def step (marshal : List User → Bytes) (isolated : Bool) (site : KeySite) :
    KeyEvent → Except String KeySite
  | .create cid key saved =>
    if cid ∈ site.calls then .error "the call has begun"
    else if key.name = [] then .error "key name is required"
    else if key.id ∈ site.keys then .error "not a random id"
    else if !saved then .ok site
    else
      let keyPatterns := if key.keyPatterns = [] then [ascii "*"] else key.keyPatterns
      let key := { key with keyPatterns, generation := 1, revoked := false }
      .ok ({ site with keys := site.keys.insert key.id key }.begin cid (.create key.id)
        (site.registered && !isolated))
  | .revoke cid keyID saved =>
    if cid ∈ site.calls then .error "the call has begun"
    else
      match site.keys.lookup keyID with
      | none => .error "tenant key not found"
      | some key =>
        if saved then
          let key := { key with revoked := true, generation := key.generation + 1 }
          .ok ({ site with keys := site.keys.insert keyID key }.begin cid (.revoke keyID)
            (site.registered && !isolated))
        else
          -- The mark goes with the failed save, also one that an earlier call has made.
          .ok { site with keys := site.keys.insert keyID { key with revoked := false } }
  | .start cid =>
    if cid ∈ site.calls then .error "the call has begun"
    else if site.starting || site.registered then .error "already running"
    else .ok ({ site with starting := true }.begin cid .start false)
  | .advance cid =>
    match site.calls.lookup cid with
    | none => .error "no such call"
    | some call =>
      match site.advance marshal isolated cid call with
      | none => .error "the call has returned"
      | some site => .ok site
  | .fail cid =>
    match site.calls.lookup cid with
    | none => .error "no such call"
    | some call =>
      match site.fail cid call with
      | none => .error "nothing can fail"
      | some site => .ok site
  | .pollRead =>
    match site.engine, site.file.read marshal, site.polling with
    | some _, some users, none => .ok { site with polling := some users }
    | _, _, _ => .error "nothing to read"
  | .pollInstall =>
    match site.polling with
    | none => .error "nothing to install"
    | some users =>
      .ok { site with
        engine := site.engine.map fun _ => replaceUsers users
        polling := none }

/-- The user that the engine finds under a name, at every command. -/
def user (site : KeySite) (name : Bytes) : Option User :=
  site.engine.bind fun table => table.lookup name

end KeySite

/-- The engine has no enabled user for the key and admits no command under it. -/
structure KeySite.Shut (site : KeySite) (keyID : Bytes) : Prop where
  disabled : ∀ user, site.user keyID = some user → user.enabled = false
  refused : ∀ cmd, enforce (site.user keyID) cmd ≠ .ok ()

/-- Once a revocation and every call that overlaps it have returned, the key is shut. -/
def KeySite.Final (site : KeySite) : Prop :=
  ∀ cid call keyID, site.calls.lookup cid = some call → call.kind = .revoke keyID →
    call.phase = .done →
    (∀ other ∈ site.overlaps cid, ∀ call', site.calls.lookup other = some call' →
      call'.phase = .done) →
    site.Shut keyID

def Enables (keyID : Bytes) (users : List User) : Prop :=
  ∃ user ∈ users, user.name = keyID ∧ user.enabled = true

/-- The call has an enabled user of the key to write, or goes on with what it finds in the
file. A start does so until its engine is registered. -/
def Call.Carries (keyID : Bytes) (call : Call) : Prop :=
  match call.phase with
  | .write users _ | .fill users _ | .install users | .upserts users => Enables keyID users
  | .upsert user => Enables keyID [user]
  | .reload | .load _ | .boot _ | .register => True
  | .collect | .push | .done => False

/-- A revocation begins while no call carries its key, and none of its operations fails;
one that can not be saved is of a key that is not revoked yet. When it has written the
file, the poll holds no enabled user of the key that it read before, and when the worker
reads the file for it, the file holds one whole list. -/
def KeySite.Undisturbed (marshal : List User → Bytes) (site : KeySite) : KeyEvent → Prop
  | .revoke _ keyID true => ∀ cid call, site.calls.lookup cid = some call → ¬ call.Carries keyID
  | .revoke _ keyID false => ∀ key, site.keys.lookup keyID = some key → key.revoked = false
  | .advance cid => ∀ call keyID, site.calls.lookup cid = some call → call.kind = .revoke keyID →
      (∀ users worker, call.phase = .fill users worker →
        ∀ polled, site.polling = some polled → ¬ Enables keyID polled) ∧
      (call.phase = .reload → site.file.read marshal ≠ none)
  | .fail cid => ∀ call keyID, site.calls.lookup cid = some call → call.kind ≠ .revoke keyID
  | _ => True

end Dbx.Orchestrator
