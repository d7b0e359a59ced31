import Dbx.Library.Runs
import Dbx.Replication.Handshake

/-!
# Replication over a hostile network

Every end that holds the group token, on either side of any number of
connections, and a network that decides what each read finds. An event hands an
end any bytes at all, so frames can be dropped, repeated, reordered, injected, cut
or carried over from another connection. What the network cannot do is said in
one place, `NetworkEvent.Ideal`: make tags without the token, open or make sealed
frames without the key, or guess a nonce before it is drawn.
-/

set_option autoImplicit false

namespace Dbx.Replication

open Dbx.Persistence

/-- What an end has after its handshake, and the records it has sealed or decoded. -/
structure Session where
  replicaNonce : Bytes
  primaryNonce : Bytes
  cipher : FrameCipher
  records : List WALRecord
deriving DecidableEq, Repr

inductive PrimaryStage where
  | awaitingHello
  | awaitingProof (replicaNonce primaryNonce : Bytes)
  | streaming (session : Session)
deriving DecidableEq, Repr

/-- A connection that a primary accepted. It is registered for live records from
the end of its handshake until `RemoveReplica`. -/
structure PrimaryEnd where
  stage : PrimaryStage
  connected : Bool
  registered : Bool
deriving DecidableEq, Repr

inductive ReplicaStage where
  | awaitingChallenge (replicaNonce : Bytes)
  | consuming (session : Session)
deriving DecidableEq, Repr

structure ReplicaEnd where
  stage : ReplicaStage
  connected : Bool
deriving DecidableEq, Repr

structure SealedFrame where
  key : Bytes
  nonce : Bytes
  plain : Bytes
deriving DecidableEq, Repr

/-- All ends, and what they have given away: the nonces they drew, the messages
they sent the tags of, the messages they took keys from, and the frames they
sealed. -/
structure Network where
  primaries : List PrimaryEnd
  replicas : List ReplicaEnd
  drawn : List Bytes
  tagged : List Bytes
  derived : List Bytes
  frames : List SealedFrame
deriving DecidableEq, Repr

def Network.empty : Network := ⟨[], [], [], [], [], []⟩

/-- The nonces of the replica and of the primary, once the primary has both. -/
def PrimaryEnd.nonces? (primary : PrimaryEnd) : Option (Bytes × Bytes) :=
  match primary.stage with
  | .awaitingHello => none
  | .awaitingProof replicaNonce primaryNonce => some (replicaNonce, primaryNonce)
  | .streaming session => some (session.replicaNonce, session.primaryNonce)

def PrimaryEnd.session? (primary : PrimaryEnd) : Option Session :=
  match primary.stage with
  | .streaming session => some session
  | _ => none

/-- The records that a primary has sealed for a connection, in order. -/
def PrimaryEnd.sealed (primary : PrimaryEnd) : List WALRecord :=
  (primary.session?.map Session.records).getD []

def ReplicaEnd.replicaNonce (replica : ReplicaEnd) : Bytes :=
  match replica.stage with
  | .awaitingChallenge replicaNonce => replicaNonce
  | .consuming session => session.replicaNonce

def ReplicaEnd.session? (replica : ReplicaEnd) : Option Session :=
  match replica.stage with
  | .awaitingChallenge _ => none
  | .consuming session => some session

/-!
## Steps

In the events of an end that writes, `failed` says that the connection does not
take the whole frame.
-/

inductive NetworkEvent where
  | accept
  | hello (id : Nat) (stream primaryNonce : Bytes) (failed : Bool)
  | proof (id : Nat) (stream : Bytes)
  | bootstrap (id : Nat) (rec : WALRecord) (failed : Bool)
  | broadcast (id : Nat) (rec : WALRecord) (failed : Bool)
  | removeReplica (id : Nat)
  | cutPrimary (id : Nat)
  | dial (replicaNonce : Bytes) (failed : Bool)
  | challenge (id : Nat) (stream : Bytes) (failed : Bool)
  | consume (id : Nat) (stream : Bytes) (applied : Bool)
  | cutReplica (id : Nat)
deriving Repr

section Steps

variable (prims : Primitives) (token : Bytes)

def Network.putPrimary (network : Network) (id : Nat) (primary : PrimaryEnd) : Network :=
  { network with primaries := network.primaries.set id primary }

def Network.putReplica (network : Network) (id : Nat) (replica : ReplicaEnd) : Network :=
  { network with replicas := network.replicas.set id replica }

def errNoConnection : String := "no such connection"

/-- `StreamReplicaConn.send` for a registered end. The frame is sealed before it
turns out whether the connection takes it; if not, the connection is closed, and
`kept` says whether the end stays registered. -/
def Network.send (network : Network) (id : Nat) (session : Session) (connected : Bool)
    (rec : WALRecord) (failed kept : Bool) : Network :=
  let data := encodeRecordPlain rec
  let (sealed, cipher) := session.cipher.seal prims data
  let frame : SealedFrame := ⟨session.cipher.key, session.cipher.nextNonce.1, data⟩
  let network := { network with frames := frame :: network.frames }
  let next := { session with cipher := cipher, records := session.records ++ [rec] }
  match writeFrame sealed with
  | .error _ => network.putPrimary id ⟨.streaming next, false, kept⟩
  | .ok _ =>
    if connected = true ∧ failed = false then
      network.putPrimary id ⟨.streaming next, connected, true⟩
    else network.putPrimary id ⟨.streaming next, false, kept⟩

def Network.step (network : Network) : NetworkEvent → Except String Network
  | .accept =>
    .ok { network with primaries := network.primaries ++ [⟨.awaitingHello, true, false⟩] }
  | .hello id stream primaryNonce failed =>
    match network.primaries[id]? with
    | some ⟨.awaitingHello, true, registered⟩ =>
      match serverChallenge prims token primaryNonce stream with
      | .error _ => .ok (network.putPrimary id ⟨.awaitingHello, false, registered⟩)
      | .ok (replicaNonce, _) =>
        let network := { network with drawn := primaryNonce :: network.drawn }
        if failed then .ok (network.putPrimary id ⟨.awaitingHello, false, registered⟩)
        else
          .ok ({ network with
              tagged := (labelPrimary ++ replicaNonce ++ primaryNonce) :: network.tagged
            }.putPrimary id ⟨.awaitingProof replicaNonce primaryNonce, true, registered⟩)
    | _ => .error errNoConnection
  | .proof id stream =>
    match network.primaries[id]? with
    | some ⟨.awaitingProof replicaNonce primaryNonce, true, registered⟩ =>
      match serverAccept prims token replicaNonce primaryNonce stream with
      | .error _ =>
        .ok (network.putPrimary id
          ⟨.awaitingProof replicaNonce primaryNonce, false, registered⟩)
      | .ok cipher =>
        -- `addReplica` follows at once.
        .ok ({ network with
            derived := (labelSession ++ replicaNonce ++ primaryNonce) :: network.derived
          }.putPrimary id ⟨.streaming ⟨replicaNonce, primaryNonce, cipher, []⟩, true, true⟩)
    | _ => .error errNoConnection
  | .bootstrap id rec failed =>
    match network.primaries[id]? with
    | some ⟨.streaming session, connected, true⟩ =>
      .ok (network.send prims id session connected rec failed false)
    | _ => .error errNoConnection
  | .broadcast id rec failed =>
    match network.primaries[id]? with
    | some ⟨.streaming session, connected, true⟩ =>
      if maxReplicationFrameSize < (encodeRecordPlain rec).length then .ok network
      else
        -- A replica whose write fails is removed by another goroutine.
        .ok (network.send prims id session connected rec failed true)
    | _ => .error errNoConnection
  | .removeReplica id =>
    match network.primaries[id]? with
    | some primary => .ok (network.putPrimary id { primary with registered := false })
    | none => .error errNoConnection
  | .cutPrimary id =>
    match network.primaries[id]? with
    | some primary => .ok (network.putPrimary id { primary with connected := false })
    | none => .error errNoConnection
  | .dial replicaNonce failed =>
    match clientHello token replicaNonce with
    | .error message => .error message
    | .ok _ =>
      .ok { network with
        drawn := replicaNonce :: network.drawn
        replicas := network.replicas ++ [⟨.awaitingChallenge replicaNonce, !failed⟩] }
  | .challenge id stream failed =>
    match network.replicas[id]? with
    | some ⟨.awaitingChallenge replicaNonce, true⟩ =>
      match clientProof prims token replicaNonce stream with
      | .error _ => .ok (network.putReplica id ⟨.awaitingChallenge replicaNonce, false⟩)
      | .ok (primaryNonce, _, cipher) =>
        if failed then .ok (network.putReplica id ⟨.awaitingChallenge replicaNonce, false⟩)
        else
          .ok ({ network with
              tagged := (labelReplica ++ primaryNonce ++ replicaNonce) :: network.tagged
              derived := (labelSession ++ replicaNonce ++ primaryNonce) :: network.derived
            }.putReplica id ⟨.consuming ⟨replicaNonce, primaryNonce, cipher, []⟩, true⟩)
    | _ => .error errNoConnection
  | .consume id stream applied =>
    match network.replicas[id]? with
    | some ⟨.consuming session, true⟩ =>
      match consumeFrame prims session.cipher stream with
      | (none, cipher) =>
        .ok (network.putReplica id ⟨.consuming { session with cipher := cipher }, false⟩)
      | (some rec, cipher) =>
        .ok (network.putReplica id
          ⟨.consuming { session with
            cipher := cipher
            records := session.records ++ [rec] }, applied⟩)
    | _ => .error errNoConnection
  | .cutReplica id =>
    match network.replicas[id]? with
    | some replica => .ok (network.putReplica id { replica with connected := false })
    | none => .error errNoConnection

/-!
## What the primitives rule out
-/

/-- A nonce as `newNonce` draws it: nobody has drawn it before. -/
def Network.Fresh (network : Network) (nonce : Bytes) : Prop :=
  nonce.length = handshakeNonce ∧ nonce ∉ network.drawn

/-- A tag that passes for that of a message has been sent by a holder of the token. -/
def Network.Unforged (network : Network) (message tag : Bytes) : Prop :=
  tag = prims.hmac token message → message ∈ network.tagged

/-- Two messages that keys are taken from do not share their tag. -/
def Network.Collides (network : Network) (message : Bytes) : Prop :=
  ∃ other ∈ network.derived, prims.hmac token other = prims.hmac token message ∧ other ≠ message

/-- A frame that opens was sealed under the same key and nonce. -/
def Network.Authentic (network : Network) (cipher : FrameCipher) (sealed : Bytes) : Prop :=
  ∀ data, prims.aeadOpen cipher.key cipher.nextNonce.1 sealed = some data →
    ⟨cipher.key, cipher.nextNonce.1, data⟩ ∈ network.frames

/-- The ideal MAC, the ideal AEAD and the source of randomness, where an end uses them. -/
def NetworkEvent.Ideal (network : Network) : NetworkEvent → Prop
  | .hello _ _ primaryNonce _ => network.Fresh primaryNonce
  | .dial replicaNonce _ => network.Fresh replicaNonce
  | .proof id stream =>
    ∀ replicaNonce primaryNonce connected registered,
      network.primaries[id]? =
          some ⟨.awaitingProof replicaNonce primaryNonce, connected, registered⟩ →
        (∀ tag, readExactFrame sha256Size stream = .ok tag →
          network.Unforged prims token (labelReplica ++ primaryNonce ++ replicaNonce) tag) ∧
        ¬ network.Collides prims token (labelSession ++ replicaNonce ++ primaryNonce)
  | .challenge id stream _ =>
    ∀ replicaNonce connected,
      network.replicas[id]? = some ⟨.awaitingChallenge replicaNonce, connected⟩ →
        ∀ challenge, readExactFrame (handshakeNonce + sha256Size) stream = .ok challenge →
          let primaryNonce := challenge.take handshakeNonce
          network.Unforged prims token (labelPrimary ++ replicaNonce ++ primaryNonce)
              (challenge.drop handshakeNonce) ∧
            ¬ network.Collides prims token (labelSession ++ replicaNonce ++ primaryNonce)
  | .consume id stream _ =>
    ∀ session connected, network.replicas[id]? = some ⟨.consuming session, connected⟩ →
      ∀ sealed, readSealedFrame stream = some sealed →
        network.Authentic prims session.cipher sealed
  | _ => True

end Steps

end Dbx.Replication
