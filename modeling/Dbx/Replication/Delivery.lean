import Dbx.Persistence.FrameExact
import Dbx.Replication.Network

/-!
# Delivery over a hostile network

What the ends of all connections have in common, whatever the network does: an
end that finished its handshake has a partner with the same pair of nonces, and a
replica has decoded an initial part of what its partner sealed.
-/

set_option autoImplicit false

namespace Dbx.Replication

open Dbx.Persistence

/-!
## Messages under a tag
-/

theorem label_length {label : Bytes}
    (known : label ∈ [labelPrimary, labelReplica, labelSession]) : label.length = 16 := by
  simp only [List.mem_cons, List.not_mem_nil, or_false] at known
  obtain rfl | rfl | rfl := known <;> rfl

theorem message_injective {label other first second third fourth : Bytes}
    (known : label ∈ [labelPrimary, labelReplica, labelSession])
    (knownOther : other ∈ [labelPrimary, labelReplica, labelSession])
    (size : first.length = third.length)
    (same : label ++ first ++ second = other ++ third ++ fourth) :
    label = other ∧ first = third ∧ second = fourth := by
  have labels := (label_length known).trans (label_length knownOther).symm
  rw [List.append_assoc, List.append_assoc] at same
  obtain ⟨sameLabel, rest⟩ := List.append_inj same labels
  exact ⟨sameLabel, List.append_inj rest size⟩

/-!
## Growth

Ends are never taken back: their nonces and keys stay, their records are only
added to.
-/

structure Session.Grows (before after : Session) : Prop where
  replicaNonce : after.replicaNonce = before.replicaNonce
  primaryNonce : after.primaryNonce = before.primaryNonce
  key : after.cipher.key = before.cipher.key
  records : before.records <+: after.records

theorem Session.Grows.refl (session : Session) : session.Grows session :=
  ⟨rfl, rfl, rfl, List.prefix_refl _⟩

structure PrimaryEnd.Grows (before after : PrimaryEnd) : Prop where
  nonces : ∀ pair, before.nonces? = some pair → after.nonces? = some pair
  session : ∀ session, before.session? = some session →
    ∃ next, after.session? = some next ∧ session.Grows next

theorem PrimaryEnd.Grows.of_stage {before after : PrimaryEnd} (same : after.stage = before.stage) :
    before.Grows after where
  nonces := by
    intro pair has
    rw [PrimaryEnd.nonces?, same]
    exact has
  session := by
    intro session has
    refine ⟨session, ?_, .refl session⟩
    rw [PrimaryEnd.session?, same]
    exact has

structure ReplicaEnd.Grows (before after : ReplicaEnd) : Prop where
  replicaNonce : after.replicaNonce = before.replicaNonce
  session : ∀ session, before.session? = some session →
    ∃ next, after.session? = some next ∧ session.Grows next

theorem ReplicaEnd.Grows.of_stage {before after : ReplicaEnd} (same : after.stage = before.stage) :
    before.Grows after where
  replicaNonce := by rw [ReplicaEnd.replicaNonce, same, ReplicaEnd.replicaNonce]
  session := by
    intro session has
    refine ⟨session, ?_, .refl session⟩
    rw [ReplicaEnd.session?, same]
    exact has

structure Network.Grows (before after : Network) : Prop where
  primaries : ∀ (id : Nat) primary, before.primaries[id]? = some primary →
    ∃ next, after.primaries[id]? = some next ∧ primary.Grows next
  replicas : ∀ (id : Nat) replica, before.replicas[id]? = some replica →
    ∃ next, after.replicas[id]? = some next ∧ replica.Grows next
  drawn : before.drawn ⊆ after.drawn
  derived : before.derived ⊆ after.derived

/-!
## The invariant
-/

section Invariant

variable (prims : Primitives) (token : Bytes)

def Network.Answered (network : Network) (replicaNonce primaryNonce : Bytes) : Prop :=
  ∃ (id : Nat) (primary : PrimaryEnd), network.primaries[id]? = some primary ∧
    primary.nonces? = some (replicaNonce, primaryNonce)

def Network.Proved (network : Network) (replicaNonce primaryNonce : Bytes) : Prop :=
  ∃ (id : Nat) (replica : ReplicaEnd) (session : Session),
    network.replicas[id]? = some replica ∧ replica.session? = some session ∧
      session.replicaNonce = replicaNonce ∧ session.primaryNonce = primaryNonce

/-- The holder of the token that a message comes from: a primary that challenges
or a replica that answers. -/
def Network.Origin (network : Network) (message : Bytes) : Prop :=
  (∃ replicaNonce primaryNonce, network.Answered replicaNonce primaryNonce ∧
      replicaNonce.length = handshakeNonce ∧
      message = labelPrimary ++ replicaNonce ++ primaryNonce) ∨
    ∃ replicaNonce primaryNonce, network.Proved replicaNonce primaryNonce ∧
      primaryNonce.length = handshakeNonce ∧
      message = labelReplica ++ primaryNonce ++ replicaNonce

/-- The primary that sealed a frame, and the record it sealed there. -/
def Network.SealedBy (network : Network) (frame : SealedFrame) : Prop :=
  ∃ (id : Nat) (primary : PrimaryEnd) (session : Session) (number : Nat) (rec : WALRecord),
    network.primaries[id]? = some primary ∧ primary.session? = some session ∧
      session.records[number]? = some rec ∧
      frame = ⟨session.cipher.key, counterNonce (UInt64.ofNat number), encodeRecordPlain rec⟩

structure Network.Keyed (network : Network) (session : Session) : Prop where
  key : session.cipher.key =
    handshakeMAC prims token labelSession session.replicaNonce session.primaryNonce
  derived : labelSession ++ session.replicaNonce ++ session.primaryNonce ∈ network.derived
  size : session.replicaNonce.length = handshakeNonce

structure Network.PrimaryKnown (network : Network) (primary : PrimaryEnd) : Prop where
  nonces : ∀ replicaNonce primaryNonce, primary.nonces? = some (replicaNonce, primaryNonce) →
    replicaNonce.length = handshakeNonce ∧ primaryNonce.length = handshakeNonce ∧
      primaryNonce ∈ network.drawn
  keyed : ∀ session, primary.session? = some session → network.Keyed prims token session
  counter : ∀ session, primary.session? = some session →
    session.cipher.counter = UInt64.ofNat session.records.length
  proved : ∀ session, primary.session? = some session →
    network.Proved session.replicaNonce session.primaryNonce

structure Network.ReplicaKnown (network : Network) (replica : ReplicaEnd) : Prop where
  size : replica.replicaNonce.length = handshakeNonce
  drawn : replica.replicaNonce ∈ network.drawn
  keyed : ∀ session, replica.session? = some session → network.Keyed prims token session
  counter : ∀ session, replica.session? = some session → replica.connected = true →
    session.cipher.counter = UInt64.ofNat session.records.length
  answered : ∀ session, replica.session? = some session →
    network.Answered session.replicaNonce session.primaryNonce

/-- A replica has decoded an initial part of what the primary with its nonces has
sealed, as long as no two frames of the primary share a nonce. -/
def Delivers (primary : PrimaryEnd) (replica : ReplicaEnd) : Prop :=
  ∀ session, replica.session? = some session →
    primary.nonces? = some (session.replicaNonce, session.primaryNonce) →
    primary.sealed.length < 2 ^ 64 → session.records <+: primary.sealed

structure Network.Sound (network : Network) : Prop where
  primaries : ∀ (id : Nat) primary, network.primaries[id]? = some primary →
    network.PrimaryKnown prims token primary
  replicas : ∀ (id : Nat) replica, network.replicas[id]? = some replica →
    network.ReplicaKnown prims token replica
  onePrimary : ∀ (left right : Nat) first second replicaNonce otherNonce primaryNonce,
    network.primaries[left]? = some first → network.primaries[right]? = some second →
    first.nonces? = some (replicaNonce, primaryNonce) →
    second.nonces? = some (otherNonce, primaryNonce) → left = right
  oneReplica : ∀ (left right : Nat) first second,
    network.replicas[left]? = some first → network.replicas[right]? = some second →
    first.replicaNonce = second.replicaNonce → left = right
  tagged : ∀ message ∈ network.tagged, network.Origin message
  distinct : ∀ left ∈ network.derived, ∀ right ∈ network.derived,
    prims.hmac token left = prims.hmac token right → left = right
  frames : ∀ frame ∈ network.frames, network.SealedBy frame
  delivers : ∀ (left right : Nat) primary replica, network.primaries[left]? = some primary →
    network.replicas[right]? = some replica → Delivers primary replica

theorem Network.Sound.empty : Network.empty.Sound prims token where
  primaries := by simp [Network.empty]
  replicas := by simp [Network.empty]
  onePrimary := by simp [Network.empty]
  oneReplica := by simp [Network.empty]
  tagged := by simp [Network.empty]
  distinct := by simp [Network.empty]
  frames := by simp [Network.empty]
  delivers := by simp [Network.empty]

end Invariant

/-!
## What growth keeps
-/

namespace Network.Grows

variable {prims : Primitives} {token : Bytes} {before after : Network}

section

variable (grows : before.Grows after)
include grows

theorem answered {replicaNonce primaryNonce : Bytes}
    (had : before.Answered replicaNonce primaryNonce) :
    after.Answered replicaNonce primaryNonce := by
  obtain ⟨id, primary, found, nonces⟩ := had
  obtain ⟨next, foundNext, grown⟩ := grows.primaries id primary found
  exact ⟨id, next, foundNext, grown.nonces _ nonces⟩

theorem proved {replicaNonce primaryNonce : Bytes} (had : before.Proved replicaNonce primaryNonce) :
    after.Proved replicaNonce primaryNonce := by
  obtain ⟨id, replica, session, found, has, replicaSame, primarySame⟩ := had
  obtain ⟨next, foundNext, grown⟩ := grows.replicas id replica found
  obtain ⟨later, hasLater, longer⟩ := grown.session session has
  exact ⟨id, next, later, foundNext, hasLater, longer.replicaNonce.trans replicaSame,
    longer.primaryNonce.trans primarySame⟩

theorem origin {message : Bytes} (had : before.Origin message) : after.Origin message := by
  obtain ⟨replicaNonce, primaryNonce, answered, size, rfl⟩ |
    ⟨replicaNonce, primaryNonce, proved, size, rfl⟩ := had
  · exact .inl ⟨replicaNonce, primaryNonce, grows.answered answered, size, rfl⟩
  · exact .inr ⟨replicaNonce, primaryNonce, grows.proved proved, size, rfl⟩

theorem sealedBy {frame : SealedFrame} (had : before.SealedBy frame) : after.SealedBy frame := by
  obtain ⟨id, primary, session, number, rec, found, has, at', rfl⟩ := had
  obtain ⟨next, foundNext, grown⟩ := grows.primaries id primary found
  obtain ⟨later, hasLater, longer⟩ := grown.session session has
  refine ⟨id, next, later, number, rec, foundNext, hasLater, ?_, by rw [longer.key]⟩
  obtain ⟨tail, extended⟩ := longer.records
  have inside : number < session.records.length := (List.getElem?_eq_some_iff.mp at').1
  rw [← extended, List.getElem?_append_left inside, at']

theorem keyed {session : Session} (had : before.Keyed prims token session) :
    after.Keyed prims token session :=
  ⟨had.key, grows.derived had.derived, had.size⟩

theorem primaryKnown {primary : PrimaryEnd} (had : before.PrimaryKnown prims token primary) :
    after.PrimaryKnown prims token primary where
  nonces := fun replicaNonce primaryNonce has =>
    have ⟨size, length, drawn⟩ := had.nonces replicaNonce primaryNonce has
    ⟨size, length, grows.drawn drawn⟩
  keyed := fun session has => grows.keyed (had.keyed session has)
  counter := had.counter
  proved := fun session has => grows.proved (had.proved session has)

theorem replicaKnown {replica : ReplicaEnd} (had : before.ReplicaKnown prims token replica) :
    after.ReplicaKnown prims token replica where
  size := had.size
  drawn := grows.drawn had.drawn
  keyed := fun session has => grows.keyed (had.keyed session has)
  counter := had.counter
  answered := fun session has => grows.answered (had.answered session has)

end

end Network.Grows

/-!
## Steps at one end

A step changes one end and adds to the logs. What has to be shown of it is what
holds of that end afterwards, and where the new entries of the logs come from.
-/

namespace Network.Sound

variable {prims : Primitives} {token : Bytes} {before after : Network}

theorem primaryStep (sound : before.Sound prims token) {id : Nat} {primary : PrimaryEnd}
    (others : ∀ other, other ≠ id → after.primaries[other]? = before.primaries[other]?)
    (here : after.primaries[id]? = some primary)
    (grown : ∀ old, before.primaries[id]? = some old → old.Grows primary)
    (replicas : after.replicas = before.replicas)
    (drawn : before.drawn ⊆ after.drawn) (derived : before.derived ⊆ after.derived)
    (known : before.Grows after → after.PrimaryKnown prims token primary)
    (own : ∀ replicaNonce primaryNonce, primary.nonces? = some (replicaNonce, primaryNonce) →
      primaryNonce ∉ before.drawn ∨ ∃ old, before.primaries[id]? = some old ∧
        old.nonces? = some (replicaNonce, primaryNonce))
    (tagged : ∀ message ∈ after.tagged, message ∈ before.tagged ∨ after.Origin message)
    (distinct : ∀ left ∈ after.derived, ∀ right ∈ after.derived,
      prims.hmac token left = prims.hmac token right → left = right)
    (frames : ∀ frame ∈ after.frames, frame ∈ before.frames ∨ after.SealedBy frame)
    (delivers : ∀ (other : Nat) replica, before.replicas[other]? = some replica →
      Delivers primary replica) :
    after.Sound prims token := by
  have grows : before.Grows after := by
    refine ⟨fun other old found => ?_, fun other replica found => ?_, drawn, derived⟩
    · by_cases same : other = id
      · subst same
        exact ⟨primary, here, grown old found⟩
      · exact ⟨old, (others other same).trans found, .of_stage rfl⟩
    · exact ⟨replica, replicas ▸ found, .of_stage rfl⟩
  -- An end with nonces at another place than the changed one has drawn its own.
  have apart {other : Nat} {second : PrimaryEnd} {replicaNonce otherNonce primaryNonce : Bytes}
      (found : after.primaries[other]? = some second)
      (nonces : primary.nonces? = some (replicaNonce, primaryNonce))
      (otherNonces : second.nonces? = some (otherNonce, primaryNonce)) : other = id := by
    by_contra different
    rw [others other different] at found
    obtain fresh | ⟨old, foundOld, had⟩ := own replicaNonce primaryNonce nonces
    · exact fresh ((sound.primaries other second found).nonces _ _ otherNonces).2.2
    · exact different (sound.onePrimary other id second old _ _ _ found foundOld otherNonces had)
  constructor
  case primaries =>
    intro other found at'
    by_cases same : other = id
    · subst same
      rw [here] at at'
      exact Option.some.inj at' ▸ known grows
    · rw [others other same] at at'
      exact grows.primaryKnown (sound.primaries other found at')
  case replicas =>
    intro other replica found
    rw [replicas] at found
    exact grows.replicaKnown (sound.replicas other replica found)
  case onePrimary =>
    intro left right first second replicaNonce otherNonce primaryNonce foundLeft foundRight
      leftNonces rightNonces
    by_cases atLeft : left = id
    · subst atLeft
      rw [here] at foundLeft
      cases foundLeft
      exact (apart foundRight leftNonces rightNonces).symm
    · by_cases atRight : right = id
      · subst atRight
        rw [here] at foundRight
        cases foundRight
        exact apart foundLeft rightNonces leftNonces
      · rw [others left atLeft] at foundLeft
        rw [others right atRight] at foundRight
        exact sound.onePrimary left right first second _ _ _ foundLeft foundRight leftNonces
          rightNonces
  case oneReplica =>
    intro left right first second foundLeft foundRight
    rw [replicas] at foundLeft foundRight
    exact sound.oneReplica left right first second foundLeft foundRight
  case tagged =>
    intro message member
    obtain had | origin := tagged message member
    · exact grows.origin (sound.tagged message had)
    · exact origin
  case distinct => exact distinct
  case frames =>
    intro frame member
    obtain had | sealed := frames frame member
    · exact grows.sealedBy (sound.frames frame had)
    · exact sealed
  case delivers =>
    intro left right found replica foundLeft foundRight
    rw [replicas] at foundRight
    by_cases same : left = id
    · subst same
      rw [here] at foundLeft
      cases foundLeft
      exact delivers right replica foundRight
    · rw [others left same] at foundLeft
      exact sound.delivers left right found replica foundLeft foundRight

theorem replicaStep (sound : before.Sound prims token) {id : Nat} {replica : ReplicaEnd}
    (others : ∀ other, other ≠ id → after.replicas[other]? = before.replicas[other]?)
    (here : after.replicas[id]? = some replica)
    (grown : ∀ old, before.replicas[id]? = some old → old.Grows replica)
    (primaries : after.primaries = before.primaries)
    (drawn : before.drawn ⊆ after.drawn) (derived : before.derived ⊆ after.derived)
    (known : before.Grows after → after.ReplicaKnown prims token replica)
    (own : replica.replicaNonce ∉ before.drawn ∨ ∃ old, before.replicas[id]? = some old)
    (tagged : ∀ message ∈ after.tagged, message ∈ before.tagged ∨ after.Origin message)
    (distinct : ∀ left ∈ after.derived, ∀ right ∈ after.derived,
      prims.hmac token left = prims.hmac token right → left = right)
    (frames : after.frames = before.frames)
    (delivers : ∀ (other : Nat) primary, before.primaries[other]? = some primary →
      Delivers primary replica) :
    after.Sound prims token := by
  have grows : before.Grows after := by
    refine ⟨fun other primary found => ?_, fun other old found => ?_, drawn, derived⟩
    · exact ⟨primary, primaries ▸ found, .of_stage rfl⟩
    · by_cases same : other = id
      · subst same
        exact ⟨replica, here, grown old found⟩
      · exact ⟨old, (others other same).trans found, .of_stage rfl⟩
  have apart {other : Nat} {second : ReplicaEnd} (found : after.replicas[other]? = some second)
      (same : second.replicaNonce = replica.replicaNonce) : other = id := by
    by_contra different
    rw [others other different] at found
    obtain fresh | ⟨old, foundOld⟩ := own
    · exact fresh (same ▸ (sound.replicas other second found).drawn)
    · refine different (sound.oneReplica other id second old found foundOld ?_)
      rw [same, (grown old foundOld).replicaNonce]
  constructor
  case primaries =>
    intro other primary found
    rw [primaries] at found
    exact grows.primaryKnown (sound.primaries other primary found)
  case replicas =>
    intro other found at'
    by_cases same : other = id
    · subst same
      rw [here] at at'
      exact Option.some.inj at' ▸ known grows
    · rw [others other same] at at'
      exact grows.replicaKnown (sound.replicas other found at')
  case onePrimary =>
    intro left right first second replicaNonce otherNonce primaryNonce foundLeft foundRight
    rw [primaries] at foundLeft foundRight
    exact sound.onePrimary left right first second _ _ _ foundLeft foundRight
  case oneReplica =>
    intro left right first second foundLeft foundRight same
    by_cases atLeft : left = id
    · subst atLeft
      rw [here] at foundLeft
      cases foundLeft
      exact (apart foundRight same.symm).symm
    · by_cases atRight : right = id
      · subst atRight
        rw [here] at foundRight
        cases foundRight
        exact apart foundLeft same
      · rw [others left atLeft] at foundLeft
        rw [others right atRight] at foundRight
        exact sound.oneReplica left right first second foundLeft foundRight same
  case tagged =>
    intro message member
    obtain had | origin := tagged message member
    · exact grows.origin (sound.tagged message had)
    · exact origin
  case distinct => exact distinct
  case frames =>
    intro frame member
    rw [frames] at member
    exact grows.sealedBy (sound.frames frame member)
  case delivers =>
    intro left right primary found foundLeft foundRight
    rw [primaries] at foundLeft
    by_cases same : right = id
    · subst same
      rw [here] at foundRight
      cases foundRight
      exact delivers left primary foundLeft
    · rw [others right same] at foundRight
      exact sound.delivers left right primary found foundLeft foundRight

end Network.Sound

theorem Network.putPrimary_here {network : Network} {id : Nat} {old primary : PrimaryEnd}
    (found : network.primaries[id]? = some old) :
    (network.putPrimary id primary).primaries[id]? = some primary :=
  List.getElem?_set_self (List.getElem?_eq_some_iff.mp found).1

theorem Network.putPrimary_other {network : Network} {id other : Nat} {primary : PrimaryEnd}
    (different : other ≠ id) :
    (network.putPrimary id primary).primaries[other]? = network.primaries[other]? :=
  List.getElem?_set_ne different.symm

theorem Network.putReplica_here {network : Network} {id : Nat} {old replica : ReplicaEnd}
    (found : network.replicas[id]? = some old) :
    (network.putReplica id replica).replicas[id]? = some replica :=
  List.getElem?_set_self (List.getElem?_eq_some_iff.mp found).1

theorem Network.putReplica_other {network : Network} {id other : Nat} {replica : ReplicaEnd}
    (different : other ≠ id) :
    (network.putReplica id replica).replicas[other]? = network.replicas[other]? :=
  List.getElem?_set_ne different.symm

theorem PrimaryEnd.nonces_of_session {primary : PrimaryEnd} {session : Session}
    (has : primary.session? = some session) :
    primary.nonces? = some (session.replicaNonce, session.primaryNonce) := by
  obtain ⟨stage, connected, registered⟩ := primary
  cases stage with
  | awaitingHello => cases has
  | awaitingProof replicaNonce primaryNonce => cases has
  | streaming found =>
    cases has
    rfl

theorem PrimaryEnd.sealed_of_session {primary : PrimaryEnd} {session : Session}
    (has : primary.session? = some session) : primary.sealed = session.records := by
  rw [PrimaryEnd.sealed, has]
  rfl

namespace Network.Sound

variable {prims : Primitives} {token : Bytes} {network : Network}

section

variable {id : Nat} {connected registered : Bool} (sound : network.Sound prims token)
include sound

theorem keepPrimary {old primary : PrimaryEnd} {drawn : List Bytes}
    (found : network.primaries[id]? = some old) (same : primary.stage = old.stage)
    (more : network.drawn ⊆ drawn) :
    ({ network with drawn := drawn }.putPrimary id primary).Sound prims token := by
  have nonces : primary.nonces? = old.nonces? := by
    rw [PrimaryEnd.nonces?, same, PrimaryEnd.nonces?]
  have session : primary.session? = old.session? := by
    rw [PrimaryEnd.session?, same, PrimaryEnd.session?]
  refine sound.primaryStep (fun other different => putPrimary_other different)
    (putPrimary_here found) ?_ rfl more (fun _ member => member) ?_ ?_
    (fun _ member => .inl member) sound.distinct (fun _ member => .inl member) ?_
  · intro before at'
    rw [found] at at'
    cases at'
    exact .of_stage same
  · intro grows
    have known := grows.primaryKnown (sound.primaries id old found)
    exact ⟨nonces ▸ known.nonces, session ▸ known.keyed, session ▸ known.counter,
      session ▸ known.proved⟩
  · intro replicaNonce primaryNonce has
    exact .inr ⟨old, found, nonces ▸ has⟩
  · intro other replica foundReplica decoded has equal
    have sealed : primary.sealed = old.sealed := by
      rw [PrimaryEnd.sealed, session, PrimaryEnd.sealed]
    rw [sealed]
    exact sound.delivers id other old replica found foundReplica decoded has (nonces ▸ equal)

theorem accept :
    { network with
      primaries := network.primaries ++ [(⟨.awaitingHello, true, false⟩ : PrimaryEnd)]
      }.Sound prims token := by
  refine sound.primaryStep (fun other different => ?_) (List.getElem?_concat_length)
    ?_ rfl (fun _ member => member) (fun _ member => member) ?_ ?_
    (fun _ member => .inl member) sound.distinct (fun _ member => .inl member) ?_
  · dsimp only
    by_cases inside : other < network.primaries.length
    · exact List.getElem?_append_left inside
    rw [List.getElem?_eq_none, List.getElem?_eq_none (Nat.not_lt.mp inside)]
    rw [List.length_append, List.length_singleton]
    omega
  · intro old found
    exact absurd (List.getElem?_eq_some_iff.mp found).1 (Nat.lt_irrefl _)
  · intro grows
    constructor <;> intros <;> contradiction
  · intros
    contradiction
  · intro other replica found session has equal
    cases equal

theorem hello {replicaNonce primaryNonce : Bytes}
    (found : network.primaries[id]? = some ⟨.awaitingHello, connected, registered⟩)
    (size : replicaNonce.length = handshakeNonce) (fresh : network.Fresh primaryNonce) :
    ({ network with
        drawn := primaryNonce :: network.drawn
        tagged := (labelPrimary ++ replicaNonce ++ primaryNonce) :: network.tagged }.putPrimary id
      ⟨.awaitingProof replicaNonce primaryNonce, true, registered⟩).Sound prims token := by
  refine sound.primaryStep (fun other different => putPrimary_other different)
    (putPrimary_here found) ?_ rfl (List.subset_cons_self _ _) (fun _ member => member) ?_ ?_
    ?_ sound.distinct (fun _ member => .inl member) ?_
  · intro old at'
    rw [found] at at'
    cases at'
    constructor <;> intros <;> contradiction
  · intro grows
    refine ⟨?_, fun _ has => (nomatch has), fun _ has => (nomatch has), fun _ has => (nomatch has)⟩
    intro otherReplica otherPrimary has
    cases has
    exact ⟨size, fresh.1, List.mem_cons_self⟩
  · intro otherReplica otherPrimary has
    cases has
    exact .inl fresh.2
  · intro message member
    obtain rfl | member := List.mem_cons.mp member
    · exact .inr (.inl ⟨replicaNonce, primaryNonce,
        ⟨id, _, putPrimary_here found, rfl⟩, size, rfl⟩)
    · exact .inl member
  · -- A replica with this nonce would have had it from an end that drew it before.
    intro other replica foundReplica session has equal
    obtain ⟨rfl, rfl⟩ := Prod.mk.inj (Option.some.inj equal)
    obtain ⟨at', primary, foundPrimary, nonces⟩ :=
      (sound.replicas other replica foundReplica).answered session has
    exact absurd ((sound.primaries at' primary foundPrimary).nonces _ _ nonces).2.2 fresh.2

theorem distinct_cons {message : Bytes} (apart : ¬ network.Collides prims token message) :
    ∀ left ∈ message :: network.derived, ∀ right ∈ message :: network.derived,
      prims.hmac token left = prims.hmac token right → left = right := by
  intro left leftMember right rightMember equal
  unfold Collides at apart
  push Not at apart
  obtain atLeft | inLeft := List.mem_cons.mp leftMember
  · obtain atRight | inRight := List.mem_cons.mp rightMember
    · exact atLeft.trans atRight.symm
    · subst atLeft
      exact (apart right inRight equal.symm).symm
  · obtain atRight | inRight := List.mem_cons.mp rightMember
    · subst atRight
      exact apart left inLeft equal
    · exact sound.distinct left inLeft right inRight equal

theorem proof {replicaNonce primaryNonce : Bytes}
    (found : network.primaries[id]? =
      some ⟨.awaitingProof replicaNonce primaryNonce, connected, registered⟩)
    (sent : labelReplica ++ primaryNonce ++ replicaNonce ∈ network.tagged)
    (apart : ¬ network.Collides prims token (labelSession ++ replicaNonce ++ primaryNonce)) :
    ({ network with
        derived := (labelSession ++ replicaNonce ++ primaryNonce) :: network.derived }.putPrimary id
      ⟨.streaming ⟨replicaNonce, primaryNonce, sessionCipher prims token replicaNonce primaryNonce,
        []⟩, true, true⟩).Sound prims token := by
  have knew := sound.primaries id _ found
  obtain ⟨replicaSize, primarySize, -⟩ := knew.nonces replicaNonce primaryNonce rfl
  have proved : network.Proved replicaNonce primaryNonce := by
    obtain ⟨otherReplica, otherPrimary, -, size, equal⟩ |
      ⟨otherReplica, otherPrimary, proved, size, equal⟩ := sound.tagged _ sent
    · have labels :=
        (message_injective (by decide) (by decide) (primarySize.trans size.symm) equal).1
      exact absurd labels (by decide)
    obtain ⟨-, rfl, rfl⟩ :=
      message_injective (by decide) (by decide) (primarySize.trans size.symm) equal
    exact proved
  refine sound.primaryStep (fun other different => putPrimary_other different)
    (putPrimary_here found) ?_ rfl (fun _ member => member) (List.subset_cons_self _ _) ?_ ?_
    (fun _ member => .inl member) ?_ (fun _ member => .inl member) ?_
  · intro old at'
    rw [found] at at'
    cases at'
    exact ⟨fun pair has => has, fun session has => nomatch has⟩
  · intro grows
    refine ⟨fun otherReplica otherPrimary has => ?_, fun session has => ?_, fun session has => ?_,
      fun session has => ?_⟩
    · exact (grows.primaryKnown knew).nonces otherReplica otherPrimary has
    · cases has
      exact ⟨rfl, List.mem_cons_self, replicaSize⟩
    · cases has
      rfl
    · cases has
      exact grows.proved proved
  · intro otherReplica otherPrimary has
    exact .inr ⟨_, found, has⟩
  · exact sound.distinct_cons apart
  · intro other replica foundReplica session has equal small
    exact sound.delivers id other _ replica found foundReplica session has equal small

end

theorem sealRecord (sound : network.Sound prims token) {id : Nat} {old primary : PrimaryEnd}
    {session next : Session} {rec : WALRecord} {frame : SealedFrame}
    (found : network.primaries[id]? = some old) (had : old.session? = some session)
    (has : primary.session? = some next)
    (sealed : next = { session with
      cipher := { session.cipher with counter := session.cipher.counter + 1 }
      records := session.records ++ [rec] })
    (logged : frame =
      ⟨session.cipher.key, counterNonce session.cipher.counter, encodeRecordPlain rec⟩) :
    ({ network with frames := frame :: network.frames }.putPrimary id primary).Sound prims
      token := by
  have knew := sound.primaries id old found
  have nonces : primary.nonces? = old.nonces? := by
    rw [PrimaryEnd.nonces_of_session has, PrimaryEnd.nonces_of_session had, sealed]
  have counter : session.cipher.counter = UInt64.ofNat session.records.length :=
    knew.counter session had
  have extended : session.records <+: next.records := by
    rw [sealed]
    exact List.prefix_append _ _
  refine sound.primaryStep (fun other different => putPrimary_other different)
    (putPrimary_here found) ?_ rfl (fun _ member => member) (fun _ member => member) ?_ ?_
    (fun _ member => .inl member) sound.distinct ?_ ?_
  · intro before at'
    rw [found] at at'
    cases at'
    refine ⟨fun pair pairs => nonces.trans pairs, fun other otherHas => ⟨next, has, ?_⟩⟩
    rw [had] at otherHas
    cases otherHas
    exact ⟨by rw [sealed], by rw [sealed], by rw [sealed], extended⟩
  · intro grows
    have known := grows.primaryKnown knew
    refine ⟨nonces ▸ known.nonces, fun other otherHas => ?_, fun other otherHas => ?_,
      fun other otherHas => ?_⟩
    all_goals
      rw [has] at otherHas
      cases otherHas
      subst sealed
    · have keyed := known.keyed session had
      exact ⟨keyed.key, keyed.derived, keyed.size⟩
    · dsimp only
      rw [counter, List.length_append, List.length_singleton, UInt64.ofNat_add]
      rfl
    · exact known.proved session had
  · intro replicaNonce primaryNonce pair
    exact .inr ⟨old, found, nonces ▸ pair⟩
  · intro other member
    obtain rfl | before := List.mem_cons.mp member
    · refine .inr ⟨id, primary, next, session.records.length, rec, putPrimary_here found, has,
        ?_, ?_⟩
      · rw [sealed]
        exact List.getElem?_concat_length
      · rw [logged, sealed, counter]
    · exact .inl before
  · intro other replica foundReplica decoded decodedHas equal small
    rw [PrimaryEnd.sealed_of_session has] at small ⊢
    have before := sound.delivers id other old replica found foundReplica decoded decodedHas
      (nonces ▸ equal)
    rw [PrimaryEnd.sealed_of_session had] at before
    exact (before (Nat.lt_of_le_of_lt extended.length_le small)).trans extended

/-!
### Replicas
-/

section

variable {id : Nat} {connected : Bool} {replica : ReplicaEnd} {data : Bytes}
  (sound : network.Sound prims token)
include sound

/-- Closing a connection, whatever the last frame did to its counter. -/
theorem keepReplica {old : ReplicaEnd} (found : network.replicas[id]? = some old)
    (grown : old.Grows replica)
    (had : ∀ session, replica.session? = some session →
      ∃ before, old.session? = some before ∧ session.records = before.records)
    (cut : replica.connected = false) : (network.putReplica id replica).Sound prims token := by
  have knew := sound.replicas id old found
  refine sound.replicaStep (fun other different => putReplica_other different)
    (putReplica_here found) ?_ rfl (fun _ member => member) (fun _ member => member) ?_
    (.inr ⟨old, found⟩) (fun _ member => .inl member) sound.distinct rfl ?_
  · intro before at'
    rw [found] at at'
    cases at'
    exact grown
  · intro grows
    have known := grows.replicaKnown knew
    refine ⟨grown.replicaNonce ▸ known.size, grown.replicaNonce ▸ known.drawn,
      fun session has => ?_, fun session has connected => ?_, fun session has => ?_⟩
    · obtain ⟨before, beforeHas, -⟩ := had session has
      obtain ⟨later, laterHas, longer⟩ := grown.session before beforeHas
      rw [has] at laterHas
      cases laterHas
      have keyed := known.keyed before beforeHas
      exact ⟨by rw [longer.key, longer.replicaNonce, longer.primaryNonce, keyed.key],
        by rw [longer.replicaNonce, longer.primaryNonce]; exact keyed.derived,
        by rw [longer.replicaNonce]; exact keyed.size⟩
    · rw [cut] at connected
      cases connected
    · obtain ⟨before, beforeHas, -⟩ := had session has
      obtain ⟨later, laterHas, longer⟩ := grown.session before beforeHas
      rw [has] at laterHas
      cases laterHas
      rw [longer.replicaNonce, longer.primaryNonce]
      exact known.answered before beforeHas
  · intro other primary foundPrimary session has equal small
    obtain ⟨before, beforeHas, records⟩ := had session has
    obtain ⟨later, laterHas, longer⟩ := grown.session before beforeHas
    rw [has] at laterHas
    cases laterHas
    rw [longer.replicaNonce, longer.primaryNonce] at equal
    rw [records]
    exact sound.delivers other id primary old foundPrimary found before beforeHas equal small

theorem dial {replicaNonce : Bytes} {connected : Bool} (fresh : network.Fresh replicaNonce) :
    { network with
      drawn := replicaNonce :: network.drawn
      replicas := network.replicas ++ [(⟨.awaitingChallenge replicaNonce, connected⟩ : ReplicaEnd)]
      }.Sound prims token := by
  refine sound.replicaStep (fun other different => ?_) (List.getElem?_concat_length)
    ?_ rfl (List.subset_cons_self _ _) (fun _ member => member) ?_ (.inl fresh.2)
    (fun _ member => .inl member) sound.distinct rfl ?_
  · dsimp only
    by_cases inside : other < network.replicas.length
    · exact List.getElem?_append_left inside
    rw [List.getElem?_eq_none, List.getElem?_eq_none (Nat.not_lt.mp inside)]
    rw [List.length_append, List.length_singleton]
    omega
  · intro old found
    exact absurd (List.getElem?_eq_some_iff.mp found).1 (Nat.lt_irrefl _)
  · intro grows
    exact ⟨fresh.1, List.mem_cons_self, fun _ has => (nomatch has), fun _ has => (nomatch has),
      fun _ has => (nomatch has)⟩
  · intro other primary found session has
    cases has

theorem challenge {replicaNonce primaryNonce : Bytes}
    (found : network.replicas[id]? = some ⟨.awaitingChallenge replicaNonce, connected⟩)
    (size : primaryNonce.length = handshakeNonce)
    (sent : labelPrimary ++ replicaNonce ++ primaryNonce ∈ network.tagged)
    (apart : ¬ network.Collides prims token (labelSession ++ replicaNonce ++ primaryNonce)) :
    ({ network with
        tagged := (labelReplica ++ primaryNonce ++ replicaNonce) :: network.tagged
        derived := (labelSession ++ replicaNonce ++ primaryNonce) :: network.derived }.putReplica id
      ⟨.consuming ⟨replicaNonce, primaryNonce, sessionCipher prims token replicaNonce primaryNonce,
        []⟩, true⟩).Sound prims token := by
  have knew := sound.replicas id _ found
  have replicaSize : replicaNonce.length = handshakeNonce := knew.size
  have answered : network.Answered replicaNonce primaryNonce := by
    obtain ⟨otherReplica, otherPrimary, answered, otherSize, equal⟩ |
      ⟨otherReplica, otherPrimary, -, otherSize, equal⟩ := sound.tagged _ sent
    · obtain ⟨-, rfl, rfl⟩ :=
        message_injective (by decide) (by decide) (replicaSize.trans otherSize.symm) equal
      exact answered
    · have labels :=
        (message_injective (by decide) (by decide) (replicaSize.trans otherSize.symm) equal).1
      exact absurd labels (by decide)
  refine sound.replicaStep (fun other different => putReplica_other different)
    (putReplica_here found) ?_ rfl (fun _ member => member) (List.subset_cons_self _ _) ?_
    (.inr ⟨_, found⟩) ?_ (sound.distinct_cons apart) rfl ?_
  · intro old at'
    rw [found] at at'
    cases at'
    exact ⟨rfl, fun session has => nomatch has⟩
  · intro grows
    refine ⟨replicaSize, knew.drawn, fun session has => ?_, fun session has _ => ?_,
      fun session has => ?_⟩
    · cases has
      exact ⟨rfl, List.mem_cons_self, replicaSize⟩
    · cases has
      rfl
    · cases has
      exact grows.answered answered
  · intro message member
    obtain rfl | member := List.mem_cons.mp member
    · exact .inr (.inr ⟨replicaNonce, primaryNonce,
        ⟨id, _, _, putReplica_here found, rfl, rfl, rfl⟩, size, rfl⟩)
    · exact .inl member
  · intro other primary foundPrimary session has equal small
    cases has
    exact List.nil_prefix

theorem next_record {other : Nat} {primary : PrimaryEnd} {session : Session} {rec : WALRecord}
    (found : network.replicas[id]? = some replica) (has : replica.session? = some session)
    (connected : replica.connected = true)
    (logged : ⟨session.cipher.key, counterNonce session.cipher.counter, data⟩ ∈ network.frames)
    (decoded : decodeRecord data = .ok rec)
    (foundPrimary : network.primaries[other]? = some primary)
    (nonces : primary.nonces? = some (session.replicaNonce, session.primaryNonce))
    (small : primary.sealed.length < 2 ^ 64) : session.records ++ [rec] <+: primary.sealed := by
  have known := sound.replicas id replica found
  have so_far := sound.delivers other id primary replica foundPrimary found session has nonces small
  obtain ⟨at', origin, sealing, number, sealed, foundOrigin, originHas, entry, equal⟩ :=
    sound.frames _ logged
  obtain ⟨key, nonce, plain⟩ := SealedFrame.mk.inj equal
  -- One key means one pair of nonces, and with it one primary.
  have sealingKeyed := (sound.primaries at' origin foundOrigin).keyed sealing originHas
  have keyed := known.keyed session has
  have messages : labelSession ++ session.replicaNonce ++ session.primaryNonce =
      labelSession ++ sealing.replicaNonce ++ sealing.primaryNonce := by
    refine sound.distinct _ keyed.derived _ sealingKeyed.derived ?_
    rw [keyed.key, sealingKeyed.key] at key
    exact key
  obtain ⟨-, -, samePrimary⟩ := message_injective (by decide) (by decide)
    (keyed.size.trans sealingKeyed.size.symm) messages
  have originNonces := PrimaryEnd.nonces_of_session originHas
  rw [← samePrimary] at originNonces
  have place := sound.onePrimary other at' primary origin _ _ _ foundPrimary foundOrigin nonces
    originNonces
  subst place
  rw [foundPrimary] at foundOrigin
  cases foundOrigin
  rw [PrimaryEnd.sealed_of_session originHas] at so_far small ⊢
  -- One nonce means one number, because the counter has not wrapped.
  have numbers : number = session.records.length := by
    have inside := (List.getElem?_eq_some_iff.mp entry).1
    have shorter := so_far.length_le
    have counters := counterNonce_injective nonce
    rw [known.counter session has connected, ← UInt64.toNat_inj, UInt64.toNat_ofNat',
      UInt64.toNat_ofNat', Nat.mod_eq_of_lt (by omega), Nat.mod_eq_of_lt (by omega)] at counters
    exact counters.symm
  subst plain numbers
  rw [decodeRecord_encodeRecordPlain_eq decoded]
  obtain ⟨tail, whole⟩ := so_far
  rw [← whole, List.getElem?_append_right (Nat.le_refl _), Nat.sub_self] at entry
  rw [← whole, List.prefix_append_right_inj]
  cases tail with
  | nil => cases entry
  | cons head tail =>
    cases entry
    exact List.prefix_append [sealed] tail

theorem consume {session : Session} {rec : WALRecord} {applied : Bool}
    (found : network.replicas[id]? = some ⟨.consuming session, true⟩)
    (logged : ⟨session.cipher.key, counterNonce session.cipher.counter, data⟩ ∈ network.frames)
    (decoded : decodeRecord data = .ok rec) :
    (network.putReplica id ⟨.consuming { session with
      cipher := { session.cipher with counter := session.cipher.counter + 1 }
      records := session.records ++ [rec] }, applied⟩).Sound prims token := by
  have knew := sound.replicas id _ found
  refine sound.replicaStep (fun other different => putReplica_other different)
    (putReplica_here found) ?_ rfl (fun _ member => member) (fun _ member => member) ?_
    (.inr ⟨_, found⟩) (fun _ member => .inl member) sound.distinct rfl ?_
  · intro old at'
    rw [found] at at'
    cases at'
    refine ⟨rfl, fun before has => ⟨_, rfl, ?_⟩⟩
    cases has
    exact ⟨rfl, rfl, rfl, List.prefix_append _ _⟩
  · intro grows
    have known := grows.replicaKnown knew
    refine ⟨known.size, known.drawn, fun later has => ?_, fun later has _ => ?_,
      fun later has => ?_⟩
    all_goals cases has
    · have keyed := known.keyed session rfl
      exact ⟨keyed.key, keyed.derived, keyed.size⟩
    · dsimp only
      rw [known.counter session rfl rfl, List.length_append, List.length_singleton,
        UInt64.ofNat_add]
      rfl
    · exact known.answered session rfl
  · intro other primary foundPrimary later has equal small
    cases has
    exact sound.next_record found rfl rfl logged decoded foundPrimary equal small

/-!
### All steps
-/

theorem send {session : Session} {registered : Bool} (rec : WALRecord) (failed kept : Bool)
    (found : network.primaries[id]? = some ⟨.streaming session, connected, registered⟩) :
    (network.send prims id session connected rec failed kept).Sound prims token := by
  have sends (connected registered : Bool) : ({ network with
      frames := ⟨session.cipher.key, session.cipher.nextNonce.1, encodeRecordPlain rec⟩ ::
        network.frames }.putPrimary id ⟨.streaming { session with
      cipher := { session.cipher with counter := session.cipher.counter + 1 }
      records := session.records ++ [rec] }, connected, registered⟩).Sound prims token :=
    sound.sealRecord found rfl rfl rfl rfl
  unfold Network.send
  dsimp only [FrameCipher.seal]
  cases writeFrame (prims.aeadSeal session.cipher.key session.cipher.nextNonce.1
      (encodeRecordPlain rec)) with
  | error message => exact sends false kept
  | ok written =>
    by_cases taken : connected = true ∧ failed = false
    · simp only [if_pos taken]
      exact sends connected true
    · simp only [if_neg taken]
      exact sends false kept

section

variable {event : NetworkEvent} {after : Network}

theorem helloStep {stream primaryNonce : Bytes} {failed : Bool}
    (fresh : network.Fresh primaryNonce)
    (stepped : network.step prims token (.hello id stream primaryNonce failed) = .ok after) :
    after.Sound prims token := by
  unfold Network.step at stepped
  dsimp only at stepped
  split at stepped
  · next registered found =>
      split at stepped
      · cases stepped
        exact sound.keepPrimary found rfl (fun _ member => member)
      next replicaNonce frame answered =>
        split at stepped
        · cases stepped
          exact sound.keepPrimary found rfl (List.subset_cons_self _ _)
        · cases stepped
          exact sound.hello found (serverChallenge_nonce prims token answered) fresh
  · cases stepped

theorem proofStep {stream : Bytes}
    (ideal : NetworkEvent.Ideal prims token network (.proof id stream))
    (stepped : network.step prims token (.proof id stream) = .ok after) :
    after.Sound prims token := by
  unfold Network.step at stepped
  dsimp only at stepped
  split at stepped
  · next replicaNonce primaryNonce registered found =>
      obtain ⟨unforged, apart⟩ := ideal _ _ _ _ found
      split at stepped
      · cases stepped
        exact sound.keepPrimary found rfl (fun _ member => member)
      next cipher accepted =>
        obtain ⟨read, rfl⟩ := serverAccept_checked prims token accepted
        cases stepped
        exact sound.proof found (unforged _ read rfl) apart
  · cases stepped

theorem challengeStep {stream : Bytes} {failed : Bool}
    (ideal : NetworkEvent.Ideal prims token network (.challenge id stream failed))
    (stepped : network.step prims token (.challenge id stream failed) = .ok after) :
    after.Sound prims token := by
  unfold Network.step at stepped
  dsimp only at stepped
  split at stepped
  · next replicaNonce found =>
      have closed : (network.putReplica id
          ⟨.awaitingChallenge replicaNonce, false⟩).Sound prims token :=
        sound.keepReplica found (.of_stage rfl) (fun _ has => nomatch has) rfl
      split at stepped
      · cases stepped
        exact closed
      next primaryNonce frame cipher proved =>
        obtain ⟨challenge, read, rfl, tag, size, rfl⟩ := clientProof_checked prims token proved
        obtain ⟨unforged, apart⟩ := ideal _ _ found challenge read
        split at stepped
        · cases stepped
          exact closed
        · cases stepped
          exact sound.challenge found size (unforged tag) apart
  · cases stepped

theorem consumeStep {stream : Bytes} {applied : Bool}
    (ideal : NetworkEvent.Ideal prims token network (.consume id stream applied))
    (stepped : network.step prims token (.consume id stream applied) = .ok after) :
    after.Sound prims token := by
  unfold Network.step at stepped
  dsimp only at stepped
  split at stepped
  · next session found =>
      split at stepped
      · next cipher consumed =>
          have key := consumeFrame_key prims session.cipher stream
          rw [consumed] at key
          cases stepped
          refine sound.keepReplica found ⟨rfl, fun before has => ⟨_, rfl, ?_⟩⟩
            (fun later has => ⟨session, rfl, ?_⟩) rfl
          · cases has
            exact ⟨rfl, rfl, key, List.prefix_refl _⟩
          · cases has
            rfl
      · next rec cipher consumed =>
          obtain ⟨rfl, sealed, data, read, opened, decoded⟩ := consumeFrame_some prims consumed
          cases stepped
          exact sound.consume found (ideal _ _ found sealed read data opened) decoded
  · cases stepped

theorem step (ideal : event.Ideal prims token network)
    (stepped : network.step prims token event = .ok after) : after.Sound prims token := by
  cases event with
  | accept =>
    cases stepped
    exact sound.accept
  | hello id stream primaryNonce failed => exact sound.helloStep ideal stepped
  | proof id stream => exact sound.proofStep ideal stepped
  | bootstrap id rec failed =>
    unfold Network.step at stepped
    dsimp only at stepped
    split at stepped
    · next session connected found =>
        cases stepped
        exact sound.send rec failed false found
    · cases stepped
  | broadcast id rec failed =>
    unfold Network.step at stepped
    dsimp only at stepped
    split at stepped
    · next session connected found =>
        split at stepped
        · cases stepped
          exact sound
        · cases stepped
          exact sound.send rec failed true found
    · cases stepped
  | removeReplica id | cutPrimary id =>
    unfold Network.step at stepped
    dsimp only at stepped
    split at stepped
    · next primary found =>
        cases stepped
        exact sound.keepPrimary found rfl (fun _ member => member)
    · cases stepped
  | dial replicaNonce failed =>
    unfold Network.step at stepped
    dsimp only at stepped
    split at stepped
    · cases stepped
    · cases stepped
      exact sound.dial ideal
  | challenge id stream failed => exact sound.challengeStep ideal stepped
  | consume id stream applied => exact sound.consumeStep ideal stepped
  | cutReplica id =>
    unfold Network.step at stepped
    dsimp only at stepped
    split at stepped
    · next replica found =>
        cases stepped
        exact sound.keepReplica found (.of_stage rfl) (fun session has => ⟨session, has, rfl⟩) rfl
    · cases stepped

end

end

end Network.Sound

section Runs

variable (prims : Primitives) (token : Bytes)

def Reachable (network : Network) : Prop :=
  Runs.Reaches (fun network event => network.step prims token event)
    (fun network event => event.Ideal prims token network) Network.empty network

theorem Reachable.sound {network : Network} (reached : Reachable prims token network) :
    network.Sound prims token :=
  Runs.Reaches.invariant (Network.Sound.empty prims token)
    (fun _ _ _ sound ideal stepped => sound.step ideal stepped) reached

end Runs

/-- Whatever the network delivers: each replica that finished its handshake has
exactly one primary with its two nonces, and has decoded an initial part of what
that primary sealed, as long as the counter of the frames has not wrapped. A
primary that seals anything has a partner that holds the token, and two ends
that finished and share a nonce share both and the key. -/
theorem replication_delivers_prefix {prims : Primitives} {token : Bytes} {network : Network}
    (reached : Reachable prims token network) :
    (∀ (id : Nat) replica session, network.replicas[id]? = some replica →
      replica.session? = some session →
      ∃ (at' : Nat) (primary : PrimaryEnd), network.primaries[at']? = some primary ∧
        primary.nonces? = some (session.replicaNonce, session.primaryNonce) ∧
        (∀ (other : Nat) second, network.primaries[other]? = some second →
          second.nonces? = primary.nonces? → other = at') ∧
        (primary.sealed.length < 2 ^ 64 → session.records <+: primary.sealed)) ∧
    (∀ (id : Nat) primary, network.primaries[id]? = some primary → primary.sealed ≠ [] →
      ∃ (at' : Nat) (replica : ReplicaEnd) (session : Session),
        network.replicas[at']? = some replica ∧ replica.session? = some session ∧
        primary.nonces? = some (session.replicaNonce, session.primaryNonce)) ∧
    ∀ (id at' : Nat) primary replica left right, network.primaries[id]? = some primary →
      network.replicas[at']? = some replica → primary.session? = some left →
      replica.session? = some right →
      left.replicaNonce = right.replicaNonce ∨ left.primaryNonce = right.primaryNonce →
      left.replicaNonce = right.replicaNonce ∧ left.primaryNonce = right.primaryNonce ∧
        left.cipher.key = right.cipher.key := by
  have sound := reached.sound
  refine ⟨?_, ?_, ?_⟩
  · intro id replica session found has
    obtain ⟨at', primary, foundPrimary, nonces⟩ :=
      (sound.replicas id replica found).answered session has
    refine ⟨at', primary, foundPrimary, nonces, ?_, ?_⟩
    · intro other second foundOther same
      exact sound.onePrimary other at' second primary _ _ _ foundOther foundPrimary
        (same.trans nonces) nonces
    · exact sound.delivers at' id primary replica foundPrimary found session has nonces
  · intro id primary found some
    cases has : primary.session? with
    | none =>
      rw [PrimaryEnd.sealed, has] at some
      exact absurd rfl some
    | some session =>
      obtain ⟨at', replica, partner, foundReplica, partnerHas, replicaSame, primarySame⟩ :=
        (sound.primaries id primary found).proved session has
      refine ⟨at', replica, partner, foundReplica, partnerHas, ?_⟩
      rw [PrimaryEnd.nonces_of_session has, replicaSame, primarySame]
  · intro id at' primary replica left right found foundReplica leftHas rightHas shared
    have leftKnown := sound.primaries id primary found
    have rightKnown := sound.replicas at' replica foundReplica
    have pair : left.replicaNonce = right.replicaNonce ∧
        left.primaryNonce = right.primaryNonce := by
      obtain same | same := shared
      · obtain ⟨other, partnerEnd, partner, foundPartner, partnerHas, replicaSame, primarySame⟩ :=
          leftKnown.proved left leftHas
        have own (which : ReplicaEnd) (session : Session) (has : which.session? = some session) :
            which.replicaNonce = session.replicaNonce := by
          obtain ⟨stage, connected⟩ := which
          cases stage with
          | awaitingChallenge replicaNonce => cases has
          | consuming found =>
            cases has
            rfl
        have place := sound.oneReplica other at' partnerEnd replica foundPartner foundReplica
          (by rw [own partnerEnd partner partnerHas, own replica right rightHas, replicaSame, same])
        subst place
        rw [foundReplica] at foundPartner
        cases foundPartner
        rw [rightHas] at partnerHas
        cases partnerHas
        exact ⟨replicaSame.symm, primarySame.symm⟩
      · obtain ⟨other, partner, foundPartner, nonces⟩ := rightKnown.answered right rightHas
        have leftNonces := PrimaryEnd.nonces_of_session leftHas
        rw [same] at leftNonces
        have place := sound.onePrimary other id partner primary _ _ _ foundPartner found nonces
          leftNonces
        subst place
        rw [found] at foundPartner
        cases foundPartner
        rw [leftNonces] at nonces
        exact ⟨(Prod.mk.inj (Option.some.inj nonces)).1, same⟩
    refine ⟨pair.1, pair.2, ?_⟩
    rw [(leftKnown.keyed left leftHas).key, (rightKnown.keyed right rightHas).key, pair.1, pair.2]

/-!
## The counter wraps

The counter that makes the nonce is a `uint64`. After 2^64 frames it starts over,
and the first frame of the connection opens once more.
-/

namespace Wrapped

/-- Primitives that hide nothing: a tag is the head of its message, a sealed frame
the plain text with a constant behind it. -/
def primitives : Primitives where
  hmac _ message := (message ++ List.replicate 32 0).take 32
  aeadSeal _ _ plain := plain ++ List.replicate 16 0
  aeadOpen _ _ sealed := some (sealed.take (sealed.length - 16))

def token : Bytes := List.replicate 32 0
def replicaNonce : Bytes := List.replicate 32 1
def primaryNonce : Bytes := List.replicate 32 2

def rec : WALRecord := ⟨1, 1, [⟨recordSet, [0x6b], [0x76], 0⟩]⟩

def key : Bytes := handshakeMAC primitives token labelSession replicaNonce primaryNonce

def session (count : Nat) : Session :=
  ⟨replicaNonce, primaryNonce, ⟨key, UInt64.ofNat count⟩, List.replicate count rec⟩

def frame (number : Nat) : SealedFrame :=
  ⟨key, counterNonce (UInt64.ofNat number), encodeRecordPlain rec⟩

def frames : Nat → List SealedFrame
  | 0 => []
  | count + 1 => frame count :: frames count

/-- One connection after its handshake, with some frames sealed and some decoded. -/
def network (sealed decoded : Nat) : Network where
  primaries := [⟨.streaming (session sealed), true, true⟩]
  replicas := [⟨.consuming (session decoded), true⟩]
  drawn := [primaryNonce, replicaNonce]
  tagged := [labelReplica ++ primaryNonce ++ replicaNonce,
    labelPrimary ++ replicaNonce ++ primaryNonce]
  derived := [labelSession ++ replicaNonce ++ primaryNonce,
    labelSession ++ replicaNonce ++ primaryNonce]
  frames := frames sealed

theorem mem_frames {number count : Nat} (below : number < count) : frame number ∈ frames count := by
  induction count with
  | zero => omega
  | succ count ih =>
    by_cases last : number = count
    · rw [last]
      exact List.mem_cons_self
    · exact List.mem_cons_of_mem _ (ih (by omega))

def sealed : Bytes := encodeRecordPlain rec ++ List.replicate 16 0

theorem length_sealed : sealed.length = 64 := by
  simp only [sealed, encodeRecordPlain, frameOf, List.length_append, BigEndian.length_encode,
    length_encodePayload, List.length_replicate]
  rfl

theorem session_succ (count : Nat) :
    session (count + 1) = { session count with
      cipher := { (session count).cipher with counter := (session count).cipher.counter + 1 }
      records := (session count).records ++ [rec] } := by
  simp only [session, List.replicate_succ', UInt64.ofNat_add]
  rfl

def tag (label first second : Bytes) : Bytes := handshakeMAC primitives token label first second

def written (data : Bytes) : Bytes := BigEndian.encode 4 data.length ++ data

theorem handshake : Reachable primitives token (network 0 0) := by
  refine .next (.proof 0 (written (tag labelReplica primaryNonce replicaNonce)))
    (.next (.challenge 0 (written (primaryNonce ++ tag labelPrimary replicaNonce primaryNonce))
      false)
      (.next (.hello 0 (written (handshakeMagic ++ replicaNonce)) primaryNonce false)
        (.next .accept (.next (.dial replicaNonce false) .start ⟨rfl, by decide⟩ rfl) trivial rfl)
        ⟨rfl, by decide⟩ rfl) ?_ rfl) ?_ rfl
  · intro own connected found challenge read
    cases found
    rw [handshakeNonce, sha256Size, show 32 + 32 =
      (primaryNonce ++ tag labelPrimary replicaNonce primaryNonce).length from rfl, written,
      readExactFrame_write (by decide)] at read
    cases read
    exact ⟨fun _ => by decide, fun ⟨_, member, _⟩ => nomatch member⟩
  · intro own other connected registered found
    cases found
    refine ⟨fun _ _ _ => by decide, fun ⟨message, member, _, different⟩ => ?_⟩
    exact different (List.mem_singleton.mp member)

theorem step_send (sent decoded : Nat) :
    (network sent decoded).step primitives token (.bootstrap 0 rec false) =
      .ok (network (sent + 1) decoded) := by
  have writes : writeFrame sealed = .ok (written sealed) := by
    unfold writeFrame
    rw [if_neg (by rw [length_sealed]; decide)]
    rfl
  have sends : (network sent decoded).send primitives 0 (session sent) true rec false false =
      network (sent + 1) decoded := by
    unfold Network.send
    dsimp only [FrameCipher.seal, FrameCipher.nextNonce, primitives]
    rw [show encodeRecordPlain rec ++ List.replicate 16 0 = sealed from rfl, writes]
    simp only [and_self, if_true, network, session_succ, Network.putPrimary]
    rfl
  exact congrArg Except.ok sends

theorem consumeFrame_sealed (cipher : FrameCipher) :
    consumeFrame primitives cipher (written sealed) =
      (some rec, { cipher with counter := cipher.counter + 1 }) := by
  have read : readSealedFrame (written sealed) = some sealed :=
    readSealedFrame_write (by rw [length_sealed]; decide) (by rw [length_sealed]; decide)
  have opened : sealed.take (sealed.length - 16) = encodeRecordPlain rec := by
    simp [sealed]
  unfold consumeFrame
  simp only [read, FrameCipher.openSealed, FrameCipher.nextNonce, primitives, opened,
    decodeRecord_encodeRecordPlain (show RecordFits none rec by decide)]

theorem step_consume (sent decoded : Nat) :
    (network sent decoded).step primitives token (.consume 0 (written sealed) true) =
      .ok (network sent (decoded + 1)) := by
  have consumed := consumeFrame_sealed (session decoded).cipher
  have found : (network sent decoded).replicas[0]? = some ⟨.consuming (session decoded), true⟩ :=
    rfl
  unfold Network.step
  simp only [found, consumed]
  simp only [network, session_succ, Network.putReplica]
  rfl

theorem ideal_consume {sent decoded number : Nat} (below : number < sent)
    (same : UInt64.ofNat decoded = UInt64.ofNat number) :
    (NetworkEvent.consume 0 (written sealed) true).Ideal primitives token
      (network sent decoded) := by
  intro found connected at' frame read data opened
  have whole : readSealedFrame (written sealed) = some sealed :=
    readSealedFrame_write (by rw [length_sealed]; decide) (by rw [length_sealed]; decide)
  cases at'
  rw [whole] at read
  cases read
  have plain : data = encodeRecordPlain rec := by
    simpa [primitives, sealed] using opened.symm
  have logged := mem_frames below
  rw [plain]
  rw [Wrapped.frame, ← same] at logged
  exact logged

theorem streamed (count : Nat) : Reachable primitives token (network count count) := by
  induction count with
  | zero => exact handshake
  | succ count ih =>
    exact .next (.consume 0 (written sealed) true)
      (.next (.bootstrap 0 rec false) ih trivial (step_send count count))
      (ideal_consume (Nat.lt_succ_self count) rfl) (step_consume (count + 1) count)

theorem repeated {count : Nat} (positive : 0 < count) (wraps : UInt64.ofNat count = 0) :
    Reachable primitives token (network count (count + 1)) :=
  .next (.consume 0 (written sealed) true) (streamed count) (ideal_consume positive wraps)
    (step_consume count count)

end Wrapped

/-- After 2^64 frames a replica accepts the first one again, and has decoded more
records than its primary sealed. -/
theorem replayed_after_wrap :
    ∃ prims token network, Reachable prims token network ∧
      ∃ (primary : PrimaryEnd) (replica : ReplicaEnd) (session : Session),
        network.primaries[0]? = some primary ∧ network.replicas[0]? = some replica ∧
        replica.session? = some session ∧
        primary.nonces? = some (session.replicaNonce, session.primaryNonce) ∧
        ¬ session.records <+: primary.sealed := by
  refine ⟨Wrapped.primitives, Wrapped.token, _, @Wrapped.repeated (2 ^ 64) (by decide) (by decide),
    ⟨.streaming (Wrapped.session (2 ^ 64)), true, true⟩,
    ⟨.consuming (Wrapped.session (2 ^ 64 + 1)), true⟩, Wrapped.session (2 ^ 64 + 1),
    rfl, rfl, rfl, rfl, ?_⟩
  intro longer
  have lengths := longer.length_le
  rw [PrimaryEnd.sealed_of_session (rfl : PrimaryEnd.session?
    ⟨.streaming (Wrapped.session (2 ^ 64)), true, true⟩ = some (Wrapped.session (2 ^ 64))),
    Wrapped.session, Wrapped.session, List.length_replicate, List.length_replicate] at lengths
  omega

theorem one_record_delivered :
    ∃ (primary : PrimaryEnd), (Wrapped.network 1 1).primaries[0]? = some primary ∧
      primary.sealed = [Wrapped.rec] ∧ [Wrapped.rec] <+: primary.sealed := by
  obtain ⟨delivers, -⟩ := replication_delivers_prefix (Wrapped.streamed 1)
  obtain ⟨at', primary, found, nonces, unique, delivered⟩ := delivers 0 _ _ rfl rfl
  have place : 0 = at' := unique 0 ⟨.streaming (Wrapped.session 1), true, true⟩ rfl nonces.symm
  subst place
  cases found
  exact ⟨_, rfl, rfl, delivered (by decide)⟩

end Dbx.Replication
