import Vesta.Foundations.Journal
import Vesta.Store.Archive
import Vesta.Store.Recovery

/-!
# Listen — Live

The receiver of `main.rs`, as programs over the database, the reassembler and the orders in which
hash maps yield their keys.  The database is the durable part, and each of its transactions is one
commit.  Writing to the output and to the diagnostics, which is assumed to succeed, is left out.

The wall clock (in milliseconds) and the monotonic clock (in nanoseconds) are arguments.
-/

namespace Vesta.Listen

open Journal (Prog)
open Journal.Prog (get lift update transact forEach)
open Receiver (RadioMetadata ProfileKey SourceFragment ReassembledProfile ProfileReassembler
  IngestResult FragmentEvent ReassemblyError HashOrder deviceConfiguration deviceHealth)
open Store

/-- The state of a running receiver. -/
structure World where
  store : TelemetryStore
  reassembler : ProfileReassembler
  orders : Nat → HashOrder

abbrev Program (α : Type) := Prog TelemetryStore World (Fault AppError) α

def maxStartupPendingFragments : Nat := 1024

/-- 120 seconds. -/
def profileReassemblyTimeout : Nat := 120 * 10 ^ 9

/-- One received radio packet. -/
structure RadioPacket where
  payload : List UInt8
  metadata : RadioMetadata

inductive PacketOutcome where
  | validV1
  | validV2
  | unsupported
  | invalid
deriving DecidableEq

/-! ### Building blocks -/

section
variable {α : Type}

/-- A transaction of the database. -/
def database (f : TelemetryStore → Outcome StorageError (α × TelemetryStore)) : Program α :=
  transact World.store fun w => do
    let (a, store) ← Outcome.mapErr .database (f w.store)
    return (a, { w with store })

/-- A transaction without a value. -/
def databaseUnit (f : TelemetryStore → Outcome StorageError TelemetryStore) : Program Unit :=
  database fun s => do
    let s ← f s
    return ((), s)

/-- A query of the database. -/
def query (f : TelemetryStore → Outcome StorageError α) : Program α := do
  lift (Outcome.mapErr .database (f (← get).store))

/-- An operation of the reassembler, with the order of its hash map. -/
def reassembly
    (f : HashOrder → ProfileReassembler → Outcome ReassemblyError (α × ProfileReassembler)) :
    Program α :=
  update fun w => do
    let (a, reassembler) ← Outcome.mapErr .reassembly (f (w.orders 0) w.reassembler)
    return (a, { w with reassembler, orders := fun n => w.orders (n + 1) })

end

/-- `contains_active`. -/
def containsActive (key : ProfileKey) : Program Bool := do
  return (← get).reassembler.containsActive key

/-- `restore_receiver_counts`. -/
def restoreReceiverCounts (key : ProfileKey) (duplicates conflicts : Nat) : Program Unit :=
  reassembly fun _ r => do
    let r ← r.restoreReceiverCounts key duplicates conflicts
    return ((), r)

/-- `ingest_at`. -/
def ingestAt (fragment : Protocol.ProfileFragmentView) (source : SourceFragment)
    (observedAt : Nat) : Program IngestResult :=
  reassembly fun order r => r.ingestAt order fragment source observedAt

/-! ### Results -/

/-- `persist_profile`. -/
def persistProfile (profile : ReassembledProfile) : Program Unit := do
  let _ ← database (·.insertProfileScan profile)

/-- The part of `handle_profile_fragment_result` for a fragment that was only counted. -/
def persistIntegrity (snapshot : Option ReassembledProfile) (packetId : Int)
    (status : FragmentStorageStatus) : Program Unit := do
  match snapshot with
  | none => lift (Outcome.fail (.reassembly .internalState))
  | some snapshot =>
      let _ ← database (·.insertProfileIntegritySnapshot snapshot packetId status)

/-- `handle_profile_fragment_result`. -/
def handleProfileFragmentResult (result : IngestResult) (packetId : Int) : Program Unit := do
  forEach persistProfile result.evicted.toList
  match result.event with
  | .pending _ => return ()
  | .complete profile => persistProfile profile
  | .duplicate _ _ => persistIntegrity result.integritySnapshot packetId .duplicate
  | .conflict _ _ => persistIntegrity result.integritySnapshot packetId .conflict

/-! ### Restoring incomplete profiles -/

/-- `quarantine_incomplete_replay`. -/
def quarantineIncompleteReplay (profile : PersistedIncompleteProfile) (packetId : Int)
    (fault : ReplayFault) : Program Unit := do
  databaseUnit (·.quarantineIncompleteProfileFragment profile.scanId profile.key packetId
    (.incomplete fault))
  reassembly fun _ r => return ((), r.discard profile.key)

/-- Restore the receiver counts of the profile, unless that was done or its scan is not active. -/
def restoreCountsOnce (profile : PersistedIncompleteProfile) (countsRestored : Bool) :
    Program Bool := do
  if !countsRestored && (← containsActive profile.key) then
    restoreReceiverCounts profile.key profile.duplicateFragmentCount
      profile.conflictingFragmentCount
    return true
  else return countsRestored

/-- The next instant of a replay. -/
def nextOrdinal (ordinal : Nat) : Nat := min (ordinal + 1) (2 ^ 64 - 1)

/-- The loop of `restore_incomplete_profiles` over the fragments of one profile.  It returns
whether the counts were restored, or nothing when a fragment was quarantined. -/
def restoreFragments (profile : PersistedIncompleteProfile) (replayStarted : Nat) :
    List PendingProfileFragment → Bool → Nat → Program (Option Bool × Nat)
  | [], countsRestored, ordinal => return (some countsRestored, ordinal)
  | archived :: rest, countsRestored, ordinal =>
      match Protocol.decode archived.payload with
      | .error .panicked => lift Outcome.abort
      | .error (.error error) => do
          quarantineIncompleteReplay profile archived.packetId (.decodeFailed error)
          return (none, ordinal)
      | .ok (.profileFragment fragment) =>
          if ProfileKey.ofHeader fragment.header ≠ profile.key ∨
              fragment.header.fragmentIndex ≠ archived.fragmentIndex then do
            quarantineIncompleteReplay profile archived.packetId .metadataDisagrees
            return (none, ordinal)
          else do
            let countsRestored ← restoreCountsOnce profile countsRestored
            let result ← ingestAt fragment ⟨archived.packetId, fragment.header.fragmentIndex,
              archived.receivedAtUnixMs, archived.radio⟩ (replayStarted + ordinal)
            let countsRestored ← restoreCountsOnce profile countsRestored
            handleProfileFragmentResult result archived.packetId
            restoreFragments profile replayStarted rest countsRestored (nextOrdinal ordinal)
      | .ok _ => do
          quarantineIncompleteReplay profile archived.packetId .nonProfile
          return (none, ordinal)

/-- `restore_incomplete_profiles`; it returns the next ordinal. -/
def restoreIncompleteProfiles (replayStarted : Nat) :
    List PersistedIncompleteProfile → List ProfileKey → Nat → Program Nat
  | [], _, ordinal => return ordinal
  | profile :: rest, quarantinedKeys, ordinal =>
      if profile.key ∈ quarantinedKeys then
        restoreIncompleteProfiles replayStarted rest quarantinedKeys ordinal
      else do
        match ← database (·.coalesceIncompleteProfileIntoCompleted profile) with
        | some _ => restoreIncompleteProfiles replayStarted rest quarantinedKeys ordinal
        | none => do
            match ← restoreFragments profile replayStarted profile.fragments false ordinal with
            | (none, ordinal) =>
                restoreIncompleteProfiles replayStarted rest
                  (profile.key :: quarantinedKeys) ordinal
            | (some true, ordinal) =>
                restoreIncompleteProfiles replayStarted rest quarantinedKeys ordinal
            | (some false, _) => lift (Outcome.fail (.reassembly .internalState))

/-! ### Fragments -/

/-- The counts that a match adds to. -/
def matchCounts : PersistedFragmentMatch → Nat × Nat
  | .duplicate => (1, 0)
  | .conflict => (0, 1)

/-- `ingest_archived_profile_fragment`. -/
def ingestArchivedProfileFragment (fragment : Protocol.ProfileFragmentView)
    (source : SourceFragment) (payload : List UInt8) (observedAt : Nat) : Program Unit := do
  let key := ProfileKey.ofHeader fragment.header
  match ← database (·.reconcilePersistedProfileFragment key source.packetId source.fragmentIndex
    payload) with
  | some classification =>
      if ← containsActive key then
        restoreReceiverCounts key (matchCounts classification).1 (matchCounts classification).2
  | none => do
      if !(← containsActive key) then
        let incomplete ← query (·.incompleteProfilesForKey key maxStartupPendingFragments)
        let _ ← restoreIncompleteProfiles observedAt incomplete [] 0
      let result ← ingestAt fragment source observedAt
      handleProfileFragmentResult result source.packetId

/-! ### Startup -/

/-- `quarantine_pending_replay`. -/
def quarantinePendingReplay (packetId : Int) (error : DecodeErrorText) : Program Unit :=
  databaseUnit (·.quarantinePendingProfileFragment packetId error)

/-- The handler of a pending fragment that could not be ingested. -/
def quarantineSemantic (packetId : Int) : Fault AppError → Program Unit
  | .error (.reassembly error) =>
      quarantinePendingReplay packetId (.pendingSemantic (.reassembly error))
  | .error (.database (.invalidRecord error)) =>
      quarantinePendingReplay packetId (.pendingSemantic (.database (.invalidRecord error)))
  | error => lift (.error error)

/-- The loop of `reconcile_pending_profiles` over the pending fragments. -/
def replayPending (replayStarted : Nat) : List PendingProfileFragment → Nat → Program Unit
  | [], _ => return ()
  | archived :: rest, ordinal =>
      match Protocol.decode archived.payload with
      | .error .panicked => lift Outcome.abort
      | .error (.error error) => do
          quarantinePendingReplay archived.packetId (.pendingDecodeFailed error)
          replayPending replayStarted rest ordinal
      | .ok (.profileFragment fragment) =>
          if fragment.header.fragmentIndex ≠ archived.fragmentIndex then do
            quarantinePendingReplay archived.packetId .pendingIndexDisagrees
            replayPending replayStarted rest ordinal
          else do
            (ingestArchivedProfileFragment fragment ⟨archived.packetId,
              fragment.header.fragmentIndex, archived.receivedAtUnixMs, archived.radio⟩
              archived.payload (replayStarted + ordinal)).orElse
              (quarantineSemantic archived.packetId)
            replayPending replayStarted rest (nextOrdinal ordinal)
      | .ok _ => do
          quarantinePendingReplay archived.packetId .pendingNonProfile
          replayPending replayStarted rest ordinal

/-- `reconcile_pending_profiles`. -/
def reconcilePendingProfiles (replayStarted : Nat) : Program Unit := do
  let incomplete ← query (·.incompleteProfiles maxStartupPendingFragments)
  let ordinal ← restoreIncompleteProfiles replayStarted incomplete [] 0
  let pending ← query (·.pendingProfileFragments maxStartupPendingFragments)
  replayPending replayStarted pending ordinal

/-! ### Packets -/

/-- `store_v1`. -/
def storeV1 (now : Nat) (packet : RadioPacket) (frame : Protocol.TelemetryV1) :
    Program PacketOutcome := do
  let stored ← database (·.insertReceivedV1 now frame packet.payload packet.metadata)
  match stored.radioPacketId with
  | none => lift (Outcome.fail .missingPacketLink)
  | some _ => return .validV1

/-- `store_v2`. -/
def storeV2 (now observedAt : Nat) (packet : RadioPacket) :
    Protocol.DecodedFrame → Program PacketOutcome
  | .deviceConfig header config => do
      let configuration ← lift (deviceConfiguration header config)
      let _ ← database (·.insertReceivedDeviceConfiguration now packet.payload packet.metadata
        header configuration)
      return .validV2
  | .deviceHealth header health => do
      let _ ← database (·.insertReceivedDeviceHealth now packet.payload packet.metadata header
        (deviceHealth header health))
      return .validV2
  | .profileFragment fragment => do
      let stored ← database (·.archiveV2ProfileFragment now packet.payload packet.metadata
        fragment.header)
      ingestArchivedProfileFragment fragment ⟨stored.id, fragment.header.fragmentIndex,
        stored.receivedAtUnixMs, packet.metadata⟩ packet.payload observedAt
      return .validV2

/-- The disposition of a payload that does not decode. -/
def dispositionOf : Protocol.ProtocolDecodeError → PacketDisposition
  | .unsupportedVersion _ | .invalidMagic _ | .truncatedDiscriminator _ => .unsupported
  | .v1 _ | .v2 _ => .invalid

/-- `store_packet`. -/
def storePacket (now observedAt : Nat) (packet : RadioPacket) : Program PacketOutcome :=
  match Protocol.decodeAny packet.payload with
  | .error .panicked => lift Outcome.abort
  | .error (.error error) => do
      let _ ← database (·.archivePacket now packet.payload packet.metadata (dispositionOf error)
        (some (.protocol error)))
      return if dispositionOf error = .unsupported then .unsupported else .invalid
  | .ok (.v1 frame) => storeV1 now packet frame
  | .ok (.v2 frame) => storeV2 now observedAt packet frame

/-- `persist_expired_profiles`. -/
def persistExpiredProfiles (now : Nat) : Program Unit := do
  let expired ← reassembly fun order r =>
    return r.expireOlderThan order now profileReassemblyTimeout
  forEach persistProfile expired

/-- The end of `listen`: what is still active is stored as incomplete. -/
def persistRemaining : Program Unit := do
  let remaining ← reassembly fun order r => return r.drainIncomplete order
  forEach persistProfile remaining

end Vesta.Listen
