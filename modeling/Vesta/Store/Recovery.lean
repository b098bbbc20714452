import Vesta.Store.Scans

/-!
# Store — Recovery

What a start of the receiver reads back and repairs: the fragments still pending, the incomplete
scans with their sources, the merge of an incomplete scan into a complete one, and the quarantine
of packets whose stored bytes no longer make sense.
-/

namespace Vesta.Store

open Outcome (failIf)
open Receiver (RadioMetadata ProfileKey SourceFragment)

/-- One previously archived profile fragment awaiting startup reconciliation. -/
structure PendingProfileFragment where
  packetId : Int
  fragmentIndex : UInt8
  receivedAtUnixMs : Int
  radio : RadioMetadata
  payload : List UInt8
deriving DecidableEq

/-- One durable transport-incomplete logical scan and its raw fragments. -/
structure PersistedIncompleteProfile where
  scanId : Int
  key : ProfileKey
  duplicateFragmentCount : Nat
  conflictingFragmentCount : Nat
  fragments : List PendingProfileFragment
deriving DecidableEq

/-- One source fragment reconciled while its scan was merged into a complete one. -/
structure PersistedFragmentClassification where
  packetId : Int
  fragmentIndex : UInt8
  classification : PersistedFragmentMatch
deriving DecidableEq

/-- The payload decodes as a profile fragment of the key. -/
def isFragmentOf (key : ProfileKey) (payload : List UInt8) : Bool :=
  match Protocol.decode payload with
  | .ok (.profileFragment fragment) => ProfileKey.ofHeader fragment.header = key
  | _ => false

namespace TelemetryStore

/-! ### Pending fragments -/

/-- `pending_profile_fragments`. -/
def pendingProfileFragments (s : TelemetryStore) (limit : Nat) :
    Outcome StorageError (List PendingProfileFragment) := do
  failIf (limit = 0) .invalidPendingReplayLimit
  let pending := s.packets.filter (·.hasStatus .pending)
  failIf (limit < pending.length) (.pendingReplayLimitExceeded pending.length limit)
  return pending.filterMap fun p => p.decoded.map fun d =>
    ⟨p.id, d.fragmentIndex, p.receivedAtUnixMs, p.radio, p.payload⟩

/-- `quarantine_pending_profile_fragment`. -/
def quarantinePendingProfileFragment (s : TelemetryStore) (packetId : Int)
    (error : DecodeErrorText) : Outcome StorageError TelemetryStore := do
  failIf ((s.packets.filter fun p => p.id = packetId ∧ p.hasStatus .pending).length ≠ 1)
    (.missingV2Packet packetId)
  return s.updatePacket packetId (·.quarantined error)

/-! ### Incomplete profiles -/

/-- The sources of a row in the order of their indices, each with its packet. -/
def sourceFragments (s : TelemetryStore) (row : ScanRow) : List PendingProfileFragment :=
  let sorted := row.fragments.insertionSort fun a b =>
    a.fragmentIndex < b.fragmentIndex ∨
      (a.fragmentIndex = b.fragmentIndex ∧ a.packetId ≤ b.packetId)
  sorted.filterMap fun source =>
    (s.packets.find? fun p => p.id = source.packetId).map fun p =>
      ⟨p.id, source.fragmentIndex, p.receivedAtUnixMs, p.radio, p.payload⟩

/-- `incomplete_profiles_matching`; a row without sources has no place in the join. -/
def incompleteProfilesMatching (s : TelemetryStore) (key : Option ProfileKey)
    (fragmentLimit : Nat) : Outcome StorageError (List PersistedIncompleteProfile) := do
  failIf (fragmentLimit = 0) .invalidIncompleteReplayLimit
  let rows := s.scans.filter fun row => !row.transportComplete && key.all fun key => row.hasKey key
  let count := (rows.flatMap (·.fragments)).length
  failIf (fragmentLimit < count) (.incompleteReplayLimitExceeded count fragmentLimit)
  return (rows.map fun row =>
    { scanId := row.id
      key := .ofIdentity row.scan.identity
      duplicateFragmentCount := row.scan.duplicateFragmentCount
      conflictingFragmentCount := row.scan.conflictingFragmentCount
      fragments := s.sourceFragments row }).filter fun profile => !profile.fragments.isEmpty

/-- `incomplete_profiles`. -/
def incompleteProfiles (s : TelemetryStore) (fragmentLimit : Nat) :
    Outcome StorageError (List PersistedIncompleteProfile) :=
  s.incompleteProfilesMatching none fragmentLimit

/-- `incomplete_profiles_for_key`. -/
def incompleteProfilesForKey (s : TelemetryStore) (key : ProfileKey) (fragmentLimit : Nat) :
    Outcome StorageError (List PersistedIncompleteProfile) :=
  s.incompleteProfilesMatching (some key) fragmentLimit

/-! ### Merging into a complete scan -/

/-- The complete rows of a key. -/
def completeRows (s : TelemetryStore) (key : ProfileKey) : List ScanRow :=
  (s.rows key).filter (·.transportComplete)

/-- One fragment of the merge: compare it with what the complete rows hold at its index, count the
result on each of them, and mark its packet. -/
def coalesceFragment (key : ProfileKey) (scanIds : List Int) (s : TelemetryStore)
    (fragment : PendingProfileFragment) :
    Outcome StorageError (PersistedFragmentClassification × TelemetryStore) := do
  let completed := (s.completeRows key).flatMap fun row =>
    (row.sourcesAt fragment.fragmentIndex).filterMap fun source => s.payloadOf source.packetId
  failIf completed.isEmpty .corruptIncompleteProfile
  let classification := classify completed fragment.payload
  let s := scanIds.foldl (fun s id => s.updateScan id (·.countMatch classification)) s
  let s ← s.markFragmentStatus fragment.packetId classification.storageStatus
  return (⟨fragment.packetId, fragment.fragmentIndex, classification⟩, s)

/-- `coalesce_incomplete_profile_into_completed`. -/
def coalesceIncompleteProfileIntoCompleted (s : TelemetryStore)
    (profile : PersistedIncompleteProfile) :
    Outcome StorageError (Option (List PersistedFragmentClassification) × TelemetryStore) := do
  let scanIds := (s.completeRows profile.key).map (·.id)
  if scanIds.isEmpty then return (none, s)
  let s := scanIds.foldl (fun s id => s.updateScan id
    (·.addCounts profile.duplicateFragmentCount profile.conflictingFragmentCount)) s
  let (classifications, s) ← profile.fragments.foldlM (fun (classifications, s) fragment => do
    let (classification, s) ← coalesceFragment profile.key scanIds s fragment
    return (classifications ++ [classification], s)) ([], s)
  let deleted := s.scans.filter fun row => row.id = profile.scanId ∧ ¬ row.transportComplete
  failIf (1 < deleted.length) .corruptIncompleteProfile
  return (some classifications, { s with
    scans := s.scans.filter fun row => ¬ (row.id = profile.scanId ∧ ¬ row.transportComplete) })

/-! ### Quarantine -/

/-- The packets whose bytes are replayed when the incomplete rows of the key are dismantled: the
sources of these rows and, when no complete row owns them, the duplicates and conflicts of the
key, in the order of their ids. -/
def replayCandidates (s : TelemetryStore) (key : ProfileKey) (packetId : Int) : List PacketRow :=
  let linked := ((s.rows key).filter fun row => ¬ row.transportComplete).flatMap (·.fragments)
  let sources := s.packets.filter fun p =>
    p.id ≠ packetId ∧ p.id ∈ linked.map (·.packetId) ∧
      (p.hasStatus .pending ∨ p.hasStatus .incomplete ∨ p.hasStatus .duplicate ∨
        p.hasStatus .conflict)
  if (s.completeRows key).isEmpty then
    s.packets.filter fun p => p ∈ sources ∨
      (p.id ≠ packetId ∧ (p.hasStatus .duplicate ∨ p.hasStatus .conflict) ∧
        (p.decoded.any fun d =>
          d.nodeId = key.nodeId ∧ d.bootId = key.bootId ∧ d.scanSequence = key.scanSequence ∧
            d.uptimeMs = key.uptimeMs ∧ d.configId = key.configId) ∧
        isFragmentOf key p.payload)
  else sources

/-- `quarantine_incomplete_profile_fragment`. -/
def quarantineIncompleteProfileFragment (s : TelemetryStore) (scanId : Int) (key : ProfileKey)
    (packetId : Int) (error : DecodeErrorText) : Outcome StorageError TelemetryStore := do
  let linked := (s.scans.filter fun row => row.id = scanId ∧ ¬ row.transportComplete).flatMap
    fun row => row.fragments.filter fun source => source.packetId = packetId
  failIf (linked.length ≠ 1) (.missingV2Packet packetId)
  let s := (s.replayCandidates key packetId).foldl (fun s candidate =>
    if isFragmentOf key candidate.payload then s.setStatus candidate.id .pending
    else s.updatePacket candidate.id (·.quarantined .sameKeyReplay)) s
  failIf ((s.packets.filter fun p => p.id = packetId).length ≠ 1) (.missingV2Packet packetId)
  let s := s.updatePacket packetId (·.quarantined error)
  failIf (((s.rows key).filter fun row => ¬ row.transportComplete).isEmpty)
    .corruptIncompleteProfile
  return s.deleteIncomplete key

end TelemetryStore

end Vesta.Store
