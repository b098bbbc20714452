import Vesta.Store.Tables

/-!
# Store — Scans

Storing reassembled profiles and reconciling fragments with stored ones.  Each function is one
transaction: it returns the state after its commit, or an error, and then nothing has changed.
-/

namespace Vesta.Store

open Outcome (failIf)
open Receiver (ProfileKey ProfileScan ProfileStep SourceFragment ReassembledProfile)

/-! ### Rows -/

/-- One row of `v2_profile_steps`. -/
def ScanRow.insertStep (row : ScanRow) (step : ProfileStep) : Outcome StorageError ScanRow := do
  failIf (9 < step.stepIndex ∨ step.stepIndex ∈ row.scan.steps.map (·.stepIndex)) .sqlite
  return { row with scan := { row.scan with steps := row.scan.steps ++ [step] } }

/-- One row of `v2_profile_fragments`: its packet exists and is linked nowhere else, and its index
is not taken. -/
def ScanRow.insertFragment (row : ScanRow) (s : TelemetryStore) (fragment : SourceFragment) :
    Outcome StorageError ScanRow := do
  failIf (fragment.packetId ∉ s.packets.map (·.id) ∨
    fragment.packetId ∈ (s.scans.flatMap (·.fragments) ++ row.fragments).map (·.packetId) ∨
    fragment.fragmentIndex ∈ row.fragments.map (·.fragmentIndex)) .sqlite
  return { row with fragments := row.fragments ++ [fragment] }

namespace TelemetryStore

/-- `UPDATE v2_packet_decodes SET reassembly_status = .. WHERE packet_id = ..`. -/
def setStatus (s : TelemetryStore) (packetId : Int) (status : FragmentStorageStatus) :
    TelemetryStore :=
  s.updatePacket packetId (·.withStatus status)

/-- `mark_fragment_status`: the update of a profile fragment, of which there must be one. -/
def markFragmentStatus (s : TelemetryStore) (packetId : Int) (status : FragmentStorageStatus) :
    Outcome StorageError TelemetryStore := do
  failIf ((s.packets.filter fun p => p.id = packetId ∧ p.isFragment).length ≠ 1)
    (.missingV2Packet packetId)
  return s.setStatus packetId status

/-! ### Late fragments -/

/-- How payloads that are stored classify another one. -/
def classify (stored : List (List UInt8)) (payload : List UInt8) : PersistedFragmentMatch :=
  if stored.all (· = payload) then .duplicate else .conflict

/-- `reconcile_persisted_profile_fragment`. -/
def reconcilePersistedProfileFragment (s : TelemetryStore) (key : ProfileKey) (packetId : Int)
    (fragmentIndex : UInt8) (payload : List UInt8) :
    Outcome StorageError (Option PersistedFragmentMatch × TelemetryStore) :=
  let persisted := (s.rows key).flatMap fun row =>
    (row.sourcesAt fragmentIndex).filterMap fun source =>
      (s.payloadOf source.packetId).map (row.id, ·)
  if persisted.isEmpty then .ok (none, s)
  else
    let classification := classify (persisted.map (·.2)) payload
    let s := persisted.foldl (fun s entry => s.updateScan entry.1 (·.countMatch classification)) s
    .ok (some classification, s.setStatus packetId classification.storageStatus)

/-! ### Profiles -/

/-- `insert_profile_scan_inner`. -/
def insertProfileScanInner (s : TelemetryStore) (profile : ReassembledProfile)
    (integrityPacket : Option (Int × FragmentStorageStatus)) :
    Outcome StorageError (StoredRecord × TelemetryStore) := do
  let scan := profile.scan
  Outcome.mapErr .invalidRecord scan.validate
  let some firstReceived := profile.firstReceivedAtUnixMs | Outcome.fail .profileWithoutFragments
  let some lastReceived := profile.lastReceivedAtUnixMs | Outcome.fail .profileWithoutFragments
  let s := s.deleteIncomplete (.ofIdentity scan.identity)
  let missing ← scan.missingFragmentBitmap
  let complete ← scan.isTransportComplete
  failIf (¬ (1 ≤ scan.expectedSteps ∧ scan.expectedSteps ≤ 10)) .sqlite
  let row : ScanRow :=
    { id := nextRowId (s.scans.map (·.id))
      firstReceivedAtUnixMs := firstReceived
      lastReceivedAtUnixMs := lastReceived
      scan := { scan with steps := [] }
      missingFragmentBitmap := missing
      transportComplete := complete
      recordJson := scan
      fragments := [] }
  let row ← scan.steps.foldlM ScanRow.insertStep row
  let status : FragmentStorageStatus := if complete then .assembled else .incomplete
  let (row, s) ← profile.fragments.foldlM (fun (row, s) fragment => do
    let row ← row.insertFragment s fragment
    return (row, s.setStatus fragment.packetId status)) (row, s)
  let s ← match integrityPacket with
    | none => pure s
    | some (packetId, status) => s.markFragmentStatus packetId status
  return (⟨row.id, lastReceived⟩, { s with scans := s.scans ++ [row] })

/-- `insert_profile_scan`. -/
def insertProfileScan (s : TelemetryStore) (profile : ReassembledProfile) :
    Outcome StorageError (StoredRecord × TelemetryStore) :=
  s.insertProfileScanInner profile none

/-- `insert_profile_integrity_snapshot`. -/
def insertProfileIntegritySnapshot (s : TelemetryStore) (profile : ReassembledProfile)
    (packetId : Int) (status : FragmentStorageStatus) :
    Outcome StorageError (StoredRecord × TelemetryStore) :=
  s.insertProfileScanInner profile (some (packetId, status))

end TelemetryStore

end Vesta.Store
