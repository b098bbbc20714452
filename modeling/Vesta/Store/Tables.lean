import Vesta.Protocol.Any
import Vesta.Receiver.Fragment

/-!
# Store — Tables

The tables of `database.rs`.  A row of a table that hangs off another by a cascading reference is
kept in the row it belongs to: the decode of a packet in the packet, the steps and the source links
of a scan in the scan.  Deleting a row then deletes what hangs off it.

Identities that the source writes as sixteen hexadecimal digits are the numbers themselves, and a
record that it writes as JSON is the record.  A statement that a constraint of the schema rejects
fails with `StorageError.sqlite`.
-/

namespace Vesta.Store

open Outcome (failIf)
open Receiver (RadioMetadata RecordIdentity RecordError ProfileKey ProfileScan ProfileStep
  SourceFragment DeviceConfiguration DeviceHealth HeaterStepConfiguration)

/-! ### Packets -/

/-- Receiver interpretation of one archived application payload. -/
inductive PacketDisposition where
  | legacyV1
  | protocolV2
  | unsupported
  | invalid
deriving DecidableEq

/-- Exact kind of a successfully decoded protocol-v2 frame. -/
inductive V2PacketKind where
  | deviceConfig
  | profileFragment
  | deviceHealth
deriving DecidableEq

/-- Receiver-side state for one decoded v2 profile-fragment packet. -/
inductive FragmentStorageStatus where
  | pending
  | assembled
  | duplicate
  | conflict
  | incomplete
deriving DecidableEq

/-- A newly archived fragment matched an already persisted profile. -/
inductive PersistedFragmentMatch where
  | duplicate
  | conflict
deriving DecidableEq

/-- `PersistedFragmentMatch::storage_status`. -/
def PersistedFragmentMatch.storageStatus : PersistedFragmentMatch → FragmentStorageStatus
  | duplicate => .duplicate
  | conflict => .conflict

/-- The column `reassembly_status`. -/
inductive ReassemblyStatus where
  | notApplicable
  | fragment (status : FragmentStorageStatus)
deriving DecidableEq

/-- `V2PacketKind::initial_reassembly_status`. -/
def V2PacketKind.initialReassemblyStatus : V2PacketKind → ReassemblyStatus
  | profileFragment => .fragment .pending
  | deviceConfig | deviceHealth => .notApplicable

/-- A row of `v2_packet_decodes`, without the packet it belongs to. -/
structure PacketDecode where
  frameType : UInt8
  recordKind : V2PacketKind
  reassemblyStatus : ReassemblyStatus
  nodeId : UInt64
  bootId : UInt64
  scanSequence : UInt32
  uptimeMs : UInt64
  configId : UInt64
  fragmentIndex : UInt8
  fragmentCount : UInt8
deriving DecidableEq

/-- What a start of the receiver finds wrong with a source of an incomplete profile. -/
inductive ReplayFault where
  /-- `incomplete-profile replay decode failed` -/
  | decodeFailed (error : Protocol.Error)
  /-- `incomplete-profile replay decoded as a non-profile frame` -/
  | nonProfile
  /-- `incomplete-profile replay metadata disagrees with its persisted key` -/
  | metadataDisagrees
deriving DecidableEq

inductive StorageError where
  /-- A constraint of the schema rejects a statement. -/
  | sqlite
  | invalidRecord (error : RecordError)
  | missingV2Packet (packetId : Int)
  | profileWithoutFragments
  | invalidPendingReplayLimit
  | pendingReplayLimitExceeded (pending limit : Nat)
  | invalidIncompleteReplayLimit
  | incompleteReplayLimitExceeded (fragments limit : Nat)
  | corruptIncompleteProfile
deriving DecidableEq

/-- `AppError`, as far as storing packets can fail. -/
inductive AppError where
  | database (error : StorageError)
  | missingPacketLink
  | reassembly (error : Receiver.ReassemblyError)
deriving DecidableEq

/-- The texts of the column `decode_error`. -/
inductive DecodeErrorText where
  /-- The error of `decode_any`. -/
  | protocol (error : Protocol.ProtocolDecodeError)
  /-- `startup replay decode failed` -/
  | pendingDecodeFailed (error : Protocol.Error)
  /-- `startup replay decoded as a non-profile frame` -/
  | pendingNonProfile
  /-- `startup replay fragment index disagrees with archived metadata` -/
  | pendingIndexDisagrees
  /-- `startup replay semantic validation failed` -/
  | pendingSemantic (error : AppError)
  | incomplete (fault : ReplayFault)
  /-- `same-key incomplete replay validation failed` -/
  | sameKeyReplay
  /-- Any other text a caller may give. -/
  | text (text : String)
deriving DecidableEq

/-- A row of `radio_packets`, with its row of `v2_packet_decodes`. -/
structure PacketRow where
  id : Int
  receivedAtUnixMs : Int
  radio : RadioMetadata
  protocolVersion : Option UInt8
  frameType : Option UInt8
  disposition : PacketDisposition
  decodeError : Option DecodeErrorText
  payload : List UInt8
  decoded : Option PacketDecode
deriving DecidableEq

/-! ### Records -/

/-- A row of `telemetry_readings`. -/
structure ReadingRow where
  id : Int
  receivedAtUnixMs : Int
  frame : Protocol.TelemetryV1
  radio : RadioMetadata
  payload : List UInt8
  radioPacketId : Option Int
deriving DecidableEq

/-- A row of `v2_device_configurations`, with its rows of `v2_heater_profile_steps`. -/
structure ConfigurationRow where
  id : Int
  receivedAtUnixMs : Int
  recordJson : DeviceConfiguration
  sourcePacketId : Option Int
  steps : List HeaterStepConfiguration
deriving DecidableEq

/-- A row of `v2_device_health`. -/
structure HealthRow where
  id : Int
  receivedAtUnixMs : Int
  recordJson : DeviceHealth
  sourcePacketId : Option Int
deriving DecidableEq

/-- A row of `v2_profile_scans`: the columns that mirror the record, together with the rows of
`v2_profile_steps`, the columns computed from it, the record itself, and the rows of
`v2_profile_fragments`. -/
structure ScanRow where
  id : Int
  firstReceivedAtUnixMs : Int
  lastReceivedAtUnixMs : Int
  scan : ProfileScan
  missingFragmentBitmap : UInt16
  transportComplete : Bool
  recordJson : ProfileScan
  fragments : List SourceFragment
deriving DecidableEq

/-- A schema-3 database. -/
structure TelemetryStore where
  packets : List PacketRow
  readings : List ReadingRow
  configurations : List ConfigurationRow
  scans : List ScanRow
  health : List HealthRow
deriving DecidableEq

/-- A fresh schema-3 database. -/
def TelemetryStore.fresh : TelemetryStore := ⟨[], [], [], [], []⟩

/-- The row id that an insertion assigns: one more than the largest in use. -/
def nextRowId (ids : List Int) : Int :=
  match ids.max? with
  | none => 1
  | some id => id + 1

/-- Identity assigned to one archived packet or to one logical record. -/
structure StoredRecord where
  id : Int
  receivedAtUnixMs : Int
deriving DecidableEq

/-! ### Statements -/

namespace PacketRow

/-- `UPDATE v2_packet_decodes SET reassembly_status = ..`. -/
def withStatus (p : PacketRow) (status : FragmentStorageStatus) : PacketRow :=
  { p with decoded := p.decoded.map fun d => { d with reassemblyStatus := .fragment status } }

/-- `UPDATE radio_packets SET disposition = 'invalid', decode_error = ..`, and
`DELETE FROM v2_packet_decodes`. -/
def quarantined (p : PacketRow) (error : DecodeErrorText) : PacketRow :=
  { p with disposition := .invalid, decodeError := some error, decoded := none }

/-- The packet is decoded as a profile fragment. -/
def isFragment (p : PacketRow) : Bool := p.decoded.any fun d => d.recordKind = .profileFragment

/-- The packet is a profile fragment with this status. -/
def hasStatus (p : PacketRow) (status : FragmentStorageStatus) : Bool :=
  p.decoded.any fun d => d.recordKind = .profileFragment ∧ d.reassemblyStatus = .fragment status

end PacketRow

namespace ScanRow

/-- The row has the key, as the identity columns and the boot-validity bit give it. -/
def hasKey (row : ScanRow) (key : ProfileKey) : Bool := .ofIdentity row.scan.identity = key

/-- The sources of the row with a fragment index. -/
def sourcesAt (row : ScanRow) (fragmentIndex : UInt8) : List SourceFragment :=
  row.fragments.filter fun source => source.fragmentIndex = fragmentIndex

/-- Add to the integrity counters: the columns, and the record through the same sums. -/
def addCounts (row : ScanRow) (duplicates conflicts : Nat) : ScanRow :=
  { row with
    scan := { row.scan with
      duplicateFragmentCount := min (row.scan.duplicateFragmentCount + duplicates) 65535
      conflictingFragmentCount := min (row.scan.conflictingFragmentCount + conflicts) 65535 }
    recordJson := { row.recordJson with
      duplicateFragmentCount := min (row.scan.duplicateFragmentCount + duplicates) 65535
      conflictingFragmentCount := min (row.scan.conflictingFragmentCount + conflicts) 65535 } }

/-- Count one match: the column that it names, and the record through the same sum. -/
def countMatch (row : ScanRow) : PersistedFragmentMatch → ScanRow
  | .duplicate =>
      { row with
        scan := { row.scan with
          duplicateFragmentCount := min (row.scan.duplicateFragmentCount + 1) 65535 }
        recordJson := { row.recordJson with
          duplicateFragmentCount := min (row.scan.duplicateFragmentCount + 1) 65535 } }
  | .conflict =>
      { row with
        scan := { row.scan with
          conflictingFragmentCount := min (row.scan.conflictingFragmentCount + 1) 65535 }
        recordJson := { row.recordJson with
          conflictingFragmentCount := min (row.scan.conflictingFragmentCount + 1) 65535 } }

end ScanRow

namespace TelemetryStore

/-- `UPDATE .. WHERE id = ..` on the packets. -/
def updatePacket (s : TelemetryStore) (packetId : Int) (f : PacketRow → PacketRow) :
    TelemetryStore :=
  { s with packets := s.packets.map fun p => if p.id = packetId then f p else p }

/-- `UPDATE .. WHERE id = ..` on the scans. -/
def updateScan (s : TelemetryStore) (scanId : Int) (f : ScanRow → ScanRow) : TelemetryStore :=
  { s with scans := s.scans.map fun row => if row.id = scanId then f row else row }

/-- `DELETE FROM v2_profile_scans` on the transport-incomplete rows of a key. -/
def deleteIncomplete (s : TelemetryStore) (key : ProfileKey) : TelemetryStore :=
  { s with scans := s.scans.filter fun row => !(!row.transportComplete && row.hasKey key) }

/-- The payload of a packet. -/
def payloadOf (s : TelemetryStore) (packetId : Int) : Option (List UInt8) :=
  (s.packets.find? fun p => p.id = packetId).map (·.payload)

/-- The rows of a key. -/
def rows (s : TelemetryStore) (key : ProfileKey) : List ScanRow := s.scans.filter (·.hasKey key)

end TelemetryStore

end Vesta.Store
