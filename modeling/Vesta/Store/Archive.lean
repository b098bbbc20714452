import Vesta.Store.Tables

/-!
# Store — Archive

Archiving a received packet: undecodable ones, v1 readings, configurations and health records with
their logical rows, and profile fragments with the metadata of their header.  The clock is the
argument `now`, in milliseconds.
-/

namespace Vesta.Store

open Outcome (failIf)
open Receiver (RadioMetadata DeviceConfiguration DeviceHealth HeaterStepConfiguration)

namespace TelemetryStore

/-- `insert_packet_at`. -/
def insertPacketAt (s : TelemetryStore) (payload : List UInt8) (radio : RadioMetadata)
    (receivedAt : Int) (disposition : PacketDisposition) (protocolVersion frameType : Option UInt8)
    (decodeError : Option DecodeErrorText) :
    Outcome StorageError (StoredRecord × TelemetryStore) := do
  failIf (receivedAt < 0 ∨ 255 < payload.length) .sqlite
  let id := nextRowId (s.packets.map (·.id))
  let row : PacketRow :=
    { id, receivedAtUnixMs := receivedAt, radio, protocolVersion, frameType, disposition
      decodeError, payload, decoded := none }
  return (⟨id, receivedAt⟩, { s with packets := s.packets ++ [row] })

/-- `insert_v2_packet_decode_at`. -/
def insertV2PacketDecodeAt (s : TelemetryStore) (packetId : Int) (header : Protocol.Header)
    (kind : V2PacketKind) : Outcome StorageError TelemetryStore := do
  failIf (header.fragmentCount = 0) .sqlite
  let decoded : PacketDecode :=
    { frameType := header.frameType.toU8
      recordKind := kind
      reassemblyStatus := kind.initialReassemblyStatus
      nodeId := header.common.nodeId
      bootId := header.common.bootId
      scanSequence := header.common.scanSequence
      uptimeMs := header.common.uptimeMs
      configId := header.common.configId
      fragmentIndex := header.fragmentIndex
      fragmentCount := header.fragmentCount }
  return s.updatePacket packetId fun p => { p with decoded := some decoded }

/-- `insert_reading_at`. -/
def insertReadingAt (s : TelemetryStore) (frame : Protocol.TelemetryV1) (payload : List UInt8)
    (radio : RadioMetadata) (receivedAt : Int) (radioPacketId : Option Int) :
    Outcome StorageError (ReadingRow × TelemetryStore) := do
  failIf (receivedAt < 0 ∨ payload.length ≠ 48) .sqlite
  let row : ReadingRow :=
    ⟨nextRowId (s.readings.map (·.id)), receivedAt, frame, radio, payload, radioPacketId⟩
  return (row, { s with readings := s.readings ++ [row] })

/-- One row of `v2_heater_profile_steps`. -/
def insertHeaterStep (steps : List HeaterStepConfiguration) (step : HeaterStepConfiguration) :
    Outcome StorageError (List HeaterStepConfiguration) := do
  failIf (9 < step.stepIndex ∨ step.stepIndex ∈ steps.map (·.stepIndex)) .sqlite
  return steps ++ [step]

/-- `insert_device_configuration_at`. -/
def insertDeviceConfigurationAt (s : TelemetryStore) (configuration : DeviceConfiguration)
    (receivedAt : Int) (sourcePacketId : Option Int) :
    Outcome StorageError (StoredRecord × TelemetryStore) := do
  failIf (receivedAt < 0 ∨
    ¬ (1 ≤ configuration.expectedStepCount ∧ configuration.expectedStepCount ≤ 10)) .sqlite
  let id := nextRowId (s.configurations.map (·.id))
  let steps ← configuration.heaterSteps.foldlM insertHeaterStep []
  return (⟨id, receivedAt⟩, { s with
    configurations :=
      s.configurations ++ [⟨id, receivedAt, configuration, sourcePacketId, steps⟩] })

/-- `insert_device_health_at`. -/
def insertDeviceHealthAt (s : TelemetryStore) (health : DeviceHealth) (receivedAt : Int)
    (sourcePacketId : Option Int) : TelemetryStore × StoredRecord :=
  let id := nextRowId (s.health.map (·.id))
  ({ s with health := s.health ++ [⟨id, receivedAt, health, sourcePacketId⟩] }, ⟨id, receivedAt⟩)

/-- `insert_received_v1`. -/
def insertReceivedV1 (s : TelemetryStore) (now : Nat) (frame : Protocol.TelemetryV1)
    (payload : List UInt8) (radio : RadioMetadata) :
    Outcome StorageError (ReadingRow × TelemetryStore) := do
  let (packet, s) ← s.insertPacketAt payload radio now .legacyV1 (some Protocol.version) none none
  s.insertReadingAt frame payload radio now (some packet.id)

/-- `archive_packet`. -/
def archivePacket (s : TelemetryStore) (now : Nat) (payload : List UInt8) (radio : RadioMetadata)
    (disposition : PacketDisposition) (decodeError : Option DecodeErrorText) :
    Outcome StorageError (StoredRecord × TelemetryStore) :=
  let version := if payload.take 2 = [Protocol.magic.1, Protocol.magic.2] then payload[2]? else none
  s.insertPacketAt payload radio now disposition version payload[3]? decodeError

/-- `archive_v2_profile_fragment`. -/
def archiveV2ProfileFragment (s : TelemetryStore) (now : Nat) (payload : List UInt8)
    (radio : RadioMetadata) (header : Protocol.Header) :
    Outcome StorageError (StoredRecord × TelemetryStore) := do
  let (packet, s) ← s.insertPacketAt payload radio now .protocolV2 (some Protocol.versionV2)
    (some header.frameType.toU8) none
  let s ← s.insertV2PacketDecodeAt packet.id header .profileFragment
  return (packet, s)

/-- `insert_received_device_configuration`; the identities of the packet and of the record. -/
def insertReceivedDeviceConfiguration (s : TelemetryStore) (now : Nat) (payload : List UInt8)
    (radio : RadioMetadata) (header : Protocol.Header) (configuration : DeviceConfiguration) :
    Outcome StorageError ((StoredRecord × StoredRecord) × TelemetryStore) := do
  Outcome.mapErr .invalidRecord configuration.validate
  let (packet, s) ← s.insertPacketAt payload radio now .protocolV2 (some Protocol.versionV2)
    (some header.frameType.toU8) none
  let s ← s.insertV2PacketDecodeAt packet.id header .deviceConfig
  let (record, s) ← s.insertDeviceConfigurationAt configuration now (some packet.id)
  return ((packet, record), s)

/-- `insert_received_device_health`; the identities of the packet and of the record. -/
def insertReceivedDeviceHealth (s : TelemetryStore) (now : Nat) (payload : List UInt8)
    (radio : RadioMetadata) (header : Protocol.Header) (health : DeviceHealth) :
    Outcome StorageError ((StoredRecord × StoredRecord) × TelemetryStore) := do
  let (packet, s) ← s.insertPacketAt payload radio now .protocolV2 (some Protocol.versionV2)
    (some header.frameType.toU8) none
  let s ← s.insertV2PacketDecodeAt packet.id header .deviceHealth
  let (s, record) := s.insertDeviceHealthAt health now (some packet.id)
  return ((packet, record), s)

end TelemetryStore

end Vesta.Store
