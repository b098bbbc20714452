import Vesta.Output.Columns
import Vesta.Protocol.Any

/-!
# Output — Render

The texts that the receiver prints, as `render`, `render_received`, `render_v2` and
`render_reassembled_profile` of `lib.rs` make them.  `serde_json::to_string` leaves the fields of a
structure as they are declared, and `json!` sorts those of an object.

How a value is written down is `serde_json`'s, and the text for people of a v1 frame has numbers
that were rounded by its units.  Both are taken as they come (`Presentation`).
-/

namespace Vesta.Output

open Json (Value Serialize value record)
open Protocol (DecodedFrame DecodedTelemetry TelemetryV1 ProfileFragmentView Header DeviceConfig)
open Receiver

/-- Text representation emitted by the receiver. -/
inductive OutputFormat where
  | human
  | jsonLines
deriving DecidableEq

/-- How values and v1 frames are written down. -/
structure Presentation where
  /-- `serde_json::to_string` -/
  toString : Value → List Char
  /-- `serde_json::to_string_pretty` -/
  toStringPretty : Value → List Char
  /-- `HumanFrame` -/
  humanFrame : TelemetryV1 → List Char
  /-- `HumanReceivedFrame` -/
  humanReceivedFrame : TelemetryV1 → RadioMetadata → List Char
  toString_injective : Function.Injective toString
  newline_not_mem_toString : ∀ v, '\n' ∉ toString v

/-- The texts of `Json`, with texts for people. -/
def Presentation.plain (humanFrame : TelemetryV1 → List Char)
    (humanReceivedFrame : TelemetryV1 → RadioMetadata → List Char) : Presentation where
  toString := Value.text .compact 0
  toStringPretty := Value.text .pretty 0
  humanFrame
  humanReceivedFrame
  toString_injective := Json.text_injective .compact
  newline_not_mem_toString v := Json.newline_not_mem_text v 0

/-! ### Version 1 -/

/-- The fields of `JsonFrame`. -/
def jsonFrameFields (frame : TelemetryV1) : List (String × Value) := [
  ("protocol_version", value Protocol.version),
  ("node_id", value (hexU64 frame.nodeId)),
  ("sequence", value frame.sequence),
  ("status", .object [
    ("bits", value frame.sensorStatus.bits),
    ("new_data", value frame.sensorStatus.isNewData),
    ("gas_valid", value frame.sensorStatus.isGasMeasurementValid),
    ("heater_stable", value frame.sensorStatus.isHeaterStable),
    ("unknown_bits", value frame.sensorStatus.unknownBits)]),
  ("corrected", .object [
    ("temperature_centi_celsius", value frame.compensated.temperature.centiCelsius),
    ("pressure_pascal", value frame.compensated.pressure.pascals),
    ("humidity_milli_percent_rh", value frame.compensated.humidity.milliPercentRh),
    ("gas_resistance_ohm", value frame.compensated.gasResistance.ohms)]),
  ("raw", .object [
    ("temperature_adc", value frame.raw.temperatureAdc),
    ("pressure_adc", value frame.raw.pressureAdc),
    ("humidity_adc", value frame.raw.humidityAdc),
    ("gas_resistance_adc", value frame.raw.gasResistanceAdc),
    ("gas_range", value frame.raw.gasRange),
    ("gas_index", value frame.raw.gasIndex),
    ("measurement_index", value frame.raw.measurementIndex),
    ("heater_resistance", value frame.raw.heaterResistance),
    ("heater_current", value frame.raw.heaterCurrent),
    ("gas_wait", value frame.raw.gasWait)])]

/-- `JsonFrame`. -/
def jsonFrame (frame : TelemetryV1) : Value := .object (jsonFrameFields frame)

/-- `JsonReceivedFrame`.  The fields of the frame stand beside the radio. -/
def jsonReceivedFrame (frame : TelemetryV1) (radio : RadioMetadata) : Value :=
  .object (jsonFrameFields frame ++
    [("radio", .object (radioColumns.map fun column => (column.1, column.2 radio)))])

/-! ### Version 2 -/

inductive V2RenderError where
  | codec (error : Protocol.Error)
deriving DecidableEq, Repr

/-- The object around a record. -/
def envelopeColumns : List (String × (String × Value × Option RadioMetadata → Value)) := [
  ("protocol_version", fun _ => .number 2),
  ("frame_type", fun r => value r.1),
  ("record", fun r => r.2.1),
  ("radio", fun r => value r.2.2)]

/-- The object of a configuration frame. -/
def configurationJson (header : Header) (config : DeviceConfig) (radio : Option RadioMetadata) :
    Outcome V2RenderError Value := do
  let configuration ← deviceConfiguration header config
  let recordValue ← exactifyIdentity (value configuration) configuration.identity
  let recordValue ← setField recordValue "firmware_build_id"
    (value (hexU64 configuration.firmwareBuildId))
  let recordValue ← setField recordValue "calibration_hash"
    (value (hexU64 configuration.calibrationHash))
  return record envelopeColumns ("device_config", recordValue, radio)

/-- The object of a health frame. -/
def healthJson (header : Header) (health : Protocol.DeviceHealth) (radio : Option RadioMetadata) :
    Outcome V2RenderError Value := do
  let health := deviceHealth header health
  let recordValue ← exactifyIdentity (value health) health.identity
  return record envelopeColumns ("device_health", recordValue, radio)

/-- The fields of a fragment, with its steps and the radio. -/
def fragmentColumns :
    List (String × (ProfileFragmentView × List ProfileStep × Option RadioMetadata → Value)) := [
  ("protocol_version", fun _ => .number 2),
  ("frame_type", fun _ => value "profile_fragment"),
  ("identity", fun r => identityJson (recordIdentity r.1.header)),
  ("fragment_index", fun r => value r.1.header.fragmentIndex),
  ("fragment_count", fun r => value r.1.header.fragmentCount),
  ("profile_id", fun r => value r.1.profileId),
  ("profile_version", fun r => value r.1.profileVersion),
  ("expected_step_count", fun r => value r.1.expectedStepCount),
  ("observed_unique_step_count", fun r => value r.1.observedUniqueStepCount),
  ("observed_field_count", fun r => value r.1.observedFieldCount),
  ("missing_steps_bitmap", fun r => value r.1.missingStepsBitmap),
  ("duplicate_steps_bitmap", fun r => value r.1.duplicateStepsBitmap),
  ("scan_duration_us", fun r => value r.1.scanDurationUs),
  ("collection_flags", fun r => value r.1.collectionFlags),
  ("finish_reason", fun r => value r.1.finishReason),
  ("duplicate_count", fun r => value r.1.duplicateCount),
  ("overwritten_field_count", fun r => value r.1.overwrittenFieldCount),
  ("out_of_order_count", fun r => value r.1.outOfOrderCount),
  ("ambiguous_index_jump_count", fun r => value r.1.ambiguousIndexJumpCount),
  ("invalid_gas_index_count", fun r => value r.1.invalidGasIndexCount),
  ("intermediate_field_count", fun r => value r.1.intermediateFieldCount),
  ("profile_rollover_count", fun r => value r.1.profileRolloverCount),
  ("fields_after_rollover_count", fun r => value r.1.fieldsAfterRolloverCount),
  ("poll_count", fun r => value r.1.pollCount),
  ("step_window_start", fun r => value r.1.stepWindowStart),
  ("steps", fun r => value r.2.1),
  ("radio", fun r => value r.2.2)]

/-- `fragment_json`. -/
def fragmentJson (fragment : ProfileFragmentView) (radio : Option RadioMetadata) :
    Outcome V2RenderError Value := do
  let steps ← Outcome.mapErr .codec (fragmentSteps fragment)
  return record fragmentColumns (fragment, steps, radio)

/-- The value that `render_v2` makes of a frame. -/
def frameJson (radio : Option RadioMetadata) : DecodedFrame → Outcome V2RenderError Value
  | .deviceConfig header config => configurationJson header config radio
  | .profileFragment fragment => fragmentJson fragment radio
  | .deviceHealth header health => healthJson header health radio

/-- The object around a reassembled profile. -/
def profileColumns : List (String × (Value × List SourceFragment → Value)) := [
  ("protocol_version", fun _ => .number 2),
  ("frame_type", fun _ => value "profile_scan"),
  ("record", fun r => r.1),
  ("receiver_fragments", fun r => value r.2)]

/-- The object of `write_profile_integrity_update`. -/
def integrityColumns : List (String × (ProfileKey × Int × UInt8 → Value)) := [
  ("receiver_event", fun _ => value "profile_integrity_update"),
  ("protocol_version", fun _ => .number 2),
  ("node_id", fun r => value (hexU64 r.1.nodeId)),
  ("boot_id_valid", fun r => value r.1.bootIdValid),
  ("boot_id", fun r => value (hexU64 r.1.bootId)),
  ("scan_sequence", fun r => value r.1.scanSequence),
  ("scan_start_uptime_ms", fun r => value (toString r.1.uptimeMs.toNat)),
  ("config_id", fun r => value (hexU64 r.1.configId)),
  ("source_packet_id", fun r => value r.2.1),
  ("fragment_index", fun r => value r.2.2),
  ("classification", fun _ => value "conflict"),
  ("usable_for_analysis", fun _ => value false)]

/-! ### Texts -/

section
variable (p : Presentation)

/-- How a value is written down in a format. -/
def Presentation.write : OutputFormat → Value → List Char
  | .human => p.toStringPretty
  | .jsonLines => p.toString

/-- `render`. -/
def render (frame : TelemetryV1) : OutputFormat → List Char
  | .human => p.humanFrame frame
  | .jsonLines => p.toString (jsonFrame frame)

/-- `render_received`. -/
def renderReceived (frame : TelemetryV1) (radio : RadioMetadata) : OutputFormat → List Char
  | .human => p.humanReceivedFrame frame radio
  | .jsonLines => p.toString (jsonReceivedFrame frame radio)

/-- `render_v2`. -/
def renderV2 (frame : DecodedFrame) (format : OutputFormat) (radio : Option RadioMetadata) :
    Outcome V2RenderError (List Char) := do
  return p.write format (← frameJson radio frame)

/-- `render_reassembled_profile`. -/
def renderReassembledProfile {ε : Type} (profile : ReassembledProfile) (format : OutputFormat) :
    Outcome ε (List Char) := do
  let recordValue ← exactifyIdentity (value profile.scan) profile.scan.identity
  return p.write format (record profileColumns (recordValue, profile.fragments))

/-- What `write_profile_integrity_update` prints. -/
def integrityUpdate (key : ProfileKey) (packetId : Int) (fragmentIndex : UInt8) :
    OutputFormat → List Char
  | .human => String.toList <|
      s!"Vesta receiver integrity update: persisted profile {hexU64 key.nodeId}/" ++
      s!"{hexU64 key.bootId}/{key.scanSequence}/uptime={key.uptimeMs}/" ++
      s!"config={hexU64 key.configId} invalidated by conflicting fragment {fragmentIndex} " ++
      s!"in packet {packetId}"
  | .jsonLines => p.toString (record integrityColumns (key, packetId, fragmentIndex))

/-- What is printed for a decoded frame: with the radio when it was received, as `store_v1` and
`store_v2` do, and without when it was given, as `write_frame` does. -/
def rendered (format : OutputFormat) (radio : Option RadioMetadata) :
    DecodedTelemetry → Outcome V2RenderError (List Char)
  | .v1 frame => .ok (radio.elim (render p frame format) (renderReceived p frame · format))
  | .v2 frame => renderV2 p frame format radio

end

end Vesta.Output
