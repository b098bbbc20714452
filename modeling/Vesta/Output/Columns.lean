import Vesta.Foundations.Record
import Vesta.Receiver.Reassembly

/-!
# Output — Columns

What `#[derive(Serialize)]` makes of the records of the receiver, and what `lib.rs` puts in the
place of the identifiers: a 64-bit one is written in hexadecimal digits, so that no reader takes it
for a number and loses some of it.

`json!` and `serde_json::to_value` make an object with the fields in the order of their keys.
-/

namespace Vesta.Output

open Json (Value Serialize Solid value record)
open Receiver

/-! ### Records -/

/-- `format!("{value:016x}")`, `hex_u64`. -/
def hexU64 (n : UInt64) : String := .ofList (Json.hexDigits 16 n.toNat)

def identityColumns : List (String × (RecordIdentity → Value)) := [
  ("common_flags", fun r => value r.commonFlags),
  ("node_id", fun r => value r.nodeId),
  ("boot_id", fun r => value r.bootId),
  ("scan_sequence", fun r => value r.scanSequence),
  ("uptime_ms", fun r => value r.uptimeMs),
  ("config_id", fun r => value r.configId),
  ("reset_cause_flags", fun r => value r.resetCauseFlags)]

instance : Serialize RecordIdentity := .ofColumns identityColumns <| by
  rintro ⟨⟩ ⟨⟩ h
  simpa [identityColumns, Json.effective] using h

def radioColumns : List (String × (RadioMetadata → Value)) := [
  ("packet_rssi_centi_dbm", fun r => value r.packetRssiCentiDbm),
  ("snr_centi_db", fun r => value r.snrCentiDb),
  ("signal_rssi_centi_dbm", fun r => value r.signalRssiCentiDbm)]

instance : Serialize RadioMetadata := .ofColumns radioColumns <| by
  rintro ⟨⟩ ⟨⟩ h
  simpa [radioColumns, Json.effective] using h

instance : Solid RadioMetadata := ⟨nofun⟩

def heaterStepColumns : List (String × (HeaterStepConfiguration → Value)) := [
  ("step_index", fun r => value r.stepIndex),
  ("target_temperature_celsius", fun r => value r.targetTemperatureCelsius),
  ("configured_duration_us", fun r => value r.configuredDurationUs),
  ("repetition_multiplier", fun r => value r.repetitionMultiplier),
  ("readback_heater_current", fun r => value r.readbackHeaterCurrent),
  ("programmed_heater_resistance", fun r => value r.programmedHeaterResistance),
  ("programmed_gas_wait", fun r => value r.programmedGasWait)]

instance : Serialize HeaterStepConfiguration := .ofColumns heaterStepColumns <| by
  rintro ⟨⟩ ⟨⟩ h
  simpa [heaterStepColumns, Json.effective] using h

def configurationColumns : List (String × (DeviceConfiguration → Value)) := [
  ("identity", fun r => value r.identity),
  ("repeated", fun r => value r.repeated),
  ("config_flags", fun r => value r.configFlags),
  ("firmware_version", fun r => value r.firmwareVersion),
  ("firmware_build_flags", fun r => value r.firmwareBuildFlags),
  ("firmware_build_id", fun r => value r.firmwareBuildId),
  ("sensor_chip_id", fun r => value r.sensorChipId),
  ("sensor_variant", fun r => value r.sensorVariant),
  ("sensor_i2c_address", fun r => value r.sensorI2cAddress),
  ("temperature_oversampling", fun r => value r.temperatureOversampling),
  ("humidity_oversampling", fun r => value r.humidityOversampling),
  ("pressure_oversampling", fun r => value r.pressureOversampling),
  ("iir_filter", fun r => value r.iirFilter),
  ("standby_time", fun r => value r.standbyTime),
  ("operation_mode", fun r => value r.operationMode),
  ("heater_enabled", fun r => value r.heaterEnabled),
  ("parallel_requested_shared_wait_ms", fun r => value r.parallelRequestedSharedWaitMs),
  ("parallel_shared_wait_register", fun r => value r.parallelSharedWaitRegister),
  ("parallel_quantized_shared_wait_us", fun r => value r.parallelQuantizedSharedWaitUs),
  ("tphg_duration_us", fun r => value r.tphgDurationUs),
  ("expected_profile_duration_us", fun r => value r.expectedProfileDurationUs),
  ("profile_id", fun r => value r.profileId),
  ("profile_version", fun r => value r.profileVersion),
  ("expected_step_count", fun r => value r.expectedStepCount),
  ("heater_readback_valid_bitmap", fun r => value r.heaterReadbackValidBitmap),
  ("calibration_hash_algorithm", fun r => value r.calibrationHashAlgorithm),
  ("calibration_hash", fun r => value r.calibrationHash),
  ("scan_interval_ms", fun r => value r.scanIntervalMs),
  ("config_repeat_interval_scans", fun r => value r.configRepeatIntervalScans),
  ("output_routes", fun r => value r.outputRoutes),
  ("radio_frequency_hz", fun r => value r.radioFrequencyHz),
  ("radio_tx_power_dbm", fun r => value r.radioTxPowerDbm),
  ("radio_spreading_factor", fun r => value r.radioSpreadingFactor),
  ("radio_bandwidth_hz", fun r => value r.radioBandwidthHz),
  ("radio_coding_rate_numerator", fun r => value r.radioCodingRateNumerator),
  ("radio_coding_rate_denominator", fun r => value r.radioCodingRateDenominator),
  ("radio_preamble_symbols", fun r => value r.radioPreambleSymbols),
  ("radio_header_mode", fun r => value r.radioHeaderMode),
  ("radio_phy_crc_enabled", fun r => value r.radioPhyCrcEnabled),
  ("radio_iq_inverted", fun r => value r.radioIqInverted),
  ("radio_sync_word", fun r => value r.radioSyncWord),
  ("max_frame_len", fun r => value r.maxFrameLen),
  ("profile_steps_per_fragment", fun r => value r.profileStepsPerFragment),
  ("heater_steps", fun r => value r.heaterSteps)]

instance : Serialize DeviceConfiguration := .ofColumns configurationColumns <| by
  rintro ⟨⟩ ⟨⟩ h
  simpa [configurationColumns, Json.effective] using h

def stepColumns : List (String × (ProfileStep → Value)) := [
  ("step_index", fun r => value r.stepIndex),
  ("gas_index", fun r => value r.gasIndex),
  ("measurement_index", fun r => value r.measurementIndex),
  ("status_bits", fun r => value r.statusBits),
  ("raw_measurement_status", fun r => value r.rawMeasurementStatus),
  ("raw_gas_status", fun r => value r.rawGasStatus),
  ("target_temperature_celsius", fun r => value r.targetTemperatureCelsius),
  ("configured_duration_us", fun r => value r.configuredDurationUs),
  ("relative_offset_us", fun r => value r.relativeOffsetUs),
  ("temperature_centi_celsius", fun r => value r.temperatureCentiCelsius),
  ("pressure_pascal", fun r => value r.pressurePascal),
  ("humidity_milli_percent_rh", fun r => value r.humidityMilliPercentRh),
  ("gas_resistance_ohm", fun r => value r.gasResistanceOhm),
  ("raw_temperature_adc", fun r => value r.rawTemperatureAdc),
  ("raw_pressure_adc", fun r => value r.rawPressureAdc),
  ("raw_humidity_adc", fun r => value r.rawHumidityAdc),
  ("raw_gas_resistance_adc", fun r => value r.rawGasResistanceAdc),
  ("raw_gas_range", fun r => value r.rawGasRange),
  ("repetition_multiplier", fun r => value r.repetitionMultiplier),
  ("raw_heater_resistance", fun r => value r.rawHeaterResistance),
  ("raw_heater_current", fun r => value r.rawHeaterCurrent),
  ("raw_gas_wait", fun r => value r.rawGasWait)]

instance : Serialize ProfileStep := .ofColumns stepColumns <| by
  rintro ⟨⟩ ⟨⟩ h
  simpa [stepColumns, Json.effective] using h

def scanColumns : List (String × (ProfileScan → Value)) := [
  ("identity", fun r => value r.identity),
  ("profile_id", fun r => value r.profileId),
  ("profile_version", fun r => value r.profileVersion),
  ("expected_steps", fun r => value r.expectedSteps),
  ("observed_unique_steps", fun r => value r.observedUniqueSteps),
  ("observed_field_count", fun r => value r.observedFieldCount),
  ("reported_missing_steps", fun r => value r.reportedMissingSteps),
  ("duplicate_steps", fun r => value r.duplicateSteps),
  ("duration_us", fun r => value r.durationUs),
  ("collection_flags", fun r => value r.collectionFlags),
  ("finish_reason", fun r => value r.finishReason),
  ("duplicate_count", fun r => value r.duplicateCount),
  ("overwritten_field_count", fun r => value r.overwrittenFieldCount),
  ("out_of_order_count", fun r => value r.outOfOrderCount),
  ("ambiguous_index_jump_count", fun r => value r.ambiguousIndexJumpCount),
  ("invalid_gas_index_count", fun r => value r.invalidGasIndexCount),
  ("intermediate_field_count", fun r => value r.intermediateFieldCount),
  ("profile_rollover_count", fun r => value r.profileRolloverCount),
  ("fields_after_rollover_count", fun r => value r.fieldsAfterRolloverCount),
  ("poll_count", fun r => value r.pollCount),
  ("expected_fragment_count", fun r => value r.expectedFragmentCount),
  ("received_fragment_bitmap", fun r => value r.receivedFragmentBitmap),
  ("duplicate_fragment_count", fun r => value r.duplicateFragmentCount),
  ("conflicting_fragment_count", fun r => value r.conflictingFragmentCount),
  ("steps", fun r => value r.steps)]

instance : Serialize ProfileScan := .ofColumns scanColumns <| by
  rintro ⟨⟩ ⟨⟩ h
  simpa [scanColumns, Json.effective] using h

def healthColumns : List (String × (DeviceHealth → Value)) := [
  ("identity", fun r => value r.identity),
  ("health_flags", fun r => value r.healthFlags),
  ("reset_cause_raw", fun r => value r.resetCauseRaw),
  ("successful_sensor_scans", fun r => value r.successfulSensorScans),
  ("failed_sensor_scans", fun r => value r.failedSensorScans),
  ("incomplete_profiles", fun r => value r.incompleteProfiles),
  ("i2c_errors", fun r => value r.i2cErrors),
  ("radio_tx_errors", fun r => value r.radioTxErrors),
  ("dropped_profiles", fun r => value r.droppedProfiles),
  ("dropped_fragments", fun r => value r.droppedFragments),
  ("overwritten_fields", fun r => value r.overwrittenFields),
  ("current_sample_interval_ms", fun r => value r.currentSampleIntervalMs),
  ("firmware_version", fun r => value r.firmwareVersion),
  ("profile_id", fun r => value r.profileId),
  ("profile_version", fun r => value r.profileVersion),
  ("last_sensor_error", fun r => value r.lastSensorError),
  ("last_radio_error", fun r => value r.lastRadioError),
  ("calibrated_mcu_temperature_centi_celsius", fun r =>
    value r.calibratedMcuTemperatureCentiCelsius),
  ("calibrated_vdd_millivolt", fun r => value r.calibratedVddMillivolt)]

instance : Serialize DeviceHealth := .ofColumns healthColumns <| by
  rintro ⟨⟩ ⟨⟩ h
  simpa [healthColumns, Json.effective] using h

def sourceColumns : List (String × (SourceFragment → Value)) := [
  ("packet_id", fun r => value r.packetId),
  ("fragment_index", fun r => value r.fragmentIndex),
  ("received_at_unix_ms", fun r => value r.receivedAtUnixMs),
  ("radio", fun r => value r.radio)]

instance : Serialize SourceFragment := .ofColumns sourceColumns <| by
  rintro ⟨⟩ ⟨⟩ h
  simpa [sourceColumns, Json.effective] using h

/-! ### Exact identifiers -/

/-- `identity_json`. -/
def identityJsonColumns : List (String × (RecordIdentity → Value)) := [
  ("common_flags", fun r => value r.commonFlags),
  ("node_id", fun r => value (hexU64 r.nodeId)),
  ("boot_id", fun r => value (hexU64 r.bootId)),
  ("scan_sequence", fun r => value r.scanSequence),
  ("uptime_ms", fun r => value (toString r.uptimeMs.toNat)),
  ("config_id", fun r => value (hexU64 r.configId)),
  ("reset_cause_flags", fun r => value r.resetCauseFlags)]

def identityJson (identity : RecordIdentity) : Value := record identityJsonColumns identity

/-- `value[key] = field`. -/
def setField {ε : Type} (object : Value) (key : String) (field : Value) : Outcome ε Value :=
  match object.assign key field with
  | some object => .ok object
  | none => Outcome.abort

/-- `exactify_identity`. -/
def exactifyIdentity {ε : Type} (object : Value) (identity : RecordIdentity) : Outcome ε Value :=
  setField object "identity" (identityJson identity)

theorem setField_record {ε α : Type} (columns : List (String × (α → Value))) (key : String)
    (f : α → Value) (a : α) :
    (setField (record columns a) key (f a) : Outcome ε Value) =
      .ok (record (columns ++ [(key, f)]) a) := by
  rw [setField, Json.assign_record]

theorem hexU64_injective : Function.Injective hexU64 := by
  intro m n h
  have hread := congrArg Json.ofHexDigits (String.ofList_inj.mp h)
  have hlt (k : UInt64) : k.toNat < 16 ^ 16 := k.toNat_lt
  rw [Json.ofHexDigits_hexDigits, Json.ofHexDigits_hexDigits, Nat.mod_eq_of_lt (hlt m),
    Nat.mod_eq_of_lt (hlt n)] at hread
  exact UInt64.toNat_inj.mp hread

theorem repr_injective : Function.Injective Nat.repr := by
  intro m n h
  have hread := congrArg (fun cs => Nat.ofDigitChars 10 cs 0) (String.ofList_inj.mp h)
  simpa only [Nat.ofDigitChars_toDigits (b := 10) (by decide) (by decide)] using hread

theorem identityJson_injective : Function.Injective identityJson := by
  intro a b h
  have hcolumns := Json.eq_of_mem_effective h
  cases a
  cases b
  simpa [identityJsonColumns, Json.effective, hexU64_injective.eq_iff,
    repr_injective.eq_iff, UInt64.toNat_inj] using hcolumns

end Vesta.Output
