import Vesta.Protocol.Records

/-!
# Protocol — Validate

The structural checks `v2.rs` shares between its encoders and its decoders, and the configuration
hash.  Each check is written in the order of the source: which error is returned depends on it.
-/

namespace Vesta.Protocol

open Outcome (failIf)

/-! ### Flags and masks -/

def ensureKnownU8 (field : String) (value known : UInt8) : Result Unit :=
  failIf (value &&& ~~~known ≠ 0) (.unknownFlags field (value &&& ~~~known).toUInt32)

def ensureKnownU16 (field : String) (value known : UInt16) : Result Unit :=
  failIf (value &&& ~~~known ≠ 0) (.unknownFlags field (value &&& ~~~known).toUInt32)

def ensureKnownU32 (field : String) (value known : UInt32) : Result Unit :=
  failIf (value &&& ~~~known ≠ 0) (.unknownFlags field (value &&& ~~~known))

def stepMask (stepCount : UInt8) : Result UInt16 := maskU16 stepCount.toNat

/-! ### The configuration hash -/

/-- One round of FNV-1a: the byte into the low bits, then the prime modulo `2 ^ 64`. -/
def fnvStep (hash : UInt64) (byte : UInt8) : UInt64 := (hash ^^^ byte.toUInt64) * 0x100000001b3

def fnv1a64 (bytes : List UInt8) : UInt64 := bytes.foldl fnvStep 0xcbf29ce484222325

/-! ### Configurations -/

/-- The check of one heater slot: empty past the step count, and without read-back bytes where
the bitmap says that none were read. -/
def validateHeaterStep (config : DeviceConfig) (step : HeaterStepConfig) (index : Nat) :
    Result Unit := do
  failIf (index ≥ config.expectedStepCount.toNat ∧ step ≠ .default)
    (.invalidField "unused_heater_step")
  if index < config.expectedStepCount.toNat then
    let bit ← bitU16 index
    failIf (config.heaterReadbackValidBitmap &&& bit = 0 ∧
        (step.readbackHeaterCurrent ≠ 0 ∨ step.programmedHeaterResistance ≠ 0 ∨
          step.programmedGasWait ≠ 0))
      (.invalidField "unverified_heater_readback")

/-- The calibration hash is absent, or made by the one known algorithm. -/
def validateCalibrationHash (config : DeviceConfig) : Result Unit :=
  if config.flags &&& configFlagCalibrationHashValid = 0 then
    failIf (config.calibrationHashAlgorithm ≠ 0 ∨ config.calibrationHash ≠ 0)
      (.invalidField "calibration_hash")
  else
    failIf (config.calibrationHashAlgorithm ≠ 1) (.invalidField "calibration_hash_algorithm")

def validateConfig (config : DeviceConfig) : Result Unit := do
  ensureKnownU8 "config_flags" config.flags configFlagsKnown
  ensureKnownU8 "firmware_build_flags" config.firmwareBuildFlags buildFlagsKnown
  ensureKnownU8 "output_routes" config.outputRoutes outputRoutesKnown
  failIf (config.outputRoutes = 0) (.invalidField "output_routes")
  failIf (config.profileId = 0 ∨ config.profileVersion = 0) (.invalidField "profile_identity")
  failIf (config.sensorVariant ≠ 0 ∧ config.sensorVariant ≠ 1 ∧ config.sensorVariant ≠ 255)
    (.invalidField "sensor_variant")
  failIf (config.temperatureOversampling > 5 ∨ config.humidityOversampling > 5 ∨
      config.pressureOversampling > 5)
    (.invalidField "oversampling")
  failIf (config.iirFilter > 7) (.invalidField "iir_filter")
  failIf (config.standbyTime > 8) (.invalidField "standby_time")
  failIf (¬ (1 ≤ config.operationMode ∧ config.operationMode ≤ 3)) (.invalidField "operation_mode")
  failIf (¬ (1 ≤ config.expectedStepCount ∧ config.expectedStepCount ≤ 10))
    (.invalidField "expected_step_count")
  let validStepMask ← stepMask config.expectedStepCount
  failIf (config.heaterReadbackValidBitmap &&& ~~~validStepMask ≠ 0)
    (.invalidField "heater_readback_valid_bitmap")
  failIf (config.heaterEnabled > 1 ∨ config.radioPhyCrcEnabled > 1 ∨ config.radioIqInverted > 1 ∨
      config.radioHeaderMode > 1)
    (.invalidField "boolean")
  failIf (config.profileStepsPerFragment ≠ 3) (.invalidField "profile_steps_per_fragment")
  failIf (config.maxFrameLen.toNat ≠ maxV2FrameLen) (.invalidField "max_frame_len")
  validateCalibrationHash config
  failIf (config.firmwareBuildFlags &&& buildFlagIdValid = 0 ∧ config.firmwareBuildId ≠ 0)
    (.invalidField "firmware_build_id")
  failIf (¬ (5 ≤ config.radioSpreadingFactor ∧ config.radioSpreadingFactor ≤ 12))
    (.invalidField "radio_spreading_factor")
  failIf (config.radioBandwidthHz = 0) (.invalidField "radio_bandwidth_hz")
  failIf (config.radioCodingRateNumerator ≠ 4 ∨
      ¬ (5 ≤ config.radioCodingRateDenominator ∧ config.radioCodingRateDenominator ≤ 8))
    (.invalidField "radio_coding_rate")
  failIf (config.radioPreambleSymbols = 0) (.invalidField "radio_preamble_symbols")
  config.steps.toList.zipIdx.forM fun (step, index) => validateHeaterStep config step index

/-! ### Profiles -/

def validateProfileStep (step : ProfileStep) : Result Unit := do
  let rawKnownStatus := (step.rawMeasurementStatus &&& 0x80) ||| (step.rawGasStatus &&& 0x30)
  failIf (step.status &&& 0xb0 ≠ rawKnownStatus) (.invalidField "step_status_raw")
  failIf (step.gasIndex ≠ step.rawMeasurementStatus &&& 0x0f) (.invalidField "step_gas_index_raw")
  failIf (step.gasRange ≠ step.rawGasStatus &&& 0x0f) (.invalidField "step_gas_range_raw")
  failIf (step.gasIndex ≠ step.stepIndex) (.invalidField "step_gas_index")

/-- The check of one slot of a scan: a step with the slot's own index where one is expected and
not reported missing, nothing elsewhere. -/
def validateProfileSlot (scan : ProfileScan) (index : Nat) (slot : Option ProfileStep) :
    Result Unit := do
  let expectedPresent ←
    if index < scan.expectedStepCount.toNat then do
      let bit ← bitU16 index
      pure (decide (scan.missingStepsBitmap &&& bit = 0))
    else pure false
  match expectedPresent, slot with
  | true, some step =>
      failIf (step.stepIndex.toNat ≠ index) (.invalidField "profile_step_presence")
      validateProfileStep step
  | false, none => pure ()
  | _, _ => Outcome.fail (.invalidField "profile_step_presence")

def validateProfile (scan : ProfileScan) : Result Unit := do
  failIf (scan.profileId = 0 ∨ scan.profileVersion = 0) (.invalidField "profile_identity")
  failIf (¬ (1 ≤ scan.expectedStepCount ∧ scan.expectedStepCount ≤ 10))
    (.invalidField "expected_step_count")
  ensureKnownU32 "collection_flags" scan.collectionFlags collectionFlagsKnown
  failIf (scan.finishReason > finishReasonProfileRollover) (.invalidField "finish_reason")
  failIf (scan.collectionFlags &&& collectionFlagStalePreScanFields ≠ 0 ∧
      scan.intermediateFieldCount = 0)
    (.invalidField "stale_pre_scan_fields")
  let validMask ← stepMask scan.expectedStepCount
  failIf (scan.missingStepsBitmap &&& ~~~validMask ≠ 0 ∨
      scan.duplicateStepsBitmap &&& ~~~validMask ≠ 0)
    (.invalidField "step_bitmap")
  let observed ← subU8 scan.expectedStepCount (.ofNat (Bitmap.countOnes scan.missingStepsBitmap))
  failIf (observed ≠ scan.observedUniqueStepCount) (.invalidField "observed_unique_step_count")
  failIf (scan.observedFieldCount < observed.toUInt16) (.invalidField "observed_field_count")
  scan.steps.toList.zipIdx.forM fun (slot, index) => validateProfileSlot scan index slot

def validateProfileConfigIdentity (common : Common) (collectionFlags : UInt32)
    (finishReason : UInt8) : Result Unit :=
  failIf (common.configId = 0 ∧
      (collectionFlags &&& collectionFlagConfigMismatch = 0 ∨ finishReason = finishReasonComplete))
    (.invalidField "profile_config_id_status")

/-- `expected_step_count.div_ceil(3)` in range, an error otherwise. -/
def profileFragmentCount (expectedStepCount : UInt8) : Result UInt8 := do
  failIf (¬ (1 ≤ expectedStepCount ∧ expectedStepCount ≤ 10)) (.invalidField "expected_step_count")
  return .ofNat ((expectedStepCount.toNat + 2) / 3)

/-! ### Health -/

def validateHealthFlags (common : Common) (flags : UInt8) : Result Unit := do
  ensureKnownU8 "health_flags" flags healthFlagsKnown
  let headerSaysUnavailable := decide (common.flags &&& commonFlagBootIdValid = 0)
  let healthSaysUnavailable := decide (flags &&& healthFlagBootIdUnavailable ≠ 0)
  failIf (headerSaysUnavailable ≠ healthSaysUnavailable) (.invalidField "health_boot_id_status")

def validateHealthConfigIdentity (common : Common) (health : DeviceHealth) : Result Unit := do
  let profileIdMissing := decide (health.profileId = 0)
  let profileVersionMissing := decide (health.profileVersion = 0)
  failIf (profileIdMissing ≠ profileVersionMissing) (.invalidField "health_profile_identity")
  if profileIdMissing then
    failIf (common.configId ≠ 0) (.invalidField "health_config_id_status")
  else
    failIf (common.configId = 0 ∧ health.flags &&& healthFlagConfigMismatch = 0)
      (.invalidField "health_config_id_status")

end Vesta.Protocol
