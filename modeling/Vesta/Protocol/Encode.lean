import Vesta.Protocol.Validate

/-!
# Protocol — Encode

The encoders of `v2.rs`.  An encoded frame is kept as the bytes `as_slice` returns: the header
slice and the payload slice the source fills, one after the other.
-/

namespace Vesta.Protocol

open Outcome (failIf)

/-! ### Payloads -/

def writeHeaterStep (step : HeaterStepConfig) : Write := do
  Writer.u16 step.targetTemperatureCelsius
  Writer.u32 step.configuredDurationUs
  Writer.u8 step.repetitionMultiplier
  Writer.u8 step.readbackHeaterCurrent
  Writer.u8 step.programmedHeaterResistance
  Writer.u8 step.programmedGasWait

def writeVersion (version : UInt8 × UInt8 × UInt8) : Write :=
  Writer.bytes [version.1, version.2.1, version.2.2]

def writeConfigPayload (config : DeviceConfig) : Write := do
  Writer.u8 configSchemaVersion
  Writer.u8 config.flags
  writeVersion config.firmwareVersion
  Writer.u8 config.firmwareBuildFlags
  Writer.u64 config.firmwareBuildId
  Writer.u8 config.sensorChipId
  Writer.u8 config.sensorVariant
  Writer.u8 config.sensorI2cAddress
  Writer.u8 config.temperatureOversampling
  Writer.u8 config.humidityOversampling
  Writer.u8 config.pressureOversampling
  Writer.u8 config.iirFilter
  Writer.u8 config.standbyTime
  Writer.u8 config.operationMode
  Writer.u8 config.heaterEnabled
  Writer.u16 config.parallelRequestedSharedWaitMs
  Writer.u8 config.parallelSharedWaitRegister
  Writer.u32 config.parallelQuantizedSharedWaitUs
  Writer.u32 config.tphgDurationUs
  Writer.u32 config.expectedProfileDurationUs
  Writer.u16 config.profileId
  Writer.u16 config.profileVersion
  Writer.u8 config.expectedStepCount
  Writer.u16 config.heaterReadbackValidBitmap
  Writer.u8 config.calibrationHashAlgorithm
  Writer.u64 config.calibrationHash
  Writer.u32 config.scanIntervalMs
  Writer.u16 config.configRepeatIntervalScans
  Writer.u8 config.outputRoutes
  Writer.u32 config.radioFrequencyHz
  Writer.i8 config.radioTxPowerDbm
  Writer.u8 config.radioSpreadingFactor
  Writer.u32 config.radioBandwidthHz
  Writer.u8 config.radioCodingRateNumerator
  Writer.u8 config.radioCodingRateDenominator
  Writer.u16 config.radioPreambleSymbols
  Writer.u8 config.radioHeaderMode
  Writer.u8 config.radioPhyCrcEnabled
  Writer.u8 config.radioIqInverted
  Writer.u16 config.radioSyncWord
  Writer.u8 config.maxFrameLen
  Writer.u8 config.profileStepsPerFragment
  let steps ← (slice config.steps.toList 0 config.expectedStepCount.toNat : Result _)
  steps.forM writeHeaterStep

def writeStep (step : ProfileStep) : Write := do
  Writer.u8 step.stepIndex
  Writer.u8 step.gasIndex
  Writer.u8 step.measurementIndex
  Writer.u8 step.status
  Writer.u8 step.rawMeasurementStatus
  Writer.u8 step.rawGasStatus
  Writer.u16 step.targetTemperatureCelsius
  Writer.u32 step.configuredDurationUs
  Writer.u32 step.offsetUs
  Writer.i16 step.temperatureCentiCelsius
  Writer.u32 step.pressurePascal
  Writer.u32 step.humidityMilliPercentRh
  Writer.u32 step.gasResistanceOhm
  Writer.u32 step.temperatureAdc
  Writer.u32 step.pressureAdc
  Writer.u16 step.humidityAdc
  Writer.u16 step.gasResistanceAdc
  Writer.u8 step.gasRange
  Writer.u8 step.repetitionMultiplier
  Writer.u8 step.heaterResistance
  Writer.u8 step.heaterCurrent
  Writer.u8 step.gasWait

/-- The metadata of one fragment, and the steps of its window. -/
def writeFragmentPayload (scan : ProfileScan) (windowStart : Nat) (steps : List ProfileStep) :
    Write := do
  Writer.u8 profileSchemaVersion
  let stepsInFragment ← (tryU8 steps.length (.invalidField "steps_in_fragment") : Result _)
  Writer.u8 stepsInFragment
  Writer.u16 scan.profileId
  Writer.u16 scan.profileVersion
  Writer.u8 scan.expectedStepCount
  Writer.u8 scan.observedUniqueStepCount
  Writer.u16 scan.observedFieldCount
  Writer.u16 scan.missingStepsBitmap
  Writer.u16 scan.duplicateStepsBitmap
  Writer.u32 scan.scanDurationUs
  Writer.u32 scan.collectionFlags
  Writer.u8 scan.finishReason
  Writer.u16 scan.duplicateCount
  Writer.u16 scan.overwrittenFieldCount
  Writer.u16 scan.outOfOrderCount
  Writer.u16 scan.ambiguousIndexJumpCount
  Writer.u16 scan.invalidGasIndexCount
  Writer.u16 scan.intermediateFieldCount
  Writer.u16 scan.profileRolloverCount
  Writer.u16 scan.fieldsAfterRolloverCount
  Writer.u16 scan.pollCount
  let stepWindowStart ← (tryU8 windowStart (.invalidField "step_window_start") : Result _)
  Writer.u8 stepWindowStart
  steps.forM writeStep

/-- One optional measurement: its type, its length and its value. -/
def writeExtension {α : Type} (kind : UInt8) (write : α → Write) : Option α → Write
  | some value => do
      Writer.u8 kind
      Writer.u8 2
      write value
  | none => pure ()

def writeHealthPayload (health : DeviceHealth) (extensionLen : Nat) : Write := do
  Writer.u8 healthSchemaVersion
  Writer.u8 health.flags
  Writer.u32 health.resetCauseRaw
  Writer.u32 health.successfulSensorScans
  Writer.u32 health.failedSensorScans
  Writer.u32 health.incompleteProfiles
  Writer.u32 health.i2cErrors
  Writer.u32 health.radioTxErrors
  Writer.u32 health.droppedProfiles
  Writer.u32 health.droppedFragments
  Writer.u32 health.overwrittenFields
  Writer.u32 health.currentSampleIntervalMs
  writeVersion health.firmwareVersion
  Writer.u16 health.profileId
  Writer.u16 health.profileVersion
  Writer.u16 health.lastSensorError
  Writer.u16 health.lastRadioError
  let extensionLen ← (tryU8 extensionLen (.invalidField "health_extension_len") : Result _)
  Writer.u8 extensionLen
  writeExtension 1 Writer.i16 health.calibratedMcuTemperatureCentiCelsius
  writeExtension 2 Writer.u16 health.calibratedVddMillivolt

/-! ### Frames -/

def writeHeader (frameType : FrameType) (common : Common) (fragmentIndex fragmentCount : UInt8)
    (payloadLen : Nat) : Write := do
  Writer.bytes [magic.1, magic.2]
  Writer.u8 versionV2
  Writer.u8 frameType.toU8
  Writer.u8 48
  Writer.u8 common.flags
  Writer.u8 fragmentIndex
  Writer.u8 fragmentCount
  let payloadLen ← (tryU16 payloadLen (.frameTooLong (headerLen + payloadLen)) : Result _)
  Writer.u16 payloadLen
  Writer.u64 common.nodeId
  Writer.u64 common.bootId
  Writer.u32 common.scanSequence
  Writer.u64 common.uptimeMs
  Writer.u64 common.configId
  Writer.u16 common.resetCauseFlags

/-- `encode_header`, on a slice of `capacity` bytes. -/
def encodeHeader (capacity : Nat) (frameType : FrameType) (common : Common)
    (fragmentIndex fragmentCount : UInt8) (payloadLen : Nat) : Result (List UInt8) := do
  failIf (capacity ≠ headerLen) (.wrongLength headerLen capacity)
  failIf (fragmentCount = 0) (.invalidFragmentCount fragmentCount)
  failIf (fragmentIndex ≥ fragmentCount) (.invalidFragmentIndex fragmentIndex fragmentCount)
  ensureKnownU8 "common_flags" common.flags commonFlagsKnown
  failIf (common.flags &&& commonFlagBootIdFromHwRng ≠ 0 ∧
      common.flags &&& commonFlagBootIdValid = 0)
    (.invalidField "boot_id_flags")
  failIf (common.flags &&& commonFlagBootIdValid = 0 ∧ common.bootId ≠ 0)
    (.invalidField "invalid_boot_id_value")
  ensureKnownU16 "reset_cause_flags" common.resetCauseFlags resetCauseFlagsKnown
  failIf (headerLen + payloadLen > maxPhyFrameLen) (.frameTooLong (headerLen + payloadLen))
  Writer.fill capacity (writeHeader frameType common fragmentIndex fragmentCount payloadLen)

/-- Fill `&mut buffer[start..start + len]` of a buffer of `capacity` bytes with what `m` writes. -/
def fillSlice (capacity start len : Nat) (m : Write) : Result (List UInt8) :=
  if start + len ≤ capacity then Writer.fill len m else .abort

/-- The frame made of a header slice and a payload slice, with its length as a `u8`. -/
def frameOf (header payload : List UInt8) (payloadLen : Nat) : Result (List UInt8) := do
  failIf (headerLen + payloadLen > 255) (.frameTooLong (headerLen + payloadLen))
  return header ++ payload

def configPayloadLen (config : DeviceConfig) : Nat :=
  configBaseLen + config.expectedStepCount.toNat * configStepLen

def deviceConfigId (config : DeviceConfig) : Result UInt64 := do
  validateConfig config
  let bytes ← fillSlice (configBaseLen + maxProfileSteps * configStepLen) 0
    (configPayloadLen config) (writeConfigPayload config)
  let configId := fnv1a64 bytes
  failIf (configId = 0) (.invalidField "reserved_config_id")
  return configId

def encodeDeviceConfig (common : Common) (config : DeviceConfig) (repeated : Bool) :
    Result (List UInt8) := do
  validateConfig config
  let payloadLen := configPayloadLen config
  let payload ← fillSlice maxPhyFrameLen headerLen payloadLen (writeConfigPayload config)
  let configId ← deviceConfigId config
  let flags := if repeated then common.flags ||| commonFlagConfigRepeat else common.flags
  let header ← encodeHeader headerLen .deviceConfig { common with configId, flags } 0 1 payloadLen
  frameOf header payload payloadLen

/-- The present steps of the window of fragment `fragmentIndex`. -/
def windowSteps (scan : ProfileScan) (fragmentIndex : Nat) : Result (List ProfileStep) := do
  let windowStart := fragmentIndex * stepsPerFragment
  let windowEnd := min (windowStart + stepsPerFragment) scan.expectedStepCount.toNat
  let window ← slice scan.steps.toList windowStart windowEnd
  return window.filterMap id

/-- `&mut output.frames[fragment_index]`, one of the slots of an `EncodedProfile`. -/
def frameSlot (fragmentIndex : UInt8) : Result Unit :=
  if fragmentIndex.toNat < maxProfileFragments then .ok () else .abort

/-- One pass of the loop of `encode_profile`. -/
def encodeFragment (common : Common) (scan : ProfileScan) (fragmentCount fragmentIndex : UInt8) :
    Result (List UInt8) := do
  let steps ← windowSteps scan fragmentIndex.toNat
  let payloadLen := profileFragmentMetaLen + steps.length * profileStepLen
  frameSlot fragmentIndex
  let header ← encodeHeader headerLen .profileFragment common fragmentIndex fragmentCount payloadLen
  let payload ← fillSlice maxPhyFrameLen headerLen payloadLen
    (writeFragmentPayload scan (fragmentIndex.toNat * stepsPerFragment) steps)
  frameOf header payload payloadLen

/-- The encoded frames, in fragment order. -/
def encodeProfile (common : Common) (scan : ProfileScan) : Result (List (List UInt8)) := do
  validateProfile scan
  validateProfileConfigIdentity common scan.collectionFlags scan.finishReason
  let fragmentCount ← profileFragmentCount scan.expectedStepCount
  (List.range fragmentCount.toNat).mapM fun fragmentIndex =>
    encodeFragment common scan fragmentCount (.ofNat fragmentIndex)

def encodeDeviceHealth (common : Common) (health : DeviceHealth) : Result (List UInt8) := do
  validateHealthFlags common health.flags
  validateHealthConfigIdentity common health
  let extensionLen := health.calibratedMcuTemperatureCentiCelsius.isSome.toNat * 4
    + health.calibratedVddMillivolt.isSome.toNat * 4
  let payloadLen := healthBaseLen + extensionLen
  let header ← encodeHeader headerLen .deviceHealth common 0 1 payloadLen
  let payload ← fillSlice maxPhyFrameLen headerLen payloadLen
    (writeHealthPayload health extensionLen)
  frameOf header payload payloadLen

end Vesta.Protocol
