import Vesta.Protocol.Validate

/-!
# Protocol — Decode

The decoders of `v2.rs`: the common header, the three payloads, and `decode`.
-/

namespace Vesta.Protocol

open Outcome (failIf)

/-! ### The common header -/

def decodeHeader (bytes : List UInt8) : Result Header := do
  failIf (bytes.length < headerLen) (.wrongLength headerLen bytes.length)
  let headerBytes ← slice bytes 0 headerLen
  let (header, reader) ← (do
    let magic₀ ← Reader.u8
    let magic₁ ← Reader.u8
    Reader.failIf ((magic₀, magic₁) ≠ magic) (.invalidMagic (magic₀, magic₁))
    let version ← Reader.u8
    Reader.failIf (version ≠ versionV2) (.unsupportedVersion version)
    let frameType ← liftM (FrameType.tryFrom (← Reader.u8))
    let foundLen ← Reader.u8
    Reader.failIf (foundLen.toNat ≠ headerLen) (.invalidHeaderLength foundLen)
    let flags ← Reader.u8
    Reader.check (ensureKnownU8 "common_flags" flags commonFlagsKnown)
    let fragmentIndex ← Reader.u8
    let fragmentCount ← Reader.u8
    Reader.failIf (fragmentCount = 0) (.invalidFragmentCount fragmentCount)
    Reader.failIf (fragmentIndex ≥ fragmentCount)
      (.invalidFragmentIndex fragmentIndex fragmentCount)
    let payloadLen ← Reader.u16
    let nodeId ← Reader.u64
    let bootId ← Reader.u64
    let scanSequence ← Reader.u32
    let uptimeMs ← Reader.u64
    let configId ← Reader.u64
    let resetCauseFlags ← Reader.u16
    let common : Common :=
      { flags, nodeId, bootId, scanSequence, uptimeMs, configId, resetCauseFlags }
    return { frameType, common, fragmentIndex, fragmentCount, payloadLen : Header } :
      Read Header).run (Reader.new headerBytes)
  reader.finish
  ensureKnownU16 "reset_cause_flags" header.common.resetCauseFlags resetCauseFlagsKnown
  failIf (header.common.flags &&& commonFlagBootIdFromHwRng ≠ 0 ∧
      header.common.flags &&& commonFlagBootIdValid = 0)
    (.invalidField "boot_id_flags")
  failIf (header.common.flags &&& commonFlagBootIdValid = 0 ∧ header.common.bootId ≠ 0)
    (.invalidField "invalid_boot_id_value")
  let expectedLen := headerLen + header.payloadLen.toNat
  failIf (bytes.length ≠ expectedLen) (.wrongLength expectedLen bytes.length)
  return header

/-! ### Configurations -/

def validateDecodedConfig (header : Header) (payload : List UInt8) : Result Unit := do
  failIf (header.fragmentIndex ≠ 0 ∨ header.fragmentCount ≠ 1)
    (.invalidField "unfragmented_record_coordinates")
  failIf (payload.length < configBaseLen) (.wrongLength configBaseLen payload.length)
  failIf ((← index payload 0) ≠ configSchemaVersion) (.invalidField "config_schema_version")
  let stepCount ← index payload 43
  failIf (¬ (1 ≤ stepCount ∧ stepCount ≤ 10)) (.invalidField "expected_step_count")
  let expectedLen := configBaseLen + stepCount.toNat * configStepLen
  failIf (payload.length ≠ expectedLen) (.wrongLength expectedLen payload.length)
  ensureKnownU8 "config_flags" (← index payload 1) configFlagsKnown
  ensureKnownU8 "firmware_build_flags" (← index payload 5) buildFlagsKnown
  failIf (header.common.configId = 0) (.invalidField "reserved_config_id")
  let calculated := fnv1a64 payload
  failIf (calculated ≠ header.common.configId)
    (.configIdMismatch header.common.configId calculated)

def readVersion : Read (UInt8 × UInt8 × UInt8) := do
  return (← Reader.u8, ← Reader.u8, ← Reader.u8)

def readHeaterStep : Read HeaterStepConfig := do
  return {
    targetTemperatureCelsius := ← Reader.u16
    configuredDurationUs := ← Reader.u32
    repetitionMultiplier := ← Reader.u8
    readbackHeaterCurrent := ← Reader.u8
    programmedHeaterResistance := ← Reader.u8
    programmedGasWait := ← Reader.u8 }

/-- Read the slots `&mut steps[..n]`, which panics past the ten; the others keep their default. -/
def readHeaterSteps (n : Nat) : Read (List HeaterStepConfig) :=
  if n ≤ maxProfileSteps then (List.range n).mapM fun _ => readHeaterStep else throw .panicked

/-- The ten slots that start with `steps`. -/
def heaterSlots (steps : List HeaterStepConfig) : Vector HeaterStepConfig maxProfileSteps :=
  Vector.ofFn fun i => steps.getD i .default

def readConfig : Read DeviceConfig := do
  let flags ← Reader.u8
  let firmwareVersion ← readVersion
  let firmwareBuildFlags ← Reader.u8
  let firmwareBuildId ← Reader.u64
  let sensorChipId ← Reader.u8
  let sensorVariant ← Reader.u8
  let sensorI2cAddress ← Reader.u8
  let temperatureOversampling ← Reader.u8
  let humidityOversampling ← Reader.u8
  let pressureOversampling ← Reader.u8
  let iirFilter ← Reader.u8
  let standbyTime ← Reader.u8
  let operationMode ← Reader.u8
  let heaterEnabled ← Reader.u8
  let parallelRequestedSharedWaitMs ← Reader.u16
  let parallelSharedWaitRegister ← Reader.u8
  let parallelQuantizedSharedWaitUs ← Reader.u32
  let tphgDurationUs ← Reader.u32
  let expectedProfileDurationUs ← Reader.u32
  let profileId ← Reader.u16
  let profileVersion ← Reader.u16
  let expectedStepCount ← Reader.u8
  let heaterReadbackValidBitmap ← Reader.u16
  let calibrationHashAlgorithm ← Reader.u8
  let calibrationHash ← Reader.u64
  let scanIntervalMs ← Reader.u32
  let configRepeatIntervalScans ← Reader.u16
  let outputRoutes ← Reader.u8
  let radioFrequencyHz ← Reader.u32
  let radioTxPowerDbm ← Reader.i8
  let radioSpreadingFactor ← Reader.u8
  let radioBandwidthHz ← Reader.u32
  let radioCodingRateNumerator ← Reader.u8
  let radioCodingRateDenominator ← Reader.u8
  let radioPreambleSymbols ← Reader.u16
  let radioHeaderMode ← Reader.u8
  let radioPhyCrcEnabled ← Reader.u8
  let radioIqInverted ← Reader.u8
  let radioSyncWord ← Reader.u16
  let maxFrameLen ← Reader.u8
  let profileStepsPerFragment ← Reader.u8
  let steps ← readHeaterSteps expectedStepCount.toNat
  return {
    flags, firmwareVersion, firmwareBuildFlags, firmwareBuildId, sensorChipId, sensorVariant,
    sensorI2cAddress, temperatureOversampling, humidityOversampling, pressureOversampling,
    iirFilter, standbyTime, operationMode, heaterEnabled, parallelRequestedSharedWaitMs,
    parallelSharedWaitRegister, parallelQuantizedSharedWaitUs, tphgDurationUs,
    expectedProfileDurationUs, profileId, profileVersion, expectedStepCount,
    heaterReadbackValidBitmap, calibrationHashAlgorithm, calibrationHash, scanIntervalMs,
    configRepeatIntervalScans, outputRoutes, radioFrequencyHz, radioTxPowerDbm,
    radioSpreadingFactor, radioBandwidthHz, radioCodingRateNumerator,
    radioCodingRateDenominator, radioPreambleSymbols, radioHeaderMode, radioPhyCrcEnabled,
    radioIqInverted, radioSyncWord, maxFrameLen, profileStepsPerFragment,
    steps := heaterSlots steps }

def decodeDeviceConfig (header : Header) (payload : List UInt8) : Result DeviceConfig := do
  validateDecodedConfig header payload
  let (config, reader) ← (do
    Reader.failIf ((← Reader.u8) ≠ configSchemaVersion) (.invalidField "config_schema_version")
    readConfig : Read DeviceConfig).run (Reader.new payload)
  reader.finish
  validateConfig config
  return config

/-! ### Profile fragments -/

def readStep : Read ProfileStep := do
  return {
    stepIndex := ← Reader.u8
    gasIndex := ← Reader.u8
    measurementIndex := ← Reader.u8
    status := ← Reader.u8
    rawMeasurementStatus := ← Reader.u8
    rawGasStatus := ← Reader.u8
    targetTemperatureCelsius := ← Reader.u16
    configuredDurationUs := ← Reader.u32
    offsetUs := ← Reader.u32
    temperatureCentiCelsius := ← Reader.i16
    pressurePascal := ← Reader.u32
    humidityMilliPercentRh := ← Reader.u32
    gasResistanceOhm := ← Reader.u32
    temperatureAdc := ← Reader.u32
    pressureAdc := ← Reader.u32
    humidityAdc := ← Reader.u16
    gasResistanceAdc := ← Reader.u16
    gasRange := ← Reader.u8
    repetitionMultiplier := ← Reader.u8
    heaterResistance := ← Reader.u8
    heaterCurrent := ← Reader.u8
    gasWait := ← Reader.u8 }

def decodeStep (bytes : List UInt8) : Result ProfileStep := do
  failIf (bytes.length ≠ profileStepLen) (.wrongLength profileStepLen bytes.length)
  let (step, reader) ← readStep.run (Reader.new bytes)
  reader.finish
  validateProfileStep step
  return step

/-- `ProfileFragmentView::step`. -/
def ProfileFragmentView.step (view : ProfileFragmentView) (localIndex : Nat) :
    Result ProfileStep := do
  failIf (localIndex ≥ view.stepsInFragment.toNat) .stepIndexOutOfBounds
  let offset := localIndex * profileStepLen
  decodeStep (← slice view.stepBytes offset (offset + profileStepLen))

/-- The metadata of a fragment payload; the step bytes are left to the caller. -/
def readFragmentMeta (header : Header) : Read ProfileFragmentView := do
  let stepsInFragment ← Reader.u8
  let profileId ← Reader.u16
  let profileVersion ← Reader.u16
  let expectedStepCount ← Reader.u8
  let observedUniqueStepCount ← Reader.u8
  let observedFieldCount ← Reader.u16
  let missingStepsBitmap ← Reader.u16
  let duplicateStepsBitmap ← Reader.u16
  let scanDurationUs ← Reader.u32
  let collectionFlags ← Reader.u32
  let finishReason ← Reader.u8
  let duplicateCount ← Reader.u16
  let overwrittenFieldCount ← Reader.u16
  let outOfOrderCount ← Reader.u16
  let ambiguousIndexJumpCount ← Reader.u16
  let invalidGasIndexCount ← Reader.u16
  let intermediateFieldCount ← Reader.u16
  let profileRolloverCount ← Reader.u16
  let fieldsAfterRolloverCount ← Reader.u16
  let pollCount ← Reader.u16
  let stepWindowStart ← Reader.u8
  return {
    header, profileId, profileVersion, expectedStepCount, observedUniqueStepCount,
    observedFieldCount, missingStepsBitmap, duplicateStepsBitmap, scanDurationUs,
    collectionFlags, finishReason, duplicateCount, overwrittenFieldCount, outOfOrderCount,
    ambiguousIndexJumpCount, invalidGasIndexCount, intermediateFieldCount,
    profileRolloverCount, fieldsAfterRolloverCount, pollCount, stepWindowStart,
    stepsInFragment, stepBytes := [] }

/-- The loop that counts the steps of a window the bitmap does not report missing. -/
def countRequired (missing : UInt16) : List Nat → UInt8 → Result UInt8
  | [], required => pure required
  | index :: rest, required => do
      let bit ← bitU16 index
      if missing &&& bit = 0 then countRequired missing rest (← addU8 required 1)
      else countRequired missing rest required

/-- The loop that decodes the steps of a window and checks their indices. -/
def checkWindow (missing : UInt16) (stepBytes : List UInt8) : List Nat → Nat → Result Unit
  | [], _ => pure ()
  | logicalIndex :: rest, localIndex => do
      let bit ← bitU16 logicalIndex
      if missing &&& bit ≠ 0 then checkWindow missing stepBytes rest localIndex
      else
        let offset := localIndex * profileStepLen
        let step ← decodeStep (← slice stepBytes offset (offset + profileStepLen))
        failIf (step.stepIndex.toNat ≠ logicalIndex) (.invalidField "step_index")
        checkWindow missing stepBytes rest (localIndex + 1)

def decodeProfileFragment (header : Header) (payload : List UInt8) :
    Result ProfileFragmentView := do
  failIf (payload.length < profileFragmentMetaLen)
    (.wrongLength profileFragmentMetaLen payload.length)
  let (view, _) ← (do
    Reader.failIf ((← Reader.u8) ≠ profileSchemaVersion) (.invalidField "profile_schema_version")
    readFragmentMeta header : Read ProfileFragmentView).run (Reader.new payload)
  failIf (¬ (1 ≤ view.expectedStepCount ∧ view.expectedStepCount ≤ 10))
    (.invalidField "expected_step_count")
  ensureKnownU32 "collection_flags" view.collectionFlags collectionFlagsKnown
  failIf (view.profileId = 0 ∨ view.profileVersion = 0) (.invalidField "profile_identity")
  validateProfileConfigIdentity header.common view.collectionFlags view.finishReason
  failIf (view.finishReason > finishReasonProfileRollover) (.invalidField "finish_reason")
  failIf (view.collectionFlags &&& collectionFlagStalePreScanFields ≠ 0 ∧
      view.intermediateFieldCount = 0)
    (.invalidField "stale_pre_scan_fields")
  let requiredFragmentCount ← profileFragmentCount view.expectedStepCount
  failIf (header.fragmentCount ≠ requiredFragmentCount) (.invalidFragmentCount header.fragmentCount)
  let requiredWindowStart := header.fragmentIndex.toNat * stepsPerFragment
  failIf (view.stepWindowStart.toNat ≠ requiredWindowStart) (.invalidField "step_window_start")
  let validMask ← stepMask view.expectedStepCount
  failIf (view.missingStepsBitmap &&& ~~~validMask ≠ 0 ∨
      view.duplicateStepsBitmap &&& ~~~validMask ≠ 0)
    (.invalidField "step_bitmap")
  let requiredObserved ← subU8 view.expectedStepCount
    (.ofNat (Bitmap.countOnes view.missingStepsBitmap))
  failIf (view.observedUniqueStepCount ≠ requiredObserved ∨
      view.observedFieldCount < requiredObserved.toUInt16)
    (.invalidField "observed_counts")
  let windowEnd := min (requiredWindowStart + stepsPerFragment) view.expectedStepCount.toNat
  let window := List.range' requiredWindowStart (windowEnd - requiredWindowStart)
  let requiredSteps ← countRequired view.missingStepsBitmap window 0
  failIf (view.stepsInFragment ≠ requiredSteps) (.invalidField "steps_in_fragment")
  let expectedPayloadLen := profileFragmentMetaLen + view.stepsInFragment.toNat * profileStepLen
  failIf (payload.length ≠ expectedPayloadLen) (.wrongLength expectedPayloadLen payload.length)
  let stepBytes ← sliceFrom payload profileFragmentMetaLen
  checkWindow view.missingStepsBitmap stepBytes window 0
  return { view with stepBytes }

/-! ### Health -/

/-- The loop over the optional measurements: types in increasing order, each two bytes long.
Every pass moves the offset, so a fuel of one more than the length is enough. -/
def validateExtensions (payload : List UInt8) : Nat → Nat → UInt8 → Result Unit
  | 0, _, _ => .abort
  | fuel + 1, offset, previousType => do
      if offset < payload.length then
        let left ← subUsize payload.length offset
        failIf (left < 2) .bufferExhausted
        let kind ← index payload offset
        let len := (← index payload (offset + 1)).toNat
        failIf (kind ≤ previousType) (.invalidField "health_tlv_order")
        let left ← subUsize payload.length (offset + 2)
        failIf (left < len) .bufferExhausted
        if kind = 1 ∨ kind = 2 then
          failIf (len ≠ 2) (.invalidField "health_tlv_length")
          validateExtensions payload fuel (offset + 2 + len) kind
        else Outcome.fail (.invalidField "health_tlv_type")

def validateDecodedHealth (header : Header) (payload : List UInt8) : Result Unit := do
  failIf (header.fragmentIndex ≠ 0 ∨ header.fragmentCount ≠ 1)
    (.invalidField "unfragmented_record_coordinates")
  failIf (payload.length < healthBaseLen) (.wrongLength healthBaseLen payload.length)
  failIf ((← index payload 0) ≠ healthSchemaVersion) (.invalidField "health_schema_version")
  validateHealthFlags header.common (← index payload 1)
  let extensionLen := (← index payload 53).toNat
  let expectedLen := healthBaseLen + extensionLen
  failIf (payload.length ≠ expectedLen) (.wrongLength expectedLen payload.length)
  validateExtensions payload (payload.length + 1) healthBaseLen 0

def readHealthBase : Read (DeviceHealth × UInt8) := do
  let flags ← Reader.u8
  let resetCauseRaw ← Reader.u32
  let successfulSensorScans ← Reader.u32
  let failedSensorScans ← Reader.u32
  let incompleteProfiles ← Reader.u32
  let i2cErrors ← Reader.u32
  let radioTxErrors ← Reader.u32
  let droppedProfiles ← Reader.u32
  let droppedFragments ← Reader.u32
  let overwrittenFields ← Reader.u32
  let currentSampleIntervalMs ← Reader.u32
  let firmwareVersion ← readVersion
  let profileId ← Reader.u16
  let profileVersion ← Reader.u16
  let lastSensorError ← Reader.u16
  let lastRadioError ← Reader.u16
  let extensionLen ← Reader.u8
  return ({
    flags, resetCauseRaw, successfulSensorScans, failedSensorScans, incompleteProfiles,
    i2cErrors, radioTxErrors, droppedProfiles, droppedFragments, overwrittenFields,
    currentSampleIntervalMs, firmwareVersion, profileId, profileVersion, lastSensorError,
    lastRadioError, calibratedMcuTemperatureCentiCelsius := none,
    calibratedVddMillivolt := none }, extensionLen)

/-- The loop that reads the optional measurements into the record.  Every pass reads, so a fuel of
one more than the number of bytes is enough. -/
def readExtensions : Nat → DeviceHealth → Read DeviceHealth
  | 0, _ => throw .panicked
  | fuel + 1, health => do
      let r ← get
      if r.offset < r.bytes.length then
        let kind ← Reader.u8
        let len ← Reader.u8
        Reader.failIf (len ≠ 2) (.invalidField "health_tlv_length")
        if kind = 1 then
          let value ← Reader.i16
          readExtensions fuel { health with calibratedMcuTemperatureCentiCelsius := some value }
        else if kind = 2 then
          let value ← Reader.u16
          readExtensions fuel { health with calibratedVddMillivolt := some value }
        else throw (.error (.invalidField "health_tlv_type"))
      else pure health

def decodeDeviceHealth (header : Header) (payload : List UInt8) : Result DeviceHealth := do
  validateDecodedHealth header payload
  let baseBytes ← slice payload 0 healthBaseLen
  let ((base, extensionLen), reader) ← (do
    Reader.failIf ((← Reader.u8) ≠ healthSchemaVersion) (.invalidField "health_schema_version")
    readHealthBase : Read (DeviceHealth × UInt8)).run (Reader.new baseBytes)
  reader.finish
  let left ← subUsize payload.length healthBaseLen
  failIf (extensionLen.toNat ≠ left) (.invalidField "health_extension_len")
  let extensions ← sliceFrom payload healthBaseLen
  let (health, reader) ← (readExtensions (extensions.length + 1) base).run (Reader.new extensions)
  reader.finish
  validateHealthConfigIdentity header.common health
  return health

/-! ### Frames -/

/-- Decode and structurally validate any v2 record. -/
def decode (bytes : List UInt8) : Result DecodedFrame := do
  let header ← decodeHeader bytes
  let payload ← sliceFrom bytes headerLen
  match header.frameType with
  | .deviceConfig => do
      let config ← decodeDeviceConfig header payload
      return .deviceConfig header config
  | .profileFragment => do
      let view ← decodeProfileFragment header payload
      return .profileFragment view
  | .deviceHealth => do
      let health ← decodeDeviceHealth header payload
      return .deviceHealth header health

end Vesta.Protocol
