import Vesta.Foundations.Fault

/-!
# Receiver — Records

The protocol-independent records of `records.rs`, with their structural validation.  The shifts
and subtractions that would overflow on a record that was never validated are kept: they panic.
-/

namespace Vesta.Receiver

open Outcome (failIf)

def maxHeaterSteps : UInt8 := 10

/-- Link quality of one received packet. -/
structure RadioMetadata where
  packetRssiCentiDbm : Int16
  snrCentiDb : Int16
  signalRssiCentiDbm : Int16
deriving DecidableEq

/-- Stable identity and monotonic timing shared by one protocol-v2 record. -/
structure RecordIdentity where
  commonFlags : UInt8
  nodeId : UInt64
  bootId : UInt64
  scanSequence : UInt32
  uptimeMs : UInt64
  configId : UInt64
  resetCauseFlags : UInt16
deriving DecidableEq

/-- Structurally invalid decoded record. -/
inductive RecordError where
  | invalidExpectedSteps (expectedSteps : UInt8)
  | configurationStepCount (expected : UInt8) (actual : Nat)
  | configurationStepOrder (position stepIndex : UInt8)
  | bitmapOutOfRange (field : String) (bitmap : UInt16) (expectedSteps : UInt8)
  | invalidFragmentCount (expected actual : UInt8)
  | fragmentBitmapOutOfRange (bitmap : UInt16) (expectedFragments : UInt8)
  | observedCountMismatch (reported computed : UInt8)
  | observedFieldCountTooSmall (fields : UInt16) (unique : UInt8)
  | stepIndexOutOfRange (index expectedSteps : UInt8)
  | duplicateStepIndex (stepIndex : UInt8)
  | statusRawMismatch (stepIndex status rawKnownStatus : UInt8)
  | gasIndexRawMismatch (stepIndex gasIndex rawGasIndex : UInt8)
  | gasRangeRawMismatch (stepIndex gasRange rawGasRange : UInt8)
  | gasIndexStepMismatch (stepIndex gasIndex : UInt8)
  | stepFromMissingFragment (stepIndex fragmentIndex : UInt8)
  | receivedFragmentMissingStep (stepIndex : UInt8)
  | missingBitmapMismatch (reported computed : UInt16)
deriving DecidableEq, Repr

/-- `expected_step_mask`. -/
def expectedStepMask {ε : Type} (expectedSteps : UInt8) : Outcome ε UInt16 :=
  maskU16 expectedSteps.toNat

/-- `expected_fragment_mask`. -/
def expectedFragmentMask {ε : Type} (expectedFragments : UInt8) : Outcome ε UInt16 :=
  maskU16 expectedFragments.toNat

/-! ### Configurations -/

/-- One configured heater step. -/
structure HeaterStepConfiguration where
  stepIndex : UInt8
  targetTemperatureCelsius : UInt16
  configuredDurationUs : UInt32
  repetitionMultiplier : UInt8
  readbackHeaterCurrent : UInt8
  programmedHeaterResistance : UInt8
  programmedGasWait : UInt8
deriving DecidableEq

/-- Device, sensor, heater-profile, cadence, and radio configuration. -/
structure DeviceConfiguration where
  identity : RecordIdentity
  repeated : Bool
  configFlags : UInt8
  firmwareVersion : UInt8 × UInt8 × UInt8
  firmwareBuildFlags : UInt8
  firmwareBuildId : UInt64
  sensorChipId : UInt8
  sensorVariant : UInt8
  sensorI2cAddress : UInt8
  temperatureOversampling : UInt8
  humidityOversampling : UInt8
  pressureOversampling : UInt8
  iirFilter : UInt8
  standbyTime : UInt8
  operationMode : UInt8
  heaterEnabled : UInt8
  parallelRequestedSharedWaitMs : UInt16
  parallelSharedWaitRegister : UInt8
  parallelQuantizedSharedWaitUs : UInt32
  tphgDurationUs : UInt32
  expectedProfileDurationUs : UInt32
  profileId : UInt16
  profileVersion : UInt16
  expectedStepCount : UInt8
  heaterReadbackValidBitmap : UInt16
  calibrationHashAlgorithm : UInt8
  calibrationHash : UInt64
  scanIntervalMs : UInt32
  configRepeatIntervalScans : UInt16
  outputRoutes : UInt8
  radioFrequencyHz : UInt32
  radioTxPowerDbm : Int8
  radioSpreadingFactor : UInt8
  radioBandwidthHz : UInt32
  radioCodingRateNumerator : UInt8
  radioCodingRateDenominator : UInt8
  radioPreambleSymbols : UInt16
  radioHeaderMode : UInt8
  radioPhyCrcEnabled : UInt8
  radioIqInverted : UInt8
  radioSyncWord : UInt16
  maxFrameLen : UInt8
  profileStepsPerFragment : UInt8
  heaterSteps : List HeaterStepConfiguration
deriving DecidableEq

/-- `DeviceConfiguration::validate`. -/
def DeviceConfiguration.validate (c : DeviceConfiguration) : Outcome RecordError Unit := do
  failIf (¬ (1 ≤ c.expectedStepCount ∧ c.expectedStepCount ≤ maxHeaterSteps))
    (.invalidExpectedSteps c.expectedStepCount)
  failIf (c.expectedStepCount.toNat ≠ c.heaterSteps.length)
    (.configurationStepCount c.expectedStepCount c.heaterSteps.length)
  c.heaterSteps.zipIdx.forM fun (step, position) =>
    failIf (step.stepIndex ≠ .ofNat position)
      (.configurationStepOrder (.ofNat position) step.stepIndex)
  let validMask ← expectedStepMask c.expectedStepCount
  failIf (c.heaterReadbackValidBitmap &&& ~~~validMask ≠ 0)
    (.bitmapOutOfRange "heater_readback_valid_bitmap" c.heaterReadbackValidBitmap
      c.expectedStepCount)

/-! ### Profiles -/

/-- Exact sensor values captured for one heater step. -/
structure ProfileStep where
  stepIndex : UInt8
  gasIndex : UInt8
  measurementIndex : UInt8
  statusBits : UInt8
  rawMeasurementStatus : UInt8
  rawGasStatus : UInt8
  targetTemperatureCelsius : UInt16
  configuredDurationUs : UInt32
  relativeOffsetUs : UInt32
  temperatureCentiCelsius : Int16
  pressurePascal : UInt32
  humidityMilliPercentRh : UInt32
  gasResistanceOhm : UInt32
  rawTemperatureAdc : UInt32
  rawPressureAdc : UInt32
  rawHumidityAdc : UInt16
  rawGasResistanceAdc : UInt16
  rawGasRange : UInt8
  repetitionMultiplier : UInt8
  rawHeaterResistance : UInt8
  rawHeaterCurrent : UInt8
  rawGasWait : UInt8
deriving DecidableEq

/-- `ProfileStep::validate_raw_consistency`. -/
def ProfileStep.validateRawConsistency (s : ProfileStep) : Outcome RecordError Unit := do
  let rawKnownStatus := (s.rawMeasurementStatus &&& 0x80) ||| (s.rawGasStatus &&& 0x30)
  failIf (s.statusBits &&& 0xb0 ≠ rawKnownStatus)
    (.statusRawMismatch s.stepIndex s.statusBits rawKnownStatus)
  let rawGasIndex := s.rawMeasurementStatus &&& 0x0f
  failIf (s.gasIndex ≠ rawGasIndex) (.gasIndexRawMismatch s.stepIndex s.gasIndex rawGasIndex)
  let rawGasRange := s.rawGasStatus &&& 0x0f
  failIf (s.rawGasRange ≠ rawGasRange) (.gasRangeRawMismatch s.stepIndex s.rawGasRange rawGasRange)
  failIf (s.gasIndex ≠ s.stepIndex) (.gasIndexStepMismatch s.stepIndex s.gasIndex)

/-- One complete or explicitly transport-incomplete heater-profile scan. -/
structure ProfileScan where
  identity : RecordIdentity
  profileId : UInt16
  profileVersion : UInt16
  expectedSteps : UInt8
  observedUniqueSteps : UInt8
  observedFieldCount : UInt16
  reportedMissingSteps : UInt16
  duplicateSteps : UInt16
  durationUs : UInt32
  collectionFlags : UInt32
  finishReason : UInt8
  duplicateCount : UInt16
  overwrittenFieldCount : UInt16
  outOfOrderCount : UInt16
  ambiguousIndexJumpCount : UInt16
  invalidGasIndexCount : UInt16
  intermediateFieldCount : UInt16
  profileRolloverCount : UInt16
  fieldsAfterRolloverCount : UInt16
  pollCount : UInt16
  expectedFragmentCount : UInt8
  receivedFragmentBitmap : UInt16
  duplicateFragmentCount : Nat
  conflictingFragmentCount : Nat
  steps : List ProfileStep
deriving DecidableEq

namespace ProfileScan

/-- `missing_fragment_bitmap`. -/
def missingFragmentBitmap {ε : Type} (scan : ProfileScan) : Outcome ε UInt16 := do
  let mask ← expectedFragmentMask scan.expectedFragmentCount
  return mask &&& ~~~scan.receivedFragmentBitmap

/-- `is_transport_complete`. -/
def isTransportComplete {ε : Type} (scan : ProfileScan) : Outcome ε Bool := do
  return decide ((← scan.missingFragmentBitmap) = 0)

/-- `computed_unavailable_steps`; a step index of 16 or more sets no bit. -/
def computedUnavailableSteps {ε : Type} (scan : ProfileScan) : Outcome ε UInt16 := do
  let expectedMask ← expectedStepMask scan.expectedSteps
  let observedMask := scan.steps.foldl
    (fun mask step =>
      mask ||| if step.stepIndex.toNat < 16 then Bitmap.bit step.stepIndex.toNat else 0) 0
  return expectedMask &&& ~~~observedMask

/-- The check of one of the step bitmaps. -/
def checkStepBitmap (scan : ProfileScan) (expectedMask : UInt16) (field : String)
    (bitmap : UInt16) : Outcome RecordError Unit :=
  failIf (bitmap &&& ~~~expectedMask ≠ 0) (.bitmapOutOfRange field bitmap scan.expectedSteps)

/-- One pass of the loop over the steps: the bits observed so far grow by the step's. -/
def checkStep (scan : ProfileScan) (observed : UInt16) (step : ProfileStep) :
    Outcome RecordError UInt16 := do
  failIf (step.stepIndex ≥ scan.expectedSteps)
    (.stepIndexOutOfRange step.stepIndex scan.expectedSteps)
  let bit ← bitU16 step.stepIndex.toNat
  failIf (observed &&& bit ≠ 0) (.duplicateStepIndex step.stepIndex)
  step.validateRawConsistency
  let fragmentIndex := step.stepIndex / 3
  let fragmentBit ← bitU16 fragmentIndex.toNat
  failIf (scan.receivedFragmentBitmap &&& fragmentBit = 0)
    (.stepFromMissingFragment step.stepIndex fragmentIndex)
  return observed ||| bit

/-- One pass of the loop over the step indices: a step that a received fragment does not report
missing was observed. -/
def checkIndex (scan : ProfileScan) (observed : UInt16) (stepIndex : Nat) :
    Outcome RecordError Unit := do
  let bit ← bitU16 stepIndex
  let fragmentBit ← bitU16 (stepIndex / 3)
  failIf (scan.receivedFragmentBitmap &&& fragmentBit ≠ 0 ∧ scan.reportedMissingSteps &&& bit = 0 ∧
      observed &&& bit = 0)
    (.receivedFragmentMissingStep (.ofNat stepIndex))

/-- `ProfileScan::validate`. -/
def validate (scan : ProfileScan) : Outcome RecordError Unit := do
  failIf (¬ (1 ≤ scan.expectedSteps ∧ scan.expectedSteps ≤ maxHeaterSteps))
    (.invalidExpectedSteps scan.expectedSteps)
  let requiredFragments : UInt8 := .ofNat ((scan.expectedSteps.toNat + 2) / 3)
  failIf (scan.expectedFragmentCount ≠ requiredFragments)
    (.invalidFragmentCount requiredFragments scan.expectedFragmentCount)
  let expectedMask ← expectedStepMask scan.expectedSteps
  scan.checkStepBitmap expectedMask "reported_missing_steps" scan.reportedMissingSteps
  scan.checkStepBitmap expectedMask "duplicate_steps" scan.duplicateSteps
  let fragmentMask ← expectedFragmentMask scan.expectedFragmentCount
  failIf (scan.receivedFragmentBitmap &&& ~~~fragmentMask ≠ 0)
    (.fragmentBitmapOutOfRange scan.receivedFragmentBitmap scan.expectedFragmentCount)
  let sensorObserved ← subU8 scan.expectedSteps
    (.ofNat (Bitmap.countOnes scan.reportedMissingSteps))
  failIf (sensorObserved ≠ scan.observedUniqueSteps)
    (.observedCountMismatch scan.observedUniqueSteps sensorObserved)
  failIf (scan.observedFieldCount < scan.observedUniqueSteps.toUInt16)
    (.observedFieldCountTooSmall scan.observedFieldCount scan.observedUniqueSteps)
  let observed ← scan.steps.foldlM scan.checkStep 0
  (List.range scan.expectedSteps.toNat).forM (scan.checkIndex observed)
  let complete ← scan.isTransportComplete
  let unavailable ← scan.computedUnavailableSteps
  failIf (complete ∧ unavailable ≠ scan.reportedMissingSteps)
    (.missingBitmapMismatch scan.reportedMissingSteps unavailable)

end ProfileScan

/-! ### Health -/

/-- Periodic health counters reported without interpreting fire risk. -/
structure DeviceHealth where
  identity : RecordIdentity
  healthFlags : UInt8
  resetCauseRaw : UInt32
  successfulSensorScans : UInt32
  failedSensorScans : UInt32
  incompleteProfiles : UInt32
  i2cErrors : UInt32
  radioTxErrors : UInt32
  droppedProfiles : UInt32
  droppedFragments : UInt32
  overwrittenFields : UInt32
  currentSampleIntervalMs : UInt32
  firmwareVersion : UInt8 × UInt8 × UInt8
  profileId : UInt16
  profileVersion : UInt16
  lastSensorError : UInt16
  lastRadioError : UInt16
  calibratedMcuTemperatureCentiCelsius : Option Int16
  calibratedVddMillivolt : Option UInt16
deriving DecidableEq

end Vesta.Receiver
