import Vesta.Protocol.Cursor

/-!
# Protocol — Records

The constants and the record types of protocol v2, as `v2.rs` declares them, and the frame types
of its header.  A fixed array of ten slots is a `Vector` of length `maxProfileSteps`.
-/

namespace Vesta.Protocol

/-! ### Constants -/

def magic : UInt8 × UInt8 := (0x56, 0x53)
def versionV2 : UInt8 := 2
def headerLen : Nat := 48
def maxPhyFrameLen : Nat := 255
abbrev maxProfileSteps : Nat := 10
def stepsPerFragment : Nat := 3
def maxProfileFragments : Nat := 4
def profileStepLen : Nat := 47
def profileFragmentMetaLen : Nat := 42
def configBaseLen : Nat := 83
def configStepLen : Nat := 10
def maxV2FrameLen : Nat := headerLen + profileFragmentMetaLen + stepsPerFragment * profileStepLen
def healthBaseLen : Nat := 54

def commonFlagBootIdValid : UInt8 := 0x01
def commonFlagBootIdFromHwRng : UInt8 := 0x02
def commonFlagConfigRepeat : UInt8 := 0x04
def commonFlagsKnown : UInt8 := 0x07

def configFlagCalibrationHashValid : UInt8 := 0x01
def configFlagSensorConfigReadBack : UInt8 := 0x02
def configFlagsKnown : UInt8 := 0x03
def outputRoutesKnown : UInt8 := 0x07
def buildFlagIdValid : UInt8 := 0x01
def buildFlagsKnown : UInt8 := 0x07

def collectionFlagDuplicate : UInt32 := 0x0004
def collectionFlagSensorReconfigured : UInt32 := 0x0800
def collectionFlagConfigMismatch : UInt32 := 0x1000
def collectionFlagStalePreScanFields : UInt32 := 0x2000
def collectionFlagsKnown : UInt32 := 0x3fff

def finishReasonComplete : UInt8 := 0
def finishReasonProfileRollover : UInt8 := 4
def resetCauseFlagsKnown : UInt16 := 0x00ff
def healthFlagBootIdUnavailable : UInt8 := 0x02
def healthFlagConfigMismatch : UInt8 := 0x04
def healthFlagsKnown : UInt8 := 0x3f

def configSchemaVersion : UInt8 := 1
def profileSchemaVersion : UInt8 := 1
def healthSchemaVersion : UInt8 := 1

/-! ### Headers -/

/-- Record discriminator in a v2 common header. -/
inductive FrameType where
  | deviceConfig
  | profileFragment
  | deviceHealth
deriving DecidableEq, Repr

namespace FrameType

/-- `frame_type as u8`. -/
def toU8 : FrameType → UInt8
  | deviceConfig => 1
  | profileFragment => 2
  | deviceHealth => 3

/-- `FrameType::try_from`. -/
def tryFrom (value : UInt8) : Result FrameType :=
  if value = 1 then .ok deviceConfig
  else if value = 2 then .ok profileFragment
  else if value = 3 then .ok deviceHealth
  else .error (.error (.unknownFrameType value))

@[simp] theorem tryFrom_toU8 (t : FrameType) : tryFrom t.toU8 = .ok t := by
  cases t <;> rfl

theorem tryFrom_eq_ok {value : UInt8} {t : FrameType} (h : tryFrom value = .ok t) :
    value = t.toU8 := by
  unfold tryFrom at h
  split at h
  · next hv => cases h; exact hv
  · split at h
    · next hv => cases h; exact hv
    · split at h
      · next hv => cases h; exact hv
      · cases h

end FrameType

/-- Metadata repeated in every v2 radio frame. -/
structure Common where
  flags : UInt8
  nodeId : UInt64
  bootId : UInt64
  scanSequence : UInt32
  uptimeMs : UInt64
  configId : UInt64
  resetCauseFlags : UInt16
deriving DecidableEq, Repr

/-- Parsed common header. -/
structure Header where
  frameType : FrameType
  common : Common
  fragmentIndex : UInt8
  fragmentCount : UInt8
  payloadLen : UInt16
deriving DecidableEq, Repr

/-! ### Records -/

/-- One exact programmed heater step in the configuration record. -/
structure HeaterStepConfig where
  targetTemperatureCelsius : UInt16
  configuredDurationUs : UInt32
  repetitionMultiplier : UInt8
  readbackHeaterCurrent : UInt8
  programmedHeaterResistance : UInt8
  programmedGasWait : UInt8
deriving DecidableEq, Repr

/-- `HeaterStepConfig::default()`. -/
def HeaterStepConfig.default : HeaterStepConfig := ⟨0, 0, 0, 0, 0, 0⟩

/-- Device, BME688 profile, firmware, cadence, and radio configuration. -/
structure DeviceConfig where
  flags : UInt8
  firmwareVersion : UInt8 × UInt8 × UInt8
  firmwareBuildFlags : UInt8
  firmwareBuildId : UInt64
  sensorChipId : UInt8
  sensorVariant : UInt8
  sensorI2cAddress : UInt8
  temperatureOversampling : UInt8
  humidityOversampling : UInt8
  pressureOversampling : UInt8
  iirFilter : UInt8
  standbyTime : UInt8
  operationMode : UInt8
  heaterEnabled : UInt8
  parallelRequestedSharedWaitMs : UInt16
  parallelSharedWaitRegister : UInt8
  parallelQuantizedSharedWaitUs : UInt32
  tphgDurationUs : UInt32
  expectedProfileDurationUs : UInt32
  profileId : UInt16
  profileVersion : UInt16
  expectedStepCount : UInt8
  heaterReadbackValidBitmap : UInt16
  calibrationHashAlgorithm : UInt8
  calibrationHash : UInt64
  scanIntervalMs : UInt32
  configRepeatIntervalScans : UInt16
  outputRoutes : UInt8
  radioFrequencyHz : UInt32
  radioTxPowerDbm : Int8
  radioSpreadingFactor : UInt8
  radioBandwidthHz : UInt32
  radioCodingRateNumerator : UInt8
  radioCodingRateDenominator : UInt8
  radioPreambleSymbols : UInt16
  radioHeaderMode : UInt8
  radioPhyCrcEnabled : UInt8
  radioIqInverted : UInt8
  radioSyncWord : UInt16
  maxFrameLen : UInt8
  profileStepsPerFragment : UInt8
  steps : Vector HeaterStepConfig maxProfileSteps
deriving DecidableEq

/-- Every raw and compensated value retained for one logical profile step. -/
structure ProfileStep where
  stepIndex : UInt8
  gasIndex : UInt8
  measurementIndex : UInt8
  status : UInt8
  rawMeasurementStatus : UInt8
  rawGasStatus : UInt8
  targetTemperatureCelsius : UInt16
  configuredDurationUs : UInt32
  offsetUs : UInt32
  temperatureCentiCelsius : Int16
  pressurePascal : UInt32
  humidityMilliPercentRh : UInt32
  gasResistanceOhm : UInt32
  temperatureAdc : UInt32
  pressureAdc : UInt32
  humidityAdc : UInt16
  gasResistanceAdc : UInt16
  gasRange : UInt8
  repetitionMultiplier : UInt8
  heaterResistance : UInt8
  heaterCurrent : UInt8
  gasWait : UInt8
deriving DecidableEq

/-- Complete bounded scan passed to the deterministic fragment encoder. -/
structure ProfileScan where
  profileId : UInt16
  profileVersion : UInt16
  expectedStepCount : UInt8
  observedUniqueStepCount : UInt8
  observedFieldCount : UInt16
  missingStepsBitmap : UInt16
  duplicateStepsBitmap : UInt16
  scanDurationUs : UInt32
  collectionFlags : UInt32
  finishReason : UInt8
  duplicateCount : UInt16
  overwrittenFieldCount : UInt16
  outOfOrderCount : UInt16
  ambiguousIndexJumpCount : UInt16
  invalidGasIndexCount : UInt16
  intermediateFieldCount : UInt16
  profileRolloverCount : UInt16
  fieldsAfterRolloverCount : UInt16
  pollCount : UInt16
  steps : Vector (Option ProfileStep) maxProfileSteps
deriving DecidableEq

/-- Periodic counters and reset/diagnostic snapshot. -/
structure DeviceHealth where
  flags : UInt8
  resetCauseRaw : UInt32
  successfulSensorScans : UInt32
  failedSensorScans : UInt32
  incompleteProfiles : UInt32
  i2cErrors : UInt32
  radioTxErrors : UInt32
  droppedProfiles : UInt32
  droppedFragments : UInt32
  overwrittenFields : UInt32
  currentSampleIntervalMs : UInt32
  firmwareVersion : UInt8 × UInt8 × UInt8
  profileId : UInt16
  profileVersion : UInt16
  lastSensorError : UInt16
  lastRadioError : UInt16
  calibratedMcuTemperatureCentiCelsius : Option Int16
  calibratedVddMillivolt : Option UInt16
deriving DecidableEq

/-- Validated profile-fragment metadata and borrowed step bytes. -/
structure ProfileFragmentView where
  header : Header
  profileId : UInt16
  profileVersion : UInt16
  expectedStepCount : UInt8
  observedUniqueStepCount : UInt8
  observedFieldCount : UInt16
  missingStepsBitmap : UInt16
  duplicateStepsBitmap : UInt16
  scanDurationUs : UInt32
  collectionFlags : UInt32
  finishReason : UInt8
  duplicateCount : UInt16
  overwrittenFieldCount : UInt16
  outOfOrderCount : UInt16
  ambiguousIndexJumpCount : UInt16
  invalidGasIndexCount : UInt16
  intermediateFieldCount : UInt16
  profileRolloverCount : UInt16
  fieldsAfterRolloverCount : UInt16
  pollCount : UInt16
  stepWindowStart : UInt8
  stepsInFragment : UInt8
  stepBytes : List UInt8
deriving DecidableEq

/-- Borrowed decoder result. -/
inductive DecodedFrame where
  | deviceConfig (header : Header) (config : DeviceConfig)
  | profileFragment (view : ProfileFragmentView)
  | deviceHealth (header : Header) (health : DeviceHealth)
deriving DecidableEq

end Vesta.Protocol
