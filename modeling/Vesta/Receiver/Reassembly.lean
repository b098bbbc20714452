import Mathlib.Data.List.AList
import Mathlib.Data.List.Sort
import Mathlib.Data.List.MinMax
import Vesta.Protocol.Decode
import Vesta.Receiver.Records

/-!
# Receiver — Reassembly

The profile-fragment reassembler of `reassembly.rs`.  Instants of the monotonic clock are natural
numbers.  The active scans are a finite map; the order in which the hash map of the source yields
its keys is unspecified, so every operation that iterates over it is given that order.

An operation that fails returns no new state: the failures of `ingestAt` come before it changes
anything, and the last one, after a removal that cannot miss, is never reached.
-/

namespace Vesta.Receiver

open Outcome (failIf)

def defaultMaxActiveScans : Nat := 128

/-- `u16::saturating_add`. -/
def saturatingAdd (a b : Nat) : Nat := min (a + b) 65535

/-! ### Keys and fragments -/

/-- Stable key for one logical profile scan. -/
structure ProfileKey where
  nodeId : UInt64
  bootIdValid : Bool
  bootId : UInt64
  scanSequence : UInt32
  uptimeMs : UInt64
  configId : UInt64
deriving DecidableEq

/-- `ProfileKey::from(&Header)`. -/
def ProfileKey.ofHeader (header : Protocol.Header) : ProfileKey where
  nodeId := header.common.nodeId
  bootIdValid := header.common.flags &&& Protocol.commonFlagBootIdValid ≠ 0
  bootId := header.common.bootId
  scanSequence := header.common.scanSequence
  uptimeMs := header.common.uptimeMs
  configId := header.common.configId

/-- Receiver-owned provenance for one unique profile fragment. -/
structure SourceFragment where
  packetId : Int
  fragmentIndex : UInt8
  receivedAtUnixMs : Int
  radio : RadioMetadata
deriving DecidableEq

/-- Complete or explicitly incomplete logical profile plus packet provenance. -/
structure ReassembledProfile where
  scan : ProfileScan
  fragments : List SourceFragment
deriving DecidableEq

namespace ReassembledProfile

def firstReceivedAtUnixMs (p : ReassembledProfile) : Option Int :=
  (p.fragments.map (·.receivedAtUnixMs)).min?

def lastReceivedAtUnixMs (p : ReassembledProfile) : Option Int :=
  (p.fragments.map (·.receivedAtUnixMs)).max?

end ReassembledProfile

/-- `record_identity`. -/
def recordIdentity (header : Protocol.Header) : RecordIdentity :=
  ⟨header.common.flags, header.common.nodeId, header.common.bootId, header.common.scanSequence,
    header.common.uptimeMs, header.common.configId, header.common.resetCauseFlags⟩

/-- `profile_step`. -/
def profileStep (step : Protocol.ProfileStep) : ProfileStep where
  stepIndex := step.stepIndex
  gasIndex := step.gasIndex
  measurementIndex := step.measurementIndex
  statusBits := step.status
  rawMeasurementStatus := step.rawMeasurementStatus
  rawGasStatus := step.rawGasStatus
  targetTemperatureCelsius := step.targetTemperatureCelsius
  configuredDurationUs := step.configuredDurationUs
  relativeOffsetUs := step.offsetUs
  temperatureCentiCelsius := step.temperatureCentiCelsius
  pressurePascal := step.pressurePascal
  humidityMilliPercentRh := step.humidityMilliPercentRh
  gasResistanceOhm := step.gasResistanceOhm
  rawTemperatureAdc := step.temperatureAdc
  rawPressureAdc := step.pressureAdc
  rawHumidityAdc := step.humidityAdc
  rawGasResistanceAdc := step.gasResistanceAdc
  rawGasRange := step.gasRange
  repetitionMultiplier := step.repetitionMultiplier
  rawHeaterResistance := step.heaterResistance
  rawHeaterCurrent := step.heaterCurrent
  rawGasWait := step.gasWait

/-- `fragment_steps`. -/
def fragmentSteps (view : Protocol.ProfileFragmentView) : Protocol.Result (List ProfileStep) :=
  (List.range view.stepsInFragment.toNat).mapM fun localIndex => do
    return profileStep (← view.step localIndex)

/-- What the fragments of one scan have in common. -/
structure ProfileMetadata where
  key : ProfileKey
  identity : RecordIdentity
  profileId : UInt16
  profileVersion : UInt16
  expectedSteps : UInt8
  observedUniqueSteps : UInt8
  observedFieldCount : UInt16
  reportedMissingSteps : UInt16
  duplicateSteps : UInt16
  durationUs : UInt32
  collectionFlags : UInt32
  finishReason : UInt8
  duplicateCount : UInt16
  overwrittenFieldCount : UInt16
  outOfOrderCount : UInt16
  ambiguousIndexJumpCount : UInt16
  invalidGasIndexCount : UInt16
  intermediateFieldCount : UInt16
  profileRolloverCount : UInt16
  fieldsAfterRolloverCount : UInt16
  pollCount : UInt16
  expectedFragmentCount : UInt8
deriving DecidableEq

/-- A fragment with its steps extracted. -/
structure OwnedFragment where
  metadata : ProfileMetadata
  fragmentIndex : UInt8
  steps : List ProfileStep
deriving DecidableEq

/-- The metadata of a fragment. -/
def ProfileMetadata.ofView (view : Protocol.ProfileFragmentView) : ProfileMetadata where
  key := .ofHeader view.header
  identity := recordIdentity view.header
  profileId := view.profileId
  profileVersion := view.profileVersion
  expectedSteps := view.expectedStepCount
  observedUniqueSteps := view.observedUniqueStepCount
  observedFieldCount := view.observedFieldCount
  reportedMissingSteps := view.missingStepsBitmap
  duplicateSteps := view.duplicateStepsBitmap
  durationUs := view.scanDurationUs
  collectionFlags := view.collectionFlags
  finishReason := view.finishReason
  duplicateCount := view.duplicateCount
  overwrittenFieldCount := view.overwrittenFieldCount
  outOfOrderCount := view.outOfOrderCount
  ambiguousIndexJumpCount := view.ambiguousIndexJumpCount
  invalidGasIndexCount := view.invalidGasIndexCount
  intermediateFieldCount := view.intermediateFieldCount
  profileRolloverCount := view.profileRolloverCount
  fieldsAfterRolloverCount := view.fieldsAfterRolloverCount
  pollCount := view.pollCount
  expectedFragmentCount := view.header.fragmentCount

/-- `OwnedFragment::from_view`. -/
def OwnedFragment.fromView (view : Protocol.ProfileFragmentView) :
    Protocol.Result OwnedFragment := do
  let steps ← fragmentSteps view
  return ⟨.ofView view, view.header.fragmentIndex, steps⟩

/-! ### Results -/

/-- Progress after accepting one unique fragment. -/
structure ReassemblyProgress where
  key : ProfileKey
  receivedFragmentBitmap : UInt16
  missingFragmentBitmap : UInt16
deriving DecidableEq

/-- Receiver-side result of ingesting one valid profile fragment. -/
inductive FragmentEvent where
  | pending (progress : ReassemblyProgress)
  | complete (profile : ReassembledProfile)
  | duplicate (key : ProfileKey) (fragmentIndex : UInt8)
  | conflict (key : ProfileKey) (fragmentIndex : UInt8)
deriving DecidableEq

/-- One ingest result, including an incomplete scan evicted to enforce bounds. -/
structure IngestResult where
  event : FragmentEvent
  evicted : Option ReassembledProfile
  integritySnapshot : Option ReassembledProfile
deriving DecidableEq

inductive ReassemblyError where
  | invalidCapacity
  | sourceFragmentIndex (source wire : UInt8)
  | codec (error : Protocol.Error)
  | internalState
deriving DecidableEq

/-- `fragment_mask`. -/
def fragmentMask {ε : Type} (fragmentCount : UInt8) : Outcome ε UInt16 :=
  maskU16 fragmentCount.toNat

/-! ### Active scans -/

/-- A scan being reassembled. -/
structure ActiveProfile where
  metadata : ProfileMetadata
  fragments : List (Option OwnedFragment)
  sources : List SourceFragment
  receivedFragmentBitmap : UInt16
  duplicateFragmentCount : Nat
  conflictingFragmentCount : Nat
  lastObservedAt : Nat
deriving DecidableEq

namespace ActiveProfile

/-- `ActiveProfile::new`. -/
def new (fragment : OwnedFragment) (observedAt : Nat) : ActiveProfile where
  metadata := fragment.metadata
  fragments := List.replicate fragment.metadata.expectedFragmentCount.toNat none
  sources := []
  receivedFragmentBitmap := 0
  duplicateFragmentCount := 0
  conflictingFragmentCount := 0
  lastObservedAt := observedAt

/-- `ActiveProfile::finish`.  Steps with equal indices, which no scan has, keep their order. -/
def finish (a : ActiveProfile) : ReassembledProfile :=
  let steps := ((a.fragments.filterMap id).flatMap (·.steps)).insertionSort
    fun s t => s.stepIndex ≤ t.stepIndex
  { scan :=
      { identity := a.metadata.identity
        profileId := a.metadata.profileId
        profileVersion := a.metadata.profileVersion
        expectedSteps := a.metadata.expectedSteps
        observedUniqueSteps := a.metadata.observedUniqueSteps
        observedFieldCount := a.metadata.observedFieldCount
        reportedMissingSteps := a.metadata.reportedMissingSteps
        duplicateSteps := a.metadata.duplicateSteps
        durationUs := a.metadata.durationUs
        collectionFlags := a.metadata.collectionFlags
        finishReason := a.metadata.finishReason
        duplicateCount := a.metadata.duplicateCount
        overwrittenFieldCount := a.metadata.overwrittenFieldCount
        outOfOrderCount := a.metadata.outOfOrderCount
        ambiguousIndexJumpCount := a.metadata.ambiguousIndexJumpCount
        invalidGasIndexCount := a.metadata.invalidGasIndexCount
        intermediateFieldCount := a.metadata.intermediateFieldCount
        profileRolloverCount := a.metadata.profileRolloverCount
        fieldsAfterRolloverCount := a.metadata.fieldsAfterRolloverCount
        pollCount := a.metadata.pollCount
        expectedFragmentCount := a.metadata.expectedFragmentCount
        receivedFragmentBitmap := a.receivedFragmentBitmap
        duplicateFragmentCount := a.duplicateFragmentCount
        conflictingFragmentCount := a.conflictingFragmentCount
        steps }
    fragments := a.sources }

/-- `ActiveProfile::snapshot`. -/
def snapshot (a : ActiveProfile) : ReassembledProfile := a.finish

def addDuplicates (a : ActiveProfile) (n : Nat) : ActiveProfile :=
  { a with duplicateFragmentCount := saturatingAdd a.duplicateFragmentCount n }

def addConflicts (a : ActiveProfile) (n : Nat) : ActiveProfile :=
  { a with conflictingFragmentCount := saturatingAdd a.conflictingFragmentCount n }

/-- Put a fragment into its empty slot. -/
def accept {ε : Type} (a : ActiveProfile) (fragment : OwnedFragment) (source : SourceFragment)
    (observedAt : Nat) : Outcome ε ActiveProfile := do
  let bit ← bitU16 fragment.fragmentIndex.toNat
  return { a with
    receivedFragmentBitmap := a.receivedFragmentBitmap ||| bit
    lastObservedAt := max a.lastObservedAt observedAt
    sources := a.sources ++ [source]
    fragments := a.fragments.set fragment.fragmentIndex.toNat (some fragment) }

end ActiveProfile

/-- The fragments of a completed scan, kept to classify late ones. -/
structure CompletedProfile where
  key : ProfileKey
  fragments : List (Option OwnedFragment)
  completedAt : Nat
deriving DecidableEq

/-- The event of a fragment of a completed scan. -/
def CompletedProfile.classify (c : CompletedProfile) (fragment : OwnedFragment) : FragmentEvent :=
  match c.fragments[fragment.fragmentIndex.toNat]? with
  | some (some previous) =>
      if previous = fragment then .duplicate fragment.metadata.key fragment.fragmentIndex
      else .conflict fragment.metadata.key fragment.fragmentIndex
  | _ => .conflict fragment.metadata.key fragment.fragmentIndex

/-! ### The reassembler -/

/-- An order in which a hash map yields its keys. -/
structure HashOrder where
  arrange : List ProfileKey → List ProfileKey
  perm : ∀ keys, (arrange keys).Perm keys

/-- The order in which the keys are stored. -/
def HashOrder.stored : HashOrder := ⟨id, List.Perm.refl⟩

/-- Bounded out-of-order profile-fragment reassembler. -/
structure ProfileReassembler where
  active : AList fun _ : ProfileKey => ActiveProfile
  completed : List CompletedProfile
  maxActive : Nat
  positive : 0 < maxActive

namespace ProfileReassembler

/-- `ProfileReassembler::default`. -/
def default : ProfileReassembler := ⟨∅, [], defaultMaxActiveScans, by decide⟩

/-- `ProfileReassembler::with_capacity`. -/
def withCapacity (maxActive : Nat) : Outcome ReassemblyError ProfileReassembler :=
  if h : 0 < maxActive then .ok ⟨∅, [], maxActive, h⟩ else Outcome.fail .invalidCapacity

def activeLen (r : ProfileReassembler) : Nat := r.active.entries.length

def containsActive (r : ProfileReassembler) (key : ProfileKey) : Bool :=
  (r.active.lookup key).isSome

def put (r : ProfileReassembler) (key : ProfileKey) (a : ActiveProfile) : ProfileReassembler :=
  { r with active := r.active.insert key a }

def remove (r : ProfileReassembler) (key : ProfileKey) : ProfileReassembler :=
  { r with active := r.active.erase key }

/-- The key of the least recently updated scan. -/
def oldestKey (r : ProfileReassembler) (order : HashOrder) : Option ProfileKey :=
  (order.arrange r.active.keys).argmin fun key =>
    ((r.active.lookup key).map (·.lastObservedAt)).getD 0

/-- Make room for a scan that is not active yet. -/
def evictFor (r : ProfileReassembler) (order : HashOrder) (key : ProfileKey) :
    Option ReassembledProfile × ProfileReassembler :=
  if ¬ r.containsActive key ∧ r.activeLen ≥ r.maxActive then
    match r.oldestKey order with
    | none => (none, r)
    | some oldest => ((r.active.lookup oldest).map (·.finish), r.remove oldest)
  else (none, r)

/-- Move a scan from the active map to the completed queue. -/
def complete (r : ProfileReassembler) (key : ProfileKey) (a : ActiveProfile) :
    ProfileReassembler :=
  let completed := r.completed ++ [⟨key, a.fragments, a.lastObservedAt⟩]
  { r.remove key with completed := completed.drop (completed.length - r.maxActive) }

/-- The part of `ingest_at` after the lookup in the completed queue. -/
def ingestActive (r : ProfileReassembler) (order : HashOrder) (owned : OwnedFragment)
    (source : SourceFragment) (observedAt : Nat) :
    Outcome ReassemblyError (IngestResult × ProfileReassembler) := do
  let key := owned.metadata.key
  let (evicted, r) := r.evictFor order key
  let active := (r.active.lookup key).getD (.new owned observedAt)
  if active.metadata ≠ owned.metadata then
    let active := active.addConflicts 1
    return (⟨.conflict key owned.fragmentIndex, evicted, some active.snapshot⟩, r.put key active)
  else
    match ← index active.fragments owned.fragmentIndex.toNat with
    | some previous =>
        if previous = owned then
          let active := active.addDuplicates 1
          return (⟨.duplicate key owned.fragmentIndex, evicted, some active.snapshot⟩,
            r.put key active)
        else
          let active := active.addConflicts 1
          return (⟨.conflict key owned.fragmentIndex, evicted, some active.snapshot⟩,
            r.put key active)
    | none =>
        let active ← active.accept owned source observedAt
        let expectedMask ← fragmentMask active.metadata.expectedFragmentCount
        if active.receivedFragmentBitmap = expectedMask then
          match (r.put key active).active.lookup key with
          | none => Outcome.fail .internalState
          | some active =>
              return (⟨.complete active.finish, evicted, none⟩,
                (r.put key active).complete key active)
        else
          return (⟨.pending ⟨key, active.receivedFragmentBitmap,
            expectedMask &&& ~~~active.receivedFragmentBitmap⟩, evicted, none⟩, r.put key active)

/-- `ingest_at` of a fragment whose steps have been extracted. -/
def ingestOwned (r : ProfileReassembler) (order : HashOrder) (owned : OwnedFragment)
    (source : SourceFragment) (observedAt : Nat) :
    Outcome ReassemblyError (IngestResult × ProfileReassembler) := do
  failIf (source.fragmentIndex ≠ owned.fragmentIndex)
    (.sourceFragmentIndex source.fragmentIndex owned.fragmentIndex)
  match r.completed.find? fun entry => decide (entry.key = owned.metadata.key) with
  | some completed => return (⟨completed.classify owned, none, none⟩, r)
  | none => r.ingestActive order owned source observedAt

/-- `ProfileReassembler::ingest_at`. -/
def ingestAt (r : ProfileReassembler) (order : HashOrder) (fragment : Protocol.ProfileFragmentView)
    (source : SourceFragment) (observedAt : Nat) :
    Outcome ReassemblyError (IngestResult × ProfileReassembler) := do
  let owned ← Outcome.mapErr .codec (OwnedFragment.fromView fragment)
  r.ingestOwned order owned source observedAt

/-- Remove scans from the active map and finish them, one after the other. -/
def takeActive (r : ProfileReassembler) :
    List ProfileKey → List ReassembledProfile × ProfileReassembler
  | [] => ([], r)
  | key :: keys =>
      let (rest, r') := (r.remove key).takeActive keys
      match r.active.lookup key with
      | some scan => (scan.finish :: rest, r')
      | none => (rest, r')

/-- `ProfileReassembler::expire_before`. -/
def expireBefore (r : ProfileReassembler) (order : HashOrder) (cutoff : Nat) :
    List ReassembledProfile × ProfileReassembler :=
  let expiredKeys := (order.arrange r.active.keys).filter fun key =>
    (r.active.lookup key).any fun scan => scan.lastObservedAt < cutoff
  let (expired, r) := r.takeActive expiredKeys
  (expired, { r with completed := r.completed.filter fun entry => entry.completedAt ≥ cutoff })

/-- `ProfileReassembler::expire_older_than`, at the instant `now`. -/
def expireOlderThan (r : ProfileReassembler) (order : HashOrder) (now maximumAge : Nat) :
    List ReassembledProfile × ProfileReassembler :=
  if maximumAge ≤ now then r.expireBefore order (now - maximumAge) else ([], r)

/-- `ProfileReassembler::drain_incomplete`. -/
def drainIncomplete (r : ProfileReassembler) (order : HashOrder) :
    List ReassembledProfile × ProfileReassembler :=
  r.takeActive (order.arrange r.active.keys)

/-- `ProfileReassembler::discard`. -/
def discard (r : ProfileReassembler) (key : ProfileKey) : ProfileReassembler :=
  { r.remove key with completed := r.completed.filter fun profile => profile.key ≠ key }

/-- `ProfileReassembler::restore_receiver_counts`. -/
def restoreReceiverCounts (r : ProfileReassembler) (key : ProfileKey)
    (duplicateFragmentCount conflictingFragmentCount : Nat) :
    Outcome ReassemblyError ProfileReassembler :=
  match r.active.lookup key with
  | none => Outcome.fail .internalState
  | some active =>
      .ok (r.put key
        ((active.addDuplicates duplicateFragmentCount).addConflicts conflictingFragmentCount))

end ProfileReassembler

/-! ### Records of the other frames -/

/-- `device_configuration`. -/
def deviceConfiguration {ε : Type} (header : Protocol.Header) (config : Protocol.DeviceConfig) :
    Outcome ε DeviceConfiguration := do
  let steps ← slice config.steps.toList 0 config.expectedStepCount.toNat
  return {
    identity := recordIdentity header
    repeated := header.common.flags &&& Protocol.commonFlagConfigRepeat ≠ 0
    configFlags := config.flags
    firmwareVersion := config.firmwareVersion
    firmwareBuildFlags := config.firmwareBuildFlags
    firmwareBuildId := config.firmwareBuildId
    sensorChipId := config.sensorChipId
    sensorVariant := config.sensorVariant
    sensorI2cAddress := config.sensorI2cAddress
    temperatureOversampling := config.temperatureOversampling
    humidityOversampling := config.humidityOversampling
    pressureOversampling := config.pressureOversampling
    iirFilter := config.iirFilter
    standbyTime := config.standbyTime
    operationMode := config.operationMode
    heaterEnabled := config.heaterEnabled
    parallelRequestedSharedWaitMs := config.parallelRequestedSharedWaitMs
    parallelSharedWaitRegister := config.parallelSharedWaitRegister
    parallelQuantizedSharedWaitUs := config.parallelQuantizedSharedWaitUs
    tphgDurationUs := config.tphgDurationUs
    expectedProfileDurationUs := config.expectedProfileDurationUs
    profileId := config.profileId
    profileVersion := config.profileVersion
    expectedStepCount := config.expectedStepCount
    heaterReadbackValidBitmap := config.heaterReadbackValidBitmap
    calibrationHashAlgorithm := config.calibrationHashAlgorithm
    calibrationHash := config.calibrationHash
    scanIntervalMs := config.scanIntervalMs
    configRepeatIntervalScans := config.configRepeatIntervalScans
    outputRoutes := config.outputRoutes
    radioFrequencyHz := config.radioFrequencyHz
    radioTxPowerDbm := config.radioTxPowerDbm
    radioSpreadingFactor := config.radioSpreadingFactor
    radioBandwidthHz := config.radioBandwidthHz
    radioCodingRateNumerator := config.radioCodingRateNumerator
    radioCodingRateDenominator := config.radioCodingRateDenominator
    radioPreambleSymbols := config.radioPreambleSymbols
    radioHeaderMode := config.radioHeaderMode
    radioPhyCrcEnabled := config.radioPhyCrcEnabled
    radioIqInverted := config.radioIqInverted
    radioSyncWord := config.radioSyncWord
    maxFrameLen := config.maxFrameLen
    profileStepsPerFragment := config.profileStepsPerFragment
    heaterSteps := steps.zipIdx.map fun (step, index) =>
      ⟨.ofNat index, step.targetTemperatureCelsius, step.configuredDurationUs,
        step.repetitionMultiplier, step.readbackHeaterCurrent, step.programmedHeaterResistance,
        step.programmedGasWait⟩ }

/-- `device_health`. -/
def deviceHealth (header : Protocol.Header) (health : Protocol.DeviceHealth) : DeviceHealth where
  identity := recordIdentity header
  healthFlags := health.flags
  resetCauseRaw := health.resetCauseRaw
  successfulSensorScans := health.successfulSensorScans
  failedSensorScans := health.failedSensorScans
  incompleteProfiles := health.incompleteProfiles
  i2cErrors := health.i2cErrors
  radioTxErrors := health.radioTxErrors
  droppedProfiles := health.droppedProfiles
  droppedFragments := health.droppedFragments
  overwrittenFields := health.overwrittenFields
  currentSampleIntervalMs := health.currentSampleIntervalMs
  firmwareVersion := health.firmwareVersion
  profileId := health.profileId
  profileVersion := health.profileVersion
  lastSensorError := health.lastSensorError
  lastRadioError := health.lastRadioError
  calibratedMcuTemperatureCentiCelsius := health.calibratedMcuTemperatureCentiCelsius
  calibratedVddMillivolt := health.calibratedVddMillivolt

end Vesta.Receiver
