import Vesta.Protocol.Any
import Vesta.Receiver.Records

/-!
# Analysis — Samples

The observations of `analysis.rs` and the gates in front of them: the quality flags of one
measurement, the integrity gate of a profile scan, and the identity and the time by which an
observation is compared with an earlier one.

Doubles are Lean's.  Nothing here is proved of their values, only of whether they are there.
-/

namespace Vesta.Analysis

open Protocol (commonFlagBootIdValid collectionFlagDuplicate collectionFlagSensorReconfigured
  finishReasonComplete)
open Receiver (ProfileScan ProfileStep)

def minTemperatureCentiCelsius : Int16 := -4000
def maxTemperatureCentiCelsius : Int16 := 8500
def minPressurePascal : UInt32 := 30000
def maxPressurePascal : UInt32 := 110000
def maxHumidityMilliPercentRh : UInt32 := 100000

/-- An allowlist: any other flag of the collector is critical. -/
def analysisAllowedCollectionFlags : UInt32 :=
  collectionFlagDuplicate ||| collectionFlagSensorReconfigured

/-! ### Quality -/

/-- Bitset describing why one sensor sample should not feed analysis directly. -/
structure QualityFlags where
  bits : UInt16
deriving DecidableEq

namespace QualityFlags

/-- `QualityFlags::default`. -/
def default : QualityFlags := ⟨0⟩

def notNewData : QualityFlags := ⟨0x0001⟩
def gasInvalid : QualityFlags := ⟨0x0002⟩
def heaterUnstable : QualityFlags := ⟨0x0004⟩
def unknownStatus : QualityFlags := ⟨0x0008⟩
def temperatureOutOfRange : QualityFlags := ⟨0x0010⟩
def pressureOutOfRange : QualityFlags := ⟨0x0020⟩
def humidityOutOfRange : QualityFlags := ⟨0x0040⟩
def gasResistanceZero : QualityFlags := ⟨0x0080⟩
def profileScanUnusable : QualityFlags := ⟨0x0100⟩

def isEmpty (q : QualityFlags) : Bool := q.bits = 0

def insert (q other : QualityFlags) : QualityFlags := ⟨q.bits ||| other.bits⟩

/-- `if c { quality.insert(other) }`. -/
def insertIf (q : QualityFlags) (c : Prop) [Decidable c] (other : QualityFlags) : QualityFlags :=
  if c then q.insert other else q

end QualityFlags

/-- `sample_quality`. -/
def sampleQuality (statusBits : UInt8) (temperatureCentiCelsius : Int16)
    (pressurePascal humidityMilliPercentRh gasResistanceOhm : UInt32) : QualityFlags :=
  QualityFlags.default
    |>.insertIf (statusBits &&& 0x80 = 0) .notNewData
    |>.insertIf (statusBits &&& 0x20 = 0) .gasInvalid
    |>.insertIf (statusBits &&& 0x10 = 0) .heaterUnstable
    |>.insertIf (statusBits &&& ~~~0xb0 ≠ 0) .unknownStatus
    |>.insertIf (¬ (minTemperatureCentiCelsius ≤ temperatureCentiCelsius ∧
        temperatureCentiCelsius ≤ maxTemperatureCentiCelsius)) .temperatureOutOfRange
    |>.insertIf (¬ (minPressurePascal ≤ pressurePascal ∧ pressurePascal ≤ maxPressurePascal))
        .pressureOutOfRange
    |>.insertIf (humidityMilliPercentRh > maxHumidityMilliPercentRh) .humidityOutOfRange
    |>.insertIf (gasResistanceOhm = 0) .gasResistanceZero

/-- The quality of the measurement of one step. -/
def stepQuality (step : ProfileStep) : QualityFlags :=
  sampleQuality step.statusBits step.temperatureCentiCelsius step.pressurePascal
    step.humidityMilliPercentRh step.gasResistanceOhm

/-- `gas_log`. -/
def gasLog (gasResistanceOhm : UInt32) : Option Float :=
  if gasResistanceOhm ≠ 0 then some gasResistanceOhm.toFloat.log else none

/-- `profile_scan_allows_analysis`.  What stands after a failed condition is not computed. -/
def profileScanAllowsAnalysis {ε : Type} (scan : ProfileScan) : Outcome ε Bool := do
  if !(← scan.validate.isOk) then return false
  if scan.identity.commonFlags &&& commonFlagBootIdValid = 0 then return false
  if !(← scan.isTransportComplete) then return false
  if (← scan.computedUnavailableSteps) ≠ 0 then return false
  return decide (scan.finishReason = finishReasonComplete ∧
    scan.collectionFlags &&& ~~~analysisAllowedCollectionFlags = 0 ∧
    scan.overwrittenFieldCount = 0 ∧ scan.outOfOrderCount = 0 ∧
    scan.ambiguousIndexJumpCount = 0 ∧ scan.invalidGasIndexCount = 0 ∧
    scan.profileRolloverCount = 0 ∧ scan.fieldsAfterRolloverCount = 0 ∧
    scan.conflictingFragmentCount = 0)

/-! ### Observations -/

/-- Exact sensor channel represented by an analysis sample. -/
inductive AnalysisSeries where
  | legacyV1
  | profileStep (configId : UInt64) (profileId profileVersion : UInt16) (stepIndex : UInt8)
deriving DecidableEq

/-- `matches!(series, AnalysisSeries::ProfileStep { .. })`. -/
def AnalysisSeries.isProfileStep : AnalysisSeries → Bool
  | profileStep .. => true
  | legacyV1 => false

structure HistoryKey where
  nodeId : UInt64
  bootId : Option UInt64
  series : AnalysisSeries
deriving DecidableEq

/-- `u64::try_from`, followed by the filter that keeps what is not zero. -/
def positiveU64 (n : Nat) : Option UInt64 := if 0 < n ∧ n < 2 ^ 64 then some (.ofNat n) else none

/-- Device-monotonic timestamp for one heater-step field observation. -/
structure DeviceSampleTime where
  scanStartUptimeMs : UInt64
  relativeOffsetUs : UInt32
deriving DecidableEq

namespace DeviceSampleTime

/-- `total_microseconds`; the sum is far below `2 ^ 128`. -/
def totalMicroseconds (t : DeviceSampleTime) : Nat :=
  t.scanStartUptimeMs.toNat * 1000 + t.relativeOffsetUs.toNat

/-- `DeviceSampleTime::elapsed_since`. -/
def elapsedSince (t prior : DeviceSampleTime) : Option UInt64 :=
  if prior.totalMicroseconds ≤ t.totalMicroseconds then
    positiveU64 (t.totalMicroseconds - prior.totalMicroseconds)
  else none

end DeviceSampleTime

/-- Exact server-side observation before derivative calculation. -/
structure AnalysisSample where
  nodeId : UInt64
  bootId : Option UInt64
  sequence : UInt32
  series : AnalysisSeries
  receivedAtUnixMs : Int64
  deviceSampleTime : Option DeviceSampleTime
  temperatureCentiCelsius : Int16
  pressurePascal : UInt32
  humidityMilliPercentRh : UInt32
  gasResistanceOhm : UInt32
  quality : QualityFlags
  resetTemporalHistory : Bool
deriving DecidableEq

/-- `i64::checked_sub`, `u64::try_from`, `checked_mul(1_000)` and the filter that keeps what is not
zero. -/
def elapsedHostMicroseconds (receivedAt prior : Int64) : Option UInt64 :=
  let elapsedMs := receivedAt.toInt - prior.toInt
  if -2 ^ 63 ≤ elapsedMs ∧ elapsedMs < 2 ^ 63 ∧ 0 ≤ elapsedMs then
    positiveU64 (elapsedMs.toNat * 1000)
  else none

namespace AnalysisSample

/-- `AnalysisSample::from_v1`. -/
def fromV1 (frame : Protocol.TelemetryV1) (receivedAtUnixMs : Int64) : AnalysisSample where
  nodeId := frame.nodeId
  bootId := none
  sequence := frame.sequence
  series := .legacyV1
  receivedAtUnixMs
  deviceSampleTime := none
  temperatureCentiCelsius := frame.compensated.temperature.centiCelsius
  pressurePascal := frame.compensated.pressure.pascals
  humidityMilliPercentRh := frame.compensated.humidity.milliPercentRh
  gasResistanceOhm := frame.compensated.gasResistance.ohms
  quality := sampleQuality frame.sensorStatus.bits frame.compensated.temperature.centiCelsius
    frame.compensated.pressure.pascals frame.compensated.humidity.milliPercentRh
    frame.compensated.gasResistance.ohms
  resetTemporalHistory := false

/-- `AnalysisSample::from_profile_step`. -/
def fromProfileStep {ε : Type} (scan : ProfileScan) (step : ProfileStep)
    (receivedAtUnixMs : Int64) : Outcome ε AnalysisSample := do
  let allowed ← profileScanAllowsAnalysis scan
  return {
    nodeId := scan.identity.nodeId
    bootId :=
      if scan.identity.commonFlags &&& commonFlagBootIdValid ≠ 0 then some scan.identity.bootId
      else none
    sequence := scan.identity.scanSequence
    series := .profileStep scan.identity.configId scan.profileId scan.profileVersion step.stepIndex
    receivedAtUnixMs
    deviceSampleTime := some ⟨scan.identity.uptimeMs, step.relativeOffsetUs⟩
    temperatureCentiCelsius := step.temperatureCentiCelsius
    pressurePascal := step.pressurePascal
    humidityMilliPercentRh := step.humidityMilliPercentRh
    gasResistanceOhm := step.gasResistanceOhm
    quality := (stepQuality step).insertIf (allowed = false) .profileScanUnusable
    resetTemporalHistory := scan.collectionFlags &&& collectionFlagSensorReconfigured ≠ 0 }

/-- `AnalysisSample::history_key`. -/
def historyKey (sample : AnalysisSample) : Option HistoryKey :=
  if sample.series.isProfileStep ∧ sample.bootId.isNone then none
  else some ⟨sample.nodeId, sample.bootId, sample.series⟩

/-- `AnalysisSample::elapsed_since`. -/
def elapsedSince (sample prior : AnalysisSample) : Option UInt64 :=
  match sample.series with
  | .legacyV1 => elapsedHostMicroseconds sample.receivedAtUnixMs prior.receivedAtUnixMs
  | .profileStep .. => do
      let time ← sample.deviceSampleTime
      let priorTime ← prior.deviceSampleTime
      time.elapsedSince priorTime

end AnalysisSample

/-! ### Elapsed time -/

theorem positiveU64_eq_some {n : Nat} {e : UInt64} (h : positiveU64 n = some e) :
    0 < e.toNat ∧ e.toNat = n := by
  rw [positiveU64] at h
  split at h
  · next hn =>
      rw [← Option.some.inj h, UInt64.toNat_ofNat_of_lt' hn.2]
      exact ⟨hn.1, rfl⟩
  · cases h

/-- The elapsed time of the device is the exact difference, in microseconds. -/
theorem DeviceSampleTime.elapsedSince_eq_some {t prior : DeviceSampleTime} {e : UInt64}
    (h : t.elapsedSince prior = some e) : 0 < e.toNat ∧
      (e.toNat : Int) =
        1000 * ((t.scanStartUptimeMs.toNat : Int) - prior.scanStartUptimeMs.toNat) +
          ((t.relativeOffsetUs.toNat : Int) - prior.relativeOffsetUs.toNat) := by
  rw [elapsedSince] at h
  split at h
  · next hle =>
      obtain ⟨hpos, he⟩ := positiveU64_eq_some h
      refine ⟨hpos, ?_⟩
      rw [totalMicroseconds, totalMicroseconds] at hle he
      omega
  · cases h

/-- The elapsed time of the host is the exact difference, in microseconds. -/
theorem elapsedHostMicroseconds_eq_some {receivedAt prior : Int64} {e : UInt64}
    (h : elapsedHostMicroseconds receivedAt prior = some e) : 0 < e.toNat ∧
      (e.toNat : Int) = 1000 * (receivedAt.toInt - prior.toInt) := by
  rw [elapsedHostMicroseconds] at h
  split at h
  · next hle =>
      obtain ⟨hpos, he⟩ := positiveU64_eq_some h
      exact ⟨hpos, by omega⟩
  · cases h

/-- `e` is the time from `prior` to `sample`, in microseconds: by the clock of the device for a
heater step, by that of the host for a legacy reading. -/
def ElapsedBetween (prior sample : AnalysisSample) (e : UInt64) : Prop :=
  match sample.series with
  | .legacyV1 =>
      (e.toNat : Int) = 1000 * (sample.receivedAtUnixMs.toInt - prior.receivedAtUnixMs.toInt)
  | .profileStep .. => ∃ time priorTime, sample.deviceSampleTime = some time ∧
      prior.deviceSampleTime = some priorTime ∧
      (e.toNat : Int) =
        1000 * ((time.scanStartUptimeMs.toNat : Int) - priorTime.scanStartUptimeMs.toNat) +
          ((time.relativeOffsetUs.toNat : Int) - priorTime.relativeOffsetUs.toNat)

theorem elapsedBetween {sample prior : AnalysisSample} {e : UInt64}
    (h : sample.elapsedSince prior = some e) :
    0 < e.toNat ∧ ElapsedBetween prior sample e := by
  rw [AnalysisSample.elapsedSince] at h
  rw [ElapsedBetween]
  cases hs : sample.series with
  | legacyV1 =>
      rw [hs] at h
      exact elapsedHostMicroseconds_eq_some h
  | profileStep configId profileId profileVersion stepIndex =>
      rw [hs] at h
      simp only [Option.bind_eq_bind, Option.bind_eq_some_iff] at h
      obtain ⟨time, htime, priorTime, hprior, he⟩ := h
      obtain ⟨hpos, hdiff⟩ := DeviceSampleTime.elapsedSince_eq_some he
      exact ⟨hpos, time, priorTime, htime, hprior, hdiff⟩

end Vesta.Analysis
