import Mathlib.Data.List.Sort
import Vesta.Analysis.Samples
import Vesta.Receiver.Valid

/-!
# Analysis — Features

The gas feature vector of one profile scan.  The sort of the source is unstable, so the order of
steps with equal indices is unspecified, and every extraction is given a sort (`StepOrder`).

An extraction of a scan that the structural checks reject marks it unusable at each level, but it
computes the bitmap of the missing steps all the same, and this shift is out of range from sixteen
expected steps on (`extractions_safe_iff`).
-/

namespace Vesta.Analysis

open Outcome (Ends)
open Protocol (commonFlagBootIdValid configFlagSensorConfigReadBack finishReasonComplete)
open Receiver (ProfileScan ProfileStep DeviceConfiguration HeaterStepConfiguration)

/-! ### Extraction -/

/-- Numerical features from one profile step. -/
structure ProfileStepFeatures where
  stepIndex : UInt8
  targetTemperatureCelsius : UInt16
  qualityFlags : UInt16
  gasLogOhm : Option Float
  gasLogOffsetFromProfileMean : Option Float

/-- Per-step gas features from one heater profile, without temporal baselining. -/
structure ProfileFeatures where
  nodeId : UInt64
  bootId : Option UInt64
  sequence : UInt32
  configId : UInt64
  profileId : UInt16
  profileRevision : UInt16
  missingSteps : UInt16
  profileQualityUsable : Bool
  configurationResolved : Bool
  usableForAnalysis : Bool
  steps : List ProfileStepFeatures

/-- A sort by step index, whatever it does to equal indices. -/
structure StepOrder where
  arrange : List ProfileStepFeatures → List ProfileStepFeatures
  perm : ∀ steps, (arrange steps).Perm steps
  sorted : ∀ steps, (arrange steps).Pairwise fun s t => s.stepIndex ≤ t.stepIndex

/-- The features of a step alone. -/
def stepFeatures (scanUsable : Bool) (step : ProfileStep) : ProfileStepFeatures where
  stepIndex := step.stepIndex
  targetTemperatureCelsius := step.targetTemperatureCelsius
  qualityFlags := ((stepQuality step).insertIf (scanUsable = false) .profileScanUnusable).bits
  gasLogOhm := gasLog step.gasResistanceOhm
  gasLogOffsetFromProfileMean := none

/-- One pass of the loop that sums the logarithms of the clean steps and counts these. -/
def addGasLog {ε : Type} (total : Float × UInt32) (step : ProfileStepFeatures) :
    Outcome ε (Float × UInt32) :=
  match step.gasLogOhm with
  | some value =>
      if step.qualityFlags = 0 then do
        let count ← addU32 total.2 1
        return (total.1 + value, count)
      else .ok total
  | none => .ok total

/-- Give the clean steps their offset from the mean. -/
def withOffsets (total : Float × UInt32) (steps : List ProfileStepFeatures) :
    List ProfileStepFeatures :=
  if total.2 ≠ 0 then
    let mean := total.1 / total.2.toFloat
    steps.map fun step =>
      if step.qualityFlags = 0 then
        { step with gasLogOffsetFromProfileMean := step.gasLogOhm.map fun value => value - mean }
      else step
  else steps

/-- `extract_profile_features_inner`. -/
def extractProfileFeaturesInner {ε : Type} (order : StepOrder) (scan : ProfileScan)
    (configurationResolved : Bool) : Outcome ε ProfileFeatures := do
  let scanUsable ← profileScanAllowsAnalysis scan
  let sorted := order.arrange (scan.steps.map (stepFeatures scanUsable))
  let total ← sorted.foldlM addGasLog (0, 0)
  let steps := withOffsets total sorted
  let profileQualityUsable := scanUsable && steps.all fun step => step.qualityFlags = 0
  let missingSteps ← scan.computedUnavailableSteps
  return {
    nodeId := scan.identity.nodeId
    bootId :=
      if scan.identity.commonFlags &&& commonFlagBootIdValid ≠ 0 then some scan.identity.bootId
      else none
    sequence := scan.identity.scanSequence
    configId := scan.identity.configId
    profileId := scan.profileId
    profileRevision := scan.profileVersion
    missingSteps
    profileQualityUsable
    configurationResolved
    usableForAnalysis := profileQualityUsable && configurationResolved
    steps }

/-- `extract_profile_features`. -/
def extractProfileFeatures {ε : Type} (order : StepOrder) (scan : ProfileScan) :
    Outcome ε ProfileFeatures :=
  extractProfileFeaturesInner order scan false

/-- The configured step has the settings and the readback of the observed one. -/
def configuredAs (configured : HeaterStepConfiguration) (step : ProfileStep) : Prop :=
  (configured.stepIndex = step.stepIndex ∧
    configured.targetTemperatureCelsius = step.targetTemperatureCelsius ∧
    configured.configuredDurationUs = step.configuredDurationUs ∧
    configured.repetitionMultiplier = step.repetitionMultiplier) ∧
  configured.programmedHeaterResistance = step.rawHeaterResistance ∧
    configured.programmedGasWait = step.rawGasWait

instance (configured : HeaterStepConfiguration) (step : ProfileStep) :
    Decidable (configuredAs configured step) :=
  inferInstanceAs (Decidable (_ ∧ _))

/-- The observed step agrees with the configuration at its index. -/
def stepMatches (configuration : DeviceConfiguration) (step : ProfileStep) : Bool :=
  match configuration.heaterSteps[step.stepIndex.toNat]? with
  | some configured => configuredAs configured step
  | none => false

/-- The configuration resolves the scan. -/
def resolvesConfiguration {ε : Type} (scan : ProfileScan) (configuration : DeviceConfiguration) :
    Outcome ε Bool := do
  if !(← configuration.validate.isOk) then return false
  if configuration.configFlags &&& configFlagSensorConfigReadBack = 0 then return false
  if configuration.heaterReadbackValidBitmap ≠
      (← maskU16 configuration.expectedStepCount.toNat) then
    return false
  return decide (configuration.identity.nodeId = scan.identity.nodeId ∧
    configuration.identity.configId = scan.identity.configId ∧
    configuration.profileId = scan.profileId ∧
    configuration.profileVersion = scan.profileVersion ∧
    configuration.expectedStepCount = scan.expectedSteps) &&
    scan.steps.all (stepMatches configuration)

/-- `extract_profile_features_with_configuration`. -/
def extractProfileFeaturesWithConfiguration {ε : Type} (order : StepOrder) (scan : ProfileScan)
    (configuration : DeviceConfiguration) : Outcome ε ProfileFeatures := do
  let configurationResolved ← resolvesConfiguration scan configuration
  extractProfileFeaturesInner order scan configurationResolved

/-! ### The gates -/

/-- What the integrity gate of a scan requires. -/
structure AllowsAnalysis (scan : ProfileScan) : Prop where
  valid : scan.validate = .ok ()
  boot : scan.identity.commonFlags &&& commonFlagBootIdValid ≠ 0
  received : scan.AllReceived
  present : ∀ i < scan.expectedSteps.toNat, scan.Carries i
  finish : scan.finishReason = finishReasonComplete
  collection : scan.collectionFlags &&& ~~~analysisAllowedCollectionFlags = 0
  overwritten : scan.overwrittenFieldCount = 0
  order : scan.outOfOrderCount = 0
  jumps : scan.ambiguousIndexJumpCount = 0
  indices : scan.invalidGasIndexCount = 0
  rollovers : scan.profileRolloverCount = 0 ∧ scan.fieldsAfterRolloverCount = 0
  conflicts : scan.conflictingFragmentCount = 0

/-- A gate that stays closed because a requirement is not met. -/
theorem gate_closed {ε : Type} {P : Prop} (h : ¬ P) :
    ∃ b, (.ok false : Outcome ε Bool) = .ok b ∧ (b = true ↔ P) :=
  ⟨false, rfl, fun hb => absurd hb (by decide), fun hp => absurd hp h⟩

/-- The integrity gate never panics, and opens exactly where its requirements are met. -/
theorem exists_allowsAnalysis {ε : Type} (scan : ProfileScan) :
    ∃ b, (profileScanAllowsAnalysis scan : Outcome ε Bool) = .ok b ∧
      (b = true ↔ AllowsAnalysis scan) := by
  obtain ⟨valid, hvalid, hiff⟩ := Outcome.exists_isOk (ε := ε) scan.validate_ne_panicked
  rw [profileScanAllowsAnalysis, hvalid, Outcome.ok_bind]
  cases valid with
  | false => exact gate_closed fun h => absurd (hiff.mpr h.valid) (by decide)
  | true =>
      have hok := hiff.mp rfl
      have hw := (ProfileScan.validate_eq_ok.mp hok).1
      have hn := hw.expected.2
      have hk := hw.fragments
      obtain ⟨unavailable, hu, hbits⟩ := @ProfileScan.exists_unavailable ε scan (by omega)
      -- no step is unavailable when all are carried
      have hpresent : unavailable = 0 ↔ ∀ i < scan.expectedSteps.toNat, scan.Carries i := by
        constructor
        · rintro rfl i hi
          by_contra hno
          exact absurd ((hbits i).mpr ⟨hi, hno⟩) (by rw [Bitmap.has_zero]; decide)
        · intro hall
          refine Bitmap.ext fun i _ => ?_
          rw [Bitmap.has_zero, Bool.eq_false_iff, ne_eq, hbits]
          exact fun hi => hi.2 (hall i hi.1)
      rw [ProfileScan.isTransportComplete_eq (by omega), hu]
      simp only [Bool.not_true, Bool.false_eq_true, if_false, Outcome.ok_bind]
      -- check by check, as the gate goes
      by_cases hboot : scan.identity.commonFlags &&& commonFlagBootIdValid = 0
      · rw [if_pos hboot]
        exact gate_closed fun h => h.boot hboot
      rw [if_neg hboot]
      by_cases hr : scan.AllReceived
      case neg =>
        rw [decide_eq_false hr]
        exact gate_closed fun h => hr h.received
      rw [decide_eq_true hr]
      simp only [Bool.not_true, Bool.false_eq_true, if_false]
      by_cases hp : unavailable = 0
      case neg =>
        rw [if_pos hp]
        exact gate_closed fun h => hp (hpresent.mpr h.present)
      rw [if_neg (not_not.mpr hp)]
      refine ⟨_, rfl, ?_⟩
      rw [decide_eq_true_eq]
      constructor
      · rintro ⟨h1, h2, h3, h4, h5, h6, h7, h8, h9⟩
        exact ⟨hok, hboot, hr, hpresent.mp hp, h1, h2, h3, h4, h5, h6, ⟨h7, h8⟩, h9⟩
      · intro h
        exact ⟨h.finish, h.collection, h.overwritten, h.order, h.jumps, h.indices, h.rollovers.1,
          h.rollovers.2, h.conflicts⟩

/-- What the configuration gate requires. -/
structure Resolves (scan : ProfileScan) (configuration : DeviceConfiguration) : Prop where
  valid : configuration.validate = .ok ()
  readBack : configuration.configFlags &&& configFlagSensorConfigReadBack ≠ 0
  bitmap : configuration.heaterReadbackValidBitmap =
    Bitmap.lowMask configuration.expectedStepCount.toNat
  node : configuration.identity.nodeId = scan.identity.nodeId
  config : configuration.identity.configId = scan.identity.configId
  profile : configuration.profileId = scan.profileId
  version : configuration.profileVersion = scan.profileVersion
  count : configuration.expectedStepCount = scan.expectedSteps
  steps : ∀ step ∈ scan.steps, stepMatches configuration step

/-- The configuration gate never panics, and opens exactly where its requirements are met. -/
theorem exists_resolves {ε : Type} (scan : ProfileScan) (configuration : DeviceConfiguration) :
    ∃ b, (resolvesConfiguration scan configuration : Outcome ε Bool) = .ok b ∧
      (b = true ↔ Resolves scan configuration) := by
  obtain ⟨valid, hvalid, hiff⟩ := Outcome.exists_isOk (ε := ε) configuration.validate_ne_panicked
  rw [resolvesConfiguration, hvalid, Outcome.ok_bind]
  cases valid with
  | false => exact gate_closed fun h => absurd (hiff.mpr h.valid) (by decide)
  | true =>
      have hok := hiff.mp rfl
      have hn := DeviceConfiguration.expected_of_validate hok
      rw [maskU16_eq (by omega)]
      simp only [Bool.not_true, Bool.false_eq_true, if_false, Outcome.ok_bind]
      by_cases hread : configuration.configFlags &&& configFlagSensorConfigReadBack = 0
      · rw [if_pos hread]
        exact gate_closed fun h => h.readBack hread
      rw [if_neg hread]
      by_cases hbitmap : configuration.heaterReadbackValidBitmap =
          Bitmap.lowMask configuration.expectedStepCount.toNat
      case neg =>
        rw [if_pos hbitmap]
        exact gate_closed fun h => hbitmap h.bitmap
      rw [if_neg (not_not.mpr hbitmap)]
      refine ⟨_, rfl, ?_⟩
      rw [Bool.and_eq_true, decide_eq_true_eq, List.all_eq_true]
      constructor
      · rintro ⟨⟨h1, h2, h3, h4, h5⟩, h6⟩
        exact ⟨hok, hread, hbitmap, h1, h2, h3, h4, h5, h6⟩
      · intro h
        exact ⟨⟨h.node, h.config, h.profile, h.version, h.count⟩, h.steps⟩

/-! ### The vector -/

/-- A clean step with a logarithm. -/
def counted (step : ProfileStepFeatures) : Bool :=
  step.gasLogOhm.isSome && step.qualityFlags = 0

/-- The loop counts the clean steps, as long as a `u32` can. -/
theorem foldlM_addGasLog {ε : Type} {steps : List ProfileStepFeatures} {total : Float × UInt32}
    (h : total.2.toNat + steps.countP counted < 2 ^ 32) :
    ∃ total', (steps.foldlM addGasLog total : Outcome ε (Float × UInt32)) = .ok total' ∧
      total'.2.toNat = total.2.toNat + steps.countP counted := by
  induction steps generalizing total with
  | nil => exact ⟨total, rfl, rfl⟩
  | cons step steps ih =>
      rw [List.countP_cons] at h ⊢
      rw [List.foldlM_cons, addGasLog]
      cases hlog : step.gasLogOhm with
      | none =>
          have hno : counted step = false := by simp [counted, hlog]
          rw [hno] at h ⊢
          exact ih h
      | some value =>
          by_cases hq : step.qualityFlags = 0
          · have hyes : counted step = true := by simp [counted, hlog, hq]
            rw [hyes, if_pos rfl] at h ⊢
            have hone : (1 : UInt32).toNat = 1 := rfl
            have hsum : (total.2 + 1).toNat = total.2.toNat + 1 := by
              rw [UInt32.toNat_add, hone, Nat.mod_eq_of_lt (by omega)]
            dsimp only
            rw [if_pos hq, addU32_eq (by omega)]
            obtain ⟨total', hfold, hcount⟩ := @ih (total.1 + value, total.2 + 1)
              (by rw [hsum]; omega)
            refine ⟨total', hfold, ?_⟩
            rw [hcount, hsum]
            omega
          · have hno : counted step = false := by simp [counted, hq]
            rw [hno] at h ⊢
            dsimp only
            rw [if_neg hq]
            exact ih h

/-- The flag of an unusable scan is on every step of one. -/
theorem unusable_flag (step : ProfileStep) :
    (stepFeatures false step).qualityFlags &&& QualityFlags.profileScanUnusable.bits ≠ 0 := by
  show ((stepQuality step).bits ||| Bitmap.bit 8) &&& Bitmap.bit 8 ≠ 0
  rw [ne_eq, Bitmap.and_bit_eq_zero (by decide), Bitmap.has_or, Bitmap.has_bit (by decide),
    decide_eq_true rfl, Bool.or_true]
  decide

/-- What an extraction computes of a scan, once its gate was `usable` and its total `total`. -/
structure Extracted (order : StepOrder) (scan : ProfileScan) (resolved usable : Bool)
    (total : Float × UInt32) (f : ProfileFeatures) : Prop where
  gate : usable = true ↔ AllowsAnalysis scan
  count : total.2.toNat =
    (order.arrange (scan.steps.map (stepFeatures usable))).countP counted
  steps : f.steps = withOffsets total (order.arrange (scan.steps.map (stepFeatures usable)))
  quality : f.profileQualityUsable = (usable && f.steps.all fun step => step.qualityFlags = 0)
  configuration : f.configurationResolved = resolved
  final : f.usableForAnalysis = (f.profileQualityUsable && resolved)
  missing : ∀ i, Bitmap.has f.missingSteps i ↔ i < scan.expectedSteps.toNat ∧ ¬ scan.Carries i
  bootId : f.bootId =
    if scan.identity.commonFlags &&& commonFlagBootIdValid ≠ 0 then some scan.identity.bootId
    else none

/-- A valid scan has no more steps than it expects. -/
theorem length_steps_le {scan : ProfileScan} (h : scan.Windowed) :
    scan.steps.length ≤ scan.expectedSteps.toNat := by
  have hsub : (scan.steps.map fun s => s.stepIndex.toNat) ⊆
      List.range scan.expectedSteps.toNat := by
    intro i hi
    obtain ⟨s, hs, rfl⟩ := List.mem_map.mp hi
    exact List.mem_range.mpr (h.within _ ⟨s, hs, rfl⟩).1
  have hlen := (List.subperm_of_subset h.nodup hsub).length_le
  rwa [List.length_map, List.length_range] at hlen

/-- The loop over the clean steps returns: an unusable scan has none, a usable one at most ten. -/
theorem exists_total {ε : Type} (order : StepOrder) {scan : ProfileScan} {usable : Bool}
    (hgate : usable = true ↔ AllowsAnalysis scan) :
    ∃ total, ((order.arrange (scan.steps.map (stepFeatures usable))).foldlM addGasLog (0, 0) :
        Outcome ε (Float × UInt32)) = .ok total ∧
      total.2.toNat = (order.arrange (scan.steps.map (stepFeatures usable))).countP counted := by
  have hbound : (order.arrange (scan.steps.map (stepFeatures usable))).countP counted < 2 ^ 32 := by
    rw [(order.perm _).countP_eq]
    cases usable with
    | true =>
        have hw := (ProfileScan.validate_eq_ok.mp (hgate.mp rfl).valid).1
        have hle := length_steps_le hw
        have hn := hw.expected.2
        refine lt_of_le_of_lt (List.countP_le_length.trans ?_) (by decide : 10 < 2 ^ 32)
        rw [List.length_map]
        omega
    | false =>
        rw [List.countP_eq_zero.mpr]
        · decide
        · intro step hstep hcounted
          obtain ⟨s, -, rfl⟩ := List.mem_map.mp hstep
          rw [counted, Bool.and_eq_true, decide_eq_true_eq] at hcounted
          refine unusable_flag s ?_
          rw [hcounted.2, UInt16.zero_and]
  have hzero : ((0 : Float), (0 : UInt32)).2.toNat = 0 := rfl
  obtain ⟨total, hfold, hcount⟩ := @foldlM_addGasLog ε _ (0, 0)
    (by rw [hzero, Nat.zero_add]; exact hbound)
  exact ⟨total, hfold, by rw [hcount, hzero, Nat.zero_add]⟩

/-- **Below sixteen expected steps an extraction returns.** -/
theorem exists_extracted {ε : Type} (order : StepOrder) {scan : ProfileScan} (resolved : Bool)
    (hn : scan.expectedSteps.toNat < 16) : ∃ usable total f,
      (extractProfileFeaturesInner order scan resolved : Outcome ε ProfileFeatures) = .ok f ∧
        Extracted order scan resolved usable total f := by
  obtain ⟨usable, hallows, hgate⟩ := exists_allowsAnalysis (ε := ε) scan
  obtain ⟨total, hfold, hcount⟩ := exists_total (ε := ε) order hgate
  obtain ⟨unavailable, hu, hbits⟩ := ProfileScan.exists_unavailable (ε := ε) hn
  rw [extractProfileFeaturesInner, hallows, Outcome.ok_bind]
  dsimp only
  rw [hfold, Outcome.ok_bind, hu, Outcome.ok_bind]
  exact ⟨usable, total, _, rfl, hgate, hcount, rfl, rfl, rfl, rfl, hbits, rfl⟩

/-- **From sixteen expected steps on, every extraction panics.** -/
theorem extract_panics {ε : Type} (order : StepOrder) {scan : ProfileScan} (resolved : Bool)
    (hn : 16 ≤ scan.expectedSteps.toNat) :
    (extractProfileFeaturesInner order scan resolved : Outcome ε ProfileFeatures) =
      .error .panicked := by
  obtain ⟨usable, hallows, hgate⟩ := exists_allowsAnalysis (ε := ε) scan
  obtain ⟨total, hfold, -⟩ := exists_total (ε := ε) order hgate
  have hmask : (Receiver.expectedStepMask scan.expectedSteps : Outcome ε UInt16) =
    .error .panicked := maskU16_panics hn
  rw [extractProfileFeaturesInner, hallows, Outcome.ok_bind]
  dsimp only
  rw [hfold, Outcome.ok_bind, ProfileScan.computedUnavailableSteps, hmask]
  rfl

/-- Offsets leave the indices and the flags of the steps. -/
theorem map_withOffsets {β : Type} (g : UInt8 → UInt16 → β) (total : Float × UInt32)
    (steps : List ProfileStepFeatures) :
    (withOffsets total steps).map (fun step => g step.stepIndex step.qualityFlags) =
      steps.map fun step => g step.stepIndex step.qualityFlags := by
  rw [withOffsets]
  split
  · rw [List.map_map]
    refine List.map_congr_left fun step _ => ?_
    rw [Function.comp_apply]
    split <;> rfl
  · rfl

/-- The extraction says at each level that the scan is unusable. -/
def FailsClosed (f : ProfileFeatures) : Prop :=
  f.profileQualityUsable = false ∧ f.usableForAnalysis = false ∧
    ∀ step ∈ f.steps, step.qualityFlags &&& QualityFlags.profileScanUnusable.bits ≠ 0

theorem Extracted.failsClosed {order : StepOrder} {scan : ProfileScan} {resolved usable : Bool}
    {total : Float × UInt32} {f : ProfileFeatures}
    (h : Extracted order scan resolved usable total f)
    (hno : ¬ AllowsAnalysis scan) : FailsClosed f := by
  obtain rfl : usable = false := Bool.eq_false_iff.mpr (mt h.gate.mp hno)
  have hquality : f.profileQualityUsable = false := h.quality
  refine ⟨hquality, ?_, fun step hstep => ?_⟩
  · rw [h.final, hquality, Bool.false_and]
  · have hflags := map_withOffsets (fun _ flags => flags) total
      (order.arrange (scan.steps.map (stepFeatures false)))
    rw [← h.steps] at hflags
    have hmem : step.qualityFlags ∈ f.steps.map fun step => step.qualityFlags :=
      List.mem_map_of_mem hstep
    rw [hflags] at hmem
    obtain ⟨sorted, hsorted, he⟩ := List.mem_map.mp hmem
    obtain ⟨s, -, rfl⟩ := List.mem_map.mp ((order.perm _).mem_iff.mp hsorted)
    rw [← he]
    exact unusable_flag s

/-! ### Failing closed -/

/-- The sort that keeps equal indices in place. -/
def StepOrder.insertion : StepOrder where
  arrange := List.insertionSort fun s t => s.stepIndex ≤ t.stepIndex
  perm := List.perm_insertionSort _
  sorted steps := by
    have htotal : Std.Total fun s t : ProfileStepFeatures => s.stepIndex ≤ t.stepIndex :=
      ⟨fun s t => UInt8.le_total s.stepIndex t.stepIndex⟩
    have htrans : IsTrans ProfileStepFeatures fun s t => s.stepIndex ≤ t.stepIndex :=
      ⟨fun _ _ _ => UInt8.le_trans⟩
    exact List.pairwise_insertionSort _ steps

/-- A step of zeros. -/
def blankStep : ProfileStep :=
  ⟨0, 0, 0, 0, 0, 0, 0, 0, 0, 0, 0, 0, 0, 0, 0, 0, 0, 0, 0, 0, 0, 0⟩

/-- A configuration of zeros. -/
def blankConfiguration : DeviceConfiguration :=
  ⟨⟨0, 0, 0, 0, 0, 0, 0⟩, false, 0, (0, 0, 0), 0, 0, 0, 0, 0, 0, 0, 0, 0, 0, 0, 0, 0, 0, 0, 0, 0, 0,
    0, 0, 0, 0, 0, 0, 0, 0, 0, 0, 0, 0, 0, 0, 0, 0, 0, 0, 0, 0, 0, []⟩

/-- A scan without steps that expects sixteen of them. -/
def sixteenSteps : ProfileScan :=
  ⟨⟨0, 0, 0, 0, 0, 0, 0⟩, 0, 0, 16, 0, 0, 0, 0, 0, 0, 0, 0, 0, 0, 0, 0, 0, 0, 0, 0, 0, 0, 0, 0, []⟩

/-- A sample of a heater step never panics, and it is flagged where the structural checks reject its
scan: only the extraction of features computes the shift that is out of range. -/
theorem exists_fromProfileStep {ε : Type} (scan : ProfileScan) (step : ProfileStep)
    (receivedAtUnixMs : Int64) : ∃ sample,
      (AnalysisSample.fromProfileStep scan step receivedAtUnixMs : Outcome ε AnalysisSample) =
          .ok sample ∧
        (scan.validate ≠ .ok () →
          sample.quality.bits &&& QualityFlags.profileScanUnusable.bits ≠ 0) := by
  obtain ⟨usable, husable, hgate⟩ := exists_allowsAnalysis (ε := ε) scan
  refine ⟨_, Outcome.bind_of_eq_ok husable, fun hinvalid => ?_⟩
  obtain rfl : usable = false :=
    Bool.eq_false_iff.mpr (mt hgate.mp fun hallows => hinvalid hallows.valid)
  exact unusable_flag step

/-- **Extraction fails closed, without a panic, exactly below sixteen expected steps.**  Whatever
the sort, the configuration and the step, all three functions return on a scan of fewer, and where
the structural checks reject it the features say so at each level. -/
theorem extractions_safe_iff (scan : ProfileScan) :
    (∀ (order : StepOrder) (configuration : DeviceConfiguration) (step : ProfileStep)
        (receivedAtUnixMs : Int64),
      (∃ f, (extractProfileFeatures order scan : Outcome Empty ProfileFeatures) = .ok f ∧
        (scan.validate ≠ .ok () → FailsClosed f)) ∧
      (∃ f, (extractProfileFeaturesWithConfiguration order scan configuration :
          Outcome Empty ProfileFeatures) = .ok f ∧
        (scan.validate ≠ .ok () → FailsClosed f)) ∧
      ∃ sample, (AnalysisSample.fromProfileStep scan step receivedAtUnixMs :
        Outcome Empty AnalysisSample) = .ok sample) ↔
      scan.expectedSteps.toNat < 16 := by
  constructor
  · intro h
    by_contra hn
    obtain ⟨⟨f, hf, -⟩, -⟩ := h .insertion blankConfiguration blankStep 0
    have hpanics : (extractProfileFeatures .insertion scan : Outcome Empty ProfileFeatures) =
        .error .panicked := extract_panics .insertion false (Nat.not_lt.mp hn)
    cases hpanics.symm.trans hf
  · intro hn order configuration step receivedAtUnixMs
    have hinner : ∀ resolved, ∃ f,
        (extractProfileFeaturesInner order scan resolved : Outcome Empty ProfileFeatures) = .ok f ∧
          (scan.validate ≠ .ok () → FailsClosed f) := by
      intro resolved
      obtain ⟨usable, total, f, hf, hextracted⟩ := exists_extracted (ε := Empty) order resolved hn
      exact ⟨f, hf, fun hinvalid => hextracted.failsClosed fun hallows => hinvalid hallows.valid⟩
    obtain ⟨resolved, hresolved, -⟩ := exists_resolves (ε := Empty) scan configuration
    obtain ⟨sample, hsample, -⟩ := exists_fromProfileStep (ε := Empty) scan step receivedAtUnixMs
    refine ⟨hinner false, ?_, sample, hsample⟩
    obtain ⟨f, hf, hclosed⟩ := hinner resolved
    exact ⟨f, (Outcome.bind_of_eq_ok hresolved).trans hf, hclosed⟩

theorem sixteenSteps_panics :
    (extractProfileFeatures .insertion sixteenSteps : Outcome Empty ProfileFeatures) =
      .error .panicked :=
  extract_panics .insertion false (by decide)

end Vesta.Analysis
