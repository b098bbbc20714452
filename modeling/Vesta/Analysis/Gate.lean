import Vesta.Analysis.Features

/-!
# Analysis — Gate

The final gate in front of analysis.  No single check asks for a complete feature vector; it follows
from the structural checks, the integrity gate and the configuration gate taken together
(`Ready`).  And where the structural checks pass, nothing that decides about a scan depends on the
order in which its steps are listed (`gate_sound`).
-/

namespace Vesta.Analysis

open Protocol (commonFlagBootIdValid)
open Receiver (ProfileScan ProfileStep DeviceConfiguration HeaterStepConfiguration)

/-! ### Clean steps -/

theorem bits_insertIf_eq_zero {q other : QualityFlags} {c : Prop} [Decidable c]
    (h : (q.insertIf c other).bits = 0) : q.bits = 0 ∧ (c → other.bits = 0) := by
  rw [QualityFlags.insertIf] at h
  split at h
  · next hc =>
      obtain ⟨hq, ho⟩ := UInt16.or_eq_zero_iff.mp h
      exact ⟨hq, fun _ => ho⟩
  · next hc => exact ⟨h, fun hc' => absurd hc' hc⟩

/-- A step without flags has a gas resistance to take the logarithm of. -/
theorem gasLog_of_clean {usable : Bool} {step : ProfileStep}
    (h : (stepFeatures usable step).qualityFlags = 0) :
    (stepFeatures usable step).gasLogOhm.isSome := by
  have hgas : step.gasResistanceOhm ≠ 0 := fun hzero =>
    absurd ((bits_insertIf_eq_zero (bits_insertIf_eq_zero h).1).2 hzero) (by decide)
  show (gasLog step.gasResistanceOhm).isSome
  rw [gasLog, if_pos hgas]
  rfl

/-- Where some step was counted, every clean step has an offset next to its logarithm. -/
theorem mem_withOffsets {total : Float × UInt32} {steps : List ProfileStepFeatures}
    (hcount : total.2 ≠ 0) {step' : ProfileStepFeatures} (h : step' ∈ withOffsets total steps) :
    ∃ step ∈ steps, step'.qualityFlags = step.qualityFlags ∧ step'.gasLogOhm = step.gasLogOhm ∧
      (step.qualityFlags = 0 →
        step'.gasLogOffsetFromProfileMean.isSome = step.gasLogOhm.isSome) := by
  rw [withOffsets, if_pos hcount] at h
  obtain ⟨step, hstep, rfl⟩ := List.mem_map.mp h
  refine ⟨step, hstep, ?_⟩
  by_cases hq : step.qualityFlags = 0
  · rw [if_pos hq]
    exact ⟨rfl, rfl, fun _ => Option.isSome_map⟩
  · rw [if_neg hq]
    exact ⟨rfl, rfl, fun hq' => absurd hq' hq⟩

/-! ### The order of the steps -/

section
variable {scan : ProfileScan} {steps : List ProfileStep} (h : scan.steps.Perm steps)
include h

theorem carries_perm (i : Nat) : ({ scan with steps } : ProfileScan).Carries i ↔ scan.Carries i :=
  exists_congr fun _ => and_congr_left fun _ => h.mem_iff.symm

theorem windowed_perm (hw : scan.Windowed) : ({ scan with steps } : ProfileScan).Windowed where
  expected := hw.expected
  fragments := hw.fragments
  missing := hw.missing
  duplicate := hw.duplicate
  received := hw.received
  observed := hw.observed
  fields := hw.fields
  consistent s hs := hw.consistent s (h.mem_iff.mpr hs)
  nodup := ((h.map _).nodup_iff).mp hw.nodup
  within i hi := hw.within i ((carries_perm h i).mp hi)
  covered i hi hr hm := (carries_perm h i).mpr (hw.covered i hi hr hm)

/-- The structural checks do not depend on the order of the steps. -/
theorem validate_perm (hv : scan.validate = .ok ()) :
    ({ scan with steps } : ProfileScan).validate = .ok () := by
  obtain ⟨hw, hall⟩ := ProfileScan.validate_eq_ok.mp hv
  exact ProfileScan.validate_eq_ok.mpr ⟨windowed_perm h hw, fun hr i hi =>
    hall hr i ((carries_perm h i).mp hi)⟩

theorem allowsAnalysis_perm (ha : AllowsAnalysis scan) :
    AllowsAnalysis ({ scan with steps } : ProfileScan) where
  valid := validate_perm h ha.valid
  boot := ha.boot
  received := ha.received
  present i hi := (carries_perm h i).mpr (ha.present i hi)
  finish := ha.finish
  collection := ha.collection
  overwritten := ha.overwritten
  order := ha.order
  jumps := ha.jumps
  indices := ha.indices
  rollovers := ha.rollovers
  conflicts := ha.conflicts

theorem resolves_perm {configuration : DeviceConfiguration} (hr : Resolves scan configuration) :
    Resolves ({ scan with steps } : ProfileScan) configuration where
  valid := hr.valid
  readBack := hr.readBack
  bitmap := hr.bitmap
  node := hr.node
  config := hr.config
  profile := hr.profile
  version := hr.version
  count := hr.count
  steps step hstep := hr.steps step (h.mem_iff.mpr hstep)

/-- Two sorts of the steps of a scan without repeated indices agree. -/
theorem arrange_perm (hnd : (scan.steps.map fun s => s.stepIndex.toNat).Nodup)
    (order order' : StepOrder) (usable : Bool) :
    (order.arrange (scan.steps.map (stepFeatures usable))).map
        (fun step => (step.stepIndex, step.qualityFlags)) =
      (order'.arrange (steps.map (stepFeatures usable))).map
        fun step => (step.stepIndex, step.qualityFlags) := by
  have hperm : ((order.arrange (scan.steps.map (stepFeatures usable))).map
      fun step => (step.stepIndex, step.qualityFlags)).Perm
        ((order'.arrange (steps.map (stepFeatures usable))).map
          fun step => (step.stepIndex, step.qualityFlags)) :=
    (((order.perm _).trans (h.map _)).trans (order'.perm _).symm).map _
  refine @List.Perm.eq_of_pairwise _ (fun a b => a.1 ≤ b.1) _ _ ?_ ?_ ?_ hperm
  · -- equal indices come from one step
    have hsource : ∀ pair ∈ (order.arrange (scan.steps.map (stepFeatures usable))).map
        (fun step => (step.stepIndex, step.qualityFlags)), ∃ s ∈ scan.steps,
          pair = ((stepFeatures usable s).stepIndex, (stepFeatures usable s).qualityFlags) := by
      intro pair hpair
      obtain ⟨step, hstep, rfl⟩ := List.mem_map.mp hpair
      obtain ⟨s, hs, rfl⟩ := List.mem_map.mp ((order.perm _).mem_iff.mp hstep)
      exact ⟨s, hs, rfl⟩
    intro a b ha hb hle hge
    obtain ⟨s, hs, rfl⟩ := hsource a ha
    obtain ⟨t, ht, rfl⟩ := hsource b (hperm.mem_iff.mpr hb)
    have he : s.stepIndex = t.stepIndex := UInt8.le_antisymm hle hge
    rw [List.inj_on_of_nodup_map hnd hs ht (congrArg UInt8.toNat he)]
  · exact List.pairwise_map.mpr (order.sorted _)
  · exact List.pairwise_map.mpr (order'.sorted _)

end

/-! ### The final gate -/

/-- A complete, gap-free and correctly labelled feature vector of a scan in order. -/
structure Ready (scan : ProfileScan) (configuration : DeviceConfiguration) (f : ProfileFeatures) :
    Prop where
  /-- The vector has the steps `0, 1, ..`, as many as the scan expects. -/
  indices : f.steps.map (fun step => step.stepIndex.toNat) = List.range scan.expectedSteps.toNat
  clean : ∀ step ∈ f.steps, step.qualityFlags = 0 ∧ step.gasLogOhm.isSome ∧
    step.gasLogOffsetFromProfileMean.isSome
  boot : scan.identity.commonFlags &&& commonFlagBootIdValid ≠ 0 ∧
    f.bootId = some scan.identity.bootId
  received : scan.AllReceived
  conflicts : scan.conflictingFragmentCount = 0
  collection : scan.collectionFlags &&& ~~~analysisAllowedCollectionFlags = 0
  /-- The step at each index is the configured one. -/
  configured : ∀ i < scan.expectedSteps.toNat, ∃ step ∈ scan.steps, step.stepIndex.toNat = i ∧
    (∀ other ∈ scan.steps, other.stepIndex.toNat = i → other = step) ∧
    ∃ configured, configuration.heaterSteps[i]? = some configured ∧
      step.targetTemperatureCelsius = configured.targetTemperatureCelsius ∧
      step.configuredDurationUs = configured.configuredDurationUs ∧
      step.repetitionMultiplier = configured.repetitionMultiplier ∧
      step.rawHeaterResistance = configured.programmedHeaterResistance ∧
      step.rawGasWait = configured.programmedGasWait ∧
      Bitmap.has configuration.heaterReadbackValidBitmap i

/-- The indices of the vector of a usable scan. -/
theorem Extracted.indices {order : StepOrder} {scan : ProfileScan} {resolved usable : Bool}
    {total : Float × UInt32} {f : ProfileFeatures}
    (h : Extracted order scan resolved usable total f) (ha : AllowsAnalysis scan) :
    f.steps.map (fun step => step.stepIndex.toNat) = List.range scan.expectedSteps.toNat := by
  have hw := (ProfileScan.validate_eq_ok.mp ha.valid).1
  rw [h.steps, map_withOffsets fun index _ => index.toNat]
  refine @List.Perm.eq_of_pairwise _ (· ≤ ·) _ _ (fun _ _ _ _ => Nat.le_antisymm) ?_
    (List.pairwise_lt_range.imp Nat.le_of_lt) ?_
  · exact List.pairwise_map.mpr ((order.sorted _).imp UInt8.le_iff_toNat_le.mp)
  · refine ((order.perm _).map _).trans ?_
    rw [List.map_map]
    refine (List.perm_ext_iff_of_nodup hw.nodup List.nodup_range).mpr fun i => ?_
    rw [List.mem_range]
    constructor
    · intro hi
      obtain ⟨s, hs, rfl⟩ := List.mem_map.mp hi
      exact (hw.within _ ⟨s, hs, rfl⟩).1
    · intro hi
      obtain ⟨s, hs, he⟩ := ha.present i hi
      exact List.mem_map.mpr ⟨s, hs, he⟩

/-- The steps of the vector of a usable scan, where none has a flag. -/
theorem Extracted.clean {order : StepOrder} {scan : ProfileScan} {resolved usable : Bool}
    {total : Float × UInt32} {f : ProfileFeatures}
    (h : Extracted order scan resolved usable total f)
    (ha : AllowsAnalysis scan) (hflags : ∀ step ∈ f.steps, step.qualityFlags = 0) :
    ∀ step ∈ f.steps, step.qualityFlags = 0 ∧ step.gasLogOhm.isSome ∧
      step.gasLogOffsetFromProfileMean.isSome := by
  have hsorted : ∀ step ∈ order.arrange (scan.steps.map (stepFeatures usable)),
      step.qualityFlags = 0 ∧ step.gasLogOhm.isSome := by
    intro step hstep
    have hq : step.qualityFlags = 0 := by
      have hmap := map_withOffsets (fun _ flags => flags) total
        (order.arrange (scan.steps.map (stepFeatures usable)))
      have hmem : step.qualityFlags ∈ f.steps.map fun step => step.qualityFlags := by
        rw [h.steps, hmap]
        exact List.mem_map_of_mem hstep
      obtain ⟨step', hstep', he⟩ := List.mem_map.mp hmem
      exact he ▸ hflags step' hstep'
    obtain ⟨s, -, rfl⟩ := List.mem_map.mp ((order.perm _).mem_iff.mp hstep)
    exact ⟨hq, gasLog_of_clean hq⟩
  -- some step was counted, because a scan expects at least one
  have hcount : total.2 ≠ 0 := by
    intro hzero
    have hw := (ProfileScan.validate_eq_ok.mp ha.valid).1
    obtain ⟨s, hs, -⟩ := ha.present 0 hw.expected.1
    have hstep := (order.perm _).mem_iff.mpr (List.mem_map_of_mem (f := stepFeatures usable) hs)
    obtain ⟨hq, hlog⟩ := hsorted _ hstep
    have hnone := h.count
    rw [hzero, show (0 : UInt32).toNat = 0 from rfl, eq_comm, List.countP_eq_zero] at hnone
    refine hnone _ hstep ?_
    rw [counted, hlog, decide_eq_true hq]
    rfl
  intro step' hstep'
  have hq := hflags step' hstep'
  rw [h.steps] at hstep'
  obtain ⟨step, hstep, hflag, hlog, hoffset⟩ := mem_withOffsets hcount hstep'
  obtain ⟨hclean, hsome⟩ := hsorted step hstep
  exact ⟨hq, hlog ▸ hsome, (hoffset hclean).trans hsome⟩

/-- The settings that a resolving configuration gives to the step at an index. -/
theorem Resolves.configured {scan : ProfileScan} {configuration : DeviceConfiguration}
    (h : Resolves scan configuration) {step : ProfileStep} (hs : step ∈ scan.steps) :
    ∃ configured, configuration.heaterSteps[step.stepIndex.toNat]? = some configured ∧
      configuredAs configured step := by
  have hm := h.steps step hs
  rw [stepMatches] at hm
  cases hc : configuration.heaterSteps[step.stepIndex.toNat]? with
  | none =>
      rw [hc] at hm
      cases hm
  | some configured =>
      rw [hc] at hm
      exact ⟨configured, rfl, of_decide_eq_true hm⟩

/-- **The final gate is sound and order-independent.**  Where an extraction with a configuration
reports that a scan is usable, its vector is complete, clean and configured; and where a scan passes
the structural checks, listing its steps in another order changes none of the gates, of the missing
steps, and of the indices and the flags of the vector. -/
theorem gate_sound :
    (∀ (order : StepOrder) (scan : ProfileScan) (configuration : DeviceConfiguration)
        (f : ProfileFeatures),
      (extractProfileFeaturesWithConfiguration order scan configuration :
        Outcome Empty ProfileFeatures) = .ok f →
      f.usableForAnalysis = true → Ready scan configuration f) ∧
    ∀ (order order' : StepOrder) (scan : ProfileScan) (steps : List ProfileStep)
        (configuration : DeviceConfiguration),
      scan.validate = .ok () → scan.steps.Perm steps → ∃ f f',
        (extractProfileFeaturesWithConfiguration order scan configuration :
          Outcome Empty ProfileFeatures) = .ok f ∧
        (extractProfileFeaturesWithConfiguration order' { scan with steps } configuration :
          Outcome Empty ProfileFeatures) = .ok f' ∧
        f.configurationResolved = f'.configurationResolved ∧
        f.profileQualityUsable = f'.profileQualityUsable ∧
        f.usableForAnalysis = f'.usableForAnalysis ∧
        f.missingSteps = f'.missingSteps ∧
        f.steps.map (fun step => (step.stepIndex, step.qualityFlags)) =
          f'.steps.map fun step => (step.stepIndex, step.qualityFlags) := by
  constructor
  · intro order scan configuration f hf husable
    obtain ⟨resolved, hresolved, hresolves⟩ := exists_resolves (ε := Empty) scan configuration
    rw [extractProfileFeaturesWithConfiguration, hresolved, Outcome.ok_bind] at hf
    by_cases hn : scan.expectedSteps.toNat < 16
    case neg =>
      rw [extract_panics order resolved (Nat.not_lt.mp hn)] at hf
      cases hf
    obtain ⟨usable, total, f', hf', h⟩ := exists_extracted (ε := Empty) order resolved hn
    obtain rfl : f = f' := Except.ok.inj (hf.symm.trans hf')
    rw [h.final, Bool.and_eq_true, h.quality, Bool.and_eq_true] at husable
    obtain ⟨⟨hgate, hflags⟩, hconfigured⟩ := husable
    -- the three parts of the final gate
    have ha := h.gate.mp hgate
    have hr := hresolves.mp hconfigured
    have hw := (ProfileScan.validate_eq_ok.mp ha.valid).1
    have hflags : ∀ step ∈ f.steps, step.qualityFlags = 0 := by
      intro step hstep
      simpa using List.all_eq_true.mp hflags step hstep
    refine ⟨h.indices ha, h.clean ha hflags, ⟨ha.boot, ?_⟩, ha.received, ha.conflicts,
      ha.collection, fun i hi => ?_⟩
    · rw [h.bootId, if_pos ha.boot]
    -- each expected step is there once, and the configuration has its slot
    · obtain ⟨step, hstep, rfl⟩ := ha.present i hi
      obtain ⟨configured, hget, ⟨-, h1, h2, h3⟩, h4, h5⟩ := hr.configured hstep
      refine ⟨step, hstep, rfl, fun other hother he =>
        List.inj_on_of_nodup_map hw.nodup hother hstep he, configured, hget, h1.symm, h2.symm,
        h3.symm, h4.symm, h5.symm, ?_⟩
      rw [hr.bitmap, hr.count, Bitmap.has_lowMask hn]
      exact decide_eq_true hi
  · intro order order' scan steps configuration hv hperm
    have hw := (ProfileScan.validate_eq_ok.mp hv).1
    have hn : scan.expectedSteps.toNat < 16 := lt_of_le_of_lt hw.expected.2 (by decide)
    obtain ⟨resolved, hresolved, hresolves⟩ := exists_resolves (ε := Empty) scan configuration
    obtain ⟨resolved', hresolved', hresolves'⟩ :=
      exists_resolves (ε := Empty) { scan with steps } configuration
    -- both gates read the steps as a set
    have hsame : resolved = resolved' := by
      rw [Bool.eq_iff_iff, hresolves, hresolves']
      exact ⟨resolves_perm hperm, @resolves_perm { scan with steps } _ hperm.symm _⟩
    obtain ⟨usable, total, f, hf, h⟩ := exists_extracted (ε := Empty) order resolved hn
    obtain ⟨usable', total', f', hf', h'⟩ :=
      @exists_extracted Empty order' { scan with steps } resolved' hn
    have husable : usable = usable' := by
      rw [Bool.eq_iff_iff, h.gate, h'.gate]
      exact ⟨allowsAnalysis_perm hperm, @allowsAnalysis_perm { scan with steps } _ hperm.symm⟩
    -- the indices are distinct, so both orders are arranged alike
    have hpairs : f.steps.map (fun step => (step.stepIndex, step.qualityFlags)) =
        f'.steps.map fun step => (step.stepIndex, step.qualityFlags) := by
      rw [h.steps, h'.steps, map_withOffsets Prod.mk, map_withOffsets Prod.mk, ← husable]
      exact arrange_perm hperm hw.nodup order order' usable
    have hquality : f.profileQualityUsable = f'.profileQualityUsable := by
      have hall := congrArg (fun pairs => List.all pairs fun pair => decide (pair.2 = 0)) hpairs
      simp only [List.all_map] at hall
      rw [h.quality, h'.quality, husable]
      exact congrArg (usable' && ·) hall
    refine ⟨f, f', ?_, ?_, ?_, hquality, ?_, ?_, hpairs⟩
    · exact (Outcome.bind_of_eq_ok hresolved).trans hf
    · exact (Outcome.bind_of_eq_ok hresolved').trans hf'
    · rw [h.configuration, h'.configuration, hsame]
    · rw [h.final, h'.final, hquality, hsame]
    · refine Bitmap.ext fun i _ => ?_
      rw [Bool.eq_iff_iff, h.missing, h'.missing, carries_perm hperm]

/-- A clean step at an index. -/
def cleanStep (i : UInt8) : ProfileStep :=
  { blankStep with
    stepIndex := i
    gasIndex := i
    measurementIndex := 4 + i
    statusBits := 0xb0
    rawMeasurementStatus := 0x80 ||| i
    rawGasStatus := 0x30
    targetTemperatureCelsius := 200
    configuredDurationUs := 140000
    relativeOffsetUs := 150000
    temperatureCentiCelsius := 2150
    pressurePascal := 101325
    humidityMilliPercentRh := 45000
    gasResistanceOhm := 12000
    repetitionMultiplier := 1
    rawHeaterResistance := 0x71
    rawGasWait := 0x59 }

/-- A clean scan of three steps, listed out of order. -/
def threeSteps : ProfileScan :=
  { sixteenSteps with
    identity := ⟨7, 1, 3, 1, 0, 9, 60000⟩
    profileId := 4
    profileVersion := 1
    expectedSteps := 3
    observedUniqueSteps := 3
    observedFieldCount := 3
    durationUs := 450000
    pollCount := 5
    expectedFragmentCount := 1
    receivedFragmentBitmap := 1
    steps := [cleanStep 2, cleanStep 0, cleanStep 1] }

/-- The configuration of that scan. -/
def threeConfigured : DeviceConfiguration :=
  { blankConfiguration with
    identity := ⟨7, 1, 2, 1, 0, 9, 500⟩
    configFlags := 2
    profileId := 4
    profileVersion := 1
    expectedStepCount := 3
    heaterReadbackValidBitmap := 0b111
    heaterSteps := [⟨0, 200, 140000, 1, 0, 0x71, 0x59⟩, ⟨1, 200, 140000, 1, 0, 0x71, 0x59⟩,
      ⟨2, 200, 140000, 1, 0, 0x71, 0x59⟩] }

/-- The scan out of order is usable, and so is the same scan in order. -/
theorem gate_sound_threeSteps : ∃ f f',
    (extractProfileFeaturesWithConfiguration .insertion threeSteps threeConfigured :
      Outcome Empty ProfileFeatures) = .ok f ∧
    (extractProfileFeaturesWithConfiguration .insertion
        { threeSteps with steps := [cleanStep 0, cleanStep 1, cleanStep 2] } threeConfigured :
      Outcome Empty ProfileFeatures) = .ok f' ∧
    Ready threeSteps threeConfigured f ∧ f'.usableForAnalysis = true ∧
    f'.steps.map (fun step => (step.stepIndex, step.qualityFlags)) = [(0, 0), (1, 0), (2, 0)] := by
  have hvalid : threeSteps.validate = .ok () := by decide
  obtain ⟨f, f', hf, hf', -, -, husable, -, hsteps⟩ := gate_sound.2 .insertion .insertion threeSteps
    [cleanStep 0, cleanStep 1, cleanStep 2] threeConfigured hvalid (by decide)
  obtain ⟨g, hg, hclean, hlisted⟩ : ∃ g,
      (extractProfileFeaturesWithConfiguration .insertion threeSteps threeConfigured :
        Outcome Empty ProfileFeatures) = .ok g ∧ g.usableForAnalysis = true ∧
        g.steps.map (fun step => (step.stepIndex, step.qualityFlags)) =
          [(0, 0), (1, 0), (2, 0)] := ⟨_, rfl, rfl, rfl⟩
  obtain rfl : f = g := Except.ok.inj (hf.symm.trans hg)
  exact ⟨f, f', hf, hf', gate_sound.1 .insertion threeSteps threeConfigured f hf hclean,
    husable ▸ hclean, hsteps ▸ hlisted⟩

end Vesta.Analysis
