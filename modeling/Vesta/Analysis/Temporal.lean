import Mathlib.Data.List.AList
import Vesta.Analysis.Samples

/-!
# Analysis — Temporal

The extractor that compares each observation with the one before it in the same channel.  What it
remembers of a channel is the last usable observation since the channel was last reset
(`Remembers`), and every ingestion keeps that; so a rate is reported only across two adjacent,
unbroken and usable observations (`ingest_derivative`).
-/

namespace Vesta.Analysis

/-! ### The extractor -/

/-- Numerical features for one chronologically ingested observation. -/
structure TemporalFeatures where
  nodeId : UInt64
  bootId : Option UInt64
  sequence : UInt32
  series : AnalysisSeries
  receivedAtUnixMs : Int64
  deviceSampleTime : Option DeviceSampleTime
  qualityFlags : UInt16
  temporalHistoryReset : Bool
  temperatureCelsius : Float
  pressureHectopascal : Float
  humidityPercentRh : Float
  gasLogOhm : Option Float
  elapsedMs : Option UInt64
  elapsedUs : Option UInt64
  temperatureRateCelsiusPerMinute : Option Float
  humidityRatePercentPerMinute : Option Float
  pressureRateHectopascalPerMinute : Option Float
  gasLogRatePerMinute : Option Float

/-- `Duration::from_micros(..).as_secs_f64() / 60.0`. -/
def minutesOf (elapsedUs : UInt64) : Float :=
  let seconds := elapsedUs / 1000000
  let nanoseconds := elapsedUs % 1000000 * 1000
  (seconds.toFloat + nanoseconds.toFloat / 1000000000) / 60

/-- Stateful chronological feature extractor. -/
structure TemporalFeatureExtractor where
  previous : AList fun _ : HistoryKey => AnalysisSample

namespace TemporalFeatureExtractor

/-- `TemporalFeatureExtractor::default`. -/
def default : TemporalFeatureExtractor := ⟨∅⟩

/-- The observation remembered for the channel of a sample. -/
def priorOf (x : TemporalFeatureExtractor) (sample : AnalysisSample) : Option AnalysisSample :=
  sample.historyKey.bind fun key => x.previous.lookup key

/-- `self.previous.remove(&key)`, if there is a key. -/
def forget (x : TemporalFeatureExtractor) (sample : AnalysisSample) : TemporalFeatureExtractor :=
  match sample.historyKey with
  | some key => ⟨x.previous.erase key⟩
  | none => x

/-- `self.previous.insert(key, sample)`, if there is a key. -/
def remember (x : TemporalFeatureExtractor) (sample : AnalysisSample) : TemporalFeatureExtractor :=
  match sample.historyKey with
  | some key => ⟨x.previous.insert key sample⟩
  | none => x

/-- The observation clears the history of its channel. -/
def resets (sample : AnalysisSample) (previous : Option AnalysisSample) : Bool :=
  let explicitReset := sample.resetTemporalHistory &&
    previous.all fun prior => (sample.elapsedSince prior).isSome
  let sequenceGapReset := sample.series.isProfileStep &&
    previous.any fun prior => (sample.elapsedSince prior).isSome &&
      sample.sequence != prior.sequence + 1
  explicitReset || sequenceGapReset

/-- The features of an observation alone. -/
def featuresOf (sample : AnalysisSample) (temporalHistoryReset : Bool) : TemporalFeatures where
  nodeId := sample.nodeId
  bootId := sample.bootId
  sequence := sample.sequence
  series := sample.series
  receivedAtUnixMs := sample.receivedAtUnixMs
  deviceSampleTime := sample.deviceSampleTime
  qualityFlags := sample.quality.bits
  temporalHistoryReset
  temperatureCelsius := sample.temperatureCentiCelsius.toFloat / 100
  pressureHectopascal := sample.pressurePascal.toFloat / 100
  humidityPercentRh := sample.humidityMilliPercentRh.toFloat / 1000
  gasLogOhm := gasLog sample.gasResistanceOhm
  elapsedMs := none
  elapsedUs := none
  temperatureRateCelsiusPerMinute := none
  humidityRatePercentPerMinute := none
  pressureRateHectopascalPerMinute := none
  gasLogRatePerMinute := none

/-- Add the rates since an earlier observation. -/
def withRates (features : TemporalFeatures) (sample prior : AnalysisSample) (elapsedUs : UInt64) :
    TemporalFeatures :=
  let minutes := minutesOf elapsedUs
  { features with
    elapsedMs := some (elapsedUs / 1000)
    elapsedUs := some elapsedUs
    temperatureRateCelsiusPerMinute := some
      ((sample.temperatureCentiCelsius.toFloat - prior.temperatureCentiCelsius.toFloat) / 100 /
        minutes)
    humidityRatePercentPerMinute := some
      ((sample.humidityMilliPercentRh.toFloat - prior.humidityMilliPercentRh.toFloat) / 1000 /
        minutes)
    pressureRateHectopascalPerMinute := some
      ((sample.pressurePascal.toFloat - prior.pressurePascal.toFloat) / 100 / minutes)
    gasLogRatePerMinute := (gasLog sample.gasResistanceOhm).bind fun current =>
      (gasLog prior.gasResistanceOhm).map fun prior => (current - prior) / minutes }

/-- The earlier observation that rates may be computed from, with the time since. -/
def usablePrevious (sample : AnalysisSample) (previous : Option AnalysisSample) :
    Option (AnalysisSample × UInt64) :=
  previous.bind fun prior =>
    if sample.quality.isEmpty ∧ prior.quality.isEmpty then
      (sample.elapsedSince prior).map fun elapsed => (prior, elapsed)
    else none

/-- `TemporalFeatureExtractor::ingest`. -/
def ingest (x : TemporalFeatureExtractor) (sample : AnalysisSample) :
    TemporalFeatures × TemporalFeatureExtractor :=
  let previous := x.priorOf sample
  let temporalHistoryReset := resets sample previous
  let x := if temporalHistoryReset then x.forget sample else x
  let previous := if temporalHistoryReset then none else previous
  let features := featuresOf sample temporalHistoryReset
  let features := match usablePrevious sample previous with
    | some (prior, elapsedUs) => withRates features sample prior elapsedUs
    | none => features
  let keeps := sample.quality.isEmpty &&
    (previous.all fun prior => (sample.elapsedSince prior).isSome) &&
    (!sample.series.isProfileStep || sample.deviceSampleTime.isSome)
  (features, if keeps then x.remember sample else x)

/-- Ingest samples one after the other; each is logged with its features. -/
def ingestAll (x : TemporalFeatureExtractor) :
    List AnalysisSample → List (AnalysisSample × TemporalFeatures) × TemporalFeatureExtractor
  | [] => ([], x)
  | sample :: samples =>
      let (features, x₁) := x.ingest sample
      let (log, x') := x₁.ingestAll samples
      ((sample, features) :: log, x')

/-! ### One ingestion -/

section
variable {x : TemporalFeatureExtractor} {s : AnalysisSample}

theorem reset_ingest : (x.ingest s).1.temporalHistoryReset = resets s (x.priorOf s) := by
  rw [ingest]
  dsimp only
  cases usablePrevious s _ with
  | none => rfl
  | some link => rfl

/-- The observation that rates were computed from. -/
theorem elapsedUs_ingest {e : UInt64} (h : (x.ingest s).1.elapsedUs = some e) :
    ∃ prior, x.priorOf s = some prior ∧ resets s (some prior) = false ∧
      s.quality.isEmpty ∧ prior.quality.isEmpty ∧ s.elapsedSince prior = some e := by
  rw [ingest] at h
  dsimp only at h
  cases hu : usablePrevious s (if resets s (x.priorOf s) then none else x.priorOf s) with
  | none =>
      rw [hu] at h
      cases h
  | some link =>
      rw [hu] at h
      obtain ⟨prior, elapsed⟩ := link
      obtain rfl : elapsed = e := Option.some.inj h
      obtain ⟨q, hq, husable⟩ := Option.bind_eq_some_iff.mp hu
      split at hq
      · cases hq
      · next hreset =>
          split at husable
          · next hquality =>
              obtain ⟨e', he, hpair⟩ := Option.map_eq_some_iff.mp husable
              obtain ⟨rfl, rfl⟩ := Prod.mk.inj hpair
              rw [hq, Bool.not_eq_true] at hreset
              exact ⟨q, hq, hreset, hquality.1, hquality.2, he⟩
          · cases husable

/-- A usable earlier observation, where nothing is cleared, gives the elapsed time. -/
theorem elapsedUs_ingest_of_usable {prior : AnalysisSample} {e : UInt64}
    (hprior : x.priorOf s = some prior) (hreset : resets s (some prior) = false)
    (hs : s.quality.isEmpty) (hq : prior.quality.isEmpty) (he : s.elapsedSince prior = some e) :
    (x.ingest s).1.elapsedUs = some e := by
  have husable : usablePrevious s (some prior) = some (prior, e) := by
    rw [usablePrevious, Option.bind_some, if_pos ⟨hs, hq⟩, he]
    rfl
  rw [ingest, hprior, hreset]
  dsimp only
  rw [if_neg Bool.false_ne_true, husable]
  rfl

/-- Without an elapsed time there are no rates. -/
theorem rates_ingest (h : (x.ingest s).1.elapsedUs = none) :
    (x.ingest s).1.temperatureRateCelsiusPerMinute = none ∧
      (x.ingest s).1.humidityRatePercentPerMinute = none ∧
      (x.ingest s).1.pressureRateHectopascalPerMinute = none ∧
      (x.ingest s).1.gasLogRatePerMinute = none := by
  rw [ingest] at h ⊢
  dsimp only at h ⊢
  cases hu : usablePrevious s (if resets s (x.priorOf s) then none else x.priorOf s) with
  | none => exact ⟨rfl, rfl, rfl, rfl⟩
  | some link =>
      rw [hu] at h
      cases h

theorem lookup_forget {key : HistoryKey} {p : AnalysisSample}
    (h : (x.forget s).previous.lookup key = some p) :
    x.previous.lookup key = some p ∧ s.historyKey ≠ some key := by
  rw [forget] at h
  split at h
  · next k hk =>
      by_cases he : key = k
      · subst he
        rw [AList.lookup_erase] at h
        cases h
      · rw [AList.lookup_erase_ne he] at h
        refine ⟨h, ?_⟩
        rw [hk]
        exact fun hs => he (Option.some.inj hs).symm
  · next hk =>
      refine ⟨h, ?_⟩
      rw [hk]
      exact nofun

theorem lookup_remember {key : HistoryKey} {p : AnalysisSample}
    (h : (x.remember s).previous.lookup key = some p) :
    (s.historyKey = some key ∧ p = s) ∨ x.previous.lookup key = some p := by
  rw [remember] at h
  split at h
  · next k hk =>
      by_cases he : key = k
      · subst he
        rw [AList.lookup_insert] at h
        exact .inl ⟨hk, (Option.some.inj h).symm⟩
      · rw [AList.lookup_insert_ne he] at h
        exact .inr h
  · exact .inr h

/-- What is remembered after an ingestion: the sample, or what was remembered before it unless the
sample cleared it. -/
theorem lookup_ingest {key : HistoryKey} {p : AnalysisSample}
    (h : (x.ingest s).2.previous.lookup key = some p) :
    (s.historyKey = some key ∧ p = s ∧ s.quality.isEmpty) ∨
      (x.previous.lookup key = some p ∧
        (s.historyKey = some key → (x.ingest s).1.temporalHistoryReset = false)) := by
  have hkept : (if resets s (x.priorOf s) then x.forget s else x).previous.lookup key = some p →
      x.previous.lookup key = some p ∧
        (s.historyKey = some key → (x.ingest s).1.temporalHistoryReset = false) := by
    intro hl
    rw [reset_ingest]
    split at hl
    · obtain ⟨hl, hne⟩ := lookup_forget hl
      exact ⟨hl, fun hk => absurd hk hne⟩
    · next hreset => exact ⟨hl, fun _ => Bool.not_eq_true _ ▸ hreset⟩
  have hadded : ∀ (keeps : Bool) (x' : TemporalFeatureExtractor),
      (if keeps then x'.remember s else x').previous.lookup key = some p →
      (keeps ∧ s.historyKey = some key ∧ p = s) ∨ x'.previous.lookup key = some p := by
    intro keeps x' hl
    cases keeps with
    | false => exact .inr hl
    | true =>
        rcases lookup_remember hl with hs | hl
        · exact .inl ⟨rfl, hs⟩
        · exact .inr hl
  rcases hadded _ _ h with ⟨hkeeps, hk, he⟩ | hl
  · rw [Bool.and_eq_true, Bool.and_eq_true] at hkeeps
    exact .inl ⟨hk, he, hkeeps.1.1⟩
  · exact .inr (hkept hl)

end

/-! ### Runs -/

/-- What is remembered of a channel is the last usable sample ingested since its last reset. -/
def Remembers (log : List (AnalysisSample × TemporalFeatures)) (x : TemporalFeatureExtractor) :
    Prop :=
  ∀ key p, x.previous.lookup key = some p →
    p.historyKey = some key ∧ p.quality.isEmpty ∧ ∃ earlier features between,
      log = earlier ++ (p, features) :: between ∧
      ∀ entry ∈ between, entry.1.historyKey = some key → entry.2.temporalHistoryReset = false

theorem Remembers.ingest {log : List (AnalysisSample × TemporalFeatures)}
    {x : TemporalFeatureExtractor} (h : Remembers log x) (s : AnalysisSample) :
    Remembers (log ++ [(s, (x.ingest s).1)]) (x.ingest s).2 := by
  intro key p hp
  rcases lookup_ingest hp with ⟨hk, rfl, hq⟩ | ⟨hold, hreset⟩
  · exact ⟨hk, hq, log, _, [], rfl, List.forall_mem_nil _⟩
  · obtain ⟨hk, hq, earlier, features, between, rfl, hbetween⟩ := h key p hold
    refine ⟨hk, hq, earlier, features, between ++ [(s, (x.ingest s).1)], by simp, ?_⟩
    intro entry hentry
    rcases List.mem_append.mp hentry with hentry | hentry
    · exact hbetween entry hentry
    · rw [List.mem_singleton.mp hentry]
      exact hreset

theorem Remembers.ingestAll {samples : List AnalysisSample} :
    ∀ {log : List (AnalysisSample × TemporalFeatures)} {x : TemporalFeatureExtractor},
      Remembers log x → Remembers (log ++ (x.ingestAll samples).1) (x.ingestAll samples).2 := by
  induction samples with
  | nil =>
      intro log x h
      rw [TemporalFeatureExtractor.ingestAll, List.append_nil]
      exact h
  | cons s samples ih =>
      intro log x h
      have hrest := ih (h.ingest s)
      rw [List.append_assoc] at hrest
      exact hrest

theorem ingestAll_samples {samples : List AnalysisSample} :
    ∀ {x : TemporalFeatureExtractor}, (x.ingestAll samples).1.map (·.1) = samples := by
  induction samples with
  | nil => exact rfl
  | cons s samples ih =>
      intro x
      exact congrArg (s :: ·) ih

theorem historyKey_eq_some {s : AnalysisSample} {key : HistoryKey}
    (h : s.historyKey = some key) :
    key = ⟨s.nodeId, s.bootId, s.series⟩ ∧ (s.series.isProfileStep → s.bootId.isSome) := by
  rw [AnalysisSample.historyKey] at h
  split at h
  · cases h
  · next hno =>
      refine ⟨(Option.some.inj h).symm, fun hstep => ?_⟩
      rw [not_and, Option.isNone_iff_eq_none, ← ne_eq, Option.ne_none_iff_isSome] at hno
      exact hno hstep

end TemporalFeatureExtractor

open TemporalFeatureExtractor in
/-- **Rates are computed across adjacent, unbroken, usable observations only.**  After any samples
on a fresh extractor, when ingesting another reports an elapsed time there is an earlier sample of
the same node, boot and series, both without quality flags, that lies exactly this positive time
before; no sample of the series in between cleared the history; and a heater step has a boot ID,
follows in sequence and clears nothing itself.  Where no elapsed time is reported, no rate is. -/
theorem ingest_derivative (samples : List AnalysisSample) (s : AnalysisSample) :
    let log := (TemporalFeatureExtractor.default.ingestAll samples).1
    let features := ((TemporalFeatureExtractor.default.ingestAll samples).2.ingest s).1
    log.map (·.1) = samples ∧
    (∀ e, features.elapsedUs = some e → ∃ p pFeatures earlier between,
      log = earlier ++ (p, pFeatures) :: between ∧
      p.nodeId = s.nodeId ∧ p.bootId = s.bootId ∧ p.series = s.series ∧
      p.quality.bits = 0 ∧ s.quality.bits = 0 ∧
      0 < e.toNat ∧ ElapsedBetween p s e ∧
      (∀ entry ∈ between, entry.1.nodeId = s.nodeId → entry.1.bootId = s.bootId →
        entry.1.series = s.series → entry.2.temporalHistoryReset = false) ∧
      (s.series.isProfileStep → s.bootId.isSome ∧ s.sequence = p.sequence + 1 ∧
        s.resetTemporalHistory = false)) ∧
    (features.elapsedUs = none →
      features.temperatureRateCelsiusPerMinute = none ∧
        features.humidityRatePercentPerMinute = none ∧
        features.pressureRateHectopascalPerMinute = none ∧
        features.gasLogRatePerMinute = none) := by
  intro log features
  have hremembers : Remembers log (TemporalFeatureExtractor.default.ingestAll samples).2 := by
    have hempty : Remembers [] TemporalFeatureExtractor.default := by
      intro key p hp
      cases hp
    exact hempty.ingestAll
  refine ⟨ingestAll_samples, fun e he => ?_, rates_ingest⟩
  obtain ⟨p, hprior, hreset, hqs, hqp, helapsed⟩ := elapsedUs_ingest he
  -- what is remembered of the key is a sample of the log
  obtain ⟨key, hks, hlookup⟩ := Option.bind_eq_some_iff.mp hprior
  obtain ⟨hkp, -, earlier, pFeatures, between, hlog, hbetween⟩ := hremembers key p hlookup
  obtain ⟨rfl, hboot⟩ := historyKey_eq_some hks
  -- one key: one node, boot and series
  obtain ⟨hsame, -⟩ := historyKey_eq_some hkp
  obtain ⟨hnode, hbootId, hseries⟩ := HistoryKey.mk.injEq .. ▸ hsame
  obtain ⟨hpos, hbetweenTime⟩ := elapsedBetween helapsed
  refine ⟨p, pFeatures, earlier, between, hlog, hnode.symm, hbootId.symm, hseries.symm,
    of_decide_eq_true hqp, of_decide_eq_true hqs, hpos, hbetweenTime, ?_, fun hstep => ?_⟩
  · intro entry hentry hn hb hs
    refine hbetween entry hentry ?_
    rw [← hks, AnalysisSample.historyKey, AnalysisSample.historyKey, hn, hb, hs]
  · simp only [resets, Option.all_some, Option.any_some, helapsed, Option.isSome_some,
      Bool.and_true, Bool.true_and, hstep, Bool.or_eq_false_iff, bne_eq_false_iff_eq] at hreset
    exact ⟨hboot hstep, hreset.2, hreset.1⟩

end Vesta.Analysis
