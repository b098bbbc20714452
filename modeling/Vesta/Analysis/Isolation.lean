import Vesta.Foundations.Unwinding
import Vesta.Analysis.Temporal

/-!
# Analysis — Isolation

What the temporal features of a sample do not depend on.  An ingestion reads and changes what is
remembered of the sample's own channel, and nothing else (`ingest_congr`, `lookup_ingest_self`,
`lookup_ingest_ne`); so a sample of another channel can be deleted from a run.  Some samples change
nothing at all (`ingest_irrelevant`): without a key, not newer than what is remembered, or of bad
quality where nothing is cleared.  They can be deleted for the channel's own samples as well.  And
two readings of a node are compared whatever other channels sent in between (`readings_compared`).
-/

namespace Vesta.Analysis

open Unwinding (Alike Unwinds)

/-! ### Time -/

/-- By the clock of its series, the sample is strictly later than `prior`. -/
def AnalysisSample.NewerThan (sample prior : AnalysisSample) : Prop :=
  match sample.series with
  | .legacyV1 => prior.receivedAtUnixMs < sample.receivedAtUnixMs
  | .profileStep .. => ∃ time priorTime, sample.deviceSampleTime = some time ∧
      prior.deviceSampleTime = some priorTime ∧
      priorTime.totalMicroseconds < time.totalMicroseconds

theorem AnalysisSample.newerThan_of_elapsedSince {sample prior : AnalysisSample} {e : UInt64}
    (h : sample.elapsedSince prior = some e) : sample.NewerThan prior := by
  obtain ⟨hpos, hbetween⟩ := elapsedBetween h
  rw [ElapsedBetween] at hbetween
  rw [NewerThan]
  cases hs : sample.series with
  | legacyV1 =>
      rw [hs] at hbetween
      rw [Int64.lt_iff_toInt_lt]
      dsimp only at hbetween
      omega
  | profileStep configId profileId profileVersion stepIndex =>
      rw [hs] at hbetween
      obtain ⟨time, priorTime, htime, hprior, he⟩ := hbetween
      refine ⟨time, priorTime, htime, hprior, ?_⟩
      rw [DeviceSampleTime.totalMicroseconds, DeviceSampleTime.totalMicroseconds]
      omega

namespace TemporalFeatureExtractor

/-! ### One ingestion -/

/-- The sample is remembered, after what is remembered of its channel was or was not cleared. -/
def keeps (sample : AnalysisSample) (previous : Option AnalysisSample) : Bool :=
  sample.quality.isEmpty &&
    (previous.all fun prior => (sample.elapsedSince prior).isSome) &&
    (!sample.series.isProfileStep || sample.deviceSampleTime.isSome)

/-- What the reset leaves of an observation. -/
def cleared (sample : AnalysisSample) (previous : Option AnalysisSample) : Option AnalysisSample :=
  if resets sample previous then none else previous

/-- What is remembered of a channel after one of its samples. -/
def after (sample : AnalysisSample) (previous : Option AnalysisSample) : Option AnalysisSample :=
  if keeps sample (cleared sample previous) then some sample else cleared sample previous

section
variable {x x' : TemporalFeatureExtractor} {s : AnalysisSample}

/-- The features are those of the sample and of what is remembered of its channel. -/
theorem ingest_congr (h : x.priorOf s = x'.priorOf s) : (x.ingest s).1 = (x'.ingest s).1 := by
  rw [ingest, ingest, h]

theorem snd_ingest : (x.ingest s).2 =
    let y := if resets s (x.priorOf s) then x.forget s else x
    if keeps s (cleared s (x.priorOf s)) then y.remember s else y := rfl

theorem lookup_ingest_self {key : HistoryKey} (hk : s.historyKey = some key) :
    (x.ingest s).2.previous.lookup key = after s (x.previous.lookup key) := by
  have hprior : x.priorOf s = x.previous.lookup key := by rw [priorOf, hk, Option.bind_some]
  have hremember : ∀ y : TemporalFeatureExtractor, (y.remember s).previous.lookup key = some s := by
    intro y
    rw [remember, hk]
    exact AList.lookup_insert _
  have hcleared : (if resets s (x.priorOf s) then x.forget s else x).previous.lookup key =
      cleared s (x.previous.lookup key) := by
    rw [cleared, hprior]
    split
    · rw [forget, hk]
      exact AList.lookup_erase ..
    · rfl
  rw [snd_ingest, after, ← hprior]
  dsimp only
  split
  · exact hremember _
  · rw [hcleared, hprior]

theorem lookup_ingest_ne {key : HistoryKey} (hk : s.historyKey ≠ some key) :
    (x.ingest s).2.previous.lookup key = x.previous.lookup key := by
  have hforget : (x.forget s).previous.lookup key = x.previous.lookup key := by
    rw [forget]
    split
    · next k hs => exact AList.lookup_erase_ne fun he => hk (he ▸ hs)
    · rfl
  have hremember : ∀ y : TemporalFeatureExtractor,
      (y.remember s).previous.lookup key = y.previous.lookup key := by
    intro y
    rw [remember]
    split
    · next k hs => exact AList.lookup_insert_ne fun he => hk (he ▸ hs)
    · rfl
  have hcleared : (if resets s (x.priorOf s) then x.forget s else x).previous.lookup key =
      x.previous.lookup key := by
    split
    · exact hforget
    · rfl
  rw [snd_ingest]
  dsimp only
  split
  · rw [hremember, hcleared]
  · exact hcleared

/-- Where nothing is cleared and nothing is kept, nothing changes. -/
theorem ingest_idle (hr : resets s (x.priorOf s) = false)
    (hk : keeps s (x.priorOf s) = false) : (x.ingest s).2 = x := by
  rw [snd_ingest, cleared]
  simp only [hr, hk, Bool.false_eq_true, if_false]

end

/-! ### Irrelevant samples -/

/-- A sample that changes nothing of what the extractor remembers. -/
inductive Irrelevant (x : TemporalFeatureExtractor) (s : AnalysisSample) : Prop where
  /-- A heater step without a boot nonce. -/
  | unkeyed (hs : s.series.isProfileStep) (hb : s.bootId = none)
  /-- Not strictly newer than what is remembered of its series. -/
  | stale (p : AnalysisSample) (hp : x.priorOf s = some p) (hn : ¬ s.NewerThan p)
  /-- Of bad quality, without the reset marker and, for a heater step, next in sequence to what is
  remembered. -/
  | flagged (hq : s.quality.bits ≠ 0) (hm : s.resetTemporalHistory = false)
      (hs : s.series.isProfileStep → ∀ p, x.priorOf s = some p → s.sequence = p.sequence + 1)

theorem ingest_irrelevant {x : TemporalFeatureExtractor} {s : AnalysisSample}
    (h : Irrelevant x s) : (x.ingest s).2 = x := by
  cases h with
  | unkeyed hs hb =>
      have hk : s.historyKey = none := by
        rw [AnalysisSample.historyKey, if_pos ⟨hs, by rw [hb]; rfl⟩]
      have hforget : x.forget s = x := by rw [forget, hk]
      have hremember : x.remember s = x := by rw [remember, hk]
      rw [snd_ingest, hforget]
      simp only [ite_self, hremember]
  | stale p hp hn =>
      have he : s.elapsedSince p = none := by
        cases he : s.elapsedSince p with
        | none => rfl
        | some e => exact absurd (AnalysisSample.newerThan_of_elapsedSince he) hn
      exact ingest_idle (by simp [resets, hp, he]) (by simp [keeps, hp, he])
  | flagged hq hm hs =>
      have hempty : s.quality.isEmpty = false := decide_eq_false hq
      refine ingest_idle ?_ (by simp [keeps, hempty])
      rw [resets, hm, Bool.false_and, Bool.false_or]
      cases hp : x.priorOf s with
      | none => simp
      | some p =>
          cases hstep : s.series.isProfileStep with
          | false => rfl
          | true => simp [hs hstep p hp]

/-! ### Runs -/

theorem ingestAll_eq_run (x : TemporalFeatureExtractor) (samples : List AnalysisSample) :
    x.ingestAll samples = Unwinding.run ingest x samples := by
  induction samples generalizing x with
  | nil => rfl
  | cons s samples ih =>
      rw [Unwinding.run_cons, ← ih]
      rfl

/-- The extractors remember the same of every channel but one. -/
def AgreeExcept (key : HistoryKey) (x x' : TemporalFeatureExtractor) : Prop :=
  ∀ k, k ≠ key → x.previous.lookup k = x'.previous.lookup k

/-- What is remembered of a channel does not show in the features of the others. -/
theorem unwinds_agreeExcept (key : HistoryKey) :
    Unwinds ingest (fun s => s.historyKey ≠ some key) (AgreeExcept key) where
  output {x x'} s h hs := by
    refine ingest_congr ?_
    rw [priorOf, priorOf]
    cases hk : s.historyKey with
    | none => rfl
    | some k => exact h k fun he => hs (he ▸ hk)
  state {x x'} s h k hk := by
    by_cases hs : s.historyKey = some k
    · rw [lookup_ingest_self hs, lookup_ingest_self hs, h k hk]
    · rw [lookup_ingest_ne hs, lookup_ingest_ne hs, h k hk]

/-- The sample leads to the same channels but its own. -/
theorem agreeExcept_ingest {key : HistoryKey} {s : AnalysisSample} (hk : s.historyKey = some key)
    (x : TemporalFeatureExtractor) : AgreeExcept key (x.ingest s).2 x := fun _ hne =>
  lookup_ingest_ne fun he => hne (Option.some.inj (he.symm.trans hk))

/-- `t` is of another node, boot or series than `s`. -/
def Elsewhere (s t : AnalysisSample) : Prop :=
  t.nodeId ≠ s.nodeId ∨ t.bootId ≠ s.bootId ∨ t.series ≠ s.series

theorem Elsewhere.historyKey_ne {s t : AnalysisSample} (h : Elsewhere s t) {key : HistoryKey}
    (hs : s.historyKey = some key) : t.historyKey ≠ some key := by
  intro ht
  obtain ⟨rfl, -⟩ := historyKey_eq_some hs
  obtain ⟨he, -⟩ := historyKey_eq_some ht
  obtain ⟨hnode, hboot, hseries⟩ := HistoryKey.mk.injEq .. ▸ he
  rcases h with h | h | h
  · exact h hnode.symm
  · exact h hboot.symm
  · exact h hseries.symm

/-- A sample without a key changes nothing. -/
theorem irrelevant_of_historyKey {s : AnalysisSample} (h : s.historyKey = none)
    (x : TemporalFeatureExtractor) : Irrelevant x s := by
  rw [AnalysisSample.historyKey] at h
  split at h
  · next hs => exact .unkeyed hs.1 (Option.isNone_iff_eq_none.mp hs.2)
  · cases h

/-! ### Readings -/

/-- Samples of other channels leave what is remembered of one. -/
theorem lookup_ingestAll_ne {key : HistoryKey} {samples : List AnalysisSample}
    (h : ∀ s ∈ samples, s.historyKey ≠ some key) (x : TemporalFeatureExtractor) :
    (x.ingestAll samples).2.previous.lookup key = x.previous.lookup key := by
  induction samples generalizing x with
  | nil => rfl
  | cons s samples ih =>
      obtain ⟨hs, hrest⟩ := List.forall_mem_cons.mp h
      exact (ih hrest _).trans (lookup_ingest_ne hs)

/-- **Consecutive readings of a node are compared**, across its reboots and whatever heater steps
and readings of other nodes come in between.  The first one must be later than what is remembered of
the node, and both without flags. -/
theorem readings_compared (x : TemporalFeatureExtractor) (frame frame' : Protocol.TelemetryV1)
    (t t' : Int64) (between : List AnalysisSample) (hnode : frame'.nodeId = frame.nodeId)
    (hclean : (AnalysisSample.fromV1 frame t).quality.isEmpty)
    (hclean' : (AnalysisSample.fromV1 frame' t').quality.isEmpty)
    (hfirst : ∀ p, x.priorOf (.fromV1 frame t) = some p →
      ((AnalysisSample.fromV1 frame t).elapsedSince p).isSome)
    (hbetween : ∀ s ∈ between, s.series.isProfileStep ∨ s.nodeId ≠ frame.nodeId)
    (hlater : t.toInt < t'.toInt) (hfits : 1000 * (t'.toInt - t.toInt) < 2 ^ 64) :
    ∃ e, ((x.ingestAll (.fromV1 frame t :: between)).2.ingest (.fromV1 frame' t')).1.elapsedUs =
        some e ∧ (e.toNat : Int) = 1000 * (t'.toInt - t.toInt) := by
  have hk : (AnalysisSample.fromV1 frame t).historyKey = some ⟨frame.nodeId, none, .legacyV1⟩ := rfl
  have hk' : (AnalysisSample.fromV1 frame' t').historyKey = some ⟨frame.nodeId, none, .legacyV1⟩ :=
    congrArg (fun nodeId => some (⟨nodeId, none, .legacyV1⟩ : HistoryKey)) hnode
  have hother : ∀ s ∈ between, s.historyKey ≠ some ⟨frame.nodeId, none, .legacyV1⟩ := by
    intro s hs hsame
    obtain ⟨he, -⟩ := historyKey_eq_some hsame
    obtain ⟨hn, -, hseries⟩ := HistoryKey.mk.injEq .. ▸ he
    rcases hbetween s hs with hstep | hne
    · rw [← hseries] at hstep
      cases hstep
    · exact hne hn.symm
  -- the first reading is remembered, and what comes in between does not clear it
  have hprior : (x.ingestAll (.fromV1 frame t :: between)).2.priorOf (.fromV1 frame' t') =
      some (.fromV1 frame t) := by
    have hkept : keeps (.fromV1 frame t) (x.priorOf (.fromV1 frame t)) = true := by
      rw [keeps, hclean, Bool.true_and, Bool.and_eq_true]
      exact ⟨by rw [Option.all_eq_true]; exact hfirst, rfl⟩
    have hafter : after (.fromV1 frame t) (x.priorOf (.fromV1 frame t)) =
        some (.fromV1 frame t) := if_pos hkept
    rw [priorOf, hk', Option.bind_some]
    refine (lookup_ingestAll_ne hother _).trans ((lookup_ingest_self hk).trans ?_)
    rw [← hafter, priorOf, hk, Option.bind_some]
  have helapsed : (AnalysisSample.fromV1 frame' t').elapsedSince (.fromV1 frame t) =
      some (.ofNat ((t'.toInt - t.toInt).toNat * 1000)) := by
    show elapsedHostMicroseconds t' t = _
    rw [elapsedHostMicroseconds, if_pos (by omega), positiveU64, if_pos (by omega)]
  have hmicros : (t'.toInt - t.toInt).toNat * 1000 < 2 ^ 64 := by omega
  refine ⟨_, elapsedUs_ingest_of_usable hprior rfl hclean' hclean helapsed, ?_⟩
  rw [UInt64.toNat_ofNat_of_lt' hmicros]
  omega

end TemporalFeatureExtractor

open TemporalFeatureExtractor in
/-- **Irrelevant samples do not influence temporal features.**  Delete one sample from a run.  What
came before it has the same features as before; so has every later sample of another node, boot or
series; and so has every later sample at all where the deleted one was a heater step without a boot
nonce, or not strictly newer than what was remembered of its series when it arrived, or of bad
quality without a reset marker and, for a heater step, next in sequence. -/
theorem irrelevant_sample_deleted (x : TemporalFeatureExtractor) (before : List AnalysisSample)
    (s : AnalysisSample) (samples : List AnalysisSample) :
    ∃ log features rest rest',
      (x.ingestAll (before ++ s :: samples)).1 = log ++ (s, features) :: rest ∧
      (x.ingestAll (before ++ samples)).1 = log ++ rest' ∧ log.map Prod.fst = before ∧
      List.Forall₂ (fun entry entry' => entry.1 = entry'.1 ∧
        (Elsewhere s entry.1 ∨ Irrelevant (x.ingestAll before).2 s → entry.2 = entry'.2))
        rest rest' := by
  simp only [ingestAll_eq_run]
  by_cases hi : Irrelevant (Unwinding.run ingest x before).2 s
  · obtain ⟨log, features, rest, rest', hwith, hwithout, hlog, halike⟩ :=
      Unwinding.unwinds_eq.delete x before s samples (ingest_irrelevant hi)
    obtain rfl := Unwinding.eq_of_alike halike
    exact ⟨log, features, rest, rest, hwith, hwithout, hlog,
      List.forall₂_same.mpr fun _ _ => ⟨rfl, fun _ => rfl⟩⟩
  · obtain ⟨key, hk⟩ : ∃ key, s.historyKey = some key :=
      Option.ne_none_iff_exists'.mp fun hk => hi (irrelevant_of_historyKey hk _)
    obtain ⟨log, features, rest, rest', hwith, hwithout, hlog, halike⟩ :=
      (unwinds_agreeExcept key).delete x before s samples (agreeExcept_ingest hk _)
    refine ⟨log, features, rest, rest', hwith, hwithout, hlog, halike.imp fun entry _ he => ?_⟩
    exact ⟨he.input, fun hseen => he.output ((hseen.resolve_right hi).historyKey_ne hk)⟩

end Vesta.Analysis
