import Vesta.Analysis.Features
import Vesta.Ledger.Outcome
import Vesta.Listen.Counters
import Vesta.Listen.Refusal

/-!
# Listen — Invalidation

A fragment that contradicts a stored scan invalidates it: once the fragment was processed, the scan
of its key counts a conflict, and does so from then on (`conflict_invalidates`).  Nothing else is
asked of when the two came, nor of what the receiver had in memory, than that the key has no stray.
A stray is not counted (`not_conflict_invalidates`).
-/

namespace Vesta.Listen

open FirstWins (Rule Verdict)
open Receiver (Arrival ScanTally ProfileKey ProfileMetadata ProfileScan OwnedFragment
  IsFrame scanRule
  blankCommon blankScan)
open Store (TelemetryStore ScanRow PacketRow)
open Ledger

variable {I : ProfileKey → Account → Prop}

/-! ### Later states -/

/-- The invariant that an archive still begins as it once was. -/
def Begins (archive : ProfileKey → List Arrival) (key : ProfileKey) (c : Account) : Prop :=
  archive key <+: c.archive

instance (archive : ProfileKey → List Arrival) : Account.Stable (Begins archive) where
  moves := by
    intro key c c' _ hm hi
    cases hm <;> exact hi

instance (archive : ProfileKey → List Arrival) : Account.Growing (Begins archive) where
  receive _ _ hi := hi.trans (List.prefix_append _ _)

/-- What is kept by every step is kept by a run. -/
theorem Accounted.run [Account.Stable I] [Account.Growing I] {n n' : Node} (h : Accounted I n)
    (hr : Relation.ReflTransGen Step n n') : Accounted I n' := by
  induction hr with
  | refl => exact h
  | tail _ hs ih => exact hs.accounted ih

/-- Accounts that satisfy another invariant. -/
theorem Accounted.satisfy {J : ProfileKey → Account → Prop} {n : Node} (h : Accounted I n)
    (hj : ∀ A, Holds I n.store A → ∀ key, J key (A key)) : Accounted J n := by
  cases n with
  | down s =>
      obtain ⟨A, hh⟩ := h
      exact ⟨A, hh.satisfy (hj A hh)⟩
  | up w =>
      obtain ⟨A, hk⟩ := h
      exact ⟨A, hk.holds.satisfy (hj A hk.holds), hk.memory⟩

/-- Archives only grow. -/
theorem Reach.begins {n n' : Node} (h : Reach n) (hr : Relation.ReflTransGen Step n n') :
    Accounted (Begins (archiveOf n.store)) n' := by
  refine (h.accounted.satisfy fun A hh key => ?_).run hr
  rw [Begins, (hh.books key).archive]

/-! ### Contradictions -/

/-- The metadata of a stored scan. -/
def metadataOf (scan : ProfileScan) : ProfileMetadata where
  key := .ofIdentity scan.identity
  identity := scan.identity
  profileId := scan.profileId
  profileVersion := scan.profileVersion
  expectedSteps := scan.expectedSteps
  observedUniqueSteps := scan.observedUniqueSteps
  observedFieldCount := scan.observedFieldCount
  reportedMissingSteps := scan.reportedMissingSteps
  duplicateSteps := scan.duplicateSteps
  durationUs := scan.durationUs
  collectionFlags := scan.collectionFlags
  finishReason := scan.finishReason
  duplicateCount := scan.duplicateCount
  overwrittenFieldCount := scan.overwrittenFieldCount
  outOfOrderCount := scan.outOfOrderCount
  ambiguousIndexJumpCount := scan.ambiguousIndexJumpCount
  invalidGasIndexCount := scan.invalidGasIndexCount
  intermediateFieldCount := scan.intermediateFieldCount
  profileRolloverCount := scan.profileRolloverCount
  fieldsAfterRolloverCount := scan.fieldsAfterRolloverCount
  pollCount := scan.pollCount
  expectedFragmentCount := scan.expectedFragmentCount

/-- A payload with the fragment `f` contradicts a stored scan: it is not what the scan has at its
index, and it is not a new fragment with the metadata of the scan at an index that is missing. -/
def Contradicts (s : TelemetryStore) (row : ScanRow) (payload : List UInt8) (f : OwnedFragment) :
    Prop :=
  (∀ source ∈ row.sourcesAt f.fragmentIndex, s.payloadOf source.packetId ≠ some payload) ∧
    ¬ (row.sourcesAt f.fragmentIndex = [] ∧ f.metadata = metadataOf row.scan)

instance (s : TelemetryStore) (row : ScanRow) (payload : List UInt8) (f : OwnedFragment) :
    Decidable (Contradicts s row payload f) :=
  inferInstanceAs (Decidable ((∀ source ∈ _, _) ∧ _))

/-- A contradiction is a clash with the fragments of the scan. -/
theorem Contradicts.clash {s : TelemetryStore} (ho : Orderly s) {row : ScanRow} {t : ScanTally}
    (hs : Shows row t) (ht : Started t)
    (harchived : ∀ a ∈ t.accepted, ∃ p ∈ s.packets, arrivalOf p = some a) {payload : List UInt8}
    {f : OwnedFragment} (hf : IsFrame payload f) (h : Contradicts s row payload f) :
    scanRule.verdict t.accepted f = .clash := by
  obtain ⟨hstored, hnew⟩ := h
  obtain ⟨m, hscan, hrow⟩ := id hs
  by_cases hhit : ∃ a ∈ t.accepted, a.fragment.fragmentIndex = f.fragmentIndex
  · obtain ⟨a, ha, hi⟩ := hhit
    obtain ⟨p, hp, hpa⟩ := harchived a ha
    refine (hscan.uniform.verdict_of_slot ha hi).trans (if_neg fun hsame => ?_)
    have hmem : a.source ∈ row.sourcesAt f.fragmentIndex := hs.mem_sourcesAt.mpr ⟨a, ha, rfl, hi⟩
    refine hstored _ hmem ?_
    have hframe : IsFrame p.payload f := (show a.fragment = f from hsame) ▸ isFrame_of_arrivalOf hpa
    rw [packetId_of_arrivalOf hpa, ho.keyed.payloadOf_eq hp, hframe.injective hf]
  · have hmiss : row.sourcesAt f.fragmentIndex = [] :=
      hs.sourcesAt_eq_nil fun a ha hi => hhit ⟨a, ha, hi⟩
    obtain ⟨a, ha⟩ := List.exists_mem_of_ne_nil _ ht.ne_nil
    refine Rule.verdict_of_tag (R := scanRule) ha (fun htag => hnew ⟨hmiss, ?_⟩) hscan.uniform
    have hm : f.metadata = m := htag.symm.trans (hscan.metadata a ha)
    rw [hm, hrow]
    exact congrArg (fun key => { m with key }) hscan.wellFormed.key

/-! ### Processing -/

/-- A packet was processed: the receiver is ready for the next one, or the packet is not pending. -/
def Processed (p : PacketRow) : Node → Prop
  | .down _ => ¬ p.hasStatus .pending
  | .up _ => True

/-- The accounts of a state, in which no processed fragment waits. -/
theorem Accounted.exists_holds {n : Node} (h : Accounted I n) : ∃ A, Holds I n.store A ∧
    ∀ p ∈ n.store.packets, ∀ a, arrivalOf p = some a → Processed p n → a ∉ (A a.key).waiting := by
  cases n with
  | down s =>
      obtain ⟨A, hh⟩ := h
      refine ⟨A, hh, fun p hp a ha hdone hw => hdone ?_⟩
      have hentry := (hh.books a.key).sound.waiting a hw
      rw [← (hh.books a.key).entries] at hentry
      obtain ⟨⟨q, hq, he⟩, -⟩ := mem_entriesOf.mp hentry
      obtain rfl : q = p := hh.orderly.keyed.eq_of_id hq hp
        ((packetId_of_arrivalOf (entryOf_eq_some.mp he).1).symm.trans (packetId_of_arrivalOf ha))
      exact (hasStatus_iff (hh.orderly.filed q hq)).mpr ⟨a, he⟩
  | up w =>
      obtain ⟨A, hk⟩ := h
      refine ⟨A, hk.holds, fun p _ a _ _ hw => ?_⟩
      rw [hk.memory.waiting] at hw
      exact List.not_mem_nil hw

/-- What a key without strays had accepted in an earlier state is accepted in the later one. -/
theorem accepted_later {s s' : TelemetryStore} {A A' : ProfileKey → Account} (hh : Holds I s A)
    (hh' : Holds (Begins (archiveOf s)) s' A') {key : ProfileKey}
    (hfree : StrayFree (A' key).archive) :
    (A key).Exact ∧
      (A key).base.accepted ⊆ (scanRule.collect .empty (A' key).archive).accepted := by
  have hb := hh.books key
  have hbegins : (A key).archive <+: (A' key).archive := hb.archive ▸ (hh'.books key).invariant
  obtain ⟨more, hmore⟩ := hbegins
  have he := hb.exact (hmore ▸ hfree).of_append
  refine ⟨he, List.Subset.trans he.base_subset ?_⟩
  rw [← hmore, Rule.collect_append]
  exact Rule.accepted_prefix.subset

/-- A scan with a conflict does not pass the gate. -/
theorem gate_of_conflicts {scan : ProfileScan} (h : 1 ≤ scan.conflictingFragmentCount) :
    Analysis.profileScanAllowsAnalysis scan = (.ok false : Outcome Unit Bool) := by
  obtain ⟨b, hb, hiff⟩ := Analysis.exists_allowsAnalysis (ε := Unit) scan
  rw [hb]
  refine congrArg Except.ok (Bool.eq_false_iff.mpr fun htrue => ?_)
  exact absurd (hiff.mp htrue).conflicts (Nat.one_le_iff_ne_zero.mp h)

/-- A key whose stored scan counts a conflict has rows, and each of them says so. -/
theorem rows_of_clashes {s : TelemetryStore} (hdisk : Disk Account.Anything s)
    {key : ProfileKey} {c : Account} (hb : Books I s key c) (he : c.Exact)
    (hc : 1 ≤ c.base.clashes) :
    s.rows key ≠ [] ∧ ∀ row ∈ s.rows key,
      1 ≤ row.scan.conflictingFragmentCount ∧ 1 ≤ row.recordJson.conflictingFragmentCount ∧
        Analysis.profileScanAllowsAnalysis row.recordJson = (.ok false : Outcome Unit Bool) := by
  rcases hb.rows_of_exact he with ⟨-, hempty⟩ | ⟨row, heq, ⟨m, -, hshown⟩, -⟩
  · rw [hempty] at hc
    exact absurd hc (by decide)
  · have hmem : row ∈ s.rows key := heq ▸ List.mem_singleton_self _
    have hjson := recordJson_eq hdisk (List.mem_filter.mp hmem).1
    have hscan : 1 ≤ row.scan.conflictingFragmentCount := by
      rw [hshown]
      exact hc
    refine ⟨List.ne_nil_of_mem hmem, fun other hother => ?_⟩
    rw [heq] at hother
    obtain rfl := List.mem_singleton.mp hother
    rw [hjson]
    exact ⟨hscan, hscan, gate_of_conflicts hscan⟩

/-- **A conflict invalidates the stored scan.**  When a fragment contradicts a scan that is or was
stored of its key, then once the fragment was processed the key has a scan, and every scan of the
key counts a conflict, in its columns and in its record, so that it does not pass the gate. -/
theorem conflict_invalidates {n n' : Node} (h : Reach n) (hr : Relation.ReflTransGen Step n n')
    {key : ProfileKey} {row : ScanRow} (hrow : row ∈ n.store.rows key) {p : PacketRow}
    (hp : p ∈ n'.store.packets) {f : OwnedFragment} (hf : fragmentOf p.payload = some f)
    (hkey : f.metadata.key = key) (hcontra : Contradicts n.store row p.payload f)
    (hdone : Processed p n') (hfree : StrayFree (archiveOf n'.store key)) :
    n'.store.rows key ≠ [] ∧ ∀ row' ∈ n'.store.rows key,
      1 ≤ row'.scan.conflictingFragmentCount ∧ 1 ≤ row'.recordJson.conflictingFragmentCount ∧
        Analysis.profileScanAllowsAnalysis row'.recordJson = (.ok false : Outcome Unit Bool) := by
  obtain ⟨A, hh⟩ := h.accounted.disk
  obtain ⟨A', hh', hwaiting⟩ := (h.begins hr).exists_holds
  have hb := hh.books key
  have hb' := hh'.books key
  rw [hb'.archive] at hfree
  obtain ⟨he, hsub⟩ := accepted_later hh hh' hfree
  have he' := hb'.exact hfree
  obtain ⟨a, ha, rfl⟩ : ∃ a, arrivalOf p = some a ∧ a.fragment = f :=
    ⟨_, by rw [arrivalOf, hf]; rfl, rfl⟩
  -- the fragment clashes with the earlier scan, and so it was counted
  have hclash : scanRule.verdict (A key).base.accepted a.fragment = .clash := by
    rcases hb.rows_of_exact he with ⟨hnil, -⟩ | ⟨row₀, heq, hs, ht⟩
    · rw [hnil] at hrow
      cases hrow
    · rw [heq] at hrow
      obtain rfl := List.mem_singleton.mp hrow
      refine hcontra.clash hh.orderly hs (hb.started ht) (fun b hbase => ?_)
        (fragmentOf_eq_some.mp hf)
      exact (hh.mem_archive (he.base_archived hbase)).1
  have hmem : a ∈ (A' key).archive := hb'.archive ▸ mem_archiveOf.mpr ⟨⟨p, hp, ha⟩, hkey⟩
  have hfiled := he'.clash_filed hb'.sound hsub hmem (hkey ▸ hwaiting p hp a ha hdone) hclash
  exact rows_of_clashes (h.accounted.run hr).disk hb' he' (he'.conflicts a hfiled).2

/-- A blank fragment of five steps, after a complete blank scan of four. -/
theorem conflict_invalidates_blank :
    let w := completed.after (blankPacket 5 0)
    w.store.rows blankKey ≠ [] ∧ ∀ row ∈ w.store.rows blankKey,
      1 ≤ row.scan.conflictingFragmentCount ∧ 1 ≤ row.recordJson.conflictingFragmentCount ∧
        Analysis.profileScanAllowsAnalysis row.recordJson = (.ok false : Outcome Unit Bool) := by
  intro w
  have hstep : Step (.up completed) (.up w) :=
    .after (length_blankPacket_le 5 0) (by decide +kernel)
  obtain ⟨row, hrow, p, hp, f, hf, hkey, hcontra⟩ : ∃ row ∈ completed.store.rows blankKey,
      ∃ p ∈ w.store.packets, ∃ f ∈ fragmentOf p.payload, f.metadata.key = blankKey ∧
        Contradicts completed.store row p.payload f := by decide +kernel
  refine conflict_invalidates reach_completed (.single hstep) hrow hp hf hkey hcontra trivial ?_
  refine StrayFree.of_counts (fun a ha => ?_) (by decide +kernel)
  obtain ⟨⟨q, -, hq⟩, -⟩ := mem_archiveOf.mp ha
  exact proper_of_arrivalOf hq

/-- A clean step at an index. -/
def measuredStep (i : UInt8) : Protocol.ProfileStep where
  stepIndex := i
  gasIndex := i
  measurementIndex := i
  status := 0xb0
  rawMeasurementStatus := 0x80 ||| i
  rawGasStatus := 0x30
  targetTemperatureCelsius := 200
  configuredDurationUs := 140000
  offsetUs := 150000
  temperatureCentiCelsius := 2150
  pressurePascal := 101325
  humidityMilliPercentRh := 45000
  gasResistanceOhm := 12000
  temperatureAdc := 1
  pressureAdc := 2
  humidityAdc := 3
  gasResistanceAdc := 4
  gasRange := 0
  repetitionMultiplier := 1
  heaterResistance := 0x71
  heaterCurrent := 0
  gasWait := 0x59

/-- A scan with four clean steps, under the key of the blank scans. -/
def measuredScan : Protocol.ProfileScan :=
  { blankScan 4 with
    observedUniqueStepCount := 4
    observedFieldCount := 4
    missingStepsBitmap := 0
    steps := #v[some (measuredStep 0), some (measuredStep 1), some (measuredStep 2),
      some (measuredStep 3), none, none, none, none, none, none] }

/-- Fragment `k` of that scan. -/
def measuredPacket (k : Nat) : RadioPacket where
  payload := Protocol.fragmentFrame (Protocol.fragmentView blankCommon measuredScan k)
  metadata := ⟨0, 0, 0⟩

theorem length_measuredPacket_le (k : Nat) : (measuredPacket k).payload.length ≤ maxPayloadLen :=
  (Protocol.length_fragmentFrame_le _ _ _).trans (by decide)

/-- A receiver that was started on a database with a complete scan of four clean steps. -/
@[irreducible] def measured : World :=
  startedOn ((booted.after (measuredPacket 0)).after (measuredPacket 1)).stopped

/-- The receiver that completes the scan, stops and starts. -/
def Running.measured : Running :=
  ((after ⟨booted, reach_booted⟩ (measuredPacket 0) (length_measuredPacket_le 0)
    (by decide +kernel)).after (measuredPacket 1) (length_measuredPacket_le 1)
    (by decide +kernel)).restarted (by decide +kernel) (by decide +kernel)

theorem reach_measured : Reach (.up measured) := by
  rw [measured]
  exact Running.measured.reach

/-- A stray that comes after a restart leaves the complete scan of its key without a conflict, and
open to analysis. -/
theorem not_conflict_invalidates : ¬ ∀ n n', Reach n → Relation.ReflTransGen Step n n' →
    ∀ key, ∀ row ∈ n.store.rows key, ∀ p ∈ n'.store.packets, (∀ q ∈ n.store.packets, q.id ≠ p.id) →
      ∀ f, fragmentOf p.payload = some f → f.metadata.key = key →
        Contradicts n.store row p.payload f → Processed p n' → ∀ row' ∈ n'.store.rows key,
          1 ≤ row'.scan.conflictingFragmentCount ∨
            Analysis.profileScanAllowsAnalysis row'.recordJson =
              (.ok false : Outcome Unit Bool) := by
  intro hall
  have hstep : Step (.up measured) (.up (measured.after (blankPacket 10 3))) :=
    .after (length_blankPacket_le 10 3) (by decide +kernel)
  obtain ⟨row, hrow, p, hp, hlate, f, hf, hkey, hcontra, row', hrow', hnone, husable⟩ :
      ∃ row ∈ measured.store.rows blankKey,
        ∃ p ∈ (measured.after (blankPacket 10 3)).store.packets,
          (∀ q ∈ measured.store.packets, q.id ≠ p.id) ∧
          ∃ f ∈ fragmentOf p.payload, f.metadata.key = blankKey ∧
            Contradicts measured.store row p.payload f ∧
            ∃ row' ∈ (measured.after (blankPacket 10 3)).store.rows blankKey,
              row'.scan.conflictingFragmentCount = 0 ∧
              Analysis.profileScanAllowsAnalysis row'.recordJson =
                (.ok true : Outcome Unit Bool) := by decide +kernel
  rcases hall _ _ reach_measured (.single hstep) blankKey row hrow p hp hlate f hf hkey hcontra
    trivial row' hrow' with hcounted | hclosed
  · rw [hnone] at hcounted
    exact absurd hcounted (by decide)
  · cases husable.symm.trans hclosed

end Vesta.Listen
