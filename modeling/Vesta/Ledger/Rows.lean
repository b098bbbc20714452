import Vesta.Ledger.Packets

/-!
# Ledger — Rows

The row of a stored scan is the picture of a collection (`Shows`), as an active scan is.  Storing a
profile, counting a match and comparing a payload with what is stored are followed here for one
row.
-/

namespace Vesta.Ledger

open FirstWins (Rule Tally Verdict)
open Receiver (Arrival ScanTally ScanOf Full ProfileKey ProfileMetadata ProfileStep SourceFragment
  scanRule profileOf received RecordError)
open Store (FragmentStorageStatus PersistedFragmentMatch ScanRow TelemetryStore StorageError
  StoredRecord nextRowId)

/-! ### Pictures -/

/-- The row of a collection. -/
def rowOf (id : Int) (m : ProfileMetadata) (t : ScanTally) : ScanRow where
  id := id
  firstReceivedAtUnixMs := (profileOf m t).firstReceivedAtUnixMs.getD 0
  lastReceivedAtUnixMs := (profileOf m t).lastReceivedAtUnixMs.getD 0
  scan := (profileOf m t).scan
  missingFragmentBitmap := Bitmap.lowMask m.expectedFragmentCount.toNat &&& ~~~received t.accepted
  transportComplete := decide (Full m t.accepted)
  recordJson := (profileOf m t).scan
  fragments := t.accepted.map (·.source)

/-- The row is the picture of the collection. -/
def Shows (row : ScanRow) (t : ScanTally) : Prop := ∃ m, ScanOf m t ∧ row = rowOf row.id m t

/-- The match that a verdict makes. -/
def matchOf : Verdict → PersistedFragmentMatch
  | .clash => .conflict
  | _ => .duplicate

@[simp] theorem storageStatus_matchOf (v : Verdict) :
    (matchOf v).storageStatus = Account.statusOf v := by cases v <;> rfl

theorem countMatch_rowOf (id : Int) (m : ProfileMetadata) (t : ScanTally) {v : Verdict}
    (hv : v ≠ .fresh) :
    (rowOf id m t).countMatch (matchOf v) = rowOf id m (scanRule.count v t) := by
  cases v with
  | fresh => exact absurd rfl hv
  | repeated => rfl
  | clash => rfl

namespace Shows

variable {row : ScanRow} {t : ScanTally} (h : Shows row t)
include h

theorem fragments : row.fragments = t.accepted.map (·.source) := by
  obtain ⟨m, -, hrow⟩ := h
  rw [hrow]
  rfl

/-- The scan of a row is complete when its collection is. -/
theorem complete_iff (hne : t.accepted ≠ []) : row.transportComplete ↔ Whole t := by
  obtain ⟨m, hs, hrow⟩ := h
  rw [hrow]
  constructor
  · intro hc
    exact ⟨m, hs, of_decide_eq_true hc⟩
  · rintro ⟨m', hs', hf⟩
    obtain ⟨a, ha⟩ := List.exists_mem_of_ne_nil _ hne
    obtain rfl : m = m' := (hs.metadata a ha).symm.trans (hs'.metadata a ha)
    exact decide_eq_true hf

/-- The row has the key of its fragments. -/
theorem hasKey_iff {a : Arrival} (ha : a ∈ t.accepted) {key : ProfileKey} :
    row.hasKey key ↔ a.key = key := by
  obtain ⟨m, hs, hrow⟩ := h
  rw [hrow, Arrival.key, hs.metadata a ha, hs.wellFormed.key]
  exact decide_eq_true_iff

/-- The sources of a row at an index. -/
theorem mem_sourcesAt {source : SourceFragment} {index : UInt8} :
    source ∈ row.sourcesAt index ↔
      ∃ a ∈ t.accepted, a.source = source ∧ a.fragment.fragmentIndex = index := by
  rw [ScanRow.sourcesAt, h.fragments, List.mem_filter, List.mem_map, decide_eq_true_eq]
  obtain ⟨m, hs, -⟩ := h
  constructor
  · rintro ⟨⟨a, ha, rfl⟩, hi⟩
    exact ⟨a, ha, rfl, (hs.proper a ha).source.symm.trans hi⟩
  · rintro ⟨a, ha, rfl, hi⟩
    exact ⟨⟨a, ha, rfl⟩, (hs.proper a ha).source.trans hi⟩

/-- A row has at most one source at an index. -/
theorem sourcesAt_eq {a : Arrival} (ha : a ∈ t.accepted) :
    row.sourcesAt a.fragment.fragmentIndex = [a.source] := by
  have hfrag := h.fragments
  obtain ⟨m, hs, -⟩ := id h
  have hnd : (row.sourcesAt a.fragment.fragmentIndex).Nodup := by
    refine List.Nodup.filter _ ?_
    rw [hfrag]
    refine hs.nodup.map_on fun x hx y hy he => hs.eq_of_index hx hy ?_
    exact congrArg UInt8.toNat ((hs.proper x hx).source.symm.trans
      ((congrArg SourceFragment.fragmentIndex he).trans (hs.proper y hy).source))
  refine List.perm_singleton.mp
    ((List.perm_ext_iff_of_nodup hnd (List.nodup_singleton _)).mpr fun source => ?_)
  rw [h.mem_sourcesAt, List.mem_singleton]
  constructor
  · rintro ⟨b, hb, rfl, hi⟩
    rw [hs.eq_of_index hb ha (congrArg UInt8.toNat hi)]
  · rintro rfl
    exact ⟨a, ha, rfl, rfl⟩

theorem sourcesAt_eq_nil {index : UInt8}
    (hno : ∀ a ∈ t.accepted, a.fragment.fragmentIndex ≠ index) :
    row.sourcesAt index = [] := by
  refine List.eq_nil_iff_forall_not_mem.mpr fun source hmem => ?_
  obtain ⟨a, ha, -, hi⟩ := h.mem_sourcesAt.mp hmem
  exact hno a ha hi

theorem countMatch {v : Verdict} (hv : v ≠ .fresh) :
    Shows (row.countMatch (matchOf v)) (scanRule.count v t) := by
  obtain ⟨m, hs, hrow⟩ := h
  refine ⟨m, scanOf_count hs v, ?_⟩
  have hid : (row.countMatch (matchOf v)).id = row.id := by cases matchOf v <;> rfl
  rw [hid, hrow, countMatch_rowOf _ _ _ hv]
  rfl

end Shows

/-! ### Storing a profile -/

/-- The rows of `v2_profile_steps` of ascending steps below ten. -/
theorem insertSteps_eq {row : ScanRow} {steps : List ProfileStep}
    (hlt : ∀ step ∈ steps, step.stepIndex.toNat < 10)
    (hasc : (row.scan.steps ++ steps).Pairwise fun s s' => s.stepIndex < s'.stepIndex) :
    steps.foldlM ScanRow.insertStep row =
      .ok { row with scan := { row.scan with steps := row.scan.steps ++ steps } } := by
  induction steps generalizing row with
  | nil => simp
  | cons step steps ih =>
      obtain ⟨hstep, hlt⟩ := List.forall_mem_cons.mp hlt
      have hfresh : step.stepIndex ∉ row.scan.steps.map (·.stepIndex) := by
        intro hmem
        obtain ⟨s, hs, he⟩ := List.mem_map.mp hmem
        have hl := (List.pairwise_append.mp hasc).2.2 s hs step List.mem_cons_self
        rw [he] at hl
        exact UInt8.lt_irrefl _ hl
      have hten : ¬ 9 < step.stepIndex := by
        rw [UInt8.lt_iff_toNat_lt]
        show ¬ 9 < step.stepIndex.toNat
        omega
      rw [List.foldlM_cons, ScanRow.insertStep, Outcome.failIf_neg (not_or.mpr ⟨hten, hfresh⟩)]
      refine (ih hlt ?_).trans ?_
      · simpa using hasc
      · simp

/-- Set the status of packets. -/
def fileAll (s : TelemetryStore) (sources : List SourceFragment) (status : FragmentStorageStatus) :
    TelemetryStore :=
  sources.foldl (fun s source => s.setStatus source.packetId status) s

@[simp] theorem fileAll_cons (s : TelemetryStore) (source : SourceFragment)
    (sources : List SourceFragment) (status : FragmentStorageStatus) :
    fileAll s (source :: sources) status =
      fileAll (s.setStatus source.packetId status) sources status :=
  rfl

theorem setStatus_ids (s : TelemetryStore) (id : Int) (status : FragmentStorageStatus) :
    (s.setStatus id status).packets.map (·.id) = s.packets.map (·.id) := by
  rw [TelemetryStore.setStatus, TelemetryStore.updatePacket, List.map_map]
  refine List.map_congr_left fun p _ => ?_
  show (if p.id = id then p.withStatus status else p).id = p.id
  split <;> rfl

@[simp] theorem fileAll_scans (s : TelemetryStore) (sources : List SourceFragment)
    (status : FragmentStorageStatus) : (fileAll s sources status).scans = s.scans := by
  induction sources generalizing s with
  | nil => rfl
  | cons source sources ih => exact ih _

/-- The rows of `v2_profile_fragments` of sources that exist and are linked nowhere. -/
theorem insertFragments_eq {s : TelemetryStore} {row : ScanRow} {sources : List SourceFragment}
    {status : FragmentStorageStatus}
    (hexists : ∀ source ∈ sources, source.packetId ∈ s.packets.map (·.id))
    (hfree : ∀ source ∈ sources, ∀ r ∈ s.scans, source.packetId ∉ r.fragments.map (·.packetId))
    (hids : ((row.fragments ++ sources).map (·.packetId)).Nodup)
    (hindices : ((row.fragments ++ sources).map (·.fragmentIndex)).Nodup) :
    sources.foldlM (fun (row, s) fragment => do
        let row ← ScanRow.insertFragment row s fragment
        return (row, s.setStatus fragment.packetId status)) (row, s) =
      (.ok ({ row with fragments := row.fragments ++ sources }, fileAll s sources status) :
        Outcome StorageError (ScanRow × TelemetryStore)) := by
  induction sources generalizing s row with
  | nil =>
      rw [List.append_nil]
      rfl
  | cons source sources ih =>
      obtain ⟨hex, hexists⟩ := List.forall_mem_cons.mp hexists
      obtain ⟨hfr, hfree⟩ := List.forall_mem_cons.mp hfree
      -- neither the packet nor the index is taken by this row
      have hnew : source.packetId ∉ row.fragments.map (·.packetId) ∧
          source.fragmentIndex ∉ row.fragments.map (·.fragmentIndex) := by
        rw [List.map_append, List.nodup_append] at hids hindices
        exact ⟨fun hmem => hids.2.2 _ hmem _ List.mem_cons_self rfl,
          fun hmem => hindices.2.2 _ hmem _ List.mem_cons_self rfl⟩
      -- nor the packet by any other
      have hlinked : source.packetId ∉
          (s.scans.flatMap (·.fragments) ++ row.fragments).map (·.packetId) := by
        rw [List.map_append, List.mem_append]
        rintro (hmem | hmem)
        · obtain ⟨f, hf, he⟩ := List.mem_map.mp hmem
          obtain ⟨r, hr, hf⟩ := List.mem_flatMap.mp hf
          exact hfr r hr (List.mem_map.mpr ⟨f, hf, he⟩)
        · exact hnew.1 hmem
      rw [List.foldlM_cons]
      dsimp only
      rw [ScanRow.insertFragment, Outcome.failIf_neg (by
        rintro (hn | hn | hn)
        · exact hn hex
        · exact hlinked hn
        · exact hnew.2 hn), Outcome.ok_bind, Outcome.pure_eq_ok, Outcome.ok_bind,
        Outcome.pure_eq_ok, Outcome.ok_bind]
      refine (ih ?_ ?_ ?_ ?_).trans ?_
      · rw [setStatus_ids]
        exact hexists
      · exact hfree
      · simpa using hids
      · simpa using hindices
      · simp

/-- The store with a profile: the incomplete rows of its key give way to its row, and its sources
are filed. -/
def withProfile (s : TelemetryStore) (m : ProfileMetadata) (t : ScanTally) : TelemetryStore :=
  let cleared := s.deleteIncomplete m.key
  let filed := fileAll cleared (t.accepted.map (·.source))
    (if Full m t.accepted then .assembled else .incomplete)
  { filed with scans := filed.scans ++ [rowOf (nextRowId (cleared.scans.map (·.id))) m t] }

/-- Marking a packet and inserting a row commute. -/
theorem markFragmentStatus_push (s : TelemetryStore) (row : ScanRow) (packetId : Int)
    (status : FragmentStorageStatus) :
    ({ s with scans := s.scans ++ [row] } : TelemetryStore).markFragmentStatus packetId status =
      s.markFragmentStatus packetId status >>= fun s =>
        pure { s with scans := s.scans ++ [row] } := by
  rw [TelemetryStore.markFragmentStatus, TelemetryStore.markFragmentStatus]
  by_cases h : (s.packets.filter fun p => p.id = packetId ∧ p.isFragment).length ≠ 1
  · rw [Outcome.failIf_pos h]
    rfl
  · rw [Outcome.failIf_neg h]
    rfl

/-- **Storing the profile of a collection succeeds**, when its sources exist and no other scan has
them, and so does marking another fragment in the same transaction. -/
theorem insertProfileScanInner_eq {s : TelemetryStore} {m : ProfileMetadata} {t : ScanTally}
    (hs : ScanOf m t) (hne : t.accepted ≠ [])
    (hexists : ∀ a ∈ t.accepted, a.source.packetId ∈ s.packets.map (·.id))
    (hfree : ∀ a ∈ t.accepted, ∀ r ∈ (s.deleteIncomplete m.key).scans,
      a.source.packetId ∉ r.fragments.map (·.packetId))
    (hids : (t.accepted.map (·.source.packetId)).Nodup)
    (integrityPacket : Option (Int × FragmentStorageStatus)) :
    ∃ record, s.insertProfileScanInner (profileOf m t) integrityPacket = do
      let marked ← match integrityPacket with
        | none => pure (withProfile s m t)
        | some (packetId, status) => (withProfile s m t).markFragmentStatus packetId status
      return (record, marked) := by
  have hkey : ProfileKey.ofIdentity (profileOf m t).scan.identity = m.key := hs.wellFormed.key.symm
  have hmap : (t.accepted.map (·.source)).map (·.receivedAtUnixMs) ≠ [] := by simpa using hne
  -- a scan with a fragment has a first and a last time
  obtain ⟨first, hfirst⟩ : ∃ first, (profileOf m t).firstReceivedAtUnixMs = some first :=
    Option.ne_none_iff_exists'.mp fun hn => hmap (List.min?_eq_none_iff.mp hn)
  obtain ⟨last, hlast⟩ : ∃ last, (profileOf m t).lastReceivedAtUnixMs = some last :=
    Option.ne_none_iff_exists'.mp fun hn => hmap (List.max?_eq_none_iff.mp hn)
  have hmissing : ((profileOf m t).scan.missingFragmentBitmap : Outcome StorageError UInt16) =
      .ok (Bitmap.lowMask m.expectedFragmentCount.toNat &&& ~~~received t.accepted) := by
    have hmask : (Receiver.expectedFragmentMask m.expectedFragmentCount :
        Outcome StorageError UInt16) = .ok _ :=
      maskU16_eq (lt_of_le_of_lt hs.wellFormed.fragments_le (by decide))
    exact Outcome.bind_eq_ok.mpr ⟨_, hmask, rfl⟩
  -- the steps are in range and ascend, so no two take one row
  have hsteps := @insertSteps_eq
    { rowOf (nextRowId ((s.deleteIncomplete m.key).scans.map (·.id))) m t with
      scan := { (profileOf m t).scan with steps := [] }
      fragments := [] }
    (profileOf m t).scan.steps
    (fun step hstep => by
      obtain ⟨a, ha, hsa⟩ := hs.exists_fragment hstep
      have hlt := ((hs.proper a ha).wellFormed.step_div hsa).2
      exact lt_of_lt_of_le hlt (hs.proper a ha).wellFormed.metadata.expectedSteps_le)
    hs.steps_profileOf
  -- the sources exist, are free, and have distinct packets and indices
  have hfragments := @insertFragments_eq (s.deleteIncomplete m.key)
    { rowOf (nextRowId ((s.deleteIncomplete m.key).scans.map (·.id))) m t with
      fragments := [] }
    (t.accepted.map (·.source))
    (if Full m t.accepted then .assembled else .incomplete)
    (by
      intro source hsource
      obtain ⟨a, ha, rfl⟩ := List.mem_map.mp hsource
      exact hexists a ha)
    (by
      intro source hsource
      obtain ⟨a, ha, rfl⟩ := List.mem_map.mp hsource
      exact hfree a ha)
    (by
      rw [List.nil_append, List.map_map]
      exact hids)
    (by
      rw [List.nil_append, List.map_map]
      refine hs.nodup.map_on fun x hx y hy he => hs.eq_of_index hx hy (congrArg UInt8.toNat ?_)
      exact (hs.proper x hx).source.symm.trans (he.trans (hs.proper y hy).source))
  have hexpected : ¬ ¬ (1 ≤ (profileOf m t).scan.expectedSteps ∧
      (profileOf m t).scan.expectedSteps ≤ 10) := not_not.mpr hs.wellFormed.expected
  refine ⟨⟨nextRowId ((s.deleteIncomplete m.key).scans.map (·.id)), last⟩, ?_⟩
  rw [TelemetryStore.insertProfileScanInner, hs.validate]
  simp only [Outcome.mapErr_ok, Outcome.ok_bind, hfirst, hlast, hkey, hmissing,
    hs.isTransportComplete, decide_eq_true_eq]
  rw [Outcome.failIf_neg hexpected, Outcome.ok_bind]
  obtain rfl : (profileOf m t).firstReceivedAtUnixMs.getD 0 = first := by
    rw [hfirst, Option.getD_some]
  obtain rfl : (profileOf m t).lastReceivedAtUnixMs.getD 0 = last := by rw [hlast, Option.getD_some]
  refine (Outcome.bind_of_eq_ok hsteps).trans ?_
  refine (Outcome.bind_of_eq_ok hfragments).trans ?_
  -- marking a fragment does not look at the new row
  cases integrityPacket with
  | none => rfl
  | some integrity =>
      obtain ⟨packetId, status⟩ := integrity
      show (TelemetryStore.markFragmentStatus _ packetId status >>= _) =
        ((withProfile s m t).markFragmentStatus packetId status >>= _)
      rw [withProfile, markFragmentStatus_push]
      cases (fileAll (s.deleteIncomplete m.key) (t.accepted.map (·.source))
        (if Full m t.accepted then .assembled else .incomplete)).markFragmentStatus packetId status
      all_goals rfl

end Vesta.Ledger
