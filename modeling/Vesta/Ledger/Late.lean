import Vesta.Ledger.Storing

/-!
# Ledger — Late

Comparing a fragment with the stored scans of its key, and giving up a pending one.  At most one
stored scan has a fragment at an index, so what is found there is what the verdict of that scan
says, and the statements on the rows found are one count.
-/

namespace Vesta.Ledger

open FirstWins (Rule Tally Verdict)
open Receiver (Arrival ScanTally ScanOf Full ProfileKey SourceFragment scanRule IsFrame)
open Store (FragmentStorageStatus PersistedFragmentMatch PacketRow ScanRow TelemetryStore
  StorageError DecodeErrorText)

variable {I : ProfileKey → Account → Prop}

/-! ### What is stored at an index -/

/-- The payloads that a row links at an index, each with the id of the row. -/
def storedAt (s : TelemetryStore) (index : UInt8) (row : ScanRow) : List (Int × List UInt8) :=
  (row.sourcesAt index).filterMap fun source => (s.payloadOf source.packetId).map (row.id, ·)

theorem fst_of_storedAt {s : TelemetryStore} {index : UInt8} {row : ScanRow}
    {e : Int × List UInt8} (he : e ∈ storedAt s index row) : e.1 = row.id := by
  obtain ⟨source, -, hs⟩ := List.mem_filterMap.mp he
  obtain ⟨payload, -, rfl⟩ := Option.map_eq_some_iff.mp hs
  rfl

/-- The scan has a fragment at the index. -/
def Hits (index : Nat) (t : ScanTally) : Prop := ∃ b ∈ t.accepted, b.index = index

instance (index : Nat) (t : ScanTally) : Decidable (Hits index t) :=
  inferInstanceAs (Decidable (∃ b ∈ t.accepted, b.index = index))

/-- The verdict of a scan that has a fragment at the index compares the two. -/
theorem verdict_of_hit {t : ScanTally} (ht : Started t) {a b : Arrival} (hb : b ∈ t.accepted)
    (hi : b.index = a.index) : scanRule.verdict t.accepted a.fragment =
      if b.fragment = a.fragment then .repeated else .clash := by
  obtain ⟨m, hs, -⟩ := ht
  exact hs.uniform.verdict_of_slot hb (UInt8.toNat_inj.mp hi)

namespace Books

variable {s : TelemetryStore} {key : ProfileKey} {c : Account} (h : Books I s key c)
include h

theorem started {t : ScanTally} (ht : t ∈ c.whole.toList ++ c.part.toList) : Started t := by
  rcases List.mem_append.mp ht with ht | ht
  · exact .of_whole (h.sound.whole t (Option.mem_toList.mp ht))
  · exact .of_part (h.sound.part t (Option.mem_toList.mp ht))

/-- One stored scan at most has a fragment at an index. -/
theorem eq_of_hits {t t' : ScanTally} (ht : t ∈ c.whole.toList ++ c.part.toList)
    (ht' : t' ∈ c.whole.toList ++ c.part.toList) {index : Nat} (hhit : Hits index t)
    (hhit' : Hits index t') : t = t' := by
  obtain ⟨b, hb, hi⟩ := hhit
  obtain ⟨b', hb', hi'⟩ := hhit'
  have hapart := h.sound.apart
  rcases List.mem_append.mp ht with ht | ht <;> rcases List.mem_append.mp ht' with ht' | ht'
  all_goals have hw := Option.mem_toList.mp ht
  all_goals have hw' := Option.mem_toList.mp ht'
  · exact Option.some.inj (hw.symm.trans hw')
  · rw [hw, hw'] at hapart
    exact absurd (hi.trans hi'.symm) (hapart b hb b' hb')
  · rw [hw, hw'] at hapart
    exact absurd (hi'.trans hi.symm) (hapart b' hb' b hb)
  · exact Option.some.inj (hw.symm.trans hw')

omit h in
theorem storedAt_of_miss {row : ScanRow} {t : ScanTally} (hs : Shows row t) {a : Arrival}
    (hmiss : ¬ Hits a.index t) : storedAt s a.fragment.fragmentIndex row = [] := by
  rw [storedAt, hs.sourcesAt_eq_nil fun b hb hi => hmiss ⟨b, hb, congrArg UInt8.toNat hi⟩]
  rfl

/-- What is stored at the index of a fragment has its payload exactly when it is the fragment. -/
theorem storedAt_of_hit (ho : Orderly s) {row : ScanRow} {t : ScanTally} (hs : Shows row t)
    (ht : t ∈ c.whole.toList ++ c.part.toList) {p : PacketRow} {a : Arrival}
    (ha : arrivalOf p = some a) (hhit : Hits a.index t) : ∃ payload,
      storedAt s a.fragment.fragmentIndex row = [(row.id, payload)] ∧
        (payload = p.payload ↔ scanRule.verdict t.accepted a.fragment = .repeated) := by
  obtain ⟨b, hb, hi⟩ := hhit
  have hmem := h.mem_archive ht hb
  rw [← h.archive] at hmem
  obtain ⟨⟨q, hq, hqb⟩, -⟩ := mem_archiveOf.mp hmem
  have hindex : a.fragment.fragmentIndex = b.fragment.fragmentIndex := UInt8.toNat_inj.mp hi.symm
  refine ⟨q.payload, ?_, ?_⟩
  · rw [storedAt, hindex, hs.sourcesAt_eq hb, List.filterMap_cons, packetId_of_arrivalOf hqb,
      ho.keyed.payloadOf_eq hq]
    rfl
  · rw [verdict_of_hit (h.started ht) hb hi]
    have hframe := isFrame_of_arrivalOf hqb
    have hframe' := isFrame_of_arrivalOf ha
    constructor
    · intro he
      exact if_pos (IsFrame.unique (he ▸ hframe) hframe')
    · intro hv
      by_cases hf : b.fragment = a.fragment
      · exact IsFrame.injective hframe (hf ▸ hframe')
      · rw [if_neg hf] at hv
        cases hv

end Books

/-! ### Counting a fragment on the stored scans -/

/-- What the rows of a key link at an index. -/
def foundAt (s : TelemetryStore) (key : ProfileKey) (index : UInt8) : List (Int × List UInt8) :=
  (s.rows key).flatMap (storedAt s index)

namespace Orderly

variable {s : TelemetryStore} (h : Orderly s) {key : ProfileKey} {index : UInt8}
include h

theorem mem_foundAt {row : ScanRow} (hr : row ∈ s.rows key) :
    row.id ∈ (foundAt s key index).map (·.1) ↔ storedAt s index row ≠ [] := by
  constructor
  · intro hmem
    obtain ⟨e, he, hid⟩ := List.mem_map.mp hmem
    obtain ⟨row', hr', he⟩ := List.mem_flatMap.mp he
    have hrow : row' = row := h.keyed.eq_of_scanId (List.mem_filter.mp hr').1
      (List.mem_filter.mp hr).1 ((fst_of_storedAt he).symm.trans hid)
    exact List.ne_nil_of_mem (hrow ▸ he)
  · intro hne
    obtain ⟨e, he⟩ := List.exists_mem_of_ne_nil _ hne
    exact List.mem_map.mpr ⟨e, List.mem_flatMap.mpr ⟨row, hr, he⟩, fst_of_storedAt he⟩

/-- Rows of other keys are not found. -/
theorem not_mem_foundAt {k : ProfileKey} (hk : k ≠ key) {row : ScanRow} (hr : row ∈ s.rows k) :
    row.id ∉ (foundAt s key index).map (·.1) := by
  intro hmem
  obtain ⟨e, he, hid⟩ := List.mem_map.mp hmem
  obtain ⟨row', hr', he⟩ := List.mem_flatMap.mp he
  obtain ⟨hs, hrk⟩ := List.mem_filter.mp hr
  obtain ⟨hs', hrk'⟩ := List.mem_filter.mp hr'
  obtain rfl := h.keyed.eq_of_scanId hs' hs ((fst_of_storedAt he).symm.trans hid)
  exact hk ((hasKey_eq_true.mp hrk).symm.trans (hasKey_eq_true.mp hrk'))

theorem nodup_foundAt (hle : ∀ row ∈ s.rows key, (storedAt s index row).length ≤ 1) :
    ((foundAt s key index).map (·.1)).Nodup := by
  rw [foundAt, List.map_flatMap]
  refine List.nodup_flatMap.mpr ⟨fun row hr => ?_, ?_⟩
  · have hlen := hle row hr
    generalize storedAt s index row = stored at hlen ⊢
    rcases stored with _ | ⟨e, _ | ⟨e', rest⟩⟩
    · exact List.nodup_nil
    · exact List.nodup_singleton _
    · simp at hlen
  · refine (h.scans.filter _).imp fun {row row'} hlt => ?_
    intro id hid hid'
    obtain ⟨e, he, rfl⟩ := List.mem_map.mp hid
    obtain ⟨e', he', heq⟩ := List.mem_map.mp hid'
    rw [fst_of_storedAt he, fst_of_storedAt he'] at heq
    exact hlt.ne heq.symm

end Orderly

/-- What is found at the index of a fragment, when a stored scan has one there: its row, once. -/
theorem Books.foundAt_spec {s : TelemetryStore} {key : ProfileKey} {c : Account}
    (h : Books I s key c) (ho : Orderly s) {p : PacketRow} {a : Arrival} (ha : arrivalOf p = some a)
    {t : ScanTally} (ht : t ∈ c.whole.toList ++ c.part.toList) (hhit : Hits a.index t)
    {v : Verdict} (hv : scanRule.verdict t.accepted a.fragment = v) :
    foundAt s key a.fragment.fragmentIndex ≠ [] ∧
      ((foundAt s key a.fragment.fragmentIndex).map (·.1)).Nodup ∧
      (∀ e ∈ foundAt s key a.fragment.fragmentIndex, e.2 = p.payload ↔ v = .repeated) ∧
      ∀ row t', row ∈ s.rows key → t' ∈ c.whole.toList ++ c.part.toList → Shows row t' →
        (row.id ∈ (foundAt s key a.fragment.fragmentIndex).map (·.1) ↔ Hits a.index t') := by
  -- no other stored scan has the index, so a row with it is the one of `t`
  have hstored : ∀ {row t'}, t' ∈ c.whole.toList ++ c.part.toList → Shows row t' →
      Hits a.index t' → ∃ payload,
        storedAt s a.fragment.fragmentIndex row = [(row.id, payload)] ∧
          (payload = p.payload ↔ v = .repeated) := by
    intro row t' ht' hs hhit'
    obtain rfl := h.eq_of_hits ht ht' hhit hhit'
    rw [← hv]
    exact h.storedAt_of_hit ho hs ht' ha hhit'
  -- a row has a payload at the index when its scan has the index
  have hcount : ∀ {row t'}, t' ∈ c.whole.toList ++ c.part.toList → Shows row t' →
      (storedAt s a.fragment.fragmentIndex row ≠ [] ↔ Hits a.index t') := by
    intro row t' ht' hs
    by_cases hhit' : Hits a.index t'
    · obtain ⟨payload, he, -⟩ := hstored ht' hs hhit'
      rw [he]
      exact iff_of_true (List.cons_ne_nil _ _) hhit'
    · rw [Books.storedAt_of_miss hs hhit']
      exact iff_of_false (fun hn => hn rfl) hhit'
  refine ⟨?_, ho.nodup_foundAt fun row hr => ?_, fun e he => ?_, fun row t' hr ht' hs =>
    (ho.mem_foundAt hr).trans (hcount ht' hs)⟩
  · obtain ⟨row, hr, hs⟩ := exists_shows_of_tally h.rows ht
    obtain ⟨payload, he, -⟩ := hstored ht hs hhit
    have hmem : (row.id, payload) ∈ storedAt s a.fragment.fragmentIndex row := by
      rw [he]
      exact List.mem_singleton_self _
    exact List.ne_nil_of_mem (List.mem_flatMap.mpr ⟨row, hr, hmem⟩)
  · obtain ⟨t', ht', hs⟩ := exists_shows h.rows hr
    by_cases hhit' : Hits a.index t'
    · obtain ⟨payload, he, -⟩ := hstored ht' hs hhit'
      rw [he]
      exact le_rfl
    · rw [Books.storedAt_of_miss hs hhit']
      exact Nat.zero_le _
  · obtain ⟨row, hr, he⟩ := List.mem_flatMap.mp he
    obtain ⟨t', ht', hs⟩ := exists_shows h.rows hr
    obtain ⟨payload, heq, hiff⟩ := hstored ht' hs ((hcount ht' hs).mp (List.ne_nil_of_mem he))
    rw [heq] at he
    rw [List.mem_singleton.mp he]
    exact hiff

theorem hits_cases {c : Account} {t : ScanTally} (ht : t ∈ c.whole.toList ++ c.part.toList)
    {index : Nat} (hhit : Hits index t) :
    (∃ b ∈ held c.whole, b.index = index) ∨ ∃ b ∈ held c.part, b.index = index := by
  refine (List.mem_append.mp ht).imp (fun ht => ?_) fun ht => ?_
  · rw [Option.mem_toList.mp ht]
    exact hhit
  · rw [Option.mem_toList.mp ht]
    exact hhit

/-- A stored scan of an exact account is the only one. -/
theorem Account.Exact.base_of_mem {c : Account} (he : c.Exact) {t : ScanTally}
    (ht : t ∈ c.whole.toList ++ c.part.toList) : c.base = t := by
  rcases List.mem_append.mp ht with ht | ht
  · exact Account.base_of_whole (Option.mem_toList.mp ht)
  · have hp := Option.mem_toList.mp ht
    exact Account.base_of_part (he.whole_none_of_part hp) hp

theorem countAt_toList (t : Option ScanTally) (index : Nat) (v : Verdict) :
    (Account.countAt t index v).toList =
      t.toList.map fun t => if Hits index t then scanRule.count v t else t := by
  cases t <;> rfl

theorem hasKey_countMatch (row : ScanRow) (found : PersistedFragmentMatch) (key : ProfileKey) :
    (row.countMatch found).hasKey key = row.hasKey key := by cases found <;> rfl

theorem id_countMatch (row : ScanRow) (found : PersistedFragmentMatch) :
    (row.countMatch found).id = row.id := by cases found <;> rfl

/-- The store after a match was counted on the rows with the ids. -/
def countedAt (s : TelemetryStore) (ids : List Int) (found : PersistedFragmentMatch) :
    TelemetryStore :=
  { s with scans := s.scans.map fun row => if row.id ∈ ids then row.countMatch found else row }

theorem rows_countedAt (s : TelemetryStore) (ids : List Int) (found : PersistedFragmentMatch)
    (key : ProfileKey) : (countedAt s ids found).rows key =
      (s.rows key).map fun row => if row.id ∈ ids then row.countMatch found else row := by
  rw [TelemetryStore.rows, countedAt, List.filter_map, TelemetryStore.rows]
  congr 1
  refine List.filter_congr fun row _ => ?_
  show (if row.id ∈ ids then row.countMatch found else row).hasKey key = row.hasKey key
  split
  · exact hasKey_countMatch row found key
  · rfl

theorem Orderly.countedAt {s : TelemetryStore} (h : Orderly s) (ids : List Int)
    (found : PersistedFragmentMatch) : Orderly (countedAt s ids found) where
  packets := h.packets
  filed := h.filed
  scans := by
    refine List.pairwise_map.mpr (h.scans.imp fun {row row'} hlt => ?_)
    have hid : ∀ row : ScanRow,
        (if row.id ∈ ids then row.countMatch found else row).id = row.id := by
      intro row
      split
      · exact id_countMatch row found
      · rfl
    rw [hid, hid]
    exact hlt

/-- What `reconcile_persisted_profile_fragment` does when it finds something. -/
theorem reconcile_eq {s : TelemetryStore} {key : ProfileKey} {packetId : Int} {index : UInt8}
    {payload : List UInt8} (hne : foundAt s key index ≠ [])
    (hnd : ((foundAt s key index).map (·.1)).Nodup) :
    s.reconcilePersistedProfileFragment key packetId index payload =
      .ok (some (TelemetryStore.classify ((foundAt s key index).map (·.2)) payload),
        (countedAt s ((foundAt s key index).map (·.1))
          (TelemetryStore.classify ((foundAt s key index).map (·.2)) payload)).setStatus packetId
          (TelemetryStore.classify ((foundAt s key index).map (·.2)) payload).storageStatus) := by
  have hfold := TelemetryStore.foldl_updateScan (s := s)
    (fun row => id_countMatch row
      (TelemetryStore.classify ((foundAt s key index).map (·.2)) payload)) hnd
  rw [List.foldl_map] at hfold
  have hfound : (foundAt s key index).isEmpty = false := by simpa using hne
  rw [TelemetryStore.reconcilePersistedProfileFragment]
  refine (if_neg (Bool.eq_false_iff.mp hfound)).trans ?_
  exact congrArg (fun s' : TelemetryStore => Except.ok (some
    (TelemetryStore.classify ((foundAt s key index).map (·.2)) payload), s'.setStatus packetId
      (TelemetryStore.classify ((foundAt s key index).map (·.2)) payload).storageStatus)) hfold

namespace Holds

variable {s : TelemetryStore} {A : ProfileKey → Account} (h : Holds I s A)
include h

/-- **A fragment with an index that no stored scan of its key has.** -/
theorem reconcile_miss {key : ProfileKey} {a : Arrival}
    (hmiss : ∀ t ∈ (A key).whole.toList ++ (A key).part.toList, ¬ Hits a.index t)
    (packetId : Int) (payload : List UInt8) :
    s.reconcilePersistedProfileFragment key packetId a.fragment.fragmentIndex payload =
      .ok (none, s) := by
  have hnil : foundAt s key a.fragment.fragmentIndex = [] := by
    refine List.flatMap_eq_nil_iff.mpr fun row hr => ?_
    obtain ⟨t, ht, hs⟩ := exists_shows (h.books key).rows hr
    exact Books.storedAt_of_miss hs (hmiss t ht)
  have hempty : (foundAt s key a.fragment.fragmentIndex).isEmpty = true := by rw [hnil]; rfl
  rw [TelemetryStore.reconcilePersistedProfileFragment]
  exact if_pos hempty

/-- **A waiting fragment with an index that a stored scan of its key has.** -/
theorem reconcile_hit [Account.Stable I] {p : PacketRow} {a : Arrival} (hp : p ∈ s.packets)
    (ha : arrivalOf p = some a) {rest : List Arrival} (hw : (A a.key).waiting = a :: rest)
    {t : ScanTally} (ht : t ∈ (A a.key).whole.toList ++ (A a.key).part.toList)
    (hhit : Hits a.index t) {v : Verdict} (hv : scanRule.verdict t.accepted a.fragment = v) :
    v ≠ .fresh ∧ ∃ s', s.reconcilePersistedProfileFragment a.key p.id a.fragment.fragmentIndex
        p.payload = .ok (some (matchOf v), s') ∧
      Holds I s' (Function.update A a.key ((A a.key).note a v)) := by
  have hb := h.books a.key
  have hfresh : v ≠ .fresh := by
    obtain ⟨b, hbt, hi⟩ := hhit
    rw [← hv, verdict_of_hit (hb.started ht) hbt hi]
    split <;> exact fun he => by cases he
  obtain ⟨hne, hnd, hpayloads, hids⟩ := hb.foundAt_spec h.orderly ha ht hhit hv
  -- the stored payloads at the index are all equal to this one, or none is
  have hmatch : TelemetryStore.classify
      ((foundAt s a.key a.fragment.fragmentIndex).map (·.2)) p.payload = matchOf v := by
    obtain ⟨e, he⟩ := List.exists_mem_of_ne_nil _ hne
    rw [TelemetryStore.classify, List.all_map]
    cases v with
    | fresh => exact absurd rfl hfresh
    | repeated =>
        refine if_pos (List.all_eq_true.mpr fun e he => ?_)
        exact decide_eq_true ((hpayloads e he).mpr rfl)
    | clash =>
        refine if_neg fun hall => ?_
        have hone := of_decide_eq_true (List.all_eq_true.mp hall e he)
        cases (hpayloads e he).mp hone
  refine ⟨hfresh, _, (reconcile_eq hne hnd).trans (by rw [hmatch]), ?_⟩
  have hpc : p ∈ (countedAt s ((foundAt s a.key a.fragment.fragmentIndex).map (·.1))
      (matchOf v)).packets := hp
  have ho := h.orderly.countedAt ((foundAt s a.key a.fragment.fragmentIndex).map (·.1)) (matchOf v)
  have hentries := fun k => @entriesOf_setStatus _ k _ ho p hpc ha (matchOf v).storageStatus
  refine h.update (ho.setStatus hpc ha _) ⟨?_, ?_, ?_, ?_, ?_,
    Account.Stable.moves hb.sound (.note v hw) hb.invariant⟩ fun k hk => ⟨?_, ?_, ?_⟩
  · exact (archiveOf_setStatus _ _).trans hb.archive
  · rw [hentries, storageStatus_matchOf]
    exact congrArg (refile · [a] (Account.statusOf v)) hb.entries
  · show List.Forall₂ Shows ((countedAt s _ _).rows a.key)
      ((Account.countAt (A a.key).whole a.index v).toList ++
        (Account.countAt (A a.key).part a.index v).toList)
    -- the rows that were found are those of the scans with the index
    rw [rows_countedAt, countAt_toList, countAt_toList, ← List.map_append,
      List.forall₂_map_left_iff, List.forall₂_map_right_iff]
    refine forall₂_of_mem hb.rows fun row t' hr ht' hs => ?_
    by_cases hhit' : Hits a.index t'
    · rw [if_pos ((hids row t' hr ht' hs).mpr hhit'), if_pos hhit']
      exact hs.countMatch hfresh
    · rw [if_neg fun hmem => hhit' ((hids row t' hr ht' hs).mp hmem), if_neg hhit']
      exact hs
  · refine hb.sound.note hw v fun hnone => ?_
    rw [hnone] at ht
    have hpart := Option.mem_toList.mp ht
    rw [hpart]
    exact hhit
  · intro hx
    have he := hb.exact hx
    refine he.note hb.sound hw (hits_cases ht hhit) ?_ hfresh
    rw [he.base_of_mem ht, hv]
  -- other keys
  · exact archiveOf_setStatus _ _
  · rw [hentries]
    refine refile_of_not_mem fun e he hmem => hk ?_
    rw [← key_of_entriesOf he, List.mem_singleton.mp hmem]
  · show (countedAt s _ _).rows k = _
    rw [rows_countedAt]
    refine (List.map_congr_left fun row hr => ?_).trans (List.map_id _)
    exact if_neg (h.orderly.not_mem_foundAt hk hr)

/-- **Giving up the first waiting fragment**, when its key has a stray. -/
theorem quarantinePending [Account.Stable I] {p : PacketRow} {a : Arrival} (hp : p ∈ s.packets)
    (ha : arrivalOf p = some a) {rest : List Arrival} (hw : (A a.key).waiting = a :: rest)
    (hstray : ¬ StrayFree (A a.key).archive) (error : DecodeErrorText) : ∃ s',
      s.quarantinePendingProfileFragment p.id error = .ok s' ∧
        Holds I s' (Function.update A a.key ((A a.key).quarantine a)) := by
  have hb := h.books a.key
  have hpending := hb.sound.waiting a (hw ▸ List.mem_cons_self)
  rw [← hb.entries] at hpending
  obtain ⟨⟨q, hq, he⟩, -⟩ := mem_entriesOf.mp hpending
  have hqp : q = p := by
    refine h.orderly.keyed.eq_of_id hq hp ?_
    rw [← packetId_of_arrivalOf (entryOf_eq_some.mp he).1, packetId_of_arrivalOf ha]
  have hstatus : p.hasStatus .pending = true :=
    (hasStatus_iff (h.orderly.filed p hp)).mpr ⟨a, hqp ▸ he⟩
  have hone := h.orderly.keyed.filter_id hp (·.hasStatus .pending) hstatus
  have ho : Orderly (s.updatePacket p.id (·.quarantined error)) :=
    h.orderly.updatePacket hp (fun _ => rfl) (filed_quarantined p error)
  have harchive := fun k => @archiveOf_updatePacket s k p.id _
    fun q => arrivalOf_quarantined q error
  refine ⟨s.updatePacket p.id (·.quarantined error), ?_, h.update ho ?_ fun k hk => ?_⟩
  · rw [TelemetryStore.quarantinePendingProfileFragment, hone, Outcome.failIf_neg (by simp)]
    rfl
  · refine ⟨(harchive _).trans hb.archive, ?_, hb.rows,
      hb.sound.quarantine hw, fun hf => absurd hf hstray,
      Account.Stable.moves hb.sound (.quarantine hw) hb.invariant⟩
    rw [entriesOf_quarantined h.orderly hp ha, hb.entries]
    rfl
  · refine ⟨harchive k, ?_, rfl⟩
    rw [entriesOf_quarantined h.orderly hp ha]
    refine List.filter_eq_self.mpr fun e he => decide_eq_true fun hea => hk ?_
    rw [← key_of_entriesOf he, hea]

end Holds

end Vesta.Ledger
