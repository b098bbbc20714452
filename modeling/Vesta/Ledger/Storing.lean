import Vesta.Ledger.Books

/-!
# Ledger — Storing

Storing the scan in memory: the row of the stored scan takes the place of the incomplete row of its
key, and the sources are filed.  The row of a complete scan stays first, and its sources stay its
own.
-/

namespace Vesta.Ledger

open FirstWins (Rule Tally Verdict)
open Receiver (Arrival ScanTally ScanOf Full ProfileKey ProfileMetadata SourceFragment scanRule
  profileOf)
open Store (FragmentStorageStatus PacketRow ScanRow TelemetryStore StorageError StoredRecord
  nextRowId)

variable {I : ProfileKey → Account → Prop}

/-! ### The rows of a key -/

theorem exists_shows {rows : List ScanRow} {tallies : List ScanTally}
    (h : List.Forall₂ Shows rows tallies) {row : ScanRow} (hr : row ∈ rows) :
    ∃ t ∈ tallies, Shows row t := by
  induction h with
  | nil => cases hr
  | cons hs _ ih =>
      rcases List.mem_cons.mp hr with rfl | hr
      · exact ⟨_, List.mem_cons_self, hs⟩
      · obtain ⟨t, ht, hst⟩ := ih hr
        exact ⟨t, List.mem_cons_of_mem _ ht, hst⟩

theorem exists_shows_of_tally {rows : List ScanRow} {tallies : List ScanTally}
    (h : List.Forall₂ Shows rows tallies) {t : ScanTally} (ht : t ∈ tallies) :
    ∃ row ∈ rows, Shows row t := by
  induction h with
  | nil => cases ht
  | cons hs _ ih =>
      rcases List.mem_cons.mp ht with rfl | ht
      · exact ⟨_, List.mem_cons_self, hs⟩
      · obtain ⟨row, hr, hst⟩ := ih ht
        exact ⟨row, List.mem_cons_of_mem _ hr, hst⟩

/-- A pairing of rows and collections, changed pair by pair. -/
theorem forall₂_of_mem {rows : List ScanRow} {tallies : List ScanTally}
    {R : ScanRow → ScanTally → Prop} (h : List.Forall₂ Shows rows tallies)
    (hR : ∀ row t, row ∈ rows → t ∈ tallies → Shows row t → R row t) :
    List.Forall₂ R rows tallies := by
  induction h with
  | nil => exact .nil
  | cons hs _ ih =>
      exact .cons (hR _ _ List.mem_cons_self List.mem_cons_self hs) (ih fun row t hr ht =>
        hR row t (List.mem_cons_of_mem _ hr) (List.mem_cons_of_mem _ ht))

theorem hasKey_eq_true {row : ScanRow} {key : ProfileKey} :
    row.hasKey key = true ↔ ProfileKey.ofIdentity row.scan.identity = key := decide_eq_true_iff

namespace Books

variable {s : TelemetryStore} {key : ProfileKey} {c : Account} (h : Books I s key c)
include h

/-- The row of the complete scan comes first. -/
theorem split : ∃ wholes parts, s.rows key = wholes ++ parts ∧
    List.Forall₂ Shows wholes c.whole.toList ∧ List.Forall₂ Shows parts c.part.toList :=
  ⟨_, _, (List.take_append_drop _ _).symm, List.forall₂_take_append _ _ _ h.rows,
    List.forall₂_drop_append _ _ _ h.rows⟩

theorem complete_of_whole {row : ScanRow} {t : ScanTally} (ht : t ∈ c.whole.toList)
    (hs : Shows row t) : row.transportComplete = true := by
  have hw := h.sound.whole t (Option.mem_toList.mp ht)
  exact (hs.complete_iff (Started.of_whole hw).ne_nil).mpr hw

theorem incomplete_of_part {row : ScanRow} {t : ScanTally} (ht : t ∈ c.part.toList)
    (hs : Shows row t) : row.transportComplete = false := by
  have hp := h.sound.part t (Option.mem_toList.mp ht)
  refine Bool.eq_false_iff.mpr fun hc => ?_
  obtain ⟨m, hm, hf⟩ := (hs.complete_iff (Started.of_part hp).ne_nil).mp hc
  obtain ⟨m', hm', hne, hnf⟩ := hp
  obtain ⟨a, ha⟩ := List.exists_mem_of_ne_nil _ hne
  obtain rfl : m = m' := (hm.metadata a ha).symm.trans (hm'.metadata a ha)
  exact hnf hf

theorem completeRows : List.Forall₂ Shows (s.completeRows key) c.whole.toList := by
  obtain ⟨wholes, parts, hrows, hw, hp⟩ := h.split
  have hall : wholes.filter (·.transportComplete) = wholes := by
    refine List.filter_eq_self.mpr fun row hr => ?_
    obtain ⟨t, ht, hs⟩ := exists_shows hw hr
    exact h.complete_of_whole ht hs
  have hnone : parts.filter (·.transportComplete) = [] := by
    refine List.filter_eq_nil_iff.mpr fun row hr => ?_
    obtain ⟨t, ht, hs⟩ := exists_shows hp hr
    exact Bool.eq_false_iff.mp (h.incomplete_of_part ht hs)
  rw [TelemetryStore.completeRows, hrows, List.filter_append, hall, hnone, List.append_nil]
  exact hw

theorem incompleteRows :
    List.Forall₂ Shows ((s.rows key).filter fun row => !row.transportComplete) c.part.toList := by
  obtain ⟨wholes, parts, hrows, hw, hp⟩ := h.split
  have hnone : (wholes.filter fun row => !row.transportComplete) = [] := by
    refine List.filter_eq_nil_iff.mpr fun row hr => ?_
    obtain ⟨t, ht, hs⟩ := exists_shows hw hr
    rw [h.complete_of_whole ht hs]
    exact Bool.false_ne_true
  have hall : (parts.filter fun row => !row.transportComplete) = parts := by
    refine List.filter_eq_self.mpr fun row hr => ?_
    obtain ⟨t, ht, hs⟩ := exists_shows hp hr
    rw [h.incomplete_of_part ht hs]
    rfl
  rw [hrows, List.filter_append, hnone, hall, List.nil_append]
  exact hp

/-- The fragments of the stored scans were archived. -/
theorem mem_archive {t : ScanTally} (ht : t ∈ c.whole.toList ++ c.part.toList) {a : Arrival}
    (ha : a ∈ t.accepted) : a ∈ c.archive := by
  rcases List.mem_append.mp ht with ht | ht
  · refine h.sound.mem_archive ((h.sound.assembled a).mpr ?_)
    rwa [Option.mem_toList.mp ht]
  · refine h.sound.mem_archive ((h.sound.incomplete a).mpr ?_)
    rwa [Option.mem_toList.mp ht]

end Books

/-! ### Deleting and inserting rows -/

section
variable (s : TelemetryStore) {key k : ProfileKey}

theorem rows_deleteIncomplete : (s.deleteIncomplete key).rows key = s.completeRows key := by
  rw [TelemetryStore.completeRows, TelemetryStore.rows, TelemetryStore.deleteIncomplete,
    TelemetryStore.rows, List.filter_filter, List.filter_filter]
  refine List.filter_congr fun row _ => ?_
  cases row.transportComplete <;> cases row.hasKey key <;> rfl

theorem rows_deleteIncomplete_ne (hk : k ≠ key) : (s.deleteIncomplete key).rows k = s.rows k := by
  rw [TelemetryStore.rows, TelemetryStore.deleteIncomplete, List.filter_filter,
    TelemetryStore.rows]
  refine List.filter_congr fun row _ => ?_
  by_cases hrow : row.hasKey k = true
  · have hno : row.hasKey key = false := Bool.eq_false_iff.mpr fun he =>
      hk ((hasKey_eq_true.mp hrow).symm.trans (hasKey_eq_true.mp he))
    simp [hrow, hno]
  · simp [hrow]

end

theorem hasKey_rowOf {m : ProfileMetadata} {t : ScanTally} (hs : ScanOf m t) (id : Int)
    (key : ProfileKey) : (rowOf id m t).hasKey key = decide (m.key = key) := by
  rw [ScanRow.hasKey]
  show decide (ProfileKey.ofIdentity m.identity = key) = _
  rw [← hs.wellFormed.key]

section
variable {s : TelemetryStore} {m : ProfileMetadata} {t : ScanTally} (hs : ScanOf m t)
include hs

theorem rows_withProfile : ∃ id, (withProfile s m t).rows m.key =
    s.completeRows m.key ++ [rowOf id m t] := by
  refine ⟨nextRowId ((s.deleteIncomplete m.key).scans.map (·.id)), ?_⟩
  rw [TelemetryStore.rows, withProfile, fileAll_scans, List.filter_append, List.filter_singleton,
    hasKey_rowOf hs, decide_eq_true rfl, ← rows_deleteIncomplete s, TelemetryStore.rows]
  rfl

theorem rows_withProfile_ne {k : ProfileKey} (hk : k ≠ m.key) :
    (withProfile s m t).rows k = s.rows k := by
  rw [TelemetryStore.rows, withProfile, fileAll_scans, List.filter_append, List.filter_singleton,
    hasKey_rowOf hs, decide_eq_false hk.symm, ← rows_deleteIncomplete_ne s hk, TelemetryStore.rows]
  exact List.append_nil _

end

/-! ### Statements -/

theorem Orderly.deleteIncomplete {s : TelemetryStore} (h : Orderly s) (key : ProfileKey) :
    Orderly (s.deleteIncomplete key) where
  packets := h.packets
  filed := h.filed
  scans := h.scans.filter _

/-- Marking the packet of a filed fragment succeeds. -/
theorem Orderly.markFragmentStatus {s : TelemetryStore} (h : Orderly s) {key : ProfileKey}
    {a : Arrival} {filed : FragmentStorageStatus} (ha : (a, filed) ∈ entriesOf s key)
    (status : FragmentStorageStatus) :
    s.markFragmentStatus a.source.packetId status = .ok (s.setStatus a.source.packetId status) ∧
      Orderly (s.setStatus a.source.packetId status) ∧
      ∀ k, entriesOf (s.setStatus a.source.packetId status) k =
        refile (entriesOf s k) [a] status := by
  obtain ⟨⟨p, hp, he⟩, -⟩ := mem_entriesOf.mp ha
  have hpa := (entryOf_eq_some.mp he).1
  rw [packetId_of_arrivalOf hpa]
  refine ⟨?_, h.setStatus hp hpa status, fun k => entriesOf_setStatus h hp hpa status⟩
  have hone := h.keyed.filter_id hp (·.isFragment) ((isFragment_iff (h.filed p hp)).mpr ⟨_, _, he⟩)
  rw [TelemetryStore.markFragmentStatus, hone, Outcome.failIf_neg (by simp)]
  rfl

/-- The entries of a key are of its fragments. -/
theorem key_of_entriesOf {s : TelemetryStore} {key : ProfileKey} {e : Entry}
    (he : e ∈ entriesOf s key) : e.1.key = key := by
  obtain ⟨a, status⟩ := e
  exact (mem_entriesOf.mp he).2

theorem key_of_scanOf {m : ProfileMetadata} {t : ScanTally} (hs : ScanOf m t) {a : Arrival}
    (ha : a ∈ t.accepted) : a.key = m.key := by
  rw [Arrival.key, hs.metadata a ha]

namespace Account

/-- The scan in memory is stored, as what it is. -/
def stow (c : Account) (m : ProfileMetadata) (t : ScanTally) : Account :=
  if Full m t.accepted then c.complete t else c.persist t

end Account

namespace Holds

variable {s : TelemetryStore} {A : ProfileKey → Account} (h : Holds I s A) {m : ProfileMetadata}
  {t : ScanTally} (hs : ScanOf m t) (hl : held (A m.key).live = t.accepted)
include h hs hl

omit hs in
theorem packet_of_live {a : Arrival} (ha : a ∈ t.accepted) :
    ∃ p ∈ s.packets, arrivalOf p = some a :=
  (h.mem_archive ((h.books m.key).sound.mem_archive_of_live (hl ▸ ha))).1

/-- The sources of the scan in memory are linked to its own incomplete row at most. -/
theorem unlinked {a : Arrival} (ha : a ∈ t.accepted) {row : ScanRow}
    (hr : row ∈ (s.deleteIncomplete m.key).scans) :
    a.source.packetId ∉ row.fragments.map (·.packetId) := by
  intro hmem
  obtain ⟨hr, hkeep⟩ := List.mem_filter.mp hr
  have hrow : row ∈ s.rows (.ofIdentity row.scan.identity) :=
    List.mem_filter.mpr ⟨hr, hasKey_eq_true.mpr rfl⟩
  have hb := h.books (.ofIdentity row.scan.identity)
  obtain ⟨t', ht', hshows⟩ := exists_shows hb.rows hrow
  rw [hshows.fragments, List.map_map] at hmem
  obtain ⟨b, hbt, hid⟩ := List.mem_map.mp hmem
  -- both fragments are of the packet with this id
  obtain ⟨⟨q, hq, hqb⟩, hbk⟩ := h.mem_archive (hb.mem_archive ht' hbt)
  obtain ⟨p, hp, hpa⟩ := h.packet_of_live hl ha
  have hpq : q = p := by
    refine h.orderly.keyed.eq_of_id hq hp ?_
    rw [← packetId_of_arrivalOf hqb, ← packetId_of_arrivalOf hpa]
    exact hid
  obtain rfl : b = a := Option.some.inj (hqb.symm.trans (hpq ▸ hpa))
  have hkey : ProfileKey.ofIdentity row.scan.identity = m.key :=
    hbk.symm.trans (key_of_scanOf hs ha)
  rw [hkey] at ht' hb
  rcases List.mem_append.mp ht' with ht' | ht'
  · refine hb.sound.not_mem_whole (hl ▸ ha) ?_
    rwa [Option.mem_toList.mp ht']
  · have hinc := hb.incomplete_of_part ht' hshows
    rw [hinc, hasKey_eq_true.mpr hkey] at hkeep
    exact absurd hkeep (by decide)

theorem insertProfileScanInner_eq (hne : t.accepted ≠ [])
    (integrityPacket : Option (Int × FragmentStorageStatus)) :
    ∃ record, s.insertProfileScanInner (profileOf m t) integrityPacket = do
      let marked ← match integrityPacket with
        | none => pure (withProfile s m t)
        | some (packetId, status) => (withProfile s m t).markFragmentStatus packetId status
      return (record, marked) := by
  refine Ledger.insertProfileScanInner_eq hs hne (fun a ha => ?_)
    (fun a ha row hr => h.unlinked hs hl ha hr) ?_ integrityPacket
  · obtain ⟨p, hp, hpa⟩ := h.packet_of_live hl ha
    rw [packetId_of_arrivalOf hpa]
    exact List.mem_map_of_mem hp
  · have hsound := (h.books m.key).sound
    refine hs.nodup.map_on fun a ha b hb he => ?_
    exact hsound.eq_of_packetId (hsound.mem_archive_of_live (hl ▸ ha))
      (hsound.mem_archive_of_live (hl ▸ hb)) he

omit hs in
/-- The packets after storing the scan. -/
theorem filed_withProfile : Orderly (withProfile s m t) ∧
    ∀ k, archiveOf (withProfile s m t) k = archiveOf s k ∧
      entriesOf (withProfile s m t) k = refile (entriesOf s k) t.accepted
        (if Full m t.accepted then .assembled else .incomplete) := by
  have hcleared := h.orderly.deleteIncomplete m.key
  obtain ⟨ho, hfiled⟩ := hcleared.fileAll (fun a ha => h.packet_of_live hl ha)
    (if Full m t.accepted then .assembled else .incomplete)
  refine ⟨⟨ho.packets, ho.filed, ?_⟩, fun k => hfiled k⟩
  rw [withProfile, fileAll_scans]
  refine List.pairwise_append.mpr ⟨hcleared.scans, List.pairwise_singleton _ _, ?_⟩
  intro row hr row' hr'
  rw [List.mem_singleton.mp hr']
  exact lt_nextRowId (List.mem_map_of_mem hr)

theorem agree_withProfile {k : ProfileKey} (hk : k ≠ m.key) : Agree s (withProfile s m t) k where
  archive := ((h.filed_withProfile hl).2 k).1
  entries := by
    rw [((h.filed_withProfile hl).2 k).2]
    refine refile_of_not_mem fun e he hmem => hk ?_
    exact (key_of_entriesOf he).symm.trans (key_of_scanOf hs hmem)
  rows := rows_withProfile_ne hs hk

omit hs hl in
/-- **Storing the scan in memory.** -/
theorem insertProfileScan [Account.Stable I] (hs : ScanOf m t) (hlive : (A m.key).live = some t) :
    ∃ record s', s.insertProfileScan (profileOf m t) = .ok (record, s') ∧
      Holds I s' (Function.update A m.key ((A m.key).stow m t)) := by
  have hb := h.books m.key
  have hl : held (A m.key).live = t.accepted := by rw [hlive, held_some]
  have hne := (hb.sound.live t hlive).ne_nil
  obtain ⟨record, hok⟩ := h.insertProfileScanInner_eq hs hl hne none
  obtain ⟨ho, hfiled⟩ := h.filed_withProfile hl
  obtain ⟨id, hrows⟩ := rows_withProfile (s := s) hs
  refine ⟨record, withProfile s m t, hok, h.update ho ?_ fun k hk => h.agree_withProfile hs hl hk⟩
  have hshows : Shows (rowOf id m t) t := ⟨m, hs, rfl⟩
  rw [Account.stow]
  by_cases hf : Full m t.accepted
  · obtain ⟨hnone, hsound⟩ := hb.sound.complete hlive ⟨m, hs, hf⟩
    rw [if_pos hf] at hfiled ⊢
    refine ⟨(hfiled _).1.trans hb.archive, (hfiled _).2.trans (hb.entries ▸ rfl), ?_, hsound,
      fun hx => (hb.exact hx).complete hb.sound hx hlive,
      Account.Stable.moves hb.sound (.complete hlive) hb.invariant⟩
    have hcomplete := hb.completeRows
    rw [hnone] at hcomplete
    rw [hrows, List.forall₂_nil_right_iff.mp hcomplete]
    exact .cons hshows .nil
  · rw [if_neg hf] at hfiled ⊢
    refine ⟨(hfiled _).1.trans hb.archive, (hfiled _).2.trans (hb.entries ▸ rfl), ?_,
      hb.sound.persist hlive ⟨m, hs, hne, hf⟩,
      fun hx => (hb.exact hx).persist hb.sound hx hlive,
      Account.Stable.moves hb.sound (.persist hlive) hb.invariant⟩
    rw [hrows]
    exact List.rel_append hb.completeRows (.cons hshows .nil)

omit hs hl in
/-- **Storing the scan in memory after it has counted a fragment.** -/
theorem insertProfileIntegritySnapshot [Account.Stable I] (hs : ScanOf m t)
    (hlive : (A m.key).live = some t) (hf : ¬ Full m t.accepted) {a : Arrival} {rest : List Arrival}
    (hw : (A m.key).waiting = a :: rest) {v : Verdict}
    (hv : scanRule.verdict t.accepted a.fragment = v) (hfresh : v ≠ .fresh) : ∃ record s',
      s.insertProfileIntegritySnapshot (profileOf m (scanRule.count v t)) a.source.packetId
          (Account.statusOf v) = .ok (record, s') ∧
        Holds I s' (Function.update A m.key ((A m.key).snapshot a t v)) := by
  have hb := h.books m.key
  have hne := (hb.sound.live t hlive).ne_nil
  have hcount : (scanRule.count v t).accepted = t.accepted := Rule.count_accepted v
  have hl : held (A m.key).live = (scanRule.count v t).accepted := by
    rw [hlive, held_some, hcount]
  have hs' := scanOf_count hs v
  obtain ⟨record, hok⟩ := h.insertProfileScanInner_eq hs' hl (hcount ▸ hne)
    (some (a.source.packetId, Account.statusOf v))
  obtain ⟨ho, hfiled⟩ := h.filed_withProfile hl
  obtain ⟨id, hrows⟩ := rows_withProfile (s := s) hs'
  rw [hcount, if_neg hf] at hfiled
  -- the counted fragment is still pending
  have hwait : a ∈ (A m.key).waiting := hw ▸ List.mem_cons_self
  have hpending : (a, .pending) ∈ entriesOf (withProfile s m (scanRule.count v t)) m.key := by
    rw [(hfiled m.key).2, hb.entries]
    refine mem_refile.mpr (.inr ⟨fun hmem => ?_, hb.sound.waiting a hwait⟩)
    exact (hb.sound.not_held_of_waiting hwait).2.2 (by rwa [hlive])
  obtain ⟨hmark, hom, hentries⟩ := ho.markFragmentStatus hpending (Account.statusOf v)
  refine ⟨record, _, hok.trans (by dsimp only; rw [hmark]; rfl), h.update hom ?_ fun k hk => ?_⟩
  · refine ⟨(archiveOf_setStatus _ _).trans ((hfiled _).1.trans hb.archive), ?_, ?_,
      hb.sound.snapshot hw hlive ⟨m, hs, hne, hf⟩ v,
      fun hx => (hb.exact hx).snapshot hb.sound hx hw hlive ⟨m, hs, hne, hf⟩ hv hfresh,
      Account.Stable.moves hb.sound (.snapshot v hw hlive) hb.invariant⟩
    · rw [hentries, (hfiled _).2, hb.entries]
      rfl
    · show List.Forall₂ Shows ((withProfile s m (scanRule.count v t)).rows m.key) _
      rw [hrows]
      exact List.rel_append hb.completeRows (.cons ⟨m, hs', rfl⟩ .nil)
  · have hagree := h.agree_withProfile hs' hl hk
    refine ⟨(archiveOf_setStatus _ _).trans hagree.archive, ?_, hagree.rows⟩
    rw [hentries, hagree.entries]
    refine refile_of_not_mem fun e he hmem => hk ?_
    rw [← key_of_entriesOf he, List.mem_singleton.mp hmem]
    exact (h.mem_archive (hb.sound.mem_archive (hb.sound.waiting a hwait))).2

end Holds

end Vesta.Ledger
