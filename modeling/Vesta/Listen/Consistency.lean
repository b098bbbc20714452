import Vesta.Listen.System

/-!
# Listen — Consistency

The tables of one state of the database agree with each other: which packets a scan links, how those
packets are filed, which fragments the scan says it received, and its steps.
-/

namespace Vesta.Listen

open Receiver (Arrival ProfileKey ProfileStep OwnedFragment ScanTally SourceFragment)
open Store (TelemetryStore ScanRow PacketRow FragmentStorageStatus)
open Ledger

variable {I : ProfileKey → Account → Prop}

/-- The scans that link a packet. -/
def linkedScans (s : TelemetryStore) (p : PacketRow) : List ScanRow :=
  s.scans.filter fun row => p.id ∈ row.fragments.map (·.packetId)

/-- The packets that a scan links. -/
def linkedPackets (s : TelemetryStore) (row : ScanRow) : List PacketRow :=
  s.packets.filter fun p => p.id ∈ row.fragments.map (·.packetId)

/-- The steps decoded from the payload of a packet. -/
def decodedSteps (p : PacketRow) : List ProfileStep :=
  ((fragmentOf p.payload).map (·.steps)).getD []

/-- How a scan files the packets it links. -/
def linkStatus (row : ScanRow) : FragmentStorageStatus :=
  if row.transportComplete then .assembled else .incomplete

/-- The tables agree with each other. -/
structure Consistent (s : TelemetryStore) : Prop where
  once : ∀ p ∈ s.packets, (linkedScans s p).length ≤ 1
  filed : ∀ p ∈ s.packets, ∀ row ∈ linkedScans s p, p.hasStatus (linkStatus row)
  unlinked : ∀ p ∈ s.packets, ∀ status,
    status = .pending ∨ status = .duplicate ∨ status = .conflict →
    p.hasStatus status → linkedScans s p = []
  linked : ∀ p ∈ s.packets, ∀ status, status = .assembled ∨ status = .incomplete →
    p.hasStatus status → linkedScans s p ≠ []
  archived : ∀ row ∈ s.scans, ∀ source ∈ row.fragments, ∃ p ∈ s.packets, p.id = source.packetId ∧
    ∃ f, fragmentOf p.payload = some f ∧ f.fragmentIndex = source.fragmentIndex
  bitmap : ∀ row ∈ s.scans, ∀ i, Bitmap.has row.scan.receivedFragmentBitmap i ↔
    ∃ source ∈ row.fragments, source.fragmentIndex.toNat = i
  steps : ∀ row ∈ s.scans, row.scan.steps.Perm ((linkedPackets s row).flatMap decodedSteps)
  single : ∀ key, (s.completeRows key).length ≤ 1 ∧
    ((s.rows key).filter fun row => !row.transportComplete).length ≤ 1

theorem mem_linkedScans {s : TelemetryStore} {p : PacketRow} {row : ScanRow} :
    row ∈ linkedScans s p ↔ row ∈ s.scans ∧ ∃ source ∈ row.fragments, source.packetId = p.id := by
  simp [linkedScans]

theorem mem_linkedPackets {s : TelemetryStore} {p : PacketRow} {row : ScanRow} :
    p ∈ linkedPackets s row ↔ p ∈ s.packets ∧ ∃ source ∈ row.fragments, source.packetId = p.id := by
  simp [linkedPackets]

theorem flatMap_decodedSteps (packets : List PacketRow) :
    packets.flatMap decodedSteps = (packets.filterMap arrivalOf).flatMap (·.fragment.steps) := by
  induction packets with
  | nil => rfl
  | cons p packets ih =>
      rw [List.flatMap_cons, ih, List.filterMap_cons, decodedSteps, arrivalOf]
      cases fragmentOf p.payload with
      | none => rfl
      | some f => rfl

section
variable {s : TelemetryStore} {A : ProfileKey → Account} (h : Holds I s A)
include h

/-- The packets of a stored scan are filed as its row says. -/
theorem filed_of_shows {key : ProfileKey} {t : ScanTally}
    (ht : t ∈ (A key).whole.toList ++ (A key).part.toList) {row : ScanRow} (hs : Shows row t) :
    ∀ a ∈ t.accepted, ∃ p ∈ s.packets, entryOf p = some (a, linkStatus row) := by
  intro a ha
  have hb := h.books key
  have hentry : (a, linkStatus row) ∈ (A key).entries := by
    rcases List.mem_append.mp ht with ht | ht
    · rw [linkStatus, hb.complete_of_whole ht hs]
      refine (hb.sound.assembled a).mpr ?_
      rwa [Option.mem_toList.mp ht]
    · rw [linkStatus, hb.incomplete_of_part ht hs]
      refine (hb.sound.incomplete a).mpr ?_
      rwa [Option.mem_toList.mp ht]
  rw [← hb.entries] at hentry
  exact (mem_entriesOf.mp hentry).1

/-- A row is the picture of a collection, and its packets are filed as it says. -/
theorem exists_shows_filed {row : ScanRow} (hr : row ∈ s.scans) :
    ∃ t : ScanTally, Shows row t ∧ ∀ a ∈ t.accepted, ∃ p ∈ s.packets,
      entryOf p = some (a, linkStatus row) := by
  have hrow : row ∈ s.rows (.ofIdentity row.scan.identity) :=
    List.mem_filter.mpr ⟨hr, hasKey_eq_true.mpr rfl⟩
  obtain ⟨t, ht, hs⟩ := exists_shows (h.books _).rows hrow
  exact ⟨t, hs, filed_of_shows h ht hs⟩

/-- A packet that a scan links is one of the fragments of the scan. -/
theorem entry_of_linked {row : ScanRow} {t : ScanTally} (hs : Shows row t)
    (hfiled : ∀ a ∈ t.accepted, ∃ p ∈ s.packets, entryOf p = some (a, linkStatus row))
    {p : PacketRow} (hp : p ∈ s.packets) {source : SourceFragment} (hmem : source ∈ row.fragments)
    (hid : source.packetId = p.id) :
    ∃ a ∈ t.accepted, entryOf p = some (a, linkStatus row) := by
  rw [hs.fragments] at hmem
  obtain ⟨a, ha, rfl⟩ := List.mem_map.mp hmem
  obtain ⟨q, hq, he⟩ := hfiled a ha
  obtain rfl : q = p := by
    refine h.orderly.keyed.eq_of_id hq hp ?_
    rw [← packetId_of_arrivalOf (entryOf_eq_some.mp he).1, hid]
  exact ⟨a, ha, he⟩

/-- The fragments of the linked packets are those of the scan. -/
theorem perm_linkedPackets {row : ScanRow} {t : ScanTally} (hs : Shows row t)
    (hfiled : ∀ a ∈ t.accepted, ∃ p ∈ s.packets, entryOf p = some (a, linkStatus row)) :
    ((linkedPackets s row).filterMap arrivalOf).Perm t.accepted := by
  obtain ⟨m, hscan, -⟩ := id hs
  have hnd : ((linkedPackets s row).filterMap arrivalOf).Nodup := by
    refine List.pairwise_filterMap.mpr ((h.orderly.packets.filter _).imp ?_)
    rintro p q hlt a ha b hb rfl
    rw [← packetId_of_arrivalOf ha, ← packetId_of_arrivalOf hb] at hlt
    exact lt_irrefl _ hlt
  refine (List.perm_ext_iff_of_nodup hnd hscan.nodup).mpr fun a => ?_
  rw [List.mem_filterMap]
  constructor
  · rintro ⟨p, hp, ha⟩
    obtain ⟨hp, source, hsource, hid⟩ := mem_linkedPackets.mp hp
    obtain ⟨b, hb, he⟩ := entry_of_linked h hs hfiled hp hsource hid
    obtain rfl : a = b := Option.some.inj (ha.symm.trans (entryOf_eq_some.mp he).1)
    exact hb
  · intro ha
    obtain ⟨p, hp, he⟩ := hfiled a ha
    have harrival := (entryOf_eq_some.mp he).1
    refine ⟨p, mem_linkedPackets.mpr ⟨hp, a.source, ?_, packetId_of_arrivalOf harrival⟩, harrival⟩
    rw [hs.fragments]
    exact List.mem_map_of_mem ha

/-- A packet that is filed as linked is one of the fragments of a scan. -/
theorem linked_of_status {p : PacketRow} (hp : p ∈ s.packets) {status : FragmentStorageStatus}
    (hstatus : status = .assembled ∨ status = .incomplete) (hfiled : p.hasStatus status) :
    linkedScans s p ≠ [] := by
  obtain ⟨a, he⟩ := (hasStatus_iff (h.orderly.filed p hp)).mp hfiled
  have hb := h.books a.key
  have hentry : (a, status) ∈ (A a.key).entries := by
    rw [← hb.entries]
    exact mem_entriesOf.mpr ⟨⟨p, hp, he⟩, rfl⟩
  obtain ⟨t, ht, ha⟩ : ∃ t ∈ (A a.key).whole.toList ++ (A a.key).part.toList, a ∈ t.accepted := by
    rcases hstatus with rfl | rfl
    · have hheld := (hb.sound.assembled a).mp hentry
      cases hw : (A a.key).whole with
      | none =>
          rw [hw] at hheld
          cases hheld
      | some t =>
          rw [hw] at hheld
          exact ⟨t, by simp, hheld⟩
    · have hheld := (hb.sound.incomplete a).mp hentry
      cases hpart : (A a.key).part with
      | none =>
          rw [hpart] at hheld
          cases hheld
      | some t =>
          rw [hpart] at hheld
          exact ⟨t, by simp, hheld⟩
  obtain ⟨row, hr, hs⟩ := exists_shows_of_tally hb.rows ht
  refine List.ne_nil_of_mem (mem_linkedScans.mpr ⟨(List.mem_filter.mp hr).1, a.source, ?_,
    packetId_of_arrivalOf (entryOf_eq_some.mp he).1⟩)
  rw [hs.fragments]
  exact List.mem_map_of_mem ha

/-- A scan that links a packet has the key of its fragment and files it. -/
theorem entry_of_mem {p : PacketRow} (hp : p ∈ s.packets) {row : ScanRow}
    (hr : row ∈ linkedScans s p) :
    ∃ a, entryOf p = some (a, linkStatus row) ∧ row.hasKey a.key := by
  obtain ⟨hr, source, hsource, hid⟩ := mem_linkedScans.mp hr
  obtain ⟨t, hs, hfiled⟩ := exists_shows_filed h hr
  obtain ⟨a, ha, he⟩ := entry_of_linked h hs hfiled hp hsource hid
  exact ⟨a, he, (hs.hasKey_iff ha).mpr rfl⟩

/-- A key has one row of each kind. -/
theorem length_rows_le (key : ProfileKey) : (s.completeRows key).length ≤ 1 ∧
    ((s.rows key).filter fun row => !row.transportComplete).length ≤ 1 := by
  have hlen : ∀ t : Option ScanTally, t.toList.length ≤ 1 := by
    intro t
    cases t <;> simp
  rw [(h.books key).completeRows.length_eq, (h.books key).incompleteRows.length_eq]
  exact ⟨hlen _, hlen _⟩

theorem length_linkedScans {p : PacketRow} (hp : p ∈ s.packets) : (linkedScans s p).length ≤ 1 := by
  cases hl : linkedScans s p with
  | nil => exact Nat.zero_le 1
  | cons first rest =>
      rw [← hl]
      obtain ⟨a, he, -⟩ := entry_of_mem h hp (hl ▸ List.mem_cons_self : first ∈ linkedScans s p)
      -- all of them have the key of the fragment and the completeness of the first
      have hall : ∀ row ∈ linkedScans s p,
          row.hasKey a.key ∧ row.transportComplete = first.transportComplete := by
        intro row hr
        obtain ⟨b, heb, hkey⟩ := entry_of_mem h hp hr
        obtain ⟨rfl, hstatus⟩ := Prod.mk.inj (Option.some.inj (he.symm.trans heb))
        refine ⟨hkey, ?_⟩
        rw [linkStatus, linkStatus] at hstatus
        cases hc : first.transportComplete <;> cases hc' : row.transportComplete <;> simp_all
      have hsub : ∀ keep : ScanRow → Bool, (∀ row ∈ linkedScans s p, keep row) →
          (linkedScans s p).Sublist (s.scans.filter keep) := by
        intro keep hkeep
        rw [← List.filter_eq_self.mpr hkeep]
        exact List.filter_sublist.filter keep
      obtain ⟨hcomplete, hincomplete⟩ := length_rows_le h a.key
      rw [TelemetryStore.completeRows, TelemetryStore.rows, List.filter_filter] at hcomplete
      rw [TelemetryStore.rows, List.filter_filter] at hincomplete
      cases hc : first.transportComplete with
      | true =>
          refine le_trans (hsub _ fun row hr => ?_).length_le hcomplete
          rw [(hall row hr).1, (hall row hr).2, hc]
          rfl
      | false =>
          refine le_trans (hsub _ fun row hr => ?_).length_le hincomplete
          rw [(hall row hr).1, (hall row hr).2, hc]
          rfl

theorem consistent_of_holds : Consistent s where
  once p hp := length_linkedScans h hp
  filed p hp row hr := by
    obtain ⟨a, he, -⟩ := entry_of_mem h hp hr
    exact (hasStatus_iff (h.orderly.filed p hp)).mpr ⟨a, he⟩
  unlinked p hp status hstatus hfiled := by
    refine List.eq_nil_iff_forall_not_mem.mpr fun row hr => ?_
    obtain ⟨a, he, -⟩ := entry_of_mem h hp hr
    obtain ⟨b, he'⟩ := (hasStatus_iff (h.orderly.filed p hp)).mp hfiled
    -- a linked packet is filed as assembled or incomplete
    have heq : linkStatus row = status := (Prod.mk.inj (Option.some.inj (he.symm.trans he'))).2
    rw [linkStatus] at heq
    rcases hstatus with rfl | rfl | rfl <;> split at heq <;> cases heq
  linked p hp status hstatus hfiled := linked_of_status h hp hstatus hfiled
  archived row hr source hsource := by
    obtain ⟨t, hs, hfiled⟩ := exists_shows_filed h hr
    rw [hs.fragments] at hsource
    obtain ⟨a, ha, rfl⟩ := List.mem_map.mp hsource
    obtain ⟨p, hp, he⟩ := hfiled a ha
    have harrival := (entryOf_eq_some.mp he).1
    refine ⟨p, hp, (packetId_of_arrivalOf harrival).symm, a.fragment, ?_, ?_⟩
    · exact fragmentOf_eq_some.mpr (isFrame_of_arrivalOf harrival)
    · exact (proper_of_arrivalOf harrival).source.symm
  bitmap row hr i := by
    obtain ⟨t, hs, -⟩ := exists_shows_filed h hr
    rw [hs.fragments]
    obtain ⟨m, hscan, hrow⟩ := hs
    rw [hrow]
    refine (hscan.has_received i).trans ⟨?_, ?_⟩
    · rintro ⟨a, ha, rfl⟩
      refine ⟨a.source, List.mem_map_of_mem ha, ?_⟩
      rw [(hscan.proper a ha).source]
      rfl
    · rintro ⟨source, hsource, rfl⟩
      obtain ⟨a, ha, rfl⟩ := List.mem_map.mp hsource
      refine ⟨a, ha, ?_⟩
      rw [(hscan.proper a ha).source]
      rfl
  steps row hr := by
    obtain ⟨t, hs, hfiled⟩ := exists_shows_filed h hr
    -- the linked payloads are those of the accepted fragments
    rw [flatMap_decodedSteps]
    refine List.Perm.trans ?_ ((perm_linkedPackets h hs hfiled).flatMap_right _).symm
    obtain ⟨m, hscan, hrow⟩ := hs
    rw [hrow]
    exact hscan.perm_steps
  single key := length_rows_le h key

end

/-- **Packets, links and rows agree.**  In every state that the database has between two commits. -/
theorem consistent {n : Node} (h : Reach n) : Consistent n.store := by
  obtain ⟨A, hh⟩ := h.accounted.disk
  exact consistent_of_holds hh

/-- A blank fragment and its duplicate. -/
theorem consistent_blank :
    let w := (booted.after (blankPacket 4 0)).after (blankPacket 4 0)
    w.store.scans.map (·.scan.receivedFragmentBitmap) = [1] ∧ Consistent w.store := by
  exact ⟨by decide +kernel, consistent Running.repeated.reach⟩

end Vesta.Listen
