import Vesta.Store.Merge

/-!
# Store — Quarantine

When the stored bytes of a source of an incomplete scan no longer make sense, the packet is given
up and the incomplete rows of the key are dismantled.  The statements that do so find the packets
of the key in three ways: the sources of the rows by their links, the duplicates and conflicts by
the columns of their decodes, and either by decoding the bytes.  On a store whose statuses agree
with its links they come to one pass over the packets (`dismantled`), in which each packet of the
key has one outcome.
-/

namespace Vesta.Store

open Outcome (failIf)
open Receiver (ProfileKey SourceFragment)

namespace TelemetryStore

/-- The statuses agree with the links: the packets of an incomplete row, and no others, are
incomplete, and every packet that a row has is a fragment. -/
structure Consistent (s : TelemetryStore) : Prop extends Schema s where
  fragments : ∀ row ∈ s.scans, ∀ p ∈ s.packets, p.id ∈ row.fragments.map (·.packetId) → p.isFragment
  incomplete : ∀ p ∈ s.packets, p.hasStatus .incomplete ↔
    ∃ row ∈ s.scans, row.transportComplete = false ∧ p.id ∈ row.fragments.map (·.packetId)

/-- The packet is linked to an incomplete row of the key. -/
def isLinkedTo (s : TelemetryStore) (key : ProfileKey) (p : PacketRow) : Bool :=
  (s.rows key).any fun row => !row.transportComplete && p.id ∈ row.fragments.map (·.packetId)

/-- The packet was counted as a duplicate or a conflict of the key, and its bytes are a fragment of
the key. -/
def isEventOf (key : ProfileKey) (p : PacketRow) : Bool :=
  (p.hasStatus .duplicate ∨ p.hasStatus .conflict) ∧
    (p.decoded.any fun d =>
      d.nodeId = key.nodeId ∧ d.bootId = key.bootId ∧ d.scanSequence = key.scanSequence ∧
        d.uptimeMs = key.uptimeMs ∧ d.configId = key.configId) ∧
    isFragmentOf key p.payload

/-- What becomes of a packet that is replayed. -/
def replayed (key : ProfileKey) (p : PacketRow) : PacketRow :=
  if isFragmentOf key p.payload then p.withStatus .pending else p.quarantined .sameKeyReplay

/-- What becomes of a packet when `packetId` is given up. -/
def dismantled (s : TelemetryStore) (key : ProfileKey) (packetId : Int) (error : DecodeErrorText)
    (p : PacketRow) : PacketRow :=
  if p.id = packetId then p.quarantined error
  else if s.isLinkedTo key p then replayed key p
  else if (s.completeRows key).isEmpty ∧ isEventOf key p then p.withStatus .pending
  else p

section
variable {s : TelemetryStore} {key : ProfileKey} {packetId : Int} {p : PacketRow}

theorem isLinkedTo_iff : s.isLinkedTo key p ↔
    ∃ row ∈ s.scans, row.transportComplete = false ∧ row.hasKey key ∧
      p.id ∈ row.fragments.map (·.packetId) := by
  rw [isLinkedTo, List.any_eq_true]
  constructor
  · rintro ⟨row, hrow, h⟩
    obtain ⟨hrow, hkey⟩ := List.mem_filter.mp hrow
    rw [Bool.and_eq_true, Bool.not_eq_true', decide_eq_true_eq] at h
    exact ⟨row, hrow, h.1, hkey, h.2⟩
  · rintro ⟨row, hrow, hopen, hkey, hid⟩
    refine ⟨row, List.mem_filter.mpr ⟨hrow, hkey⟩, ?_⟩
    rw [Bool.and_eq_true, Bool.not_eq_true', decide_eq_true_eq]
    exact ⟨hopen, hid⟩

/-- The sources of the incomplete rows of the key, by their links. -/
theorem mem_links_iff : p.id ∈ (((s.rows key).filter fun row => ¬ row.transportComplete).flatMap
      (·.fragments)).map (·.packetId) ↔ s.isLinkedTo key p := by
  rw [isLinkedTo_iff, List.mem_map]
  constructor
  · rintro ⟨source, hsource, hid⟩
    obtain ⟨row, hrow, hsource⟩ := List.mem_flatMap.mp hsource
    obtain ⟨hrow, hopen⟩ := List.mem_filter.mp hrow
    obtain ⟨hrow, hkey⟩ := List.mem_filter.mp hrow
    exact ⟨row, hrow, by simpa using hopen, hkey, List.mem_map.mpr ⟨source, hsource, hid⟩⟩
  · rintro ⟨row, hrow, hopen, hkey, hid⟩
    obtain ⟨source, hsource, hid⟩ := List.mem_map.mp hid
    refine ⟨source, List.mem_flatMap.mpr ⟨row, List.mem_filter.mpr ⟨?_, by simpa using hopen⟩,
      hsource⟩, hid⟩
    exact List.mem_filter.mpr ⟨hrow, hkey⟩

theorem Consistent.hasStatus_of_linked (h : Consistent s) (hp : p ∈ s.packets)
    (hl : s.isLinkedTo key p) : p.hasStatus .incomplete := by
  obtain ⟨row, hrow, hopen, -, hid⟩ := isLinkedTo_iff.mp hl
  exact (h.incomplete p hp).mpr ⟨row, hrow, hopen, hid⟩

/-- A packet has one status. -/
theorem hasStatus_unique {status status' : FragmentStorageStatus} (h : p.hasStatus status)
    (h' : p.hasStatus status') : status = status' := by
  obtain ⟨d, hd, h⟩ := (Option.any_eq_true _ _).mp h
  obtain ⟨d', hd', h'⟩ := (Option.any_eq_true _ _).mp h'
  obtain rfl := Option.some.inj (hd.symm.trans hd')
  have he := (of_decide_eq_true h).2.symm.trans (of_decide_eq_true h').2
  exact ReassemblyStatus.fragment.inj he

/-- The packets that are replayed: those linked to an incomplete row of the key and, when no
complete row owns them, the events of the key. -/
theorem Consistent.mem_replayCandidates (h : Consistent s) (hp : p ∈ s.packets) :
    p ∈ s.replayCandidates key packetId ↔ p.id ≠ packetId ∧
      (s.isLinkedTo key p ∨ ((s.completeRows key).isEmpty ∧ isEventOf key p)) := by
  -- the status of a linked packet is one of those that are replayed
  have hsource : (p.id ≠ packetId ∧ p.id ∈ (((s.rows key).filter fun row =>
      ¬ row.transportComplete).flatMap (·.fragments)).map (·.packetId) ∧
      (p.hasStatus .pending ∨ p.hasStatus .incomplete ∨ p.hasStatus .duplicate ∨
        p.hasStatus .conflict)) ↔ p.id ≠ packetId ∧ s.isLinkedTo key p := by
    rw [mem_links_iff]
    refine and_congr_right fun _ => ⟨fun hl => hl.1, fun hl => ⟨hl, ?_⟩⟩
    exact .inr (.inl (h.hasStatus_of_linked hp hl))
  rw [replayCandidates]
  split
  · next hnone =>
      rw [List.mem_filter, decide_eq_true_eq, List.mem_filter, decide_eq_true_eq, hsource]
      simp only [hp, true_and, hnone, isEventOf, decide_eq_true_eq]
      tauto
  · next hsome =>
      rw [List.mem_filter, decide_eq_true_eq, hsource]
      simp only [hp, true_and, hsome, Bool.false_eq_true, false_and, or_false]

/-- A candidate is a packet of the store. -/
theorem mem_packets_of_mem_replayCandidates (hp : p ∈ s.replayCandidates key packetId) :
    p ∈ s.packets := by
  rw [replayCandidates] at hp
  split at hp
  · exact (List.mem_filter.mp hp).1
  · exact (List.mem_filter.mp hp).1

theorem Keyed.nodup_replayCandidates (h : Keyed s) :
    ((s.replayCandidates key packetId).map (·.id)).Nodup := by
  rw [replayCandidates]
  split
  · exact (List.filter_sublist.map _).nodup h.packets
  · exact (List.filter_sublist.map _).nodup h.packets

/-- The candidate with the id of a packet is the packet. -/
theorem Keyed.find_replayCandidates (h : Keyed s) (hp : p ∈ s.packets) :
    (s.replayCandidates key packetId).find? (fun c => c.id = p.id) =
      if p ∈ s.replayCandidates key packetId then some p else none := by
  split
  · next hc =>
      cases hf : (s.replayCandidates key packetId).find? fun c => c.id = p.id with
      | none => exact absurd (decide_eq_true rfl) (List.find?_eq_none.mp hf p hc)
      | some c =>
          have hid : c.id = p.id := by simpa using List.find?_some hf
          have hmem := mem_packets_of_mem_replayCandidates (List.mem_of_find?_eq_some hf)
          rw [h.eq_of_id hmem hp hid]
  · next hc =>
      refine List.find?_eq_none.mpr fun c hmem hid => hc ?_
      rwa [← h.eq_of_id (mem_packets_of_mem_replayCandidates hmem) hp (of_decide_eq_true hid)]

/-- The statements on the candidates are one pass over the packets. -/
theorem Keyed.foldl_replayCandidates (h : Keyed s) :
    (s.replayCandidates key packetId).foldl (fun s candidate =>
        if isFragmentOf key candidate.payload then s.setStatus candidate.id .pending
        else s.updatePacket candidate.id (·.quarantined .sameKeyReplay)) s =
      { s with packets := s.packets.map fun p =>
          if p ∈ s.replayCandidates key packetId then replayed key p else p } := by
  have hstep : (fun (s : TelemetryStore) (candidate : PacketRow) =>
      if isFragmentOf key candidate.payload then s.setStatus candidate.id .pending
      else s.updatePacket candidate.id (·.quarantined .sameKeyReplay)) =
      fun s candidate => s.updatePacket candidate.id fun p =>
        if isFragmentOf key candidate.payload then p.withStatus .pending
        else p.quarantined .sameKeyReplay := by
    funext s candidate
    split
    · rfl
    · rfl
  have hid : ∀ c p : PacketRow, (if isFragmentOf key c.payload then p.withStatus .pending
      else p.quarantined .sameKeyReplay).id = p.id := by
    intro c p
    split
    · rfl
    · rfl
  rw [hstep, foldl_updatePacket hid h.nodup_replayCandidates]
  congr 1
  refine List.map_congr_left fun p hp => ?_
  rw [h.find_replayCandidates hp]
  by_cases hc : p ∈ s.replayCandidates key packetId
  · rw [if_pos hc, if_pos hc]
    rfl
  · rw [if_neg hc, if_neg hc]

theorem replayed_id (p : PacketRow) : (replayed key p).id = p.id := by
  unfold replayed
  split
  · rfl
  · rfl

/-- **Quarantine is one pass.**  What it leaves when it succeeds. -/
theorem Consistent.quarantine_eq (h : Consistent s) {scanId : Int} {error : DecodeErrorText}
    {s' : TelemetryStore}
    (hok : s.quarantineIncompleteProfileFragment scanId key packetId error = .ok s') :
    (∃ row ∈ s.scans, row.id = scanId ∧ row.transportComplete = false ∧
        packetId ∈ row.fragments.map (·.packetId)) ∧
      s' = { s with
        packets := s.packets.map (s.dismantled key packetId error)
        scans := s.scans.filter fun row => !(!row.transportComplete && row.hasKey key) } := by
  rw [quarantineIncompleteProfileFragment] at hok
  dsimp only at hok
  rw [h.foldl_replayCandidates] at hok
  simp only [Outcome.unit_bind_eq_ok, Outcome.failIf_eq_ok, not_not, Outcome.pure_eq_ok,
    Except.ok.injEq] at hok
  obtain ⟨hlinked, -, -, rfl⟩ := hok
  constructor
  · obtain ⟨source, hsource⟩ := List.length_eq_one_iff.mp hlinked
    have hmem : source ∈ (s.scans.filter fun row =>
        row.id = scanId ∧ ¬ row.transportComplete).flatMap
        fun row => row.fragments.filter fun source => source.packetId = packetId := by
      rw [hsource]
      exact List.mem_singleton_self source
    obtain ⟨row, hrow, hmem⟩ := List.mem_flatMap.mp hmem
    obtain ⟨hrow, hopen⟩ := List.mem_filter.mp hrow
    obtain ⟨hmem, hid⟩ := List.mem_filter.mp hmem
    obtain ⟨hscan, hopen⟩ := of_decide_eq_true hopen
    exact ⟨row, hrow, hscan, by simpa using hopen,
      List.mem_map.mpr ⟨source, hmem, of_decide_eq_true hid⟩⟩
  · rw [deleteIncomplete, updatePacket]
    dsimp only
    rw [List.map_map]
    congr 1
    refine List.map_congr_left fun p hp => ?_
    have hcandidate : p ∈ s.replayCandidates key packetId ↔ _ := h.mem_replayCandidates hp
    simp only [Function.comp_apply]
    by_cases hid : p.id = packetId
    · -- the packet that is given up is not replayed
      have hno : p ∉ s.replayCandidates key packetId := fun hc => (hcandidate.mp hc).1 hid
      rw [if_neg hno, if_pos hid, dismantled, if_pos hid]
    · by_cases hc : p ∈ s.replayCandidates key packetId
      · rw [if_pos hc, if_neg (by rwa [replayed_id]), dismantled, if_neg hid]
        split
        · rfl
        · next hl =>
            -- an event is replayed for its bytes
            have hevent := ((hcandidate.mp hc).2.resolve_left hl)
            have hbytes : isFragmentOf key p.payload := (of_decide_eq_true hevent.2).2.2
            rw [if_pos hevent, replayed, if_pos hbytes]
      · have hno := fun hl => hc (hcandidate.mpr ⟨hid, hl⟩)
        rw [if_neg hc, if_neg hid, dismantled, if_neg hid, if_neg fun hl => hno (.inl hl),
          if_neg fun he => hno (.inr he)]

theorem dismantled_id (error : DecodeErrorText) (p : PacketRow) :
    (s.dismantled key packetId error p).id = p.id := by
  unfold dismantled
  split
  · rfl
  · split
    · exact replayed_id p
    · split
      · rfl
      · rfl

/-- Setting the status of a fragment gives it the status. -/
theorem hasStatus_withStatus (hp : p.isFragment) (status : FragmentStorageStatus) :
    (p.withStatus status).hasStatus status := by
  obtain ⟨d, hd, hkind⟩ := (Option.any_eq_true _ _).mp hp
  rw [PacketRow.hasStatus, PacketRow.withStatus, hd]
  exact decide_eq_true ⟨of_decide_eq_true hkind, rfl⟩

theorem isFragment_of_hasStatus {status : FragmentStorageStatus} (hp : p.hasStatus status) :
    p.isFragment := by
  obtain ⟨d, hd, h⟩ := (Option.any_eq_true _ _).mp hp
  exact (Option.any_eq_true _ _).mpr ⟨d, hd, decide_eq_true (of_decide_eq_true h).1⟩

/-- An event of the key is not linked to an incomplete row. -/
theorem Consistent.not_linked_of_event (h : Consistent s) (hp : p ∈ s.packets)
    (he : isEventOf key p) {key' : ProfileKey} : ¬ s.isLinkedTo key' p := by
  intro hl
  have hstatus := h.hasStatus_of_linked hp hl
  rcases (of_decide_eq_true he).1 with hd | hd
  · exact absurd (hasStatus_unique hstatus hd) nofun
  · exact absurd (hasStatus_unique hstatus hd) nofun

/-- A packet has one link. -/
theorem Schema.row_of_link (h : Schema s) {r r' : ScanRow} (hr : r ∈ s.scans) (hr' : r' ∈ s.scans)
    {id : Int} (hid : id ∈ r.fragments.map (·.packetId))
    (hid' : id ∈ r'.fragments.map (·.packetId)) : r = r' := by
  by_contra hne
  have hlinks := h.links
  rw [List.map_flatMap] at hlinks
  have hdisjoint := (List.nodup_flatMap.mp hlinks).2
  have hsym : Std.Symm (Function.onFun List.Disjoint
      fun row : ScanRow => row.fragments.map (·.packetId)) := ⟨fun _ _ hd => hd.symm⟩
  exact hdisjoint.forall hr hr' hne hid hid'

end

section
variable {s s' : TelemetryStore} {key : ProfileKey} {scanId packetId : Int}
  {error : DecodeErrorText}

/-- **Quarantine dismantles a key and keeps its packets.**  When a source of an incomplete scan is
given up, on a store whose statuses agree with its links, and under the key of its row: no
incomplete row of the key is left; the packet is invalid with its bytes and without a decode; each
other source of an incomplete row of the key is unlinked, and pending again if its bytes are a
fragment of the key, invalid without a decode if not; the duplicates and conflicts of the key are
pending again if no complete row has counted them, and keep their status if one has; and every
other packet, row and record is as it was. -/
theorem quarantine_dismantles (hs : s.Consistent)
    (hkey : ∀ row ∈ s.scans, row.id = scanId → row.hasKey key)
    (hok : s.quarantineIncompleteProfileFragment scanId key packetId error = .ok s') :
    (∀ row ∈ s'.rows key, row.transportComplete) ∧
    (∃ p ∈ s.packets, p.id = packetId ∧ ∃ p' ∈ s'.packets, p'.id = packetId ∧
      p'.payload = p.payload ∧ p'.disposition = .invalid ∧ p'.decodeError = some error ∧
      p'.decoded = none ∧ ∀ row ∈ s'.scans, packetId ∉ row.fragments.map (·.packetId)) ∧
    (∀ p ∈ s.packets, p.id ≠ packetId → s.isLinkedTo key p →
      (∀ row ∈ s'.scans, p.id ∉ row.fragments.map (·.packetId)) ∧
      ∃ p' ∈ s'.packets, p'.id = p.id ∧ p'.payload = p.payload ∧
        (isFragmentOf key p.payload → p'.hasStatus .pending) ∧
        (¬ isFragmentOf key p.payload → p'.disposition = .invalid ∧ p'.decoded = none)) ∧
    (∀ p ∈ s.packets, p.id ≠ packetId → isEventOf key p →
      if (s.completeRows key).isEmpty then
        p.withStatus .pending ∈ s'.packets ∧ (p.withStatus .pending).hasStatus .pending
      else p ∈ s'.packets) ∧
    (∀ p ∈ s.packets, p.id ≠ packetId → ¬ s.isLinkedTo key p → ¬ isEventOf key p →
      p ∈ s'.packets) ∧
    s'.packets.map (·.id) = s.packets.map (·.id) ∧
    s'.scans = s.scans.filter (fun row => row.transportComplete ∨ ¬ row.hasKey key) ∧
    s'.readings = s.readings ∧ s'.configurations = s.configurations ∧ s'.health = s.health := by
  obtain ⟨⟨row, hrow, hscan, hopen, hlink⟩, rfl⟩ := hs.quarantine_eq hok
  have hmem (p : PacketRow) (hp : p ∈ s.packets) : s.dismantled key packetId error p ∈
      s.packets.map (s.dismantled key packetId error) := List.mem_map_of_mem hp
  -- a packet of an incomplete row of the key has no other row
  have hunlinked : ∀ id, (∃ r ∈ s.scans, r.transportComplete = false ∧ r.hasKey key ∧
      id ∈ r.fragments.map (·.packetId)) →
      ∀ r' ∈ s.scans.filter (fun row => !(!row.transportComplete && row.hasKey key)),
        id ∉ r'.fragments.map (·.packetId) := by
    rintro id ⟨r, hr, hopen, hkey, hid⟩ r' hr' hid'
    obtain ⟨hr', hkept⟩ := List.mem_filter.mp hr'
    obtain rfl := hs.row_of_link hr hr' hid hid'
    simp [hopen, hkey] at hkept
  refine ⟨fun r hr => ?_, ?_, fun p hp hid hl => ⟨?_, ?_⟩, fun p hp hid he => ?_,
    fun p hp hid hl he => ?_, ?_, ?_, rfl, rfl, rfl⟩
  · obtain ⟨hr, hk⟩ := List.mem_filter.mp hr
    have hkept := (List.mem_filter.mp hr).2
    simpa [hk] using hkept
  · obtain ⟨source, hsource, hid⟩ := List.mem_map.mp hlink
    obtain ⟨p, hp, hpid⟩ := List.mem_map.mp (hs.sources row hrow source hsource)
    have hpoison : s.dismantled key packetId error p = p.quarantined error :=
      if_pos (hpid.trans hid)
    refine ⟨p, hp, hpid.trans hid, p.quarantined error, hpoison ▸ hmem p hp, hpid.trans hid, rfl,
      rfl, rfl, rfl, ?_⟩
    exact hunlinked packetId ⟨row, hrow, hopen, hkey row hrow hscan, hlink⟩
  · exact hunlinked p.id (isLinkedTo_iff.mp hl)
  · have hreplayed : s.dismantled key packetId error p = replayed key p := by
      rw [dismantled, if_neg hid, if_pos hl]
    refine ⟨replayed key p, hreplayed ▸ hmem p hp, replayed_id p, ?_, fun hbytes => ?_,
      fun hbytes => ?_⟩
    · unfold replayed
      split
      · rfl
      · rfl
    · rw [replayed, if_pos hbytes]
      exact hasStatus_withStatus (isFragment_of_hasStatus (hs.hasStatus_of_linked hp hl)) _
    · rw [replayed, if_neg hbytes]
      exact ⟨rfl, rfl⟩
  · have hl : ¬ s.isLinkedTo key p := hs.not_linked_of_event hp he
    have hfragment : p.isFragment := (of_decide_eq_true he).1.elim isFragment_of_hasStatus
      isFragment_of_hasStatus
    split
    · next hnone =>
        have hevent : s.dismantled key packetId error p = p.withStatus .pending := by
          rw [dismantled, if_neg hid, if_neg hl, if_pos ⟨hnone, he⟩]
        exact ⟨hevent ▸ hmem p hp, hasStatus_withStatus hfragment _⟩
    · next hsome =>
        have hkept : s.dismantled key packetId error p = p := by
          rw [dismantled, if_neg hid, if_neg hl, if_neg fun hc => hsome hc.1]
        exact hkept.symm ▸ hmem p hp
  · have hkept : s.dismantled key packetId error p = p := by
      rw [dismantled, if_neg hid, if_neg hl, if_neg fun hc => he hc.2]
    exact hkept.symm ▸ hmem p hp
  · exact map_id_packets (dismantled_id error) s.packets
  · refine List.filter_congr fun r _ => ?_
    cases r.transportComplete <;> cases r.hasKey key <;> rfl

end

/-- An incomplete scan of two sources, neither of which is a fragment any more. -/
def poisonedStore : TelemetryStore :=
  let packet (id : Int) (payload : List UInt8) : PacketRow :=
    ⟨id, 0, ⟨0, 0, 0⟩, some 2, some 2, .protocolV2, none, payload,
      some ⟨2, .profileFragment, .fragment .incomplete, 1, 1, 1, 0, 1, 0, 2⟩⟩
  { TelemetryStore.fresh with
    packets := [packet 1 [1], packet 2 [2]]
    scans := [⟨1, 0, 0, emptyScan, 2, false, emptyScan,
      [⟨1, 0, 0, ⟨0, 0, 0⟩⟩, ⟨2, 1, 0, ⟨0, 0, 0⟩⟩]⟩] }

theorem quarantine_dismantles_poisoned :
    ∃ s', poisonedStore.quarantineIncompleteProfileFragment 1 (.ofIdentity emptyScan.identity) 1
        (.text "poison") = .ok s' ∧
      (∀ row ∈ s'.rows (.ofIdentity emptyScan.identity), row.transportComplete) ∧
      s'.packets.map (·.id) = [1, 2] := by
  have hconsistent : poisonedStore.Consistent :=
    ⟨⟨⟨by decide, by decide⟩, by decide, by decide, by decide⟩, by decide, by decide⟩
  have hrow : ∀ row ∈ poisonedStore.scans, row.id = 1 →
      row.hasKey (.ofIdentity emptyScan.identity) := by decide
  obtain ⟨s', hok⟩ : ∃ s', poisonedStore.quarantineIncompleteProfileFragment 1
      (.ofIdentity emptyScan.identity) 1 (.text "poison") = .ok s' := ⟨_, rfl⟩
  obtain ⟨hrows, -, -, -, -, hids, -⟩ := quarantine_dismantles hconsistent hrow hok
  exact ⟨s', hok, hrows, hids⟩

end TelemetryStore

end Vesta.Store
