import Vesta.Store.Schema

/-!
# Store — Merge

A start of the receiver merges each incomplete scan whose key has a complete one into the complete
rows of the key.  One pass over its sources compares each with what the complete rows hold at its
index, and what has been merged so far is a pass over the tables (`merged`): the packets merged
carry their classification, and the complete rows of the key the counts of the incomplete row and
of the classifications.
-/

namespace Vesta.Store

open Outcome (failIf)
open Receiver (ProfileKey SourceFragment)

/-! ### Counting -/

/-- The counts of a match. -/
def PersistedFragmentMatch.counts : PersistedFragmentMatch → Nat × Nat
  | duplicate => (1, 0)
  | conflict => (0, 1)

/-- One more match after some counts have been added. -/
theorem ScanRow.countMatch_addCounts (row : ScanRow) (duplicates conflicts : Nat)
    (c : PersistedFragmentMatch) :
    (row.addCounts duplicates conflicts).countMatch c =
      row.addCounts (duplicates + c.counts.1) (conflicts + c.counts.2) := by
  have hsat (x n : Nat) : min (min (x + n) 65535 + 1) 65535 = min (x + (n + 1)) 65535 := by omega
  cases c with
  | duplicate => simp only [addCounts, countMatch, hsat, PersistedFragmentMatch.counts,
    Nat.add_zero]
  | conflict => simp only [addCounts, countMatch, hsat, PersistedFragmentMatch.counts, Nat.add_zero]

/-- How many sources were classified as `c`. -/
def countOf (c : PersistedFragmentMatch) (cs : List PersistedFragmentClassification) : Nat :=
  cs.countP fun d => d.classification = c

theorem countOf_snoc (cs : List PersistedFragmentClassification)
    (d : PersistedFragmentClassification) :
    countOf .duplicate (cs ++ [d]) = countOf .duplicate cs + d.classification.counts.1 ∧
      countOf .conflict (cs ++ [d]) = countOf .conflict cs + d.classification.counts.2 := by
  obtain ⟨_, _, c⟩ := d
  cases c <;> simp [countOf, PersistedFragmentMatch.counts]

namespace TelemetryStore

/-! ### What has been merged -/

/-- The payloads that the complete rows of a key hold at an index. -/
def completedAt (s : TelemetryStore) (key : ProfileKey) (index : UInt8) : List (List UInt8) :=
  (s.completeRows key).flatMap fun row =>
    (row.sourcesAt index).filterMap fun source => s.payloadOf source.packetId

/-- The packet under the classification it was given, if any. -/
def marked (cs : List PersistedFragmentClassification) (p : PacketRow) : PacketRow :=
  match cs.find? fun c => c.packetId = p.id with
  | some c => p.withStatus c.classification.storageStatus
  | none => p

/-- The complete rows of the key with the counts added. -/
def credited (key : ProfileKey) (duplicates conflicts : Nat) (row : ScanRow) : ScanRow :=
  if row.transportComplete ∧ row.hasKey key then row.addCounts duplicates conflicts else row

/-- The store after some sources were classified. -/
def merged (s : TelemetryStore) (key : ProfileKey) (duplicates conflicts : Nat)
    (cs : List PersistedFragmentClassification) : TelemetryStore :=
  { s with
    packets := s.packets.map (marked cs)
    scans := s.scans.map (credited key (duplicates + countOf .duplicate cs)
      (conflicts + countOf .conflict cs)) }

section
variable {s : TelemetryStore} {key : ProfileKey} {duplicates conflicts : Nat}
  {cs : List PersistedFragmentClassification}

@[simp] theorem marked_id (p : PacketRow) : (marked cs p).id = p.id := by
  unfold marked
  split <;> rfl

@[simp] theorem marked_payload (p : PacketRow) : (marked cs p).payload = p.payload := by
  unfold marked
  split <;> rfl

@[simp] theorem marked_isFragment (p : PacketRow) : (marked cs p).isFragment = p.isFragment := by
  unfold marked
  split
  · simp only [PacketRow.isFragment, PacketRow.withStatus, Option.any_map]
  · rfl

@[simp] theorem credited_id (row : ScanRow) :
    (credited key duplicates conflicts row).id = row.id := by
  unfold credited
  split <;> rfl

@[simp] theorem credited_transportComplete (row : ScanRow) :
    (credited key duplicates conflicts row).transportComplete = row.transportComplete := by
  unfold credited
  split <;> rfl

@[simp] theorem credited_hasKey (row : ScanRow) (key' : ProfileKey) :
    (credited key duplicates conflicts row).hasKey key' = row.hasKey key' := by
  unfold credited
  split <;> rfl

@[simp] theorem credited_fragments (row : ScanRow) :
    (credited key duplicates conflicts row).fragments = row.fragments := by
  unfold credited
  split <;> rfl

theorem payloadOf_merged (id : Int) :
    (s.merged key duplicates conflicts cs).payloadOf id = s.payloadOf id :=
  payloadOf_map marked_id marked_payload id

theorem mem_completeRows {row : ScanRow} :
    row ∈ s.completeRows key ↔ row ∈ s.scans ∧ row.transportComplete ∧ row.hasKey key := by
  rw [completeRows, List.mem_filter, rows, List.mem_filter, and_assoc]
  exact and_congr_right fun _ => and_comm

theorem completeRows_merged :
    (s.merged key duplicates conflicts cs).completeRows key =
      (s.completeRows key).map fun row => row.addCounts (duplicates + countOf .duplicate cs)
        (conflicts + countOf .conflict cs) := by
  have hkey : (fun row : ScanRow => row.hasKey key) ∘ credited key
      (duplicates + countOf .duplicate cs) (conflicts + countOf .conflict cs) = (·.hasKey key) :=
    funext fun row => credited_hasKey row key
  have hcomplete : (fun row : ScanRow => row.transportComplete) ∘ credited key
      (duplicates + countOf .duplicate cs) (conflicts + countOf .conflict cs) =
      (·.transportComplete) :=
    funext fun row => credited_transportComplete row
  rw [completeRows, rows, merged, List.filter_map, List.filter_map, hkey, hcomplete]
  refine List.map_congr_left fun row hrow => ?_
  obtain ⟨hrow, hc⟩ := List.mem_filter.mp hrow
  exact if_pos ⟨hc, (List.mem_filter.mp hrow).2⟩

/-- Merging does not change what the next source is compared with. -/
theorem completedAt_merged (index : UInt8) :
    (s.merged key duplicates conflicts cs).completedAt key index = s.completedAt key index := by
  rw [completedAt, completeRows_merged, List.flatMap_map]
  refine List.flatMap_congr fun row _ => ?_
  refine List.filterMap_congr fun source _ => ?_
  exact payloadOf_merged source.packetId

/-- The ids of the complete rows of a key are those of no other row. -/
theorem Keyed.mem_completeIds (h : Keyed s) {row : ScanRow} (hrow : row ∈ s.scans) :
    row.id ∈ (s.completeRows key).map (·.id) ↔ row.transportComplete ∧ row.hasKey key := by
  rw [List.mem_map]
  constructor
  · rintro ⟨r, hr, he⟩
    obtain ⟨hr, hc⟩ := mem_completeRows.mp hr
    rwa [← h.eq_of_scanId hr hrow he]
  · intro hc
    exact ⟨row, mem_completeRows.mpr ⟨hrow, hc⟩, rfl⟩

theorem Keyed.nodup_completeIds (h : Keyed s) : ((s.completeRows key).map (·.id)).Nodup :=
  ((List.filter_sublist.trans List.filter_sublist).map _).nodup h.scans

/-- A statement on each complete row of the key. -/
theorem Keyed.foldl_completeRows (h : Keyed s) {f : ScanRow → ScanRow}
    (hf : ∀ row, (f row).id = row.id) :
    ((s.completeRows key).map (·.id)).foldl (fun s id => s.updateScan id f) s =
      { s with scans := s.scans.map fun row =>
          if row.transportComplete ∧ row.hasKey key then f row else row } := by
  rw [foldl_updateScan hf h.nodup_completeIds]
  congr 1
  refine List.map_congr_left fun row hrow => ?_
  rw [if_congr (h.mem_completeIds hrow) rfl rfl]

theorem Keyed.merged (h : Keyed s) : Keyed (s.merged key duplicates conflicts cs) where
  packets := by
    rw [TelemetryStore.merged, map_id_packets marked_id]
    exact h.packets
  scans := by
    rw [TelemetryStore.merged, map_id_scans credited_id]
    exact h.scans

/-- The counts of the incomplete row, before any of its sources. -/
theorem merged_nil (h : Keyed s) :
    ((s.completeRows key).map (·.id)).foldl
        (fun s id => s.updateScan id (·.addCounts duplicates conflicts)) s =
      s.merged key duplicates conflicts [] := by
  have hmarked : s.packets.map (marked []) = s.packets := List.map_id' _
  rw [h.foldl_completeRows (f := (·.addCounts duplicates conflicts)) fun _ => rfl,
    TelemetryStore.merged, hmarked]
  rfl

/-- A classification is the mark of a packet that had none. -/
theorem marked_snoc {p : PacketRow} {c : PersistedFragmentClassification}
    (hnew : c.packetId ∉ cs.map (·.packetId)) :
    marked (cs ++ [c]) p = if p.id = c.packetId then
      (marked cs p).withStatus c.classification.storageStatus else marked cs p := by
  have hfind : (cs ++ [c]).find? (fun d => d.packetId = p.id) =
      (cs.find? fun d => d.packetId = p.id).or (if c.packetId = p.id then some c else none) := by
    rw [List.find?_append, List.find?_singleton]
    simp only [decide_eq_true_eq]
  rw [marked, hfind]
  by_cases he : p.id = c.packetId
  · -- no earlier mark has this packet
    have hnone : (cs.find? fun d => d.packetId = p.id) = none := by
      refine List.find?_eq_none.mpr fun d hd hdp => hnew ?_
      exact List.mem_map.mpr ⟨d, hd, (of_decide_eq_true hdp).trans he⟩
    rw [marked, hnone, if_pos he, if_pos he.symm]
    rfl
  · rw [if_neg he, if_neg (Ne.symm he), Option.or_none]
    rfl

/-- One more source classified. -/
theorem merged_snoc (h : Keyed s) {c : PersistedFragmentClassification}
    (hnew : c.packetId ∉ cs.map (·.packetId)) :
    (((s.completeRows key).map (·.id)).foldl
        (fun s id => s.updateScan id (·.countMatch c.classification))
        (s.merged key duplicates conflicts cs)).setStatus c.packetId
          c.classification.storageStatus =
      s.merged key duplicates conflicts (cs ++ [c]) := by
  have hids : (s.completeRows key).map (·.id) =
      ((s.merged key duplicates conflicts cs).completeRows key).map (·.id) := by
    rw [completeRows_merged, List.map_map]
    rfl
  obtain ⟨hd, hc⟩ := countOf_snoc cs c
  rw [hids, h.merged.foldl_completeRows fun row => by cases c.classification <;> rfl, setStatus,
    updatePacket, TelemetryStore.merged, TelemetryStore.merged, hd, hc]
  dsimp only
  rw [List.map_map, List.map_map]
  congr 1
  · refine List.map_congr_left fun p _ => ?_
    rw [marked_snoc hnew]
    show (if (marked cs p).id = _ then _ else _) = _
    rw [marked_id]
  · refine List.map_congr_left fun row _ => ?_
    show (if (credited _ _ _ row).transportComplete ∧ (credited _ _ _ row).hasKey key then _
      else _) = _
    rw [credited_transportComplete, credited_hasKey, credited, credited]
    split
    · rw [ScanRow.countMatch_addCounts, Nat.add_assoc, Nat.add_assoc]
    · rfl

/-- How a source compares with the complete rows. -/
def classificationOf (s : TelemetryStore) (key : ProfileKey) (f : PendingProfileFragment) :
    PersistedFragmentClassification :=
  ⟨f.packetId, f.fragmentIndex, classify (s.completedAt key f.fragmentIndex) f.payload⟩

/-- One source of the incomplete row is classified. -/
theorem coalesceFragment_eq (h : Keyed s) {f : PendingProfileFragment}
    (hstored : s.completedAt key f.fragmentIndex ≠ []) (hnew : f.packetId ∉ cs.map (·.packetId))
    {p : PacketRow} (hp : p ∈ s.packets) (hid : p.id = f.packetId) (hfrag : p.isFragment) :
    coalesceFragment key ((s.completeRows key).map (·.id))
      (s.merged key duplicates conflicts cs) f =
      .ok (s.classificationOf key f,
        s.merged key duplicates conflicts (cs ++ [s.classificationOf key f])) := by
  have hpayloads : ((s.merged key duplicates conflicts cs).completeRows key).flatMap (fun row =>
      (row.sourcesAt f.fragmentIndex).filterMap fun source =>
        (s.merged key duplicates conflicts cs).payloadOf source.packetId) =
      s.completedAt key f.fragmentIndex := completedAt_merged f.fragmentIndex
  have hkeyed : Keyed (s.merged key duplicates conflicts cs) := h.merged
  have hone := hkeyed.filter_id (p := marked cs p) (List.mem_map_of_mem hp) (·.isFragment)
    ((marked_isFragment p).trans hfrag)
  rw [marked_id, hid] at hone
  rw [coalesceFragment, hpayloads, Outcome.failIf_neg (by simpa using hstored), Outcome.ok_bind]
  dsimp only
  rw [markFragmentStatus, packets_foldl_updateScan, hone, Outcome.failIf_neg (by simp)]
  exact congrArg (fun s' => Except.ok (s.classificationOf key f, s'))
    (merged_snoc h (c := s.classificationOf key f) hnew)

variable (duplicates conflicts cs) in
/-- The sources of the incomplete row are classified one after the other. -/
theorem coalesceFragments_eq (h : Keyed s) {fragments : List PendingProfileFragment}
    (hstored : ∀ f ∈ fragments, s.completedAt key f.fragmentIndex ≠ [])
    (hnew : (cs.map (·.packetId) ++ fragments.map (·.packetId)).Nodup)
    (hfrag : ∀ f ∈ fragments, ∃ p ∈ s.packets, p.id = f.packetId ∧ p.isFragment) :
    fragments.foldlM (fun (cs, s') f => do
        let (c, s') ← coalesceFragment key ((s.completeRows key).map (·.id)) s' f
        return (cs ++ [c], s')) (cs, s.merged key duplicates conflicts cs) =
      (.ok (cs ++ fragments.map (s.classificationOf key), s.merged key duplicates conflicts
        (cs ++ fragments.map (s.classificationOf key))) :
          Outcome StorageError (List PersistedFragmentClassification × TelemetryStore)) := by
  induction fragments generalizing cs with
  | nil =>
      rw [List.map_nil, List.append_nil]
      rfl
  | cons f fragments ih =>
      obtain ⟨hs, hstored⟩ := List.forall_mem_cons.mp hstored
      obtain ⟨⟨p, hp, hid, hf⟩, hfrag⟩ := List.forall_mem_cons.mp hfrag
      have hout : f.packetId ∉ cs.map (·.packetId) := by
        intro hmem
        exact (List.nodup_append.mp hnew).2.2 _ hmem _ List.mem_cons_self rfl
      rw [List.foldlM_cons]
      dsimp only
      rw [coalesceFragment_eq h hs hout hp hid hf]
      refine (ih _ hstored ?_ hfrag).trans ?_
      · simpa [classificationOf] using hnew
      · simp

end

/-! ### The transaction -/

section
variable {s : TelemetryStore} {p : PersistedIncompleteProfile}

/-- The row of the profile, which the merge deletes. -/
def isRowOf (p : PersistedIncompleteProfile) (row : ScanRow) : Bool :=
  row.id = p.scanId ∧ ¬ row.transportComplete

/-- What the merge leaves. -/
def coalesced (s : TelemetryStore) (p : PersistedIncompleteProfile) : TelemetryStore :=
  let cs := p.fragments.map (s.classificationOf p.key)
  { s with
    packets := s.packets.map (marked cs)
    scans := (s.scans.filter fun row => !isRowOf p row).map (credited p.key
      (p.duplicateFragmentCount + countOf .duplicate cs)
      (p.conflictingFragmentCount + countOf .conflict cs)) }

theorem coalesced_eq (s : TelemetryStore) (p : PersistedIncompleteProfile) :
    let merged := s.merged p.key p.duplicateFragmentCount p.conflictingFragmentCount
      (p.fragments.map (s.classificationOf p.key))
    ({ merged with scans := merged.scans.filter fun row => !isRowOf p row } : TelemetryStore) =
      s.coalesced p := by
  dsimp only
  rw [coalesced, merged]
  dsimp only
  rw [List.filter_map]
  congr 2
  refine List.filter_congr fun row _ => ?_
  simp [isRowOf]

theorem mem_scans_coalesced {row : ScanRow} :
    row ∈ (s.coalesced p).scans ↔ ∃ row₀ ∈ s.scans, isRowOf p row₀ = false ∧
      credited p.key
        (p.duplicateFragmentCount + countOf .duplicate (p.fragments.map (s.classificationOf p.key)))
        (p.conflictingFragmentCount + countOf .conflict
          (p.fragments.map (s.classificationOf p.key)))
        row₀ = row := by
  simp only [coalesced, List.mem_map, List.mem_filter, Bool.not_eq_true', and_assoc]

theorem coalesce_none (hnone : s.completeRows p.key = []) :
    s.coalesceIncompleteProfileIntoCompleted p = .ok (none, s) := by
  rw [coalesceIncompleteProfileIntoCompleted, hnone]
  rfl

theorem coalesce_some (h : Keyed s) (hsome : s.completeRows p.key ≠ [])
    (hstored : ∀ f ∈ p.fragments, s.completedAt p.key f.fragmentIndex ≠ [])
    (hnodup : (p.fragments.map (·.packetId)).Nodup)
    (hfrag : ∀ f ∈ p.fragments, ∃ q ∈ s.packets, q.id = f.packetId ∧ q.isFragment) :
    s.coalesceIncompleteProfileIntoCompleted p =
      .ok (some (p.fragments.map (s.classificationOf p.key)), s.coalesced p) := by
  have hids : ((s.completeRows p.key).map (·.id)).isEmpty = false := by simpa using hsome
  have hloop := coalesceFragments_eq p.duplicateFragmentCount p.conflictingFragmentCount [] h
    hstored hnodup hfrag
  rw [coalesceIncompleteProfileIntoCompleted, hids, merged_nil h]
  simp only [Bool.false_eq_true, if_false]
  refine (Outcome.bind_of_eq_ok hloop).trans ?_
  rw [List.nil_append]
  have hkeyed : Keyed (s.merged p.key p.duplicateFragmentCount p.conflictingFragmentCount
      (p.fragments.map (s.classificationOf p.key))) := h.merged
  have hone := hkeyed.length_filter_scanId_le p.scanId fun row => !row.transportComplete
  dsimp only
  rw [Outcome.failIf_neg (by simpa using hone)]
  refine congrArg (fun s' => Except.ok (some _, s')) ((coalesced_eq s p).symm.trans ?_).symm
  refine congrArg (fun scans => ({ s.merged _ _ _ _ with scans } : TelemetryStore)) ?_
  refine List.filter_congr fun row _ => ?_
  rw [isRowOf, decide_not]

/-! ### What a query returns -/

/-- The packets found for some sources are those of the sources. -/
theorem map_packetId_found (s : TelemetryStore) (sources : List SourceFragment) :
    ((sources.filterMap fun source => (s.packets.find? fun q => q.id = source.packetId).map fun q =>
        (⟨q.id, source.fragmentIndex, q.receivedAtUnixMs, q.radio, q.payload⟩ :
          PendingProfileFragment)).map (·.packetId)).Sublist (sources.map (·.packetId)) := by
  induction sources with
  | nil => exact .slnil
  | cons source sources ih =>
      rw [List.filterMap_cons]
      cases hq : s.packets.find? fun q => q.id = source.packetId with
      | none => exact ih.cons _
      | some q =>
          have hid : q.id = source.packetId := by simpa using List.find?_some hq
          rw [Option.map_some, List.map_cons, List.map_cons, hid]
          exact ih.cons_cons _

theorem mem_sourceFragments {row : ScanRow} {f : PendingProfileFragment}
    (hf : f ∈ s.sourceFragments row) :
    ∃ q ∈ s.packets, q.id = f.packetId ∧ q.payload = f.payload := by
  obtain ⟨source, -, hf⟩ := List.mem_filterMap.mp hf
  obtain ⟨q, hq, rfl⟩ := Option.map_eq_some_iff.mp hf
  exact ⟨q, List.mem_of_find?_eq_some hq, rfl, rfl⟩

/-- A returned profile is an incomplete row. -/
theorem exists_row_of_incompleteProfiles {limit : Nat} {profiles : List PersistedIncompleteProfile}
    (h : s.incompleteProfiles limit = .ok profiles) (hp : p ∈ profiles) :
    ∃ row ∈ s.scans, row.transportComplete = false ∧ row.id = p.scanId ∧ row.hasKey p.key ∧
      p.fragments = s.sourceFragments row := by
  rw [incompleteProfiles, incompleteProfilesMatching] at h
  simp only [Outcome.unit_bind_eq_ok, Outcome.pure_eq_ok, Except.ok.injEq] at h
  obtain ⟨-, -, rfl⟩ := h
  obtain ⟨hp, -⟩ := List.mem_filter.mp hp
  obtain ⟨row, hrow, rfl⟩ := List.mem_map.mp hp
  obtain ⟨hrow, hc⟩ := List.mem_filter.mp hrow
  exact ⟨row, hrow, by simpa using hc, rfl, decide_eq_true rfl, rfl⟩

theorem Schema.nodup_sources (h : Schema s) {row : ScanRow} (hrow : row ∈ s.scans) :
    ((s.sourceFragments row).map (·.packetId)).Nodup := by
  have hlinks := h.links
  rw [List.map_flatMap] at hlinks
  refine (map_packetId_found s _).nodup ?_
  refine (((List.perm_insertionSort _ row.fragments).map _).nodup_iff).mpr ?_
  exact (List.nodup_flatMap.mp hlinks).1 row hrow

/-- A source is classified as a duplicate when every complete row holds its bytes at its index. -/
theorem Schema.classify_eq_duplicate (h : Schema s) {key : ProfileKey} {index : UInt8}
    {payload : List UInt8} :
    classify (s.completedAt key index) payload = .duplicate ↔
      ∀ row ∈ s.completeRows key, ∀ source ∈ row.sourcesAt index,
        s.payloadOf source.packetId = some payload := by
  have hall : (s.completedAt key index).all (· = payload) ↔
      ∀ row ∈ s.completeRows key, ∀ source ∈ row.sourcesAt index,
        s.payloadOf source.packetId = some payload := by
    rw [List.all_eq_true]
    constructor
    · intro hall row hrow source hsource
      -- the reference of the link gives the packet
      have hlink := h.sources row (mem_completeRows.mp hrow).1 source (List.mem_filter.mp hsource).1
      obtain ⟨q, hq, hid⟩ := List.mem_map.mp hlink
      have hstored := h.payloadOf_eq hq
      rw [hid] at hstored
      have hsame := hall q.payload (List.mem_flatMap.mpr
        ⟨row, hrow, List.mem_filterMap.mpr ⟨source, hsource, hstored⟩⟩)
      rw [hstored, of_decide_eq_true hsame]
    · intro hall stored hmem
      obtain ⟨row, hrow, hmem⟩ := List.mem_flatMap.mp hmem
      obtain ⟨source, hsource, hstored⟩ := List.mem_filterMap.mp hmem
      rw [hall row hrow source hsource] at hstored
      exact decide_eq_true (Option.some.inj hstored).symm
  rw [← hall, classify]
  split
  · next hd => exact iff_of_true rfl hd
  · next hc => exact iff_of_false (fun he => by cases he) hc

/-! ### Starts -/

theorem Schema.coalesced (h : Schema s) : Schema (s.coalesced p) where
  packets := by
    rw [TelemetryStore.coalesced, map_id_packets marked_id]
    exact h.packets
  scans := by
    rw [TelemetryStore.coalesced, map_id_scans credited_id]
    exact (List.filter_sublist.map _).nodup h.scans
  indices row hrow := by
    obtain ⟨row₀, hrow₀, -, rfl⟩ := mem_scans_coalesced.mp hrow
    rw [credited_fragments]
    exact h.indices row₀ hrow₀
  links := by
    rw [TelemetryStore.coalesced, List.flatMap_map]
    simp only [credited_fragments]
    exact ((List.filter_sublist.flatMap _).map _).nodup h.links
  sources row hrow source hsource := by
    obtain ⟨row₀, hrow₀, -, rfl⟩ := mem_scans_coalesced.mp hrow
    rw [credited_fragments] at hsource
    rw [TelemetryStore.coalesced, map_id_packets marked_id]
    exact h.sources row₀ hrow₀ source hsource

/-- A source that was classified is stored at its index, and its packet is a fragment. -/
theorem of_coalesceFragment {key : ProfileKey} {a b : Nat}
    {cs : List PersistedFragmentClassification} {f : PendingProfileFragment}
    {r : PersistedFragmentClassification × TelemetryStore}
    (hok : coalesceFragment key ((s.completeRows key).map (·.id)) (s.merged key a b cs) f = .ok r) :
    s.completedAt key f.fragmentIndex ≠ [] ∧ ∃ q ∈ s.packets, q.id = f.packetId ∧ q.isFragment := by
  have hpayloads : ((s.merged key a b cs).completeRows key).flatMap (fun row =>
      (row.sourcesAt f.fragmentIndex).filterMap fun source =>
        (s.merged key a b cs).payloadOf source.packetId) =
      s.completedAt key f.fragmentIndex := completedAt_merged f.fragmentIndex
  rw [coalesceFragment, hpayloads, Outcome.unit_bind_eq_ok] at hok
  obtain ⟨hstored, hok⟩ := hok
  obtain ⟨s', hmark, -⟩ := Outcome.bind_eq_ok.mp hok
  rw [markFragmentStatus, packets_foldl_updateScan, Outcome.unit_bind_eq_ok,
    Outcome.failIf_eq_ok, not_not] at hmark
  refine ⟨by simpa using hstored, ?_⟩
  obtain ⟨q, hq⟩ := List.length_eq_one_iff.mp hmark.1
  have hmem :
      q ∈ (s.merged key a b cs).packets.filter fun q => q.id = f.packetId ∧ q.isFragment := by
    rw [hq]
    exact List.mem_singleton_self q
  obtain ⟨hq, hfrag⟩ := List.mem_filter.mp hmem
  obtain ⟨q₀, hq₀, rfl⟩ := List.mem_map.mp hq
  obtain ⟨hid, hfrag⟩ := of_decide_eq_true hfrag
  exact ⟨q₀, hq₀, (marked_id q₀).symm.trans hid, (marked_isFragment q₀).symm.trans hfrag⟩

theorem of_coalesceFragments (h : Keyed s) {key : ProfileKey} {a b : Nat}
    {cs : List PersistedFragmentClassification} {fragments : List PendingProfileFragment}
    {r : List PersistedFragmentClassification × TelemetryStore}
    (hok : fragments.foldlM (fun (cs, s') f => do
        let (c, s') ← coalesceFragment key ((s.completeRows key).map (·.id)) s' f
        return (cs ++ [c], s')) (cs, s.merged key a b cs) =
      (.ok r : Outcome StorageError (List PersistedFragmentClassification × TelemetryStore)))
    (hnew : (cs.map (·.packetId) ++ fragments.map (·.packetId)).Nodup) :
    ∀ f ∈ fragments, s.completedAt key f.fragmentIndex ≠ [] ∧
      ∃ q ∈ s.packets, q.id = f.packetId ∧ q.isFragment := by
  induction fragments generalizing cs with
  | nil => exact fun _ hf => absurd hf List.not_mem_nil
  | cons f fragments ih =>
      rw [List.foldlM_cons] at hok
      obtain ⟨next, hnext, hok⟩ := Outcome.bind_eq_ok.mp hok
      obtain ⟨r', hone, -⟩ := Outcome.bind_eq_ok.mp hnext
      obtain ⟨hstored, q, hq, hid, hfrag⟩ := of_coalesceFragment hone
      have hout : f.packetId ∉ cs.map (·.packetId) := by
        intro hmem
        exact (List.nodup_append.mp hnew).2.2 _ hmem _ List.mem_cons_self rfl
      dsimp only at hnext
      rw [coalesceFragment_eq h hstored hout hq hid hfrag] at hnext
      obtain rfl := Except.ok.inj hnext
      refine List.forall_mem_cons.mpr ⟨⟨hstored, q, hq, hid, hfrag⟩, ih hok ?_⟩
      simpa [classificationOf] using hnew

/-- A merge whose first source meets nothing in the complete rows fails. -/
theorem coalesce_corrupt (h : Keyed s) (hsome : s.completeRows p.key ≠ [])
    {f : PendingProfileFragment} {rest : List PendingProfileFragment}
    (hf : p.fragments = f :: rest) (hmiss : s.completedAt p.key f.fragmentIndex = []) :
    s.coalesceIncompleteProfileIntoCompleted p = Outcome.fail .corruptIncompleteProfile := by
  have hids : ((s.completeRows p.key).map (·.id)).isEmpty = false := by simpa using hsome
  have hpayloads : ((s.merged p.key p.duplicateFragmentCount p.conflictingFragmentCount
      []).completeRows p.key).flatMap (fun row =>
        (row.sourcesAt f.fragmentIndex).filterMap fun source =>
          (s.merged p.key p.duplicateFragmentCount p.conflictingFragmentCount
            []).payloadOf source.packetId) = [] := (completedAt_merged f.fragmentIndex).trans hmiss
  rw [coalesceIncompleteProfileIntoCompleted, hids, merged_nil h, hf]
  simp only [Bool.false_eq_true, if_false, List.foldlM_cons]
  rw [coalesceFragment, hpayloads, Outcome.failIf_pos List.isEmpty_nil]
  rfl

/-- A merge that succeeds changes nothing, or leaves `coalesced`. -/
theorem coalesce_cases (h : Keyed s) (hnodup : (p.fragments.map (·.packetId)).Nodup)
    {result : Option (List PersistedFragmentClassification)} {s' : TelemetryStore}
    (hok : s.coalesceIncompleteProfileIntoCompleted p = .ok (result, s')) :
    s' = s ∨ s' = s.coalesced p := by
  by_cases hsome : s.completeRows p.key = []
  · rw [coalesce_none hsome] at hok
    exact .inl (Prod.mk.inj (Except.ok.inj hok)).2.symm
  · have hids : ((s.completeRows p.key).map (·.id)).isEmpty = false := by simpa using hsome
    have hloop := hok
    rw [coalesceIncompleteProfileIntoCompleted, hids, merged_nil h] at hloop
    simp only [Bool.false_eq_true, if_false] at hloop
    obtain ⟨r, hloop, -⟩ := Outcome.bind_eq_ok.mp hloop
    have hall := of_coalesceFragments h hloop hnodup
    rw [coalesce_some h hsome (fun f hf => (hall f hf).1) hnodup fun f hf => (hall f hf).2] at hok
    exact .inr (Prod.mk.inj (Except.ok.inj hok)).2.symm

end

/-- Any number of merges of incomplete scans, each as it is stored when it is merged: what starts
do to the scans that have complete rows. -/
inductive Merges (s : TelemetryStore) : TelemetryStore → Prop
  | refl : Merges s s
  | step {s' s'' : TelemetryStore} {limit : Nat} {profiles : List PersistedIncompleteProfile}
      {p : PersistedIncompleteProfile} {result : Option (List PersistedFragmentClassification)}
      (h : Merges s s') (hq : s'.incompleteProfiles limit = .ok profiles) (hp : p ∈ profiles)
      (hok : s'.coalesceIncompleteProfileIntoCompleted p = .ok (result, s'')) : Merges s s''

section
variable {s s' : TelemetryStore}

/-- A row that is gone does not come back, and no row turns incomplete. -/
theorem Merges.gone (hm : Merges s s') (hs : Schema s) {id : Int}
    (hgone : ∀ row ∈ s.scans, row.id = id → row.transportComplete) :
    Schema s' ∧ ∀ row ∈ s'.scans, row.id = id → row.transportComplete := by
  induction hm with
  | refl => exact ⟨hs, hgone⟩
  | step _ hq hp hok ih =>
      obtain ⟨hs', hgone'⟩ := ih
      obtain ⟨row, hrow, -, -, -, hfragments⟩ := exists_row_of_incompleteProfiles hq hp
      have hnodup := hfragments ▸ hs'.nodup_sources hrow
      rcases coalesce_cases hs'.toKeyed hnodup hok with rfl | rfl
      · exact ⟨hs', hgone'⟩
      · refine ⟨hs'.coalesced, fun row hrow hid => ?_⟩
        obtain ⟨row₀, hrow₀, -, rfl⟩ := mem_scans_coalesced.mp hrow
        rw [credited_id] at hid
        rw [credited_transportComplete]
        exact hgone' row₀ hrow₀ hid

/-- The rows of a key without an incomplete one do not change. -/
theorem Merges.rows_eq (hm : Merges s s') (hs : Schema s) {key : ProfileKey}
    (hwhole : ∀ row ∈ s.rows key, row.transportComplete) :
    Schema s' ∧ s'.rows key = s.rows key := by
  induction hm with
  | refl => exact ⟨hs, rfl⟩
  | @step s' s'' limit profiles p result _ hq hp hok ih =>
      obtain ⟨hs', hrows⟩ := ih
      obtain ⟨row, hrow, hc, hid, hkey, hfragments⟩ := exists_row_of_incompleteProfiles hq hp
      have hnodup := hfragments ▸ hs'.nodup_sources hrow
      rcases coalesce_cases hs'.toKeyed hnodup hok with rfl | rfl
      · exact ⟨hs', hrows⟩
      · refine ⟨hs'.coalesced, Eq.trans ?_ hrows⟩
        -- the row that is merged has another key
        have hother : ∀ row' ∈ s'.scans, row'.hasKey key → row'.hasKey p.key = false ∧
            isRowOf p row' = false := by
          intro row' hrow' hkey'
          have hwhole' : ∀ r ∈ s'.rows key, r.transportComplete := hrows ▸ hwhole
          constructor
          · by_contra hboth
            have hboth' : row'.hasKey p.key := by simpa using hboth
            have hp : p.key = key :=
              Eq.trans (of_decide_eq_true hboth').symm (of_decide_eq_true hkey')
            have hopen := hwhole' row (List.mem_filter.mpr ⟨hrow, hp ▸ hkey⟩)
            rw [hc] at hopen
            cases hopen
          · have hclosed := hwhole' row' (List.mem_filter.mpr ⟨hrow', hkey'⟩)
            simp [isRowOf, hclosed]
        rw [TelemetryStore.rows, coalesced]
        dsimp only
        rw [List.filter_map, List.filter_filter]
        have hsame : ∀ row' ∈ s'.rows key, credited p.key
            (p.duplicateFragmentCount +
              countOf .duplicate (p.fragments.map (s'.classificationOf p.key)))
            (p.conflictingFragmentCount +
              countOf .conflict (p.fragments.map (s'.classificationOf p.key))) row' = row' := by
          intro row' hrow'
          obtain ⟨hrow', hkey'⟩ := List.mem_filter.mp hrow'
          rw [credited, if_neg]
          simp [(hother row' hrow' hkey').1]
        refine Eq.trans ?_ (List.map_congr_left hsame |>.trans (List.map_id _))
        congr 1
        refine List.filter_congr fun row' hrow' => ?_
        rw [Function.comp_apply, credited_hasKey]
        cases hkey' : row'.hasKey key with
        | false => rfl
        | true => simp [(hother row' hrow' hkey').2]

end

section
variable {s : TelemetryStore} {p : PersistedIncompleteProfile} {limit : Nat}
  {profiles : List PersistedIncompleteProfile}

/-- **An incomplete scan is merged exactly once.**  A profile that the query returns is left as it
is when its key has no complete row.  When each complete row of its key has a source at every
index of the profile, the merge classifies each of its sources, a duplicate being one whose bytes
all complete rows hold at its index; adds the counts of the profile and of the classifications to
each complete row, to the columns and to the record, up to 65535; marks the packets; deletes the
row with its links; and changes nothing else.  No later query returns the row, whatever starts
merge after it, and when it was the last incomplete row of its key they do not count again. -/
theorem coalesce_once (hs : s.Schema) (hq : s.incompleteProfiles limit = .ok profiles)
    (hp : p ∈ profiles) :
    (s.completeRows p.key = [] → s.coalesceIncompleteProfileIntoCompleted p = .ok (none, s)) ∧
    (s.completeRows p.key ≠ [] →
      (∀ f ∈ p.fragments, ∀ q ∈ s.packets, q.id = f.packetId → q.isFragment) →
      (∀ f ∈ p.fragments, ∀ row ∈ s.completeRows p.key, row.sourcesAt f.fragmentIndex ≠ []) →
      ∃ cs s', s.coalesceIncompleteProfileIntoCompleted p = .ok (some cs, s') ∧
        cs.map (fun c => (c.packetId, c.fragmentIndex)) =
          p.fragments.map (fun f => (f.packetId, f.fragmentIndex)) ∧
        (∀ c ∈ cs, c.classification = .duplicate ↔ ∀ row ∈ s.completeRows p.key,
          ∀ source ∈ row.sourcesAt c.fragmentIndex,
            s.payloadOf source.packetId = s.payloadOf c.packetId) ∧
        s' = { s with
          packets := s.packets.map (marked cs)
          scans := (s.scans.filter fun row => row.id ≠ p.scanId).map fun row =>
            if row.transportComplete ∧ row.hasKey p.key then
              row.addCounts (p.duplicateFragmentCount + countOf .duplicate cs)
                (p.conflictingFragmentCount + countOf .conflict cs)
            else row } ∧
        ∀ later, Merges s' later →
          (∀ limit profiles, later.incompleteProfiles limit = .ok profiles →
            ∀ q ∈ profiles, q.scanId ≠ p.scanId) ∧
          ((∀ row ∈ s'.rows p.key, row.transportComplete) → later.rows p.key = s'.rows p.key)) := by
  refine ⟨coalesce_none, fun hsome hfragment hindex => ?_⟩
  obtain ⟨row, hrow, hopen, hid, hkey, hfragments⟩ := exists_row_of_incompleteProfiles hq hp
  have hnodup : (p.fragments.map (·.packetId)).Nodup := hfragments ▸ hs.nodup_sources hrow
  have hpacket : ∀ f ∈ p.fragments, ∃ q ∈ s.packets, q.id = f.packetId ∧ q.payload = f.payload :=
    fun f hf => mem_sourceFragments (hfragments ▸ hf)
  -- a complete row holds a payload at each index of the profile
  have hstored : ∀ f ∈ p.fragments, s.completedAt p.key f.fragmentIndex ≠ [] := by
    intro f hf
    obtain ⟨r, hr⟩ := List.exists_mem_of_ne_nil _ hsome
    obtain ⟨source, hsource⟩ := List.exists_mem_of_ne_nil _ (hindex f hf r hr)
    have hlink := hs.sources r (mem_completeRows.mp hr).1 source (List.mem_filter.mp hsource).1
    obtain ⟨q, hq, hid⟩ := List.mem_map.mp hlink
    refine List.ne_nil_of_mem (a := q.payload) (List.mem_flatMap.mpr
      ⟨r, hr, List.mem_filterMap.mpr ⟨source, hsource, ?_⟩⟩)
    rw [← hid]
    exact hs.payloadOf_eq hq
  have hscans : s.scans.filter (fun row => !isRowOf p row) =
      s.scans.filter fun row => row.id ≠ p.scanId := by
    refine List.filter_congr fun r hr => ?_
    by_cases he : r.id = p.scanId
    · obtain rfl := hs.eq_of_scanId hr hrow (he.trans hid.symm)
      simp [isRowOf, hopen, hid]
    · simp [isRowOf, he]
  refine ⟨_, _, coalesce_some hs.toKeyed hsome hstored hnodup fun f hf => ?_, ?_, ?_, ?_, ?_⟩
  · obtain ⟨q, hq, hid, -⟩ := hpacket f hf
    exact ⟨q, hq, hid, hfragment f hf q hq hid⟩
  · rw [List.map_map]
    rfl
  · intro c hc
    obtain ⟨f, hf, rfl⟩ := List.mem_map.mp hc
    obtain ⟨q, hq, hid, hpayload⟩ := hpacket f hf
    have hown : s.payloadOf f.packetId = some f.payload := by
      rw [← hid, ← hpayload]
      exact hs.payloadOf_eq hq
    show classify _ _ = _ ↔ _
    rw [hs.classify_eq_duplicate]
    simp only [classificationOf, hown]
  · rw [coalesced, hscans]
    rfl
  · intro later hlater
    have hgone : ∀ r ∈ (s.coalesced p).scans, r.id = p.scanId → r.transportComplete := by
      intro r hr he
      obtain ⟨r₀, hr₀, hno, rfl⟩ := mem_scans_coalesced.mp hr
      rw [credited_id] at he
      rw [credited_transportComplete]
      simpa [isRowOf, he] using hno
    refine ⟨fun limit profiles hquery q hq he => ?_, fun hwhole =>
      (hlater.rows_eq hs.coalesced hwhole).2⟩
    obtain ⟨r, hr, hopen, hid, -⟩ := exists_row_of_incompleteProfiles hquery hq
    have hclosed := (hlater.gone hs.coalesced hgone).2 r hr (hid.trans he)
    rw [hopen] at hclosed
    cases hclosed

end

/-! ### A partial scan beside a complete one -/

/-- A scan of four steps, of which nothing was observed. -/
def emptyScan : Receiver.ProfileScan where
  identity := ⟨1, 1, 1, 1, 0, 1, 0⟩
  profileId := 1
  profileVersion := 1
  expectedSteps := 4
  observedUniqueSteps := 0
  observedFieldCount := 0
  reportedMissingSteps := 15
  duplicateSteps := 0
  durationUs := 0
  collectionFlags := 0
  finishReason := 1
  duplicateCount := 0
  overwrittenFieldCount := 0
  outOfOrderCount := 0
  ambiguousIndexJumpCount := 0
  invalidGasIndexCount := 0
  intermediateFieldCount := 0
  profileRolloverCount := 0
  fieldsAfterRolloverCount := 0
  pollCount := 0
  expectedFragmentCount := 2
  receivedFragmentBitmap := 3
  duplicateFragmentCount := 0
  conflictingFragmentCount := 65535
  steps := []

/-- A complete scan of two fragments, and a partial one of the same key that has other bytes at
the first index. -/
def partialStore : TelemetryStore :=
  let packet (id : Int) (payload : List UInt8) : PacketRow :=
    ⟨id, 0, ⟨0, 0, 0⟩, some 2, some 2, .protocolV2, none, payload,
      some ⟨2, .profileFragment, .fragment .assembled, 1, 1, 1, 0, 1, 0, 2⟩⟩
  { TelemetryStore.fresh with
    packets := [packet 1 [1], packet 2 [2], packet 3 [3]]
    scans := [
      ⟨1, 0, 0, emptyScan, 0, true, emptyScan, [⟨1, 0, 0, ⟨0, 0, 0⟩⟩, ⟨2, 1, 0, ⟨0, 0, 0⟩⟩]⟩,
      ⟨2, 0, 0, emptyScan, 2, false, emptyScan, [⟨3, 0, 0, ⟨0, 0, 0⟩⟩]⟩] }

/-- The partial scan, as the query returns it. -/
def partialProfile : PersistedIncompleteProfile :=
  ⟨2, .ofIdentity emptyScan.identity, 0, 65535, [⟨3, 0, 0, ⟨0, 0, 0⟩, [3]⟩]⟩

theorem coalesce_once_partial :
    ∃ cs s', partialStore.coalesceIncompleteProfileIntoCompleted partialProfile =
        .ok (some cs, s') ∧
      cs.map (fun c => (c.packetId, c.fragmentIndex)) = [(3, 0)] ∧
      ∀ later, Merges s' later → ∀ limit profiles, later.incompleteProfiles limit = .ok profiles →
        ∀ q ∈ profiles, q.scanId ≠ 2 := by
  have hschema : partialStore.Schema :=
    ⟨⟨by decide, by decide⟩, by decide, by decide, by decide⟩
  have hquery : partialStore.incompleteProfiles 10 = .ok [partialProfile] := by rfl
  obtain ⟨cs, s', hok, hids, -, -, hlater⟩ :=
    (coalesce_once hschema hquery List.mem_cons_self).2 (by decide) (by decide) (by decide)
  exact ⟨cs, s', hok, hids, fun later hm => (hlater later hm).1⟩

end TelemetryStore

end Vesta.Store
