import Vesta.Ledger.Late
import Vesta.Store.Merge

/-!
# Ledger — Readings

Reading the incomplete scans back: what a start of the receiver, or the first fragment of a key
after one, gets for the row of a scan is the scan's fragments, sorted, and its counts (`Reads`).
Merging what was read into a stored complete scan finds nothing at its indices, so it never
succeeds.
-/

namespace Vesta.Ledger

open FirstWins (Rule Tally Verdict)
open Receiver (Arrival ScanTally ScanOf Full ProfileKey SourceFragment scanRule IsFrame profileOf)
open Store (FragmentStorageStatus PacketRow ScanRow TelemetryStore StorageError
  PendingProfileFragment PersistedIncompleteProfile)

variable {I : ProfileKey → Account → Prop}

/-- What is read for a fragment. -/
structure Replays (f : PendingProfileFragment) (a : Arrival) : Prop where
  frame : IsFrame f.payload a.fragment
  source : a.source = ⟨f.packetId, f.fragmentIndex, f.receivedAtUnixMs, f.radio⟩
  index : f.fragmentIndex = a.fragment.fragmentIndex

/-- What is read for a scan. -/
structure Reads (profile : PersistedIncompleteProfile) (t : ScanTally) : Prop where
  key : ∃ m, ScanOf m t ∧ profile.key = m.key
  duplicates : profile.duplicateFragmentCount = t.repeats
  conflicts : profile.conflictingFragmentCount = t.clashes
  fragments : ∃ order : List Arrival, order.Perm t.accepted ∧
    List.Forall₂ Replays profile.fragments order

/-- What is read for the packet of a fragment. -/
def replayOf (p : PacketRow) (index : UInt8) : PendingProfileFragment :=
  ⟨p.id, index, p.receivedAtUnixMs, p.radio, p.payload⟩

theorem replays_replayOf {p : PacketRow} {a : Arrival} (ha : arrivalOf p = some a) :
    Replays (replayOf p a.source.fragmentIndex) a where
  frame := isFrame_of_arrivalOf ha
  source := by
    have hs := source_of_arrivalOf ha
    rw [replayOf, hs]
  index := congrArg SourceFragment.fragmentIndex (source_of_arrivalOf ha)

/-- The order in which the sources of a row are read. -/
def sourceOrder (a b : SourceFragment) : Prop :=
  a.fragmentIndex < b.fragmentIndex ∨ (a.fragmentIndex = b.fragmentIndex ∧ a.packetId ≤ b.packetId)

instance : DecidableRel sourceOrder := fun a b =>
  inferInstanceAs (Decidable (a.fragmentIndex < b.fragmentIndex ∨
    (a.fragmentIndex = b.fragmentIndex ∧ a.packetId ≤ b.packetId)))

/-- A query that finds something for each element. -/
theorem forall₂_filterMap {α β γ : Type} {f : β → Option γ} {g : α → β} {R : γ → α → Prop}
    {as : List α} (h : ∀ a ∈ as, ∃ c, f (g a) = some c ∧ R c a) :
    List.Forall₂ R ((as.map g).filterMap f) as := by
  induction as with
  | nil => exact .nil
  | cons a as ih =>
      obtain ⟨⟨c, hc, hr⟩, h⟩ := List.forall_mem_cons.mp h
      rw [List.map_cons, List.filterMap_cons_some hc]
      exact .cons hr (ih h)

/-- The sources of a row, when their packets are archived. -/
theorem replays_sourceFragments {s : TelemetryStore} (h : Orderly s) {row : ScanRow} {t : ScanTally}
    (hs : Shows row t) (ht : ∀ a ∈ t.accepted, ∃ p ∈ s.packets, arrivalOf p = some a) :
    ∃ order : List Arrival, order.Perm t.accepted ∧
      List.Forall₂ Replays (s.sourceFragments row) order := by
  have hsort : row.fragments.insertionSort sourceOrder =
      (t.accepted.insertionSort fun a b => sourceOrder a.source b.source).map (·.source) := by
    rw [hs.fragments]
    exact (List.map_insertionSort (r := fun a b : Arrival => sourceOrder a.source b.source)
      (s := sourceOrder) _ _ fun _ _ _ _ => Iff.rfl).symm
  refine ⟨t.accepted.insertionSort fun a b => sourceOrder a.source b.source,
    List.perm_insertionSort _ _, ?_⟩
  rw [TelemetryStore.sourceFragments]
  show List.Forall₂ Replays ((row.fragments.insertionSort sourceOrder).filterMap _) _
  rw [hsort]
  refine forall₂_filterMap fun a ha => ?_
  obtain ⟨p, hp, hpa⟩ := ht a ((List.perm_insertionSort _ _).mem_iff.mp ha)
  refine ⟨replayOf p a.source.fragmentIndex, ?_, replays_replayOf hpa⟩
  rw [packetId_of_arrivalOf hpa, h.keyed.find_eq hp]
  rfl

/-! ### The queries -/

/-- What is read for a row. -/
def readingOf (s : TelemetryStore) (row : ScanRow) : PersistedIncompleteProfile where
  scanId := row.id
  key := .ofIdentity row.scan.identity
  duplicateFragmentCount := row.scan.duplicateFragmentCount
  conflictingFragmentCount := row.scan.conflictingFragmentCount
  fragments := s.sourceFragments row

theorem Reads.fragments_ne_nil {profile : PersistedIncompleteProfile} {t : ScanTally}
    (h : Reads profile t) (hne : t.accepted ≠ []) : profile.fragments ≠ [] := by
  obtain ⟨order, hperm, hall⟩ := h.fragments
  rintro he
  rw [he, List.forall₂_nil_left_iff] at hall
  rw [hall] at hperm
  exact hne (List.nil_perm.mp hperm)

/-- The incomplete rows that a query is about. -/
def incompleteRowsOf (s : TelemetryStore) (key : Option ProfileKey) : List ScanRow :=
  s.scans.filter fun row => !row.transportComplete && key.all fun key => row.hasKey key

theorem incompleteRowsOf_some (s : TelemetryStore) (key : ProfileKey) :
    incompleteRowsOf s (some key) = (s.rows key).filter fun row => !row.transportComplete := by
  rw [incompleteRowsOf, TelemetryStore.rows, List.filter_filter]
  rfl

/-- An incomplete row is one of its key. -/
theorem mem_incompleteRowsOf_key {s : TelemetryStore} {key : Option ProfileKey} {row : ScanRow}
    (hr : row ∈ incompleteRowsOf s key) :
    row ∈ incompleteRowsOf s (some (readingOf s row).key) := by
  obtain ⟨hr, hc⟩ := List.mem_filter.mp hr
  refine List.mem_filter.mpr ⟨hr, ?_⟩
  rw [(Bool.and_eq_true_iff.mp hc).1]
  exact hasKey_eq_true.mpr rfl

theorem incompleteProfilesMatching_eq (s : TelemetryStore) (key : Option ProfileKey) {limit : Nat}
    (hlimit : 0 < limit) :
    (limit < ((incompleteRowsOf s key).flatMap (·.fragments)).length ∧
      s.incompleteProfilesMatching key limit = Outcome.fail (.incompleteReplayLimitExceeded
        ((incompleteRowsOf s key).flatMap (·.fragments)).length limit)) ∨
    s.incompleteProfilesMatching key limit =
      .ok (((incompleteRowsOf s key).map (readingOf s)).filter
      fun profile => !profile.fragments.isEmpty) := by
  rw [TelemetryStore.incompleteProfilesMatching, Outcome.failIf_neg hlimit.ne', Outcome.ok_bind]
  by_cases hc : limit < ((incompleteRowsOf s key).flatMap (·.fragments)).length
  · refine .inl ⟨hc, ?_⟩
    exact congrArg (· >>= _) (Outcome.failIf_pos hc _)
  · refine .inr ?_
    exact congrArg (· >>= _) (Outcome.failIf_neg hc _)

namespace Holds

variable {s : TelemetryStore} {A : ProfileKey → Account} (h : Holds I s A)
include h

theorem reads (key : ProfileKey) :
    List.Forall₂ Reads ((incompleteRowsOf s (some key)).map (readingOf s))
      (A key).part.toList := by
  have hb := h.books key
  rw [incompleteRowsOf_some, List.forall₂_map_left_iff]
  refine forall₂_of_mem hb.incompleteRows fun row t hr ht hs => ?_
  have hpacket : ∀ a ∈ t.accepted, ∃ p ∈ s.packets, arrivalOf p = some a := fun a ha =>
    (h.mem_archive (hb.mem_archive (List.mem_append_right _ ht) ha)).1
  obtain ⟨m, hm, hrow⟩ := id hs
  refine ⟨⟨m, hm, ?_⟩, ?_, ?_, replays_sourceFragments h.orderly hs hpacket⟩
  · show ProfileKey.ofIdentity row.scan.identity = m.key
    rw [hrow, hm.wellFormed.key]
    rfl
  · show row.scan.duplicateFragmentCount = _
    rw [hrow]
    rfl
  · show row.scan.conflictingFragmentCount = _
    rw [hrow]
    rfl

/-- The reading of an incomplete row. -/
theorem reads_of_mem {row : ScanRow} {key : Option ProfileKey} (hr : row ∈ incompleteRowsOf s key) :
    ∃ t, (A (readingOf s row).key).part = some t ∧ Reads (readingOf s row) t := by
  have hself := mem_incompleteRowsOf_key hr
  have hreads := h.reads (readingOf s row).key
  rw [List.forall₂_map_left_iff] at hreads
  cases hp : (A (readingOf s row).key).part with
  | none =>
      rw [hp] at hreads
      rw [List.forall₂_nil_right_iff.mp hreads] at hself
      cases hself
  | some t =>
      rw [hp] at hreads
      obtain ⟨row', rest, hread, hnil, he⟩ := List.forall₂_cons_right_iff.mp hreads
      rw [List.forall₂_nil_right_iff.mp hnil] at he
      rw [he, List.mem_singleton] at hself
      exact ⟨t, rfl, hself ▸ hread⟩

/-- Nothing read is without fragments. -/
theorem filter_readings (key : Option ProfileKey) :
    ((incompleteRowsOf s key).map (readingOf s)).filter (fun profile =>
      !profile.fragments.isEmpty) = (incompleteRowsOf s key).map (readingOf s) := by
  refine List.filter_eq_self.mpr fun profile hp => ?_
  obtain ⟨row, hr, rfl⟩ := List.mem_map.mp hp
  obtain ⟨t, ht, hreads⟩ := h.reads_of_mem hr
  have hne := hreads.fragments_ne_nil (Started.of_part ((h.books _).sound.part t ht)).ne_nil
  simpa using hne

/-- A key has few incomplete sources. -/
theorem length_sources_le (key : ProfileKey) :
    ((incompleteRowsOf s (some key)).flatMap (·.fragments)).length ≤ 4 := by
  have hb := h.books key
  have hrows := hb.incompleteRows
  rw [← incompleteRowsOf_some] at hrows
  cases hp : (A key).part with
  | none =>
      rw [hp] at hrows
      rw [List.forall₂_nil_right_iff.mp hrows]
      exact Nat.zero_le _
  | some t =>
      rw [hp] at hrows
      obtain ⟨row, rest, hshows, hnil, he⟩ := List.forall₂_cons_right_iff.mp hrows
      obtain ⟨m, hs, -⟩ := hb.sound.part t hp
      rw [he, List.forall₂_nil_right_iff.mp hnil, List.flatMap_singleton, hshows.fragments,
        List.length_map]
      exact hs.length_le

/-- **The incomplete scan of a key.**  A scan has too few fragments to exceed the limit. -/
theorem incompleteProfilesForKey (key : ProfileKey) {limit : Nat} (hlimit : 4 ≤ limit) :
    ∃ profiles, s.incompleteProfilesForKey key limit = .ok profiles ∧
      List.Forall₂ Reads profiles (A key).part.toList := by
  rcases incompleteProfilesMatching_eq s (some key) (by omega : 0 < limit) with ⟨hlt, -⟩ | hok
  · have hle := h.length_sources_le key
    omega
  · rw [h.filter_readings] at hok
    exact ⟨_, hok, h.reads key⟩

/-- **The incomplete scans of all keys**, one for each. -/
theorem incompleteProfiles {limit : Nat} (hlimit : 0 < limit) :
    (limit < ((incompleteRowsOf s none).flatMap (·.fragments)).length ∧
      s.incompleteProfiles limit = Outcome.fail (.incompleteReplayLimitExceeded
        ((incompleteRowsOf s none).flatMap (·.fragments)).length limit)) ∨
    ∃ profiles, s.incompleteProfiles limit = .ok profiles ∧ (profiles.map (·.key)).Nodup ∧
      (∀ profile ∈ profiles, ∃ t, (A profile.key).part = some t ∧ Reads profile t) ∧
      ∀ key, (A key).part ≠ none → ∃ profile ∈ profiles, profile.key = key := by
  refine (incompleteProfilesMatching_eq s none hlimit).imp id fun hok => ?_
  rw [h.filter_readings] at hok
  refine ⟨_, hok, ?_, fun profile hp => ?_, fun key hpart => ?_⟩
  · have hnd : (incompleteRowsOf s none).Nodup :=
      (h.orderly.scans.imp fun hlt he => (he ▸ hlt).ne rfl).filter _
    rw [List.map_map]
    refine hnd.map_on fun row hr row' hr' he => ?_
    -- both rows are the incomplete row of their key
    have hone := mem_incompleteRowsOf_key hr
    have hone' := mem_incompleteRowsOf_key hr'
    have he : (readingOf s row).key = (readingOf s row').key := he
    rw [he] at hone
    have hlen := (h.reads (readingOf s row').key).length_eq
    rw [List.length_map] at hlen
    generalize incompleteRowsOf s (some (readingOf s row').key) = rows at hone hone' hlen
    rcases rows with _ | ⟨r, _ | ⟨r', rest⟩⟩
    · cases hone
    · exact (List.mem_singleton.mp hone).trans (List.mem_singleton.mp hone').symm
    · cases hp : (A (readingOf s row').key).part with
      | none => simp [hp] at hlen
      | some t => simp [hp] at hlen
  · obtain ⟨row, hr, rfl⟩ := List.mem_map.mp hp
    exact h.reads_of_mem hr
  · obtain ⟨t, ht⟩ := Option.ne_none_iff_exists'.mp hpart
    have hrows := (h.books key).incompleteRows
    rw [ht] at hrows
    obtain ⟨row, rest, -, -, he⟩ := List.forall₂_cons_right_iff.mp hrows
    have hmem : row ∈ (s.rows key).filter fun row => !row.transportComplete :=
      he ▸ List.mem_cons_self
    obtain ⟨hr, hincomplete⟩ := List.mem_filter.mp hmem
    obtain ⟨hr, hkey⟩ := List.mem_filter.mp hr
    refine ⟨readingOf s row, List.mem_map_of_mem (List.mem_filter.mpr ⟨hr, ?_⟩),
      hasKey_eq_true.mp hkey⟩
    rw [hincomplete]
    rfl

/-- What is read for the incomplete scan of a key has that key. -/
theorem key_of_reads {key : ProfileKey} {t : ScanTally} (hp : (A key).part = some t)
    {profile : PersistedIncompleteProfile} (hr : Reads profile t) : profile.key = key := by
  have hb := h.books key
  obtain ⟨m, hs, hkey⟩ := hr.key
  obtain ⟨a, ha⟩ := List.exists_mem_of_ne_nil _ (Started.of_part (hb.sound.part t hp)).ne_nil
  have ht : t ∈ (A key).whole.toList ++ (A key).part.toList :=
    List.mem_append_right _ (Option.mem_toList.mpr hp)
  rw [hkey, ← key_of_scanOf hs ha, (h.mem_archive (hb.mem_archive ht ha)).2]

/-! ### Merging what was read -/

theorem coalesce_none {profile : PersistedIncompleteProfile}
    (hw : (A profile.key).whole = none) :
    s.coalesceIncompleteProfileIntoCompleted profile = .ok (none, s) := by
  have hrows := (h.books profile.key).completeRows
  rw [hw] at hrows
  exact TelemetryStore.coalesce_none (List.forall₂_nil_right_iff.mp hrows)

/-- A stored complete scan shares no index with the incomplete one of its key. -/
theorem coalesce_whole {profile : PersistedIncompleteProfile} {t : ScanTally}
    (hw : (A profile.key).whole ≠ none) (hp : (A profile.key).part = some t)
    (hr : Reads profile t) :
    s.coalesceIncompleteProfileIntoCompleted profile = Outcome.fail .corruptIncompleteProfile := by
  have hb := h.books profile.key
  obtain ⟨w, hw⟩ := Option.ne_none_iff_exists'.mp hw
  have hrows := hb.completeRows
  rw [hw] at hrows
  obtain ⟨row, rest, hshows, hnil, hcomplete⟩ := List.forall₂_cons_right_iff.mp hrows
  rw [List.forall₂_nil_right_iff.mp hnil] at hcomplete
  have hne := hr.fragments_ne_nil (Started.of_part (hb.sound.part t hp)).ne_nil
  obtain ⟨order, hperm, hall⟩ := hr.fragments
  obtain ⟨f, fs, hf⟩ := List.exists_cons_of_ne_nil hne
  rw [hf] at hall
  obtain ⟨a, as, hreplays, -, horder⟩ := List.forall₂_cons_left_iff.mp hall
  have ha : a ∈ held (A profile.key).part := by
    rw [hp]
    exact hperm.mem_iff.mp (horder ▸ List.mem_cons_self)
  refine TelemetryStore.coalesce_corrupt h.orderly.keyed (by rw [hcomplete]; simp) hf ?_
  rw [TelemetryStore.completedAt, hcomplete, List.flatMap_singleton, hreplays.index,
    hshows.sourcesAt_eq_nil fun b hb' hi => ?_]
  · rfl
  · refine hb.sound.apart b ?_ a ha (congrArg UInt8.toNat hi)
    rwa [hw]

end Holds

end Vesta.Ledger
