import Vesta.Listen.System

/-!
# Listen — Counters

The counts of a scan are kept three times: in memory, in the columns of its row and in the record
of the row.  Between two packets they agree.
-/

namespace Vesta.Listen

open Receiver (Arrival ProfileKey ProfileReassembler ActiveProfile)
open Store (TelemetryStore ScanRow)
open Ledger

variable {I : ProfileKey → Account → Prop}

/-- The record of a stored row is what its columns say. -/
theorem recordJson_eq {s : TelemetryStore} (h : Disk I s) {row : ScanRow} (hr : row ∈ s.scans) :
    row.recordJson = row.scan := by
  obtain ⟨A, hh⟩ := h
  have hrow : row ∈ s.rows (.ofIdentity row.scan.identity) :=
    List.mem_filter.mpr ⟨hr, hasKey_eq_true.mpr rfl⟩
  obtain ⟨t, -, m, -, he⟩ := exists_shows (hh.books _).rows hrow
  rw [he]
  rfl

/-- A scan in memory and the incomplete row of its key, when there is no complete one. -/
theorem Kept.row_of_active {w : World} {A : ProfileKey → Account} (h : Kept I w [] A)
    {key : ProfileKey} {scan : ActiveProfile} (ha : w.reassembler.active.lookup key = some scan)
    {row : ScanRow} (hr : row ∈ w.store.rows key) (hi : row.transportComplete = false)
    (hnone : w.store.completeRows key = []) :
    (∀ source ∈ row.fragments, source ∈ scan.sources) ∧
      row.scan.duplicateFragmentCount = scan.duplicateFragmentCount ∧
      row.scan.conflictingFragmentCount = scan.conflictingFragmentCount := by
  have hb := h.holds.books key
  have hwhole : (A key).whole = none := by
    have hrows := hb.completeRows
    rw [hnone] at hrows
    exact Option.toList_eq_nil_iff.mp (List.forall₂_nil_left_iff.mp hrows)
  have hlive : (A key).live = some scan.tally := by
    rw [h.memory.live_eq, liveAt, ha]
    rfl
  -- the row is the incomplete part of the account
  obtain ⟨t, ht, hs⟩ := exists_shows hb.incompleteRows (List.mem_filter.mpr ⟨hr, by rw [hi]; rfl⟩)
  have hpart : (A key).part = some t := Option.mem_toList.mp ht
  obtain ⟨hrepeats, hclashes⟩ := hb.sound.counts hwhole scan.tally t hlive hpart
  have hcovers : t.accepted ⊆ scan.tally.accepted := by
    have hsub := hb.sound.covers (by rw [hlive]; exact fun he => by cases he)
    rwa [hpart, hlive] at hsub
  have hpicture := (h.memory.sound.active key scan ha).picture
  refine ⟨fun source hsource => ?_, ?_, ?_⟩
  · rw [hs.fragments] at hsource
    obtain ⟨a, ha, rfl⟩ := List.mem_map.mp hsource
    rw [hpicture]
    exact List.mem_map_of_mem (hcovers ha)
  · obtain ⟨m, -, he⟩ := hs
    rw [he]
    exact hrepeats.symm
  · obtain ⟨m, -, he⟩ := hs
    rw [he]
    exact hclashes.symm

/-- **Volatile and durable counts agree.**  Between two packets, the incomplete row of a key whose
scan is in memory, and which has no complete row, links only sources of that scan, the same at each
index, and has its counts.  In every state, the record of a row has the counts of its columns. -/
theorem counters_agree {n : Node} (h : Reach n) :
    (∀ w, n = .up w → ∀ key scan row, w.reassembler.active.lookup key = some scan →
      row ∈ w.store.rows key → row.transportComplete = false → w.store.completeRows key = [] →
      (∀ source ∈ row.fragments, source ∈ scan.sources ∧ ∀ other ∈ scan.sources,
        other.fragmentIndex = source.fragmentIndex → other.packetId = source.packetId) ∧
      row.scan.duplicateFragmentCount = scan.duplicateFragmentCount ∧
      row.scan.conflictingFragmentCount = scan.conflictingFragmentCount) ∧
    ∀ row ∈ n.store.scans,
      row.recordJson.duplicateFragmentCount = row.scan.duplicateFragmentCount ∧
      row.recordJson.conflictingFragmentCount = row.scan.conflictingFragmentCount := by
  have haccounted := h.accounted
  refine ⟨?_, fun row hr => ?_⟩
  · rintro w rfl key scan row ha hr hi hnone
    obtain ⟨A, hk⟩ := haccounted
    obtain ⟨hsources, hcounts⟩ := hk.row_of_active ha hr hi hnone
    refine ⟨fun source hsource => ⟨hsources source hsource, fun other hother he => ?_⟩, hcounts⟩
    exact congrArg _ ((hk.memory.sound.active key scan ha).eq_of_source hother
      (hsources source hsource) he)
  · rw [recordJson_eq haccounted.disk hr]
    exact ⟨rfl, rfl⟩

/-- A blank fragment, its duplicate and a contradicting fragment. -/
theorem counters_agree_blank :
    let w := ((booted.after (blankPacket 4 0)).after (blankPacket 4 0)).after (blankPacket 5 0)
    (∃ scan ∈ w.reassembler.active.lookup blankKey, ∃ row ∈ w.store.rows blankKey,
      scan.duplicateFragmentCount = 1 ∧ scan.conflictingFragmentCount = 1 ∧
      (∀ source ∈ row.fragments, source ∈ scan.sources ∧ ∀ other ∈ scan.sources,
        other.fragmentIndex = source.fragmentIndex → other.packetId = source.packetId) ∧
      row.scan.duplicateFragmentCount = scan.duplicateFragmentCount ∧
      row.scan.conflictingFragmentCount = scan.conflictingFragmentCount) ∧
    ∀ row ∈ w.store.scans,
      row.recordJson.duplicateFragmentCount = row.scan.duplicateFragmentCount ∧
      row.recordJson.conflictingFragmentCount = row.scan.conflictingFragmentCount := by
  intro w
  have hreached : Reach (.up w) := (Running.repeated.blank 5 0 (by decide +kernel)).reach
  obtain ⟨scan, hscan, row, hrow, hpart, hnone, hrepeats, hclashes⟩ :
      ∃ scan ∈ w.reassembler.active.lookup blankKey, ∃ row ∈ w.store.rows blankKey,
        row.transportComplete = false ∧ w.store.completeRows blankKey = [] ∧
        scan.duplicateFragmentCount = 1 ∧ scan.conflictingFragmentCount = 1 := by decide +kernel
  refine ⟨⟨scan, hscan, row, hrow, hrepeats, hclashes, ?_⟩, (counters_agree hreached).2⟩
  exact (counters_agree hreached).1 w rfl blankKey scan row hscan hrow hpart hnone

end Vesta.Listen
