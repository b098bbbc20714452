import Vesta.Ledger.Outcome
import Vesta.Listen.Consistency
import Vesta.Listen.Refusal

/-!
# Listen — Transparency

Crashes, expiry, eviction and restarts do not show in what is stored.  Once every fragment of a key
was processed and its scan was stored, the key has one row, and what the row says is a function of
the payloads that were archived, in their order: it is what collecting them first come first served
gives (`rows_transparent`).  The receiver never does that at once; it reaches the same by a volatile
reassembler, snapshots, rows read back and late comparisons, interrupted anywhere.
-/

namespace Vesta.Listen

open FirstWins (Rule)
open Journal (wp)
open Receiver (Arrival ScanTally ProfileKey ProfileMetadata ProfileScan OwnedFragment scanRule
  profileOf received Full)
open Store (TelemetryStore ScanRow PacketRow)
open Ledger

variable {I : ProfileKey → Account → Prop}

/-! ### What is archived, and what is said of it -/

/-- The payloads of the fragments of a key, in the order in which they were archived. -/
def payloadsOf (s : TelemetryStore) (key : ProfileKey) : List (List UInt8) :=
  (s.packets.map (·.payload)).filter fun payload =>
    (fragmentOf payload).any fun f => f.metadata.key = key

/-- What a row says, apart from its id and from when and how its fragments were received.  Its
fragments stand in the order in which they were archived. -/
structure Content where
  scan : ProfileScan
  recordJson : ProfileScan
  missingFragmentBitmap : UInt16
  transportComplete : Bool
  fragments : List OwnedFragment
deriving DecidableEq

def contentOf (s : TelemetryStore) (row : ScanRow) : Content where
  scan := row.scan
  recordJson := row.recordJson
  missingFragmentBitmap := row.missingFragmentBitmap
  transportComplete := row.transportComplete
  fragments := (linkedPackets s row).filterMap fun p => fragmentOf p.payload

/-- Payloads collected first come first served, wherever they came from. -/
def firstCome (payloads : List (List UInt8)) : ScanTally :=
  scanRule.collect .empty
    ((payloads.filterMap fragmentOf).map fun f => ⟨f, ⟨0, f.fragmentIndex, 0, ⟨0, 0, 0⟩⟩⟩)

/-- What a collection says as a row. -/
def Content.of (m : ProfileMetadata) (t : ScanTally) : Content where
  scan := (profileOf m t).scan
  recordJson := (profileOf m t).scan
  missingFragmentBitmap := Bitmap.lowMask m.expectedFragmentCount.toNat &&& ~~~received t.accepted
  transportComplete := decide (Full m t.accepted)
  fragments := t.accepted.map (·.fragment)

/-- What the row of a key says that received the payloads.  The first one fixes the metadata. -/
def contentFor (payloads : List (List UInt8)) : Option Content :=
  let t := firstCome payloads
  t.accepted.head?.map fun a => .of a.fragment.metadata t

/-- Every fragment of the key was processed, and its scan was stored. -/
def Settled (s : TelemetryStore) (key : ProfileKey) : Prop :=
  ∀ p ∈ s.packets, p.hasStatus .pending → ∀ f, fragmentOf p.payload = some f → f.metadata.key ≠ key

/-- Payloads that declare the same number of fragments. -/
def SameCount (payloads : List (List UInt8)) : Prop :=
  ∀ f ∈ payloads.filterMap fragmentOf, ∀ g ∈ payloads.filterMap fragmentOf,
    f.metadata.expectedFragmentCount = g.metadata.expectedFragmentCount

/-! ### Archives and payloads -/

theorem map_fragment_archiveOf (s : TelemetryStore) (key : ProfileKey) :
    (archiveOf s key).map (·.fragment) = (payloadsOf s key).filterMap fragmentOf := by
  rw [archiveOf, payloadsOf]
  induction s.packets with
  | nil => rfl
  | cons p packets ih =>
      rw [List.filterMap_cons, List.map_cons]
      cases hf : fragmentOf p.payload with
      | none => simpa [arrivalOf, hf] using ih
      | some f =>
          by_cases hkey : f.metadata.key = key
          · simpa [arrivalOf, hf, Arrival.key, hkey] using ih
          · simpa [arrivalOf, hf, Arrival.key, hkey] using ih

theorem filterMap_fragmentOf (packets : List PacketRow) :
    (packets.filterMap fun p => fragmentOf p.payload) =
      (packets.filterMap arrivalOf).map (·.fragment) := by
  induction packets with
  | nil => rfl
  | cons p packets ih =>
      rw [List.filterMap_cons, List.filterMap_cons, arrivalOf]
      cases fragmentOf p.payload with
      | none => exact ih
      | some f => exact congrArg (f :: ·) ih

theorem archiveOf_ne_nil {s : TelemetryStore} {key : ProfileKey} (h : payloadsOf s key ≠ []) :
    archiveOf s key ≠ [] := by
  obtain ⟨payload, hmem⟩ := List.exists_mem_of_ne_nil _ h
  obtain ⟨f, hf, -⟩ := (Option.any_eq_true _ _).mp (List.mem_filter.mp hmem).2
  have hfragment : f ∈ (payloadsOf s key).filterMap fragmentOf :=
    List.mem_filterMap.mpr ⟨payload, hmem, hf⟩
  rw [← map_fragment_archiveOf] at hfragment
  obtain ⟨a, ha, -⟩ := List.mem_map.mp hfragment
  exact List.ne_nil_of_mem ha

/-- Fragments that agree on their number are no strays. -/
theorem SameCount.strayFree {s : TelemetryStore} {key : ProfileKey}
    (h : SameCount (payloadsOf s key)) : StrayFree (archiveOf s key) := by
  have hmem : ∀ a ∈ archiveOf s key, a.fragment ∈ (payloadsOf s key).filterMap fragmentOf := by
    intro a ha
    rw [← map_fragment_archiveOf]
    exact List.mem_map_of_mem ha
  refine StrayFree.of_counts (fun a ha => ?_) fun a ha b hb => h _ (hmem a ha) _ (hmem b hb)
  obtain ⟨⟨p, -, hp⟩, -⟩ := mem_archiveOf.mp ha
  exact proper_of_arrivalOf hp

/-- What was collected of a key, and its payloads collected from nowhere. -/
theorem collect_archiveOf (s : TelemetryStore) (key : ProfileKey) :
    (scanRule.collect .empty (archiveOf s key)).accepted.map (·.fragment) =
        (firstCome (payloadsOf s key)).accepted.map (·.fragment) ∧
      (scanRule.collect .empty (archiveOf s key)).repeats = (firstCome (payloadsOf s key)).repeats ∧
      (scanRule.collect .empty (archiveOf s key)).clashes =
        (firstCome (payloadsOf s key)).clashes := by
  refine Rule.collect_contents (R := scanRule) ?_
  rw [List.map_map]
  exact (map_fragment_archiveOf s key).trans (List.map_id _).symm

theorem Content.of_contents {m : ProfileMetadata} {t t' : ScanTally}
    (hacc : t.accepted.map (·.fragment) = t'.accepted.map (·.fragment))
    (hr : t.repeats = t'.repeats) (hc : t.clashes = t'.clashes) : Content.of m t = .of m t' := by
  rw [Content.of, Content.of, Receiver.scan_contents hacc hr hc,
    Receiver.received_contents hacc, hacc]
  simp only [Receiver.full_contents hacc]

/-! ### Settled scans -/

section
variable {s : TelemetryStore} {A : ProfileKey → Account} (h : Holds I s A) {key : ProfileKey}
include h

theorem pending_of_settled (hs : Settled s key) : (A key).pending = [] := by
  refine List.eq_nil_iff_forall_not_mem.mpr fun a ha => ?_
  have hentry := Account.mem_pending.mp ha
  rw [← (h.books key).entries] at hentry
  obtain ⟨⟨p, hp, he⟩, hkey⟩ := mem_entriesOf.mp hentry
  refine hs p hp ((hasStatus_iff (h.orderly.filed p hp)).mpr ⟨a, he⟩) a.fragment ?_ hkey
  exact fragmentOf_eq_some.mpr (isFrame_of_arrivalOf (entryOf_eq_some.mp he).1)

/-- A key is settled when none of its fragments waits or is in memory. -/
theorem settled_of_idle (hf : StrayFree (archiveOf s key)) (hl : (A key).live = none)
    (hw : (A key).waiting = []) : Settled s key := by
  have hb := h.books key
  rw [hb.archive] at hf
  obtain ⟨done, hsplit, hdone, -⟩ := (hb.exact hf).split
  intro p hp hpending f hfragment hkey
  obtain ⟨a, he⟩ := (hasStatus_iff (h.orderly.filed p hp)).mp hpending
  have hframe := isFrame_of_arrivalOf (entryOf_eq_some.mp he).1
  obtain rfl : a.fragment = f := hframe.unique (fragmentOf_eq_some.mp hfragment)
  have hmem : a ∈ (A key).pending := by
    refine Account.mem_pending.mpr ?_
    rw [← hb.entries]
    exact mem_entriesOf.mpr ⟨⟨p, hp, he⟩, hkey⟩
  rw [hsplit, hw, List.append_nil] at hmem
  have hlive := hdone a hmem
  rw [hl] at hlive
  exact List.not_mem_nil hlive

end

/-- Between two packets, a key is settled that has no scan in memory. -/
theorem settled_of_not_active {w : World} (h : Reach (.up w)) {key : ProfileKey}
    (hf : StrayFree (archiveOf w.store key)) (ha : w.reassembler.active.lookup key = none) :
    Settled w.store key := by
  obtain ⟨A, hk⟩ := h.accounted
  refine settled_of_idle hk.holds hf ?_ (hk.memory.waiting key)
  rw [hk.memory.live_eq, liveAt, ha]
  rfl

/-- A receiver that stopped has settled every key. -/
theorem settled_of_stop {w w' : World} (h : Reach (.up w)) (hr : Returns persistRemaining w () w')
    {key : ProfileKey} (hf : StrayFree (archiveOf w'.store key)) : Settled w'.store key := by
  obtain ⟨A, hk⟩ := h.accounted
  have hspec : wp (Disk Account.Anything)
      (fun _ w' => ∀ key, StrayFree (archiveOf w'.store key) → Settled w'.store key)
      (fun _ _ => True) persistRemaining w :=
    wp_persistRemaining hk fun w' A' hk' hidle key hf =>
      settled_of_idle hk'.holds hf (hidle key) (hk'.memory.waiting key)
  have hok := hspec.ok () hr.1
  rw [hr.2] at hok
  exact hok key hf

/-! ### The row of a settled key -/

/-- The fragments of the row of a settled key are those that were collected, in order. -/
theorem linked_of_base {s : TelemetryStore} {A : ProfileKey → Account} (h : Holds I s A)
    {key : ProfileKey} {row : ScanRow} (hs : Shows row (A key).base)
    (hfiled : ∀ a ∈ (A key).base.accepted, ∃ p ∈ s.packets, entryOf p = some (a, linkStatus row))
    (hbase : (A key).base.Equiv (scanRule.collect .empty (archiveOf s key))) :
    (linkedPackets s row).filterMap arrivalOf =
      (scanRule.collect .empty (archiveOf s key)).accepted := by
  obtain ⟨fresh, hsub, heq⟩ : ∃ fresh, fresh.Sublist (archiveOf s key) ∧
      (scanRule.collect .empty (archiveOf s key)).accepted = [] ++ fresh := Rule.collect_sublist
  have hperm := (perm_linkedPackets h hs hfiled).trans hbase.accepted
  have horder : ((linkedPackets s row).filterMap arrivalOf).Pairwise
      fun a b => a.source.packetId < b.source.packetId := by
    refine List.pairwise_filterMap.mpr ((h.orderly.packets.filter _).imp ?_)
    intro p q hlt a ha b hb
    rwa [packetId_of_arrivalOf ha, packetId_of_arrivalOf hb]
  have horder' : (scanRule.collect .empty (archiveOf s key)).accepted.Pairwise
      fun a b => a.source.packetId < b.source.packetId := by
    rw [heq]
    exact h.orderly.ordered_archiveOf.sublist hsub
  exact hperm.eq_of_pairwise (fun a b _ _ hab hba => absurd hba (lt_asymm hab)) horder horder'

/-- **Crashes, expiry and eviction are transparent.**  Whatever happened before, a settled key that
received fragments, all declaring the same number of them, has one row, and what the row says is a
function of the archived payloads of the key. -/
theorem rows_transparent {n : Node} (h : Reach n) {key : ProfileKey} (hs : Settled n.store key)
    (hcount : SameCount (payloadsOf n.store key)) (hne : payloadsOf n.store key ≠ []) :
    ∃ row, n.store.rows key = [row] ∧
      some (contentOf n.store row) = contentFor (payloadsOf n.store key) := by
  obtain ⟨A, hh⟩ := h.accounted.disk
  have hb := hh.books key
  have hf := hcount.strayFree
  rw [hb.archive] at hf
  have he := hb.exact hf
  have hbase := he.base_of_settled (pending_of_settled hh hs)
  rw [← hb.archive] at hbase
  obtain ⟨hacc, hrepeats, hclashes⟩ := collect_archiveOf n.store key
  -- something was collected, because something was archived
  obtain ⟨b, rest, hcollected⟩ : ∃ b rest,
      (scanRule.collect .empty (archiveOf n.store key)).accepted = b :: rest := by
    have hproper : ∀ a ∈ archiveOf n.store key, a.Proper := fun a ha =>
      (hb.sound.proper a (hb.archive ▸ ha)).1
    obtain ⟨m, -, hsome⟩ := Receiver.scanOf_collect hproper (archiveOf_ne_nil hne)
    exact List.exists_cons_of_ne_nil hsome
  rcases hb.rows_of_exact he with ⟨-, hempty⟩ | ⟨row, heq, hshows, hmem⟩
  · have hperm := hbase.accepted
    rw [hempty, hcollected] at hperm
    exact absurd (List.perm_nil.mp hperm.symm) (List.cons_ne_nil b rest)
  · refine ⟨row, heq, ?_⟩
    obtain ⟨m, hscan, hrow⟩ := id hshows
    have hb' : b ∈ (A key).base.accepted := hbase.accepted.mem_iff.mpr
      (hcollected ▸ List.mem_cons_self)
    have hfull : Full m (A key).base.accepted ↔
        Full m (scanRule.collect .empty (archiveOf n.store key)).accepted :=
      ⟨fun hfull => hfull.perm hbase.accepted, fun hfull => hfull.perm hbase.accepted.symm⟩
    have hcontent : contentOf n.store row =
        .of m (scanRule.collect .empty (archiveOf n.store key)) := by
      rw [contentOf, filterMap_fragmentOf, linked_of_base hh hshows
        (filed_of_shows hh hmem hshows) hbase, hrow]
      simp only [rowOf, Content.of, hscan.scan_perm hbase, hscan.received_perm hbase, hfull]
    rw [hcontent, Content.of_contents hacc hrepeats hclashes, contentFor]
    rw [hcollected, List.map_cons] at hacc
    obtain ⟨a, as, hfirst, ha, -⟩ := List.map_eq_cons_iff.mp hacc.symm
    rw [hfirst, List.head?_cons, Option.map_some, ha, hscan.metadata b hb']

/-- The receiver that stops and starts between the two fragments of a blank scan. -/
def Running.resumed : Running :=
  (begun.restarted (by decide +kernel) (by decide +kernel)).blank 4 1 (by decide +kernel)

/-- A blank scan whose second fragment came after a stop and a start. -/
theorem rows_transparent_blank :
    let s := ((startedOn (booted.after (blankPacket 4 0)).stopped).after (blankPacket 4 1)).store
    ∃ row, s.rows blankKey = [row] ∧ some (contentOf s row) =
      contentFor [(blankPacket 4 0).payload, (blankPacket 4 1).payload] := by
  intro s
  have hreached := Running.resumed.reach
  have hcount : SameCount (payloadsOf s blankKey) := by
    rw [SameCount]
    decide +kernel
  have hsettled := settled_of_not_active hreached hcount.strayFree (by decide +kernel)
  have hpayloads : payloadsOf s blankKey = [(blankPacket 4 0).payload,
      (blankPacket 4 1).payload] := by
    decide +kernel
  rw [← hpayloads]
  exact rows_transparent hreached hsettled hcount (hpayloads.trans_ne (List.cons_ne_nil _ _))

end Vesta.Listen
