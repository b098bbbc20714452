import Vesta.Listen.Serving

/-!
# Listen — Delivery

From the sender to the database.  A sender encodes a scan into fragments, and the air may lose them,
repeat them and deliver them in any order, among any other packets.  Whatever happened to the
receiver meanwhile, the key of the scan has one row, with the metadata of the scan and the steps of
the fragments that came, and no others; it is complete exactly when every fragment came
(`rows_deliver`, `listen_delivers`).
-/

namespace Vesta.Listen

open FirstWins (Rule Tally)
open Tracing.Recording (firsts seconds)
open Receiver (Arrival ScanTally ScanOf ProfileKey ProfileScan OwnedFragment scanRule
  profileOf received
  Full Agree slots receivedScan ownedOf profileStep blankScan blankCommon)
open Store (TelemetryStore ScanRow Extends)
open Ledger

/-- The key of a scan. -/
def scanKey (c : Protocol.Common) (scan : Protocol.ProfileScan) : ProfileKey :=
  .ofHeader (Protocol.fragmentView c scan 0).header

/-- The fragments of a scan that are among the payloads. -/
def arrived (c : Protocol.Common) (scan : Protocol.ProfileScan) (payloads : List (List UInt8)) :
    List Nat :=
  (List.range (Protocol.fragmentsOf scan.expectedStepCount.toNat)).filter fun k =>
    Protocol.fragmentFrame (Protocol.fragmentView c scan k) ∈ payloads

/-- The scan as the receiver records it when these payloads came. -/
def deliveredScan (c : Protocol.Common) (scan : Protocol.ProfileScan)
    (payloads : List (List UInt8)) :
    ProfileScan :=
  let fragments := arrived c scan payloads
  { receivedScan c scan (min (payloads.length - fragments.length) 65535) with
    receivedFragmentBitmap := fragments.foldl (fun bitmap k => bitmap ||| Bitmap.bit k) 0
    steps := (fragments.flatMap scan.stepsIn).map profileStep }

/-- Fragments of one scan. -/
structure FragmentsOf (c : Protocol.Common) (scan : Protocol.ProfileScan) (as : List Arrival) :
    Prop where
  proper : ∀ a ∈ as, a.Proper
  index : ∀ a ∈ as, a.index < Protocol.fragmentsOf scan.expectedStepCount.toNat
  fragment : ∀ a ∈ as, a.fragment = ownedOf c scan a.index

/-- The indices of the fragments that came. -/
def indices (scan : Protocol.ProfileScan) (as : List Arrival) : List Nat :=
  (List.range (Protocol.fragmentsOf scan.expectedStepCount.toNat)).filter fun k =>
    ∃ a ∈ as, a.index = k

variable {c : Protocol.Common} {scan : Protocol.ProfileScan}

/-! ### Collecting the fragments of a scan -/

theorem mem_indices {as : List Arrival} {k : Nat} : k ∈ indices scan as ↔
    k < Protocol.fragmentsOf scan.expectedStepCount.toNat ∧ ∃ a ∈ as, a.index = k := by
  rw [indices, List.mem_filter, List.mem_range, decide_eq_true_eq]

theorem nodup_indices (as : List Arrival) : (indices scan as).Nodup := List.nodup_range.filter _

theorem mem_of_collect {as : List Arrival} {a : Arrival}
    (ha : a ∈ (scanRule.collect .empty as).accepted) : a ∈ as := by
  rcases Rule.mem_of_mem_collect ha with hm | hm
  · cases hm
  · exact hm

namespace FragmentsOf

variable {as : List Arrival} (h : FragmentsOf c scan as)
include h

theorem metadata {a : Arrival} (ha : a ∈ as) :
    a.fragment.metadata = (ownedOf c scan 0).metadata := by
  rw [h.fragment a ha]
  rfl

theorem agree : Agree (ownedOf c scan 0).metadata ((Tally.empty : ScanTally).accepted ++ as) where
  proper := h.proper
  metadata _ := h.metadata
  same a ha b hb hab := by rw [h.fragment a ha, h.fragment b hb, hab]

/-- A fragment is accepted when it came. -/
theorem accepted_iff (k : Nat) :
    (∃ a ∈ (scanRule.collect .empty as).accepted, a.index = k) ↔ ∃ a ∈ as, a.index = k := by
  obtain ⟨-, -, hcover⟩ := h.agree.collect
  constructor
  · rintro ⟨a, ha, hk⟩
    exact ⟨a, mem_of_collect ha, hk⟩
  · rintro ⟨a, ha, hk⟩
    obtain ⟨b, hb, hba⟩ := hcover a ha
    exact ⟨b, hb, by rw [Arrival.index, hba]; exact hk⟩

theorem clashes : (scanRule.collect .empty as).clashes = 0 := h.agree.collect.1

/-- Whatever is not accepted is counted. -/
theorem repeats : (scanRule.collect .empty as).repeats =
    min (as.length - (scanRule.collect .empty as).accepted.length) 65535 := by
  obtain ⟨hr, hc⟩ := Rule.collect_empty_counts (R := scanRule) as
  have hlength : (scanRule.collect .empty as).accepted.length + _ + _ = 0 + as.length :=
    Rule.length_collect
  have hclashes : (Rule.verdicts scanRule .empty as).count .clash = 0 := by
    have hzero := hc.symm.trans h.clashes
    change min _ 65535 = 0 at hzero
    omega
  rw [hclashes] at hlength
  change _ + 0 = 0 + as.length at hlength
  rw [hr]
  change min _ 65535 = min _ 65535
  congr 1
  omega

variable (hne : as ≠ [])
include hne

theorem scanOf : ScanOf (ownedOf c scan 0).metadata (scanRule.collect .empty as) := by
  obtain ⟨m, hs, hnil⟩ := Receiver.scanOf_collect h.proper hne
  obtain ⟨a, ha⟩ := List.exists_mem_of_ne_nil _ hnil
  rw [← h.metadata (mem_of_collect ha), hs.metadata a ha]
  exact hs

theorem toNat_count : (ownedOf c scan 0).metadata.expectedFragmentCount.toNat =
    Protocol.fragmentsOf scan.expectedStepCount.toNat := (h.scanOf hne).wellFormed.toNat_fragments

/-- The fragments that came, in order. -/
theorem filterMap_slots :
    (slots (ownedOf c scan 0).metadata (scanRule.collect .empty as).accepted).filterMap id =
      (indices scan as).map (ownedOf c scan) := by
  have hs := h.scanOf hne
  rw [Receiver.filterMap_slots, h.toNat_count hne, indices, List.map_filterMap,
    ← List.filterMap_eq_map, ← List.filterMap_eq_filter, List.filterMap_filterMap]
  refine List.filterMap_congr fun k hk => ?_
  by_cases hcame : ∃ a ∈ as, a.index = k
  · obtain ⟨a, ha, hak⟩ := (h.accepted_iff k).mpr hcame
    have hfind := hs.find_eq.mpr ⟨ha, hak⟩
    simp [hfind, hcame, h.fragment a (mem_of_collect ha), hak]
  · have hfind := ScanOf.find_eq_none.mpr fun a ha hak => hcame ((h.accepted_iff k).mp ⟨a, ha, hak⟩)
    simp [hfind, Option.guard, hcame]

theorem perm_indices : ((scanRule.collect .empty as).accepted.map Arrival.index).Perm
    (indices scan as) := by
  have hs := h.scanOf hne
  have hnd : ((scanRule.collect .empty as).accepted.map Arrival.index).Nodup :=
    hs.nodup.map_on fun a ha b hb => hs.eq_of_index ha hb
  refine (List.perm_ext_iff_of_nodup hnd (nodup_indices as)).mpr fun k => ?_
  rw [List.mem_map, mem_indices, h.accepted_iff]
  refine (and_iff_right_of_imp ?_).symm
  rintro ⟨a, ha, rfl⟩
  exact h.index a ha

theorem full_iff : Full (ownedOf c scan 0).metadata (scanRule.collect .empty as).accepted ↔
    ∀ k < Protocol.fragmentsOf scan.expectedStepCount.toNat, ∃ a ∈ as, a.index = k := by
  rw [Full, h.toNat_count hne]
  exact forall₂_congr fun k _ => h.accepted_iff k

/-- **What the fragments make.** -/
theorem scan_profileOf :
    (profileOf (ownedOf c scan 0).metadata (scanRule.collect .empty as)).scan =
      { receivedScan c scan (min (as.length - (indices scan as).length) 65535) with
        receivedFragmentBitmap :=
          (indices scan as).foldl (fun bitmap k => bitmap ||| Bitmap.bit k) 0
        steps := ((indices scan as).flatMap scan.stepsIn).map profileStep } := by
  have hs := h.scanOf hne
  have hperm := h.perm_indices hne
  have hsteps : (profileOf (ownedOf c scan 0).metadata (scanRule.collect .empty as)).scan.steps =
      ((indices scan as).flatMap scan.stepsIn).map profileStep := by
    rw [hs.steps_eq, h.filterMap_slots hne, List.flatMap_map, List.map_flatMap]
    rfl
  have hbitmap : received (scanRule.collect .empty as).accepted =
      (indices scan as).foldl (fun bitmap k => bitmap ||| Bitmap.bit k) 0 := by
    have hcomm : RightCommutative fun (bitmap : UInt16) k => bitmap ||| Bitmap.bit k :=
      ⟨fun bitmap i j => by rw [UInt16.or_assoc, UInt16.or_comm (Bitmap.bit i), ← UInt16.or_assoc]⟩
    rw [← hperm.foldl_eq, List.foldl_map]
    rfl
  have hlength := hperm.length_eq
  rw [List.length_map] at hlength
  have hscan : (profileOf (ownedOf c scan 0).metadata (scanRule.collect .empty as)).scan =
      { receivedScan c scan (scanRule.collect .empty as).repeats with
        receivedFragmentBitmap := received (scanRule.collect .empty as).accepted
        conflictingFragmentCount := (scanRule.collect .empty as).clashes
        steps :=
          (profileOf (ownedOf c scan 0).metadata (scanRule.collect .empty as)).scan.steps } :=
    rfl
  rw [hscan, hsteps, hbitmap, h.clashes, h.repeats, hlength]
  rfl

end FragmentsOf

/-! ### Payloads -/

/-- The fragments of payloads, wherever they came from. -/
def fragmentsIn (payloads : List (List UInt8)) : List Arrival :=
  (payloads.filterMap fragmentOf).map fun f => ⟨f, ⟨0, f.fragmentIndex, 0, ⟨0, 0, 0⟩⟩⟩

section
variable {frames payloads : List (List UInt8)} (h : Protocol.encodeProfile c scan = .ok frames)
include h

theorem mem_frames {payload : List UInt8} : payload ∈ frames ↔
    ∃ k < Protocol.fragmentsOf scan.expectedStepCount.toNat,
      payload = Protocol.fragmentFrame (Protocol.fragmentView c scan k) := by
  obtain ⟨-, -, -, rfl⟩ := Protocol.encodeProfile_eq_ok.mp h
  simp only [List.mem_map, List.mem_range, eq_comm]

/-- What the receiver makes of a frame. -/
theorem fragmentOf_frame {k : Nat} (hk : k < Protocol.fragmentsOf scan.expectedStepCount.toNat) :
    fragmentOf (Protocol.fragmentFrame (Protocol.fragmentView c scan k)) =
      some (ownedOf c scan k) := by
  obtain ⟨hs, hc, hcv, -⟩ := Protocol.encodeProfile_eq_ok.mp h
  refine fragmentOf_eq_some.mpr ⟨_, Protocol.decode_fragmentFrame hs hc hcv hk, ?_⟩
  have hcarries : (Protocol.fragmentView c scan k).Carries (scan.stepsIn k) :=
    Protocol.carries_fragmentView hs hk
  rw [OwnedFragment.fromView, Receiver.fragmentSteps_eq hcarries]
  rfl

section
variable (hin : ∀ payload ∈ payloads, payload ∈ frames)
include hin

theorem fragmentsOf_fragmentsIn : FragmentsOf c scan (fragmentsIn payloads) := by
  have hall : ∀ a ∈ fragmentsIn payloads, a.Proper ∧
      ∃ k < Protocol.fragmentsOf scan.expectedStepCount.toNat, a.fragment = ownedOf c scan k := by
    intro a ha
    obtain ⟨f, hf, rfl⟩ := List.mem_map.mp ha
    obtain ⟨payload, hpayload, hsome⟩ := List.mem_filterMap.mp hf
    refine ⟨⟨(fragmentOf_eq_some.mp hsome).wellFormed, rfl⟩, ?_⟩
    obtain ⟨k, hk, rfl⟩ := (mem_frames h).mp (hin payload hpayload)
    exact ⟨k, hk, (Option.some.inj (hsome.symm.trans (fragmentOf_frame h hk)))⟩
  have hindex : ∀ a ∈ fragmentsIn payloads, ∃ k < Protocol.fragmentsOf scan.expectedStepCount.toNat,
      a.index = k ∧ a.fragment = ownedOf c scan k := by
    intro a ha
    obtain ⟨-, k, hk, he⟩ := hall a ha
    refine ⟨k, hk, ?_, he⟩
    rw [Arrival.index, he]
    exact Receiver.toNat_index h hk
  refine ⟨fun a ha => (hall a ha).1, fun a ha => ?_, fun a ha => ?_⟩
  · obtain ⟨k, hk, rfl, -⟩ := hindex a ha
    exact hk
  · obtain ⟨k, hk, rfl, he⟩ := hindex a ha
    exact he

theorem length_fragmentsIn : (fragmentsIn payloads).length = payloads.length := by
  rw [fragmentsIn, List.length_map, List.length_filterMap_eq_countP, List.countP_eq_length]
  intro payload hpayload
  obtain ⟨k, hk, rfl⟩ := (mem_frames h).mp (hin payload hpayload)
  rw [fragmentOf_frame h hk]
  rfl

theorem indices_fragmentsIn : indices scan (fragmentsIn payloads) = arrived c scan payloads := by
  refine List.filter_congr fun k hk => decide_eq_decide.mpr ?_
  have hk := List.mem_range.mp hk
  constructor
  · rintro ⟨a, ha, rfl⟩
    obtain ⟨f, hf, rfl⟩ := List.mem_map.mp ha
    obtain ⟨payload, hpayload, hsome⟩ := List.mem_filterMap.mp hf
    obtain ⟨j, hj, rfl⟩ := (mem_frames h).mp (hin payload hpayload)
    obtain rfl := Option.some.inj (hsome.symm.trans (fragmentOf_frame h hj))
    have hindex : (UInt8.ofNat j).toNat = j := Receiver.toNat_index h hj
    change Protocol.fragmentFrame (Protocol.fragmentView c scan (UInt8.ofNat j).toNat) ∈ payloads
    rwa [hindex]
  · intro hmem
    refine ⟨_, List.mem_map_of_mem (List.mem_filterMap.mpr ⟨_, hmem, fragmentOf_frame h hk⟩), ?_⟩
    exact Receiver.toNat_index h hk

/-- Every fragment came when every frame did. -/
theorem came_iff : (∀ k < Protocol.fragmentsOf scan.expectedStepCount.toNat,
    ∃ a ∈ fragmentsIn payloads, a.index = k) ↔ ∀ frame ∈ frames, frame ∈ payloads := by
  have hcame : ∀ k < Protocol.fragmentsOf scan.expectedStepCount.toNat,
      ((∃ a ∈ fragmentsIn payloads, a.index = k) ↔
        Protocol.fragmentFrame (Protocol.fragmentView c scan k) ∈ payloads) := by
    intro k hk
    have hmem : k ∈ indices scan (fragmentsIn payloads) ↔ k ∈ arrived c scan payloads := by
      rw [indices_fragmentsIn h hin]
    rw [mem_indices, arrived, List.mem_filter, List.mem_range, decide_eq_true_eq] at hmem
    simpa only [hk, true_and] using hmem
  constructor
  · intro hall frame hframe
    obtain ⟨k, hk, rfl⟩ := (mem_frames h).mp hframe
    exact (hcame k hk).mp (hall k hk)
  · intro hall k hk
    exact (hcame k hk).mpr (hall _ ((mem_frames h).mpr ⟨k, hk, rfl⟩))

theorem sameCount_of_frames : SameCount payloads := by
  have hcount : ∀ f ∈ payloads.filterMap fragmentOf,
      f.metadata.expectedFragmentCount = (ownedOf c scan 0).metadata.expectedFragmentCount := by
    intro f hf
    obtain ⟨payload, hpayload, hsome⟩ := List.mem_filterMap.mp hf
    obtain ⟨k, hk, rfl⟩ := (mem_frames h).mp (hin payload hpayload)
    obtain rfl := Option.some.inj (hsome.symm.trans (fragmentOf_frame h hk))
    rfl
  exact fun f hf g hg => (hcount f hf).trans (hcount g hg).symm

end

/-- A scan all of whose fragments came is recorded as it was sent. -/
theorem deliveredScan_of_all (hall : ∀ frame ∈ frames, frame ∈ payloads) :
    deliveredScan c scan payloads =
      receivedScan c scan (min (payloads.length - frames.length) 65535) := by
  obtain ⟨hs, -, -, hframes⟩ := Protocol.encodeProfile_eq_ok.mp h
  obtain ⟨hm, hslots⟩ := Protocol.validateProfile_eq_ok.mp hs
  have hn : scan.expectedStepCount.toNat ≤ 10 := (Protocol.ScanMeta.toNat_count hm.count).2
  have h4 := Protocol.fragmentsOf_le hn
  have harrived : arrived c scan payloads =
      List.range (Protocol.fragmentsOf scan.expectedStepCount.toNat) :=
    List.filter_eq_self.mpr fun k hk => decide_eq_true
      (hall _ ((mem_frames h).mpr ⟨k, List.mem_range.mp hk, rfl⟩))
  have hlength : frames.length = Protocol.fragmentsOf scan.expectedStepCount.toNat := by
    rw [hframes, List.length_map, List.length_range]
  have hbitmap : (List.range (Protocol.fragmentsOf scan.expectedStepCount.toNat)).foldl
      (fun bitmap k => bitmap ||| Bitmap.bit k) 0 =
        Bitmap.lowMask (Protocol.fragmentsOf scan.expectedStepCount.toNat) := by
    refine Bitmap.ext fun i hi => Bool.eq_iff_iff.mpr ?_
    rw [Bitmap.has_foldl_or, Bitmap.has_lowMask (by omega), decide_eq_true_eq, Bitmap.has_zero]
    constructor
    · rintro (hf | ⟨k, hk, hbit⟩)
      · cases hf
      · have hk := List.mem_range.mp hk
        rw [Bitmap.has_bit (by omega), decide_eq_true_eq] at hbit
        omega
    · intro hlt
      exact .inr ⟨i, List.mem_range.mpr hlt, by rw [Bitmap.has_bit hi, decide_eq_true rfl]⟩
  rw [deliveredScan, harrived, hbitmap, Protocol.flatMap_stepsIn hslots hn,
    List.length_range, hlength]
  rfl

end

/-! ### Rows -/

/-- What the row of a scan says when these payloads of it came. -/
structure Delivers (c : Protocol.Common) (scan : Protocol.ProfileScan)
    (frames payloads : List (List UInt8)) (row : ScanRow) : Prop where
  record : row.scan = deliveredScan c scan payloads
  recordJson : row.recordJson = row.scan
  missing : row.missingFragmentBitmap =
    Bitmap.lowMask (Protocol.fragmentsOf scan.expectedStepCount.toNat) &&&
      ~~~row.scan.receivedFragmentBitmap
  complete : row.transportComplete = true ↔ ∀ frame ∈ frames, frame ∈ payloads
  all : (∀ frame ∈ frames, frame ∈ payloads) →
    row.scan = receivedScan c scan (min (payloads.length - frames.length) 65535)

/-- **What was sent is what is stored.**  In every state that a receiver reaches, whatever was lost,
repeated, delayed or interrupted: if the fragments that came of a scan are frames of it, and all of
them were processed, its key has one row, and the row says what they carry. -/
theorem rows_deliver {frames : List (List UInt8)} {n : Node} (hn : Reach n)
    (h : Protocol.encodeProfile c scan = .ok frames) (hs : Settled n.store (scanKey c scan))
    (hin : ∀ payload ∈ payloadsOf n.store (scanKey c scan), payload ∈ frames)
    (hne : payloadsOf n.store (scanKey c scan) ≠ []) :
    ∃ row, n.store.rows (scanKey c scan) = [row] ∧
      Delivers c scan frames (payloadsOf n.store (scanKey c scan)) row := by
  obtain ⟨row, hrows, hcontent⟩ := rows_transparent hn hs (sameCount_of_frames h hin) hne
  generalize payloadsOf n.store (scanKey c scan) = payloads at hin hne hcontent
  have hf := fragmentsOf_fragmentsIn h hin
  have hlength := length_fragmentsIn h hin
  have hnil : fragmentsIn payloads ≠ [] := by
    rw [← List.length_pos_iff_ne_nil, hlength]
    exact List.length_pos_iff_ne_nil.mpr hne
  have hscan := hf.scanOf hnil
  -- the first fragment that was accepted fixes the metadata, and all have the same
  have hcontent : contentOf n.store row =
      .of (ownedOf c scan 0).metadata (scanRule.collect .empty (fragmentsIn payloads)) := by
    have hfirst : firstCome payloads = scanRule.collect .empty (fragmentsIn payloads) := rfl
    rw [contentFor, hfirst] at hcontent
    obtain ⟨a, ha, he⟩ := Option.map_eq_some_iff.mp hcontent.symm
    rw [← he, hscan.metadata a (List.mem_of_head? ha)]
  have hrow : row.scan = (profileOf (ownedOf c scan 0).metadata
      (scanRule.collect .empty (fragmentsIn payloads))).scan := congrArg Content.scan hcontent
  have hrecord : row.scan = deliveredScan c scan payloads := by
    rw [hrow, hf.scan_profileOf hnil, indices_fragmentsIn h hin, hlength]
    rfl
  have hjson : row.recordJson = row.scan := (congrArg Content.recordJson hcontent).trans hrow.symm
  have hmissing : row.missingFragmentBitmap = _ := congrArg Content.missingFragmentBitmap hcontent
  have hcomplete : row.transportComplete = _ := congrArg Content.transportComplete hcontent
  refine ⟨row, hrows, hrecord, hjson, ?_, ?_, fun hall =>
    hrecord.trans (deliveredScan_of_all h hall)⟩
  · rw [hmissing, Content.of, hf.toNat_count hnil, hrow]
    rfl
  · rw [hcomplete, Content.of, decide_eq_true_eq, hf.full_iff hnil, came_iff h hin]

/-- The frames of a blank scan of two fragments. -/
def blankFrames : List (List UInt8) := [(blankPacket 4 0).payload, (blankPacket 4 1).payload]

theorem encodeProfile_blank : Protocol.encodeProfile blankCommon (blankScan 4) =
    .ok blankFrames := by
  decide +kernel

/-- A blank scan whose second fragment came after a stop and a start. -/
theorem rows_deliver_blank :
    let s := ((startedOn (booted.after (blankPacket 4 0)).stopped).after (blankPacket 4 1)).store
    ∃ row, s.rows blankKey = [row] ∧
      Delivers blankCommon (blankScan 4) blankFrames (payloadsOf s blankKey) row := by
  intro s
  have hreached := Running.resumed.reach
  have hpayloads : payloadsOf s blankKey = blankFrames := by decide +kernel
  have hin : ∀ payload ∈ payloadsOf s blankKey, payload ∈ blankFrames := fun payload hmem =>
    hpayloads ▸ hmem
  have hne : payloadsOf s blankKey ≠ [] := hpayloads ▸ List.cons_ne_nil _ _
  have hsettled := settled_of_not_active hreached
    (sameCount_of_frames encodeProfile_blank hin).strayFree
    (by decide +kernel)
  exact rows_deliver hreached encodeProfile_blank hsettled hin hne

/-! ### Runs -/

/-- The payloads of the fragments of a key. -/
def ofKey (key : ProfileKey) (payloads : List (List UInt8)) : List (List UInt8) :=
  payloads.filter fun payload => (fragmentOf payload).any fun f => f.metadata.key = key

section
variable {H : Type} {host : Host H} {limits : Limits} {fuel : Nat} {h₀ : H} {s : TelemetryStore}
  {orders : Nat → Receiver.HashOrder}

/-- **From the sender to the database.**  When `listen` ends, on a database that a receiver left,
the scan of a sender is stored as what was archived of it before and what the radio has given since:
if these are frames of it, its key has one row, and the row says what they carry. -/
theorem listen_delivers {frames payloads : List (List UInt8)} {counters : Counters}
    (hs : Reach (.down s))
    (hr : (listen host limits fuel (starting h₀ s orders)).result = .ok (some counters))
    (h : Protocol.encodeProfile c scan = .ok frames)
    (hpayloads : payloads = ofKey (scanKey c scan) (s.packets.map (·.payload) ++
      payloadsRead (listen host limits fuel (starting h₀ s orders)).state.1))
    (hin : ∀ payload ∈ payloads, payload ∈ frames) (hne : payloads ≠ []) :
    ∃ row,
      (listen host limits fuel (starting h₀ s orders)).state.2.store.rows (scanKey c scan) = [row] ∧
        Delivers c scan frames payloads row := by
  obtain ⟨es, ⟨hread, hext⟩, hes⟩ := (does_listen host limits fuel).of_ok hr
  obtain ⟨⟨hreached, hsettled⟩, -⟩ := (wp_listen limits fuel h₀ orders).ok (some counters) hr
  have hlistened : Listened limits.count counters es := hes
  have hstored : firsts es = (seconds es).map (·.payload) := hlistened.stored
  have hkey : payloadsOf (listen host limits fuel (starting h₀ s orders)).state.2.store
      (scanKey c scan) =
      payloads := by
    have hafter :
        (listen host limits fuel (starting h₀ s orders)).state.2.store.packets.map (·.payload) =
        s.packets.map (·.payload) ++ (seconds es).map (·.payload) := Extends.payloads hext
    have hfirsts : payloadsRead (listen host limits fuel (starting h₀ s orders)).state.1 =
        firsts es := hread
    rw [hpayloads, hfirsts, hstored, ← hafter]
    rfl
  subst hkey
  refine rows_deliver (hs.run hreached) h (hsettled hs _ ?_) hin hne
  exact (sameCount_of_frames h hin).strayFree

/-- A run that receives a blank scan. -/
theorem listen_delivers_blank : ∃ row, blankRun.state.2.store.rows blankKey = [row] ∧
    Delivers blankCommon (blankScan 4) blankFrames blankFrames row := by
  have hr : blankRun.result = .ok (some ⟨2, 0, 0, 0, 0⟩) := by decide +kernel
  exact listen_delivers .fresh hr encodeProfile_blank (by decide +kernel) (fun _ => id)
    (List.cons_ne_nil _ _)

end

end Vesta.Listen
