import Vesta.Protocol.FragmentWire

/-!
# Protocol — ProfileWire

What `encodeProfile` writes.  A scan that passes `validateProfile` has a step in each slot below
its step count that is not reported missing, and none elsewhere; its fragments split the present
steps at the window boundaries.  The frame of fragment `k` is the header and the bytes of the view
`fragmentView scan k` (`encodeProfile_eq_ok`), which is `Valid` and carries the steps of window
`k`; together the fragments carry the present steps in ascending order (`flatMap_stepsIn`).
-/

namespace Vesta.Protocol

open Outcome (failIf)

/-! ### Slots -/

namespace ProfileScan

/-- The step in slot `i`. -/
def slot (scan : ProfileScan) (i : Nat) : Option ProfileStep := scan.steps.toList[i]?.join

/-- The present steps of window `k`. -/
def stepsIn (scan : ProfileScan) (k : Nat) : List ProfileStep :=
  (stepWindow scan.expectedStepCount.toNat k).filterMap scan.slot

/-- A step with the slot's own index where one is expected and not missing, nothing elsewhere. -/
def SlotOk (scan : ProfileScan) (i : Nat) : Prop :=
  if i < scan.expectedStepCount.toNat ∧ Bitmap.has scan.missingStepsBitmap i = false then
    ∃ step, scan.slot i = some step ∧ step.stepIndex.toNat = i ∧ validateProfileStep step = .ok ()
  else scan.slot i = none

end ProfileScan

theorem validateProfileSlot_eq_ok {scan : ProfileScan} {i : Nat} (hi : i < maxProfileSteps) :
    validateProfileSlot scan i scan.steps[i] = .ok () ↔ scan.SlotOk i := by
  have hslot : scan.slot i = scan.steps[i] := by simp [ProfileScan.slot, hi]
  have h16 : i < 16 := lt_trans hi (by decide)
  rw [validateProfileSlot, ProfileScan.SlotOk, hslot]
  by_cases hlt : i < scan.expectedStepCount.toNat
  · simp only [bitU16_eq h16, Outcome.ok_bind, Bitmap.and_bit_eq_zero h16, hlt,
      true_and, Outcome.pure_eq_ok]
    cases hm : Bitmap.has scan.missingStepsBitmap i <;> cases hs : scan.steps[i] <;>
      simp [Outcome.fail, Outcome.unit_bind_eq_ok]
  · cases hs : scan.steps[i] <;> simp [hlt, Outcome.fail]

theorem validateProfile_eq_ok {scan : ProfileScan} :
    validateProfile scan = .ok () ↔ scan.scanMeta.Valid ∧ ∀ i < maxProfileSteps, scan.SlotOk i := by
  have hslots : (∀ slot index, (slot, index) ∈ scan.steps.toList.zipIdx →
      validateProfileSlot scan index slot = .ok ()) ↔ ∀ i < maxProfileSteps, scan.SlotOk i := by
    constructor
    · intro h i hi
      refine (validateProfileSlot_eq_ok hi).mp (h scan.steps[i] i ?_)
      simp [List.mem_zipIdx_iff_getElem?, hi]
    · intro h slot i hmem
      obtain ⟨hi, rfl⟩ : ∃ hi : i < maxProfileSteps, scan.steps[i] = slot :=
        Vector.getElem?_eq_some_iff.mp (by simpa [List.mem_zipIdx_iff_getElem?] using hmem)
      exact (validateProfileSlot_eq_ok hi).mpr (h i hi)
  simp only [validateProfile, Outcome.bind_eq_ok, Outcome.forM_eq_ok, Prod.forall, hslots,
    Outcome.failIf_eq_ok, not_not,
    ensureKnownU32_eq_ok, exists_const, ne_eq]
  have hmask (hc : 1 ≤ scan.expectedStepCount ∧ scan.expectedStepCount ≤ 10) :=
    ScanMeta.bitmaps_iff (m := scan.scanMeta) (ScanMeta.toNat_count (m := scan.scanMeta) hc).2
  have hsub (hc : 1 ≤ scan.expectedStepCount ∧ scan.expectedStepCount ≤ 10)
      (hm : ∀ i, Bitmap.has scan.missingStepsBitmap i → i < scan.expectedStepCount.toNat) :=
    subU8_countOnes (m := scan.scanMeta) (ScanMeta.toNat_count (m := scan.scanMeta) hc).2 hm
  dsimp only [ProfileScan.scanMeta] at hmask hsub ⊢
  constructor
  · rintro ⟨hid, hc, hf, hfin, hst, mask, hm, hbm, obs, hobs, ho, hfields, hs⟩
    obtain rfl := Except.ok.inj ((stepMask_eq hc.2).symm.trans hm)
    obtain ⟨hmiss, hdup⟩ := (hmask hc).mp hbm
    obtain rfl := Except.ok.inj ((hsub hc hmiss).symm.trans hobs)
    rw [ho] at hfields
    exact ⟨⟨hc, hf, hid, hfin, hst, hmiss, hdup, ho.symm, hfields⟩, hs⟩
  · rintro ⟨⟨hc, hf, hid, hfin, hst, hmiss, hdup, ho, hfields⟩, hs⟩
    dsimp only at hc hmiss hdup ho hfields
    rw [ho] at hfields
    exact ⟨hid, hc, hf, hfin, hst, _, stepMask_eq hc.2, (hmask hc).mpr ⟨hmiss, hdup⟩, _,
      hsub hc hmiss, ho.symm, hfields, hs⟩

/-! ### Windows of a scan -/

theorem take_drop_eq_filterMap {α : Type} (l : List α) :
    ∀ a n, (l.drop a).take n = (List.range' a n).filterMap (l[·]?)
  | a, 0 => by simp
  | a, n + 1 => by
      rw [List.range'_succ, List.filterMap_cons]
      by_cases h : a < l.length
      · rw [List.drop_eq_getElem_cons h, List.take_succ_cons, take_drop_eq_filterMap l (a + 1) n]
        simp [h]
      · have hd (k : Nat) : l.drop (a + k) = [] := List.drop_eq_nil_of_le (by omega)
        have hn := take_drop_eq_filterMap l (a + 1) n
        rw [hd 1, List.take_nil] at hn
        rw [List.drop_eq_nil_of_le (by omega), List.take_nil,
          List.getElem?_eq_none (by omega), ← hn]

theorem windowSteps_eq {scan : ProfileScan} {k : Nat} (hn : scan.expectedStepCount.toNat ≤ 10)
    (hk : k < fragmentsOf scan.expectedStepCount.toNat) :
    windowSteps scan k = .ok (scan.stepsIn k) := by
  have hstart : k * stepsPerFragment ≤ scan.expectedStepCount.toNat := by
    simp only [fragmentsOf, stepsPerFragment] at *
    omega
  simp only [windowSteps]
  rw [slice_eq (Nat.le_min.mpr ⟨Nat.le_add_right _ _, hstart⟩) (by simp [hn]),
    take_drop_eq_filterMap, Outcome.ok_bind, List.filterMap_filterMap]
  rfl

section
variable {scan : ProfileScan} (h : ∀ i < maxProfileSteps, scan.SlotOk i)
include h

/-- The steps of a list of slots: one with its own index for each that is present. -/
theorem filterMap_slot (window : List Nat)
    (hw : ∀ i ∈ window, i < scan.expectedStepCount.toNat ∧ i < maxProfileSteps) :
    (window.filterMap scan.slot).map (fun s => s.stepIndex.toNat) =
        presentIn scan.missingStepsBitmap window ∧
      ∀ s ∈ window.filterMap scan.slot, validateProfileStep s = .ok () := by
  induction window with
  | nil => simp [presentIn]
  | cons i window ih =>
      obtain ⟨⟨hn, h10⟩, hw'⟩ := List.forall_mem_cons.mp hw
      obtain ⟨hidx, hval⟩ := ih hw'
      have hi := h i h10
      by_cases hm : Bitmap.has scan.missingStepsBitmap i
      · rw [ProfileScan.SlotOk, if_neg (by simp [hm])] at hi
        rw [List.filterMap_cons_none hi]
        exact ⟨by rw [hidx]; simp [presentIn, hm], hval⟩
      · rw [ProfileScan.SlotOk, if_pos ⟨hn, by simpa using hm⟩] at hi
        obtain ⟨step, hs, rfl, hv⟩ := hi
        rw [List.filterMap_cons_some hs]
        refine ⟨?_, List.forall_mem_cons.mpr ⟨hv, hval⟩⟩
        rw [List.map_cons, hidx]
        simp [presentIn, hm]

/-- The present steps are in the slots below the step count. -/
theorem present_eq (hn : scan.expectedStepCount.toNat ≤ 10) :
    scan.steps.toList.filterMap id =
      (List.range scan.expectedStepCount.toNat).filterMap scan.slot := by
  have hall : scan.steps.toList.filterMap id = (List.range' 0 10).filterMap scan.slot := by
    have ht := take_drop_eq_filterMap scan.steps.toList 0 10
    rw [List.drop_zero, List.take_of_length_le (by simp)] at ht
    rw [ht, List.filterMap_filterMap]
    rfl
  have hrest : (List.range' scan.expectedStepCount.toNat
      (10 - scan.expectedStepCount.toNat)).filterMap scan.slot = [] := by
    rw [List.filterMap_eq_nil_iff]
    intro i hi
    have hi' := List.mem_range'_1.mp hi
    have hs := h i (show i < 10 by omega)
    rwa [ProfileScan.SlotOk, if_neg (by omega)] at hs
  have hsplit := List.range'_append_1 (s := 0) (m := scan.expectedStepCount.toNat)
    (n := 10 - scan.expectedStepCount.toNat)
  rw [Nat.zero_add, Nat.add_sub_cancel' hn] at hsplit
  rw [hall, ← hsplit, List.filterMap_append, hrest, List.append_nil, List.range_eq_range']

/-- Window after window, the fragments carry the present steps in ascending order. -/
theorem flatMap_stepsIn (hn : scan.expectedStepCount.toNat ≤ 10) :
    (List.range (fragmentsOf scan.expectedStepCount.toNat)).flatMap scan.stepsIn =
      scan.steps.toList.filterMap id := by
  have hcover : min (fragmentsOf scan.expectedStepCount.toNat * stepsPerFragment)
      scan.expectedStepCount.toNat = scan.expectedStepCount.toNat := by
    simp only [fragmentsOf, stepsPerFragment]
    omega
  have hflat : (List.range (fragmentsOf scan.expectedStepCount.toNat)).flatMap scan.stepsIn =
      ((List.range (fragmentsOf scan.expectedStepCount.toNat)).flatMap
        (stepWindow scan.expectedStepCount.toNat)).filterMap scan.slot := by
    rw [List.filterMap_flatMap]
    rfl
  rw [hflat, flatMap_stepWindow, hcover, present_eq h hn]

/-- They stand in ascending order of their indices. -/
theorem pairwise_present (hn : scan.expectedStepCount.toNat ≤ 10) :
    (scan.steps.toList.filterMap id).Pairwise fun s t => s.stepIndex < t.stepIndex := by
  obtain ⟨hidx, -⟩ := filterMap_slot h (List.range scan.expectedStepCount.toNat)
    fun i hi => ⟨List.mem_range.mp hi, lt_of_lt_of_le (List.mem_range.mp hi) hn⟩
  have hlt : ((List.range scan.expectedStepCount.toNat).filterMap scan.slot).map
      (fun s => s.stepIndex.toNat) |>.Pairwise (· < ·) := by
    rw [hidx, presentIn]
    exact List.Pairwise.filter _ List.pairwise_lt_range
  rw [present_eq h hn]
  exact (List.pairwise_map.mp hlt).imp UInt8.lt_iff_toNat_lt.mpr

end

/-! ### Frames -/

/-- The view of fragment `k` of a scan. -/
def fragmentView (common : Common) (scan : ProfileScan) (k : Nat) : ProfileFragmentView :=
  scan.scanMeta.view
    ⟨.profileFragment, common, .ofNat k, .ofNat (fragmentsOf scan.expectedStepCount.toNat),
      .ofNat (profileFragmentMetaLen + (scan.stepsIn k).length * profileStepLen)⟩
    (.ofNat (k * stepsPerFragment)) (.ofNat (scan.stepsIn k).length)
    ((scan.stepsIn k).flatMap stepLayout.put)

/-- The bytes of a frame with one fragment. -/
def fragmentFrame (v : ProfileFragmentView) : List UInt8 := headerBytes v.header ++ fragmentBytes v

theorem fragmentsOf_le {n : Nat} (h : n ≤ 10) : fragmentsOf n ≤ 4 := by
  simp only [fragmentsOf]
  omega

theorem frameSlot_eq {k : Nat} (hk : k < maxProfileFragments) : frameSlot (.ofNat k) = .ok () := by
  refine if_pos ?_
  rwa [UInt8.toNat_ofNat_of_lt' (lt_trans hk (by decide))]

theorem ProfileScan.length_stepsIn_le (scan : ProfileScan) (k : Nat) :
    (scan.stepsIn k).length ≤ 3 :=
  (List.length_filterMap_le _ _).trans (length_stepWindow_le _ _)

theorem writes_fragmentPayload (common : Common) (scan : ProfileScan) {k : Nat}
    (hk : k < maxProfileFragments) :
    Writer.Writes (writeFragmentPayload scan (k * stepsPerFragment) (scan.stepsIn k))
      (fragmentBytes (fragmentView common scan k)) := by
  simp only [fragmentBytes, fragmentMetaLayout, scanMetaLayout, Layout.congr, Layout.seq,
    Equiv.coe_fn_symm_mk, List.append_assoc]
  unfold writeFragmentPayload
  refine (Writer.writes_bytes _).seq ?_
  refine .lift (tryU8_eq (lt_of_le_of_lt (scan.length_stepsIn_le k) (by decide)) _) ?_
  iterate 20 refine (Writer.writes_bytes _).seq ?_
  refine .lift (tryU8_eq (by rw [maxProfileFragments] at hk; rw [stepsPerFragment]; omega) _) ?_
  refine (Writer.writes_bytes _).seq ?_
  exact Writer.writes_forM writes_step _

theorem length_fragmentBytes_fragmentView (common : Common) (scan : ProfileScan) (k : Nat) :
    (fragmentBytes (fragmentView common scan k)).length =
      profileFragmentMetaLen + (scan.stepsIn k).length * profileStepLen := by
  rw [length_fragmentBytes, fragmentView, ScanMeta.view, Layout.length_flatMap_put,
    width_stepLayout]

theorem length_fragmentFrame_le (common : Common) (scan : ProfileScan) (k : Nat) :
    (fragmentFrame (fragmentView common scan k)).length ≤ maxV2FrameLen := by
  have h3 := scan.length_stepsIn_le k
  rw [fragmentFrame, List.length_append, length_headerBytes, length_fragmentBytes_fragmentView]
  simp only [maxV2FrameLen, stepsPerFragment, profileStepLen]
  omega

theorem header_fragmentView_valid (common : Common) {scan : ProfileScan} {k : Nat}
    (hn : scan.expectedStepCount.toNat ≤ 10)
    (hk : k < fragmentsOf scan.expectedStepCount.toNat) :
    (fragmentView common scan k).header.Valid ↔ common.Valid := by
  have h4 := fragmentsOf_le hn
  refine ⟨fun h => h.common, fun h => ⟨h, ?_, ?_⟩⟩
  · show UInt8.ofNat (fragmentsOf scan.expectedStepCount.toNat) ≠ 0
    rw [ne_eq, ← UInt8.toNat_inj, UInt8.toNat_ofNat_of_lt' (by simp only [UInt8.size]; omega)]
    simp only [UInt8.reduceToNat]
    omega
  · show UInt8.ofNat k < UInt8.ofNat (fragmentsOf scan.expectedStepCount.toNat)
    rw [UInt8.lt_iff_toNat_lt, UInt8.toNat_ofNat_of_lt' (by simp only [UInt8.size]; omega),
      UInt8.toNat_ofNat_of_lt' (by simp only [UInt8.size]; omega)]
    exact hk

theorem encodeFragment_eq_ok {common : Common} {scan : ProfileScan} {k : Nat} {bytes : List UInt8}
    (hn : scan.expectedStepCount.toNat ≤ 10)
    (hk : k < fragmentsOf scan.expectedStepCount.toNat) :
    encodeFragment common scan (.ofNat (fragmentsOf scan.expectedStepCount.toNat)) (.ofNat k) =
        .ok bytes ↔
      common.Valid ∧ bytes = fragmentFrame (fragmentView common scan k) := by
  have h4 := fragmentsOf_le hn
  have hk' : (UInt8.ofNat k).toNat = k :=
    UInt8.toNat_ofNat_of_lt' (by simp only [UInt8.size]; omega)
  have hslot : k < maxProfileFragments := lt_of_lt_of_le hk h4
  have h3 := scan.length_stepsIn_le k
  have hfit : headerLen + (profileFragmentMetaLen + (scan.stepsIn k).length * profileStepLen) ≤
      maxPhyFrameLen := by
    simp only [headerLen, profileFragmentMetaLen, profileStepLen, maxPhyFrameLen]
    omega
  have hfill := fillSlice_eq maxPhyFrameLen headerLen
    (writes_fragmentPayload common scan hslot) (by rwa [length_fragmentBytes_fragmentView])
  rw [length_fragmentBytes_fragmentView] at hfill
  rw [encodeFragment, hk', windowSteps_eq hn hk, frameSlot_eq hslot]
  simp only [Outcome.ok_bind, Outcome.bind_eq_ok, encodeHeader_eq_ok, hfill, Except.ok.injEq,
    frameOf, Outcome.failIf_eq_ok, exists_const, Outcome.pure_eq_ok]
  rw [← header_fragmentView_valid common hn hk]
  constructor
  · rintro ⟨header, ⟨hh, -, rfl⟩, -, rfl⟩
    exact ⟨hh, rfl⟩
  · rintro ⟨hh, rfl⟩
    exact ⟨_, ⟨hh, hfit, rfl⟩, not_lt.mpr hfit, rfl⟩

/-- The frames of a scan are the frames of its fragments. -/
theorem encodeProfile_eq_ok {common : Common} {scan : ProfileScan} {frames : List (List UInt8)} :
    encodeProfile common scan = .ok frames ↔
      validateProfile scan = .ok () ∧
        validateProfileConfigIdentity common scan.collectionFlags scan.finishReason = .ok () ∧
        common.Valid ∧
        frames = (List.range (fragmentsOf scan.expectedStepCount.toNat)).map fun k =>
          fragmentFrame (fragmentView common scan k) := by
  unfold encodeProfile
  rw [Outcome.unit_bind_eq_ok, Outcome.unit_bind_eq_ok]
  refine and_congr_right fun hv => and_congr_right fun _ => ?_
  obtain ⟨hm, -⟩ := validateProfile_eq_ok.mp hv
  obtain ⟨h1, hn⟩ : 1 ≤ scan.expectedStepCount.toNat ∧ scan.expectedStepCount.toNat ≤ 10 :=
    ScanMeta.toNat_count hm.count
  have h4 := fragmentsOf_le hn
  have hcount : (UInt8.ofNat (fragmentsOf scan.expectedStepCount.toNat)).toNat =
      fragmentsOf scan.expectedStepCount.toNat :=
    UInt8.toNat_ofNat_of_lt' (lt_of_le_of_lt h4 (by decide))
  have hstep : ∀ k ∈ List.range (fragmentsOf scan.expectedStepCount.toNat), ∀ bytes,
      encodeFragment common scan (.ofNat (fragmentsOf scan.expectedStepCount.toNat)) (.ofNat k) =
          .ok bytes ↔
        common.Valid ∧ bytes = fragmentFrame (fragmentView common scan k) :=
    fun k hk _ => encodeFragment_eq_ok hn (List.mem_range.mp hk)
  have hne : List.range (fragmentsOf scan.expectedStepCount.toNat) ≠ [] := by
    simp only [ne_eq, List.range_eq_nil, fragmentsOf]
    omega
  rw [(@profileFragmentCount_eq_ok scan.expectedStepCount _).mpr ⟨hm.count, rfl⟩,
    Outcome.ok_bind, hcount]
  by_cases hc : common.Valid
  · simp only [hc, true_and] at hstep ⊢
    rw [Outcome.mapM_eq_map fun k hk => (hstep k hk _).mpr rfl, Except.ok.injEq, eq_comm]
  · simp only [hc, false_and, iff_false] at hstep ⊢
    exact Outcome.mapM_ne_ok hne hstep

end Vesta.Protocol
