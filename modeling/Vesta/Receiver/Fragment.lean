import Vesta.Protocol.RoundTrip
import Vesta.Receiver.Reassembly

/-!
# Receiver — Fragment

What a decoded fragment is to the receiver.  Its steps are extracted without failure, and the
result is well formed: it has its place in a scan of at most ten steps, and one consistent step
for each index of its window that is not reported missing (`WellFormed`).  No two payloads give
the same fragment (`IsFrame.injective`), so comparing payloads and comparing fragments agree.
-/

namespace Vesta.Receiver

open Protocol (ProfileFragmentView fragmentsOf presentIn stepWindow)

/-! ### Steps -/

theorem profileStep_injective : Function.Injective profileStep := by
  rintro ⟨⟩ ⟨⟩ h
  obtain ⟨rfl, rfl, rfl, rfl, rfl, rfl, rfl, rfl, rfl, rfl, rfl, rfl, rfl, rfl, rfl, rfl, rfl, rfl,
    rfl, rfl, rfl, rfl⟩ := ProfileStep.mk.injEq .. ▸ h
  rfl

/-- A step that the codec accepts is consistent to the receiver. -/
theorem validateRawConsistency_profileStep {step : Protocol.ProfileStep}
    (h : Protocol.validateProfileStep step = .ok ()) :
    (profileStep step).validateRawConsistency = .ok () := by
  simp only [Protocol.validateProfileStep, Outcome.unit_bind_eq_ok, Outcome.failIf_eq_ok,
    not_not, ne_eq] at h
  obtain ⟨hs, hg, hr, hi⟩ := h
  simp only [ProfileStep.validateRawConsistency, Outcome.unit_bind_eq_ok, Outcome.failIf_eq_ok,
    not_not, ne_eq]
  exact ⟨hs, hg, hr, hi⟩

theorem fragmentSteps_eq {v : ProfileFragmentView} {steps : List Protocol.ProfileStep}
    (h : v.Carries steps) : fragmentSteps v = .ok (steps.map profileStep) := by
  have hn : v.stepsInFragment.toNat = (steps.map profileStep).length := by
    rw [h.toNat_count, List.length_map]
  rw [fragmentSteps, hn, List.range_eq_range']
  refine Outcome.mapM_range'_eq_ok fun j hj => ?_
  rw [Nat.zero_add, h.step (by simpa using hj)]
  simp

/-! ### Fragments -/

/-- The key that an identity belongs to. -/
def ProfileKey.ofIdentity (identity : RecordIdentity) : ProfileKey where
  nodeId := identity.nodeId
  bootIdValid := identity.commonFlags &&& 1 ≠ 0
  bootId := identity.bootId
  scanSequence := identity.scanSequence
  uptimeMs := identity.uptimeMs
  configId := identity.configId

theorem ProfileKey.ofIdentity_recordIdentity (header : Protocol.Header) :
    ProfileKey.ofIdentity (recordIdentity header) = .ofHeader header := rfl

/-- The metadata of a scan that the codec accepts. -/
structure ProfileMetadata.WellFormed (m : ProfileMetadata) : Prop where
  key : m.key = .ofIdentity m.identity
  expected : 1 ≤ m.expectedSteps ∧ m.expectedSteps ≤ 10
  fragments : m.expectedFragmentCount = .ofNat (fragmentsOf m.expectedSteps.toNat)
  missing : ∀ i, Bitmap.has m.reportedMissingSteps i → i < m.expectedSteps.toNat
  duplicate : ∀ i, Bitmap.has m.duplicateSteps i → i < m.expectedSteps.toNat
  observed : m.observedUniqueSteps =
    m.expectedSteps - .ofNat (Bitmap.countOnes m.reportedMissingSteps)
  fields : ¬ m.observedFieldCount < m.observedUniqueSteps.toUInt16

/-- A fragment with its place in the scan and the steps of its window. -/
structure OwnedFragment.WellFormed (f : OwnedFragment) : Prop where
  metadata : f.metadata.WellFormed
  index : f.fragmentIndex < f.metadata.expectedFragmentCount
  steps : f.steps.map (fun s => s.stepIndex.toNat) =
    presentIn f.metadata.reportedMissingSteps
      (stepWindow f.metadata.expectedSteps.toNat f.fragmentIndex.toNat)
  consistent : ∀ s ∈ f.steps, s.validateRawConsistency = .ok ()

namespace ProfileMetadata.WellFormed

variable {m : ProfileMetadata} (h : m.WellFormed)
include h

theorem expectedSteps_le : m.expectedSteps.toNat ≤ 10 := UInt8.le_iff_toNat_le.mp h.expected.2

theorem expectedSteps_pos : 1 ≤ m.expectedSteps.toNat := UInt8.le_iff_toNat_le.mp h.expected.1

theorem toNat_fragments : m.expectedFragmentCount.toNat = fragmentsOf m.expectedSteps.toNat := by
  rw [h.fragments]
  exact UInt8.toNat_ofNat_of_lt'
    (lt_of_le_of_lt (Protocol.fragmentsOf_le h.expectedSteps_le) (by decide))

theorem fragments_le : m.expectedFragmentCount.toNat ≤ 4 :=
  h.toNat_fragments ▸ Protocol.fragmentsOf_le h.expectedSteps_le

theorem fragments_pos : 0 < m.expectedFragmentCount.toNat := by
  have := h.expectedSteps_pos
  rw [h.toNat_fragments, fragmentsOf]
  omega

end ProfileMetadata.WellFormed

namespace OwnedFragment.WellFormed

variable {f : OwnedFragment} (h : f.WellFormed)
include h

theorem index_lt : f.fragmentIndex.toNat < f.metadata.expectedFragmentCount.toNat :=
  UInt8.lt_iff_toNat_lt.mp h.index

theorem index_lt_four : f.fragmentIndex.toNat < 4 :=
  lt_of_lt_of_le h.index_lt h.metadata.fragments_le

/-- A step lies in the window of its fragment. -/
theorem step_div {s : ProfileStep} (hs : s ∈ f.steps) :
    s.stepIndex.toNat / 3 = f.fragmentIndex.toNat ∧
      s.stepIndex.toNat < f.metadata.expectedSteps.toNat := by
  have hmem : s.stepIndex.toNat ∈ f.steps.map (fun s => s.stepIndex.toNat) :=
    List.mem_map_of_mem hs
  rw [h.steps, presentIn, List.mem_filter, Protocol.mem_stepWindow] at hmem
  omega

/-- The steps of a fragment stand in ascending order. -/
theorem steps_ascending : f.steps.Pairwise fun s t => s.stepIndex < t.stepIndex := by
  have hlt : (f.steps.map fun s => s.stepIndex.toNat).Pairwise (· < ·) := by
    rw [h.steps]
    exact List.Pairwise.filter _ List.pairwise_lt_range'
  exact (List.pairwise_map.mp hlt).imp UInt8.lt_iff_toNat_lt.mpr

end OwnedFragment.WellFormed

/-! ### Frames -/

/-- `payload` is a frame with the fragment `f`. -/
def IsFrame (payload : List UInt8) (f : OwnedFragment) : Prop :=
  ∃ view, Protocol.decode payload = .ok (.profileFragment view) ∧
    OwnedFragment.fromView view = .ok f

/-- What the receiver makes of a decoded fragment. -/
theorem fromView_eq {payload : List UInt8} {v : ProfileFragmentView}
    (h : Protocol.decode payload = .ok (.profileFragment v)) :
    ∃ steps, v.Carries steps ∧
      OwnedFragment.fromView v = .ok ⟨.ofView v, v.header.fragmentIndex,
        steps.map profileStep⟩ := by
  obtain ⟨-, -, -, hv, -⟩ := Protocol.decode_fragment.mp h
  obtain ⟨steps, hs⟩ := hv.steps
  refine ⟨steps, hs, ?_⟩
  rw [OwnedFragment.fromView, fragmentSteps_eq hs]
  rfl

theorem isFrame_of_decode {payload : List UInt8} {v : ProfileFragmentView}
    (h : Protocol.decode payload = .ok (.profileFragment v)) : ∃ f, IsFrame payload f := by
  obtain ⟨steps, -, hf⟩ := fromView_eq h
  exact ⟨_, v, h, hf⟩

namespace IsFrame

variable {payload payload' : List UInt8} {f f' : OwnedFragment}

/-- The frame of a fragment, as the codec sees it. -/
theorem view (h : IsFrame payload f) : ∃ v steps,
    Protocol.decode payload = .ok (.profileFragment v) ∧ v.Carries steps ∧
      OwnedFragment.fromView v = .ok f ∧
      f = ⟨.ofView v, v.header.fragmentIndex, steps.map profileStep⟩ := by
  obtain ⟨v, hd, hf⟩ := h
  obtain ⟨steps, hs, hf'⟩ := fromView_eq hd
  exact ⟨v, steps, hd, hs, hf, Except.ok.inj (hf.symm.trans hf')⟩

theorem unique (h : IsFrame payload f) (h' : IsFrame payload f') : f = f' := by
  obtain ⟨v, hd, hf⟩ := h
  obtain ⟨v', hd', hf'⟩ := h'
  cases hd.symm.trans hd'
  exact Except.ok.inj (hf.symm.trans hf')

/-- A decoded fragment is well formed. -/
theorem wellFormed (h : IsFrame payload f) : f.WellFormed := by
  obtain ⟨v, steps, hd, hs, -, rfl⟩ := h.view
  obtain ⟨-, hh, -, hv, -⟩ := Protocol.decode_fragment.mp hd
  refine ⟨⟨rfl, hv.scanMeta.count, hv.fragments, hv.scanMeta.missing, hv.scanMeta.duplicate,
    hv.scanMeta.observed, hv.scanMeta.fields⟩, hh.index, ?_, ?_⟩
  · rw [List.map_map]
    exact hs.indices
  · intro s hmem
    obtain ⟨step, hstep, rfl⟩ := List.mem_map.mp hmem
    exact validateRawConsistency_profileStep (hs.valid step hstep)

/-- No two payloads give the same fragment. -/
theorem injective (h : IsFrame payload f) (h' : IsFrame payload' f) : payload = payload' := by
  obtain ⟨v, steps, hd, hs, -, rfl⟩ := h.view
  obtain ⟨v', steps', hd', hs', -, he⟩ := h'.view
  obtain ⟨ht, -, hl, hv, rfl⟩ := Protocol.decode_fragment.mp hd
  obtain ⟨ht', -, hl', hv', rfl⟩ := Protocol.decode_fragment.mp hd'
  obtain ⟨hm, hi, hst⟩ := OwnedFragment.mk.injEq .. ▸ he
  obtain rfl : steps = steps' := List.map_injective_iff.mpr profileStep_injective hst
  -- the metadata names every field of the common header and of the scan
  obtain ⟨-, hid, h1, h2, h3, h4, h5, h6, h7, h8, h9, h10, h11, h12, h13, h14, h15, h16, h17, h18,
    h19, hn⟩ := ProfileMetadata.mk.injEq .. ▸ hm
  have hscan : v.scanMeta = v'.scanMeta := by
    simp only [ProfileFragmentView.scanMeta, h1, h2, h3, h4, h5, h6, h7, h8, h9, h10, h11, h12,
      h13, h14, h15, h16, h17, h18, h19]
  have hcommon : v.header.common = v'.header.common := by
    obtain ⟨c1, c2, c3, c4, c5, c6, c7⟩ := RecordIdentity.mk.injEq .. ▸ hid
    cases hc : v.header.common
    cases hc' : v'.header.common
    simp only [hc, hc'] at c1 c2 c3 c4 c5 c6 c7
    subst c1 c2 c3 c4 c5 c6 c7
    rfl
  have hbytes : v.stepBytes = v'.stepBytes := hs.bytes.trans hs'.bytes.symm
  have hcount : v.stepsInFragment = v'.stepsInFragment := hs.count.trans hs'.count.symm
  have hstart : v.stepWindowStart = v'.stepWindowStart := by
    rw [← UInt8.toNat_inj, hv.start, hv'.start, hi]
  have hheader : v.header = v'.header := by
    refine Protocol.Header.ext_toNat (ht.trans ht'.symm) hcommon hi hn ?_
    rw [hl, hl', Protocol.length_fragmentBytes, Protocol.length_fragmentBytes, hbytes]
  rw [v.eq_view, v'.eq_view, hscan, hheader, hstart, hcount, hbytes]

end IsFrame

end Vesta.Receiver
