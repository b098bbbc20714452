import Vesta.Receiver.Records

/-!
# Receiver — Valid

What the structural checks on a profile scan amount to, for any scan whatsoever.  The counts and the
bitmaps are regular (`ProfileScan.Regular`), the steps stand in received windows, every window that
was received is covered, and once every fragment was received no step is there that is reported
missing (`validate_eq_ok`).

The last condition is weaker than it reads: while a fragment is lacking, a step may be there and be
reported missing (`Contradicted`), and it is this alone that keeps the checks from being exact on
the received windows (`validate_exact_iff`).
-/

namespace Vesta.Receiver

open Outcome (failIf Ends)

namespace ProfileScan

/-- Some step has the index. -/
def Carries (scan : ProfileScan) (i : Nat) : Prop := ∃ s ∈ scan.steps, s.stepIndex.toNat = i

/-- Every fragment was received. -/
def AllReceived (scan : ProfileScan) : Prop :=
  ∀ k < scan.expectedFragmentCount.toNat, Bitmap.has scan.receivedFragmentBitmap k

instance (scan : ProfileScan) (i : Nat) : Decidable (scan.Carries i) :=
  inferInstanceAs (Decidable (∃ s ∈ scan.steps, _))

instance (scan : ProfileScan) : Decidable scan.AllReceived :=
  inferInstanceAs (Decidable (∀ k < _, _))

/-- Counts, bitmaps and single steps are in order; nothing is said of which steps are there. -/
structure Regular (scan : ProfileScan) : Prop where
  expected : 1 ≤ scan.expectedSteps.toNat ∧ scan.expectedSteps.toNat ≤ 10
  fragments : scan.expectedFragmentCount.toNat = (scan.expectedSteps.toNat + 2) / 3
  missing : ∀ i, Bitmap.has scan.reportedMissingSteps i → i < scan.expectedSteps.toNat
  duplicate : ∀ i, Bitmap.has scan.duplicateSteps i → i < scan.expectedSteps.toNat
  received : ∀ k, Bitmap.has scan.receivedFragmentBitmap k → k < scan.expectedFragmentCount.toNat
  observed : scan.observedUniqueSteps.toNat =
    scan.expectedSteps.toNat - Bitmap.countOnes scan.reportedMissingSteps
  fields : scan.observedUniqueSteps.toNat ≤ scan.observedFieldCount.toNat
  consistent : ∀ s ∈ scan.steps, s.validateRawConsistency = .ok ()
  nodup : (scan.steps.map fun s => s.stepIndex.toNat).Nodup

/-- The steps are those of the received windows that are not reported missing. -/
structure Exact (scan : ProfileScan) : Prop extends Regular scan where
  present : ∀ i, scan.Carries i ↔ i < scan.expectedSteps.toNat ∧
    Bitmap.has scan.receivedFragmentBitmap (i / 3) ∧ Bitmap.has scan.reportedMissingSteps i = false

/-- The steps stand in received windows and cover what these do not report missing. -/
structure Windowed (scan : ProfileScan) : Prop extends Regular scan where
  within : ∀ i, scan.Carries i → i < scan.expectedSteps.toNat ∧
    Bitmap.has scan.receivedFragmentBitmap (i / 3)
  covered : ∀ i < scan.expectedSteps.toNat, Bitmap.has scan.receivedFragmentBitmap (i / 3) →
    Bitmap.has scan.reportedMissingSteps i = false → scan.Carries i

/-! ### The loops -/

section
variable {scan : ProfileScan} (hn : scan.expectedSteps.toNat ≤ 10)
include hn

theorem checkStep_eq_ok {observed observed' : UInt16} {s : ProfileStep} :
    scan.checkStep observed s = .ok observed' ↔
      (s.stepIndex.toNat < scan.expectedSteps.toNat ∧ s.validateRawConsistency = .ok () ∧
        Bitmap.has scan.receivedFragmentBitmap (s.stepIndex.toNat / 3)) ∧
      Bitmap.has observed s.stepIndex.toNat = false ∧
      observed' = observed ||| Bitmap.bit s.stepIndex.toNat := by
  have hdiv : (s.stepIndex / 3).toNat = s.stepIndex.toNat / 3 := UInt8.toNat_div ..
  rw [checkStep, Outcome.unit_bind_eq_ok, Outcome.failIf_eq_ok, ge_iff_le, UInt8.not_le,
    UInt8.lt_iff_toNat_lt, and_assoc]
  refine and_congr_right fun hlt => ?_
  have h16 : s.stepIndex.toNat < 16 := by omega
  rw [bitU16_eq h16, Outcome.ok_bind, Outcome.unit_bind_eq_ok, Outcome.failIf_eq_ok, not_not,
    Bitmap.and_bit_eq_zero h16, Outcome.unit_bind_eq_ok]
  dsimp only
  rw [hdiv, bitU16_eq (by omega), Outcome.ok_bind, Outcome.unit_bind_eq_ok, Outcome.failIf_eq_ok,
    Bitmap.and_bit_eq_zero (by omega), Bool.not_eq_false]
  constructor
  · rintro ⟨hfree, hraw, hreceived, hok⟩
    exact ⟨⟨hraw, hreceived⟩, hfree, (Except.ok.inj hok).symm⟩
  · rintro ⟨⟨hraw, hreceived⟩, hfree, rfl⟩
    exact ⟨hfree, hraw, hreceived, rfl⟩

/-- The loop over the steps passes when each step does and no index comes twice. -/
theorem checkSteps_eq_ok {steps : List ProfileStep} {observed observed' : UInt16} :
    steps.foldlM scan.checkStep observed = .ok observed' ↔
      (∀ s ∈ steps, s.stepIndex.toNat < scan.expectedSteps.toNat ∧
        s.validateRawConsistency = .ok () ∧
        Bitmap.has scan.receivedFragmentBitmap (s.stepIndex.toNat / 3)) ∧
      (∀ s ∈ steps, Bitmap.has observed s.stepIndex.toNat = false) ∧
      (steps.map fun s => s.stepIndex.toNat).Nodup ∧
      observed' = steps.foldl (fun b s => b ||| Bitmap.bit s.stepIndex.toNat) observed := by
  induction steps generalizing observed with
  | nil =>
      constructor
      · intro h
        exact ⟨List.forall_mem_nil _, List.forall_mem_nil _, List.nodup_nil, (Except.ok.inj h).symm⟩
      · rintro ⟨-, -, -, rfl⟩
        rfl
  | cons s steps ih =>
      -- the indices that are still free after this one
      have hbit : s.stepIndex.toNat < scan.expectedSteps.toNat → ∀ i,
          (Bitmap.has (observed ||| Bitmap.bit s.stepIndex.toNat) i = false ↔
            Bitmap.has observed i = false ∧ i ≠ s.stepIndex.toNat) := fun hlt i => by
        rw [Bitmap.has_or, Bitmap.has_bit (by omega)]
        simp
      rw [List.foldlM_cons, Outcome.bind_eq_ok, List.forall_mem_cons, List.forall_mem_cons,
        List.map_cons, List.nodup_cons, List.foldl_cons]
      constructor
      · rintro ⟨b, hs, hrest⟩
        obtain ⟨hok, hfree, rfl⟩ := (checkStep_eq_ok hn).mp hs
        obtain ⟨hoks, hfrees, hnd, rfl⟩ := ih.mp hrest
        refine ⟨⟨hok, hoks⟩, ⟨hfree, fun t ht => ((hbit hok.1 _).mp (hfrees t ht)).1⟩,
          ⟨?_, hnd⟩, rfl⟩
        intro hmem
        obtain ⟨t, ht, he⟩ := List.mem_map.mp hmem
        exact ((hbit hok.1 _).mp (hfrees t ht)).2 he
      · rintro ⟨⟨hok, hoks⟩, ⟨hfree, hfrees⟩, ⟨hnot, hnd⟩, rfl⟩
        refine ⟨_, (checkStep_eq_ok hn).mpr ⟨hok, hfree, rfl⟩, ih.mpr ⟨hoks, ?_, hnd, rfl⟩⟩
        intro t ht
        refine (hbit hok.1 _).mpr ⟨hfrees t ht, fun he => hnot ?_⟩
        exact List.mem_map.mpr ⟨t, ht, he⟩

/-- The bits of the steps. -/
theorem has_observed {steps : List ProfileStep}
    (h : ∀ s ∈ steps, s.stepIndex.toNat < scan.expectedSteps.toNat) (i : Nat) :
    Bitmap.has (steps.foldl (fun b s => b ||| Bitmap.bit s.stepIndex.toNat) 0) i ↔
      ∃ s ∈ steps, s.stepIndex.toNat = i := by
  rw [Bitmap.has_foldl_or, Bitmap.has_zero]
  simp only [Bool.false_eq_true, false_or]
  refine exists_congr fun s => and_congr_right fun hs => ?_
  have hlt := h s hs
  rw [Bitmap.has_bit (by omega), decide_eq_true_eq, eq_comm]

theorem checkIndex_eq_ok {observed : UInt16} {i : Nat} (hi : i < scan.expectedSteps.toNat) :
    scan.checkIndex observed i = .ok () ↔
      (Bitmap.has scan.receivedFragmentBitmap (i / 3) →
        Bitmap.has scan.reportedMissingSteps i = false → Bitmap.has observed i) := by
  rw [checkIndex, bitU16_eq (by omega), Outcome.ok_bind, bitU16_eq (by omega), Outcome.ok_bind,
    Outcome.failIf_eq_ok, ne_eq, Bitmap.and_bit_eq_zero (by omega),
    Bitmap.and_bit_eq_zero (by omega), Bitmap.and_bit_eq_zero (by omega), Bool.not_eq_false,
    not_and, not_and, Bool.not_eq_false]

end

/-! ### The bitmaps -/

/-- The step indices that a scan of at most fifteen expected steps does not carry. -/
theorem exists_unavailable {ε : Type} {scan : ProfileScan} (hn : scan.expectedSteps.toNat < 16) :
    ∃ unavailable, (scan.computedUnavailableSteps : Outcome ε UInt16) = .ok unavailable ∧
      ∀ i, Bitmap.has unavailable i ↔ i < scan.expectedSteps.toNat ∧ ¬ scan.Carries i := by
  have hmask : (expectedStepMask scan.expectedSteps : Outcome ε UInt16) =
    .ok (Bitmap.lowMask scan.expectedSteps.toNat) := maskU16_eq hn
  refine ⟨_, Outcome.bind_eq_ok.mpr ⟨_, hmask, rfl⟩, fun i => ?_⟩
  by_cases hi : i < 16
  · have hbit : ∀ s : ProfileStep, Bitmap.has
        (if s.stepIndex.toNat < 16 then Bitmap.bit s.stepIndex.toNat else 0) i ↔
          s.stepIndex.toNat = i := by
      intro s
      split
      · next h16 => rw [Bitmap.has_bit h16, decide_eq_true_eq, eq_comm]
      · rw [Bitmap.has_zero]
        simp only [Bool.false_eq_true, false_iff]
        omega
    rw [Bitmap.has_and, Bitmap.has_lowMask hn, Bitmap.has_not _ hi, Bool.and_eq_true,
      decide_eq_true_eq, Bool.not_eq_true', Bool.eq_false_iff, ne_eq, Bitmap.has_foldl_or,
      Bitmap.has_zero]
    simp only [Bool.false_eq_true, false_or, hbit]
    rfl
  · rw [Bitmap.has_of_ge (by omega)]
    simp only [Bool.false_eq_true, false_iff, not_and]
    omega

theorem isTransportComplete_eq {ε : Type} {scan : ProfileScan}
    (h : scan.expectedFragmentCount.toNat < 16) :
    (scan.isTransportComplete : Outcome ε Bool) = .ok (decide scan.AllReceived) := by
  have hzero : Bitmap.lowMask scan.expectedFragmentCount.toNat &&&
      ~~~scan.receivedFragmentBitmap = 0 ↔ scan.AllReceived := by
    constructor
    · intro hz k hk
      by_contra hno
      have hb := Bitmap.has_and (Bitmap.lowMask scan.expectedFragmentCount.toNat)
        (~~~scan.receivedFragmentBitmap) k
      rw [hz, Bitmap.has_zero, Bitmap.has_not _ (by omega), Bitmap.has_lowMask h,
        decide_eq_true hk, Bool.eq_false_iff.mpr hno] at hb
      cases hb
    · intro hall
      refine Bitmap.ext fun k hk => ?_
      rw [Bitmap.has_and, Bitmap.has_not _ hk, Bitmap.has_lowMask h, Bitmap.has_zero]
      by_cases hlt : k < scan.expectedFragmentCount.toNat
      · rw [hall k hlt, Bool.not_true, Bool.and_false]
      · rw [decide_eq_false hlt, Bool.false_and]
  have hmask : (expectedFragmentMask scan.expectedFragmentCount : Outcome ε UInt16) =
    .ok (Bitmap.lowMask scan.expectedFragmentCount.toNat) := maskU16_eq h
  rw [isTransportComplete, missingFragmentBitmap, hmask]
  exact congrArg Except.ok (decide_eq_decide.mpr hzero)

/-! ### The checks -/

theorem checkStepBitmap_eq_ok {scan : ProfileScan} {n : Nat} (hn : n < 16) {field : String}
    {b : UInt16} : scan.checkStepBitmap (Bitmap.lowMask n) field b = .ok () ↔
      ∀ i, Bitmap.has b i → i < n := by
  rw [checkStepBitmap, Outcome.failIf_eq_ok, ne_eq, not_not, Bitmap.and_not_lowMask_eq_zero hn]

theorem expected_iff {n : UInt8} :
    (1 ≤ n ∧ n ≤ maxHeaterSteps) ↔ 1 ≤ n.toNat ∧ n.toNat ≤ 10 := by
  rw [UInt8.le_iff_toNat_le, UInt8.le_iff_toNat_le]
  rfl

/-- **The structural checks, stated.**  For every scan, what passes them is regular, with its steps
in received windows that they cover, and carries no missing step once every fragment is there. -/
theorem validate_eq_ok {scan : ProfileScan} : scan.validate = .ok () ↔
    scan.Windowed ∧ (scan.AllReceived → ∀ i, scan.Carries i →
      Bitmap.has scan.reportedMissingSteps i = false) := by
  rw [validate, Outcome.unit_bind_eq_ok, Outcome.failIf_eq_ok, not_not, expected_iff]
  by_cases hexp : 1 ≤ scan.expectedSteps.toNat ∧ scan.expectedSteps.toNat ≤ 10
  case neg => exact ⟨fun h => absurd h.1 hexp, fun h => absurd h.1.expected hexp⟩
  have hn := hexp.2
  have h16 : scan.expectedSteps.toNat < 16 := by omega
  have hrequired : scan.expectedFragmentCount = .ofNat ((scan.expectedSteps.toNat + 2) / 3) ↔
      scan.expectedFragmentCount.toNat = (scan.expectedSteps.toNat + 2) / 3 := by
    rw [← UInt8.toNat_inj, UInt8.toNat_ofNat_of_lt' (by simp only [UInt8.size]; omega)]
  dsimp only
  rw [Outcome.unit_bind_eq_ok, Outcome.failIf_eq_ok, ne_eq, not_not, hrequired]
  by_cases hfrag : scan.expectedFragmentCount.toNat = (scan.expectedSteps.toNat + 2) / 3
  case neg => exact ⟨fun h => absurd h.2.1 hfrag, fun h => absurd h.1.fragments hfrag⟩
  have hmask : (expectedStepMask scan.expectedSteps : Outcome RecordError UInt16) = .ok _ :=
    maskU16_eq h16
  have hfmask : (expectedFragmentMask scan.expectedFragmentCount : Outcome RecordError UInt16) =
    .ok _ := maskU16_eq (by omega)
  obtain ⟨unavailable, hu, hbits⟩ := exists_unavailable (ε := RecordError) h16
  rw [hmask, Outcome.ok_bind, Outcome.unit_bind_eq_ok, checkStepBitmap_eq_ok h16,
    Outcome.unit_bind_eq_ok, checkStepBitmap_eq_ok h16, hfmask, Outcome.ok_bind,
    Outcome.unit_bind_eq_ok, Outcome.failIf_eq_ok, ne_eq, not_not,
    Bitmap.and_not_lowMask_eq_zero (by omega)]
  by_cases hm : ∀ i, Bitmap.has scan.reportedMissingSteps i → i < scan.expectedSteps.toNat
  case neg => exact ⟨fun h => absurd h.2.2.1 hm, fun h => absurd h.1.missing hm⟩
  have hle := Bitmap.countOnes_le (by omega) hm
  have hcount : (UInt8.ofNat (Bitmap.countOnes scan.reportedMissingSteps)).toNat =
      Bitmap.countOnes scan.reportedMissingSteps :=
    UInt8.toNat_ofNat_of_lt' (by simp only [UInt8.size]; omega)
  have hle' : UInt8.ofNat (Bitmap.countOnes scan.reportedMissingSteps) ≤ scan.expectedSteps := by
    rw [UInt8.le_iff_toNat_le, hcount]
    exact hle
  have hobserved : scan.expectedSteps - .ofNat (Bitmap.countOnes scan.reportedMissingSteps) =
      scan.observedUniqueSteps ↔ scan.observedUniqueSteps.toNat =
        scan.expectedSteps.toNat - Bitmap.countOnes scan.reportedMissingSteps := by
    rw [← UInt8.toNat_inj, UInt8.toNat_sub_of_le _ _ hle', hcount, eq_comm]
  rw [subU8_eq hle', Outcome.ok_bind, Outcome.unit_bind_eq_ok, Outcome.failIf_eq_ok, ne_eq,
    not_not, hobserved, Outcome.unit_bind_eq_ok, Outcome.failIf_eq_ok, UInt16.not_lt,
    UInt16.le_iff_toNat_le, UInt8.toNat_toUInt16, Outcome.bind_eq_ok]
  have hcomplete := @isTransportComplete_eq RecordError scan (by omega)
  -- the two remaining checks, once the steps have left their bits
  have hrest : (∀ s ∈ scan.steps, s.stepIndex.toNat < scan.expectedSteps.toNat) →
      ∀ observed, observed = scan.steps.foldl (fun b s => b ||| Bitmap.bit s.stepIndex.toNat) 0 →
      ((do
        (List.range scan.expectedSteps.toNat).forM (scan.checkIndex observed)
        let complete ← scan.isTransportComplete
        let unavailable ← scan.computedUnavailableSteps
        failIf (complete ∧ unavailable ≠ scan.reportedMissingSteps)
          (.missingBitmapMismatch scan.reportedMissingSteps unavailable)) = .ok () ↔
        (∀ i < scan.expectedSteps.toNat, Bitmap.has scan.receivedFragmentBitmap (i / 3) →
          Bitmap.has scan.reportedMissingSteps i = false → scan.Carries i) ∧
        (scan.AllReceived → unavailable = scan.reportedMissingSteps)) := by
    rintro hlt _ rfl
    rw [Outcome.unit_bind_eq_ok, Outcome.forM_eq_ok, hcomplete, Outcome.ok_bind, hu,
      Outcome.ok_bind, Outcome.failIf_eq_ok, decide_eq_true_eq, not_and, not_not]
    refine and_congr (forall_congr' fun i => ?_) Iff.rfl
    rw [List.mem_range]
    refine forall_congr' fun hi => ?_
    rw [checkIndex_eq_ok hn hi, has_observed hn hlt]
    rfl
  constructor
  · rintro ⟨-, -, -, hd, hr, ho, hf, observed, hfold, htail⟩
    obtain ⟨hok, -, hnd, he⟩ := (checkSteps_eq_ok hn).mp hfold
    obtain ⟨hcovered, hall⟩ := (hrest (fun s hs => (hok s hs).1) observed he).mp htail
    refine ⟨⟨⟨hexp, hfrag, hm, hd, hr, ho, hf, fun s hs => (hok s hs).2.1, hnd⟩, ?_, hcovered⟩,
      fun hreceived i hi => ?_⟩
    · rintro i ⟨s, hs, rfl⟩
      exact ⟨(hok s hs).1, (hok s hs).2.2⟩
    · rw [← hall hreceived, Bool.eq_false_iff, ne_eq, hbits]
      exact fun hno => hno.2 hi
  · rintro ⟨hw, hall⟩
    have hlt : ∀ s ∈ scan.steps, s.stepIndex.toNat < scan.expectedSteps.toNat :=
      fun s hs => (hw.within _ ⟨s, hs, rfl⟩).1
    refine ⟨hexp, hfrag, hm, hw.duplicate, hw.received, hw.observed, hw.fields, _,
      (checkSteps_eq_ok hn).mpr ⟨fun s hs => ⟨hlt s hs, hw.consistent s hs,
        (hw.within _ ⟨s, hs, rfl⟩).2⟩, fun _ _ => Bitmap.has_zero _, hw.nodup, rfl⟩,
      (hrest hlt _ rfl).mpr ⟨hw.covered, fun hreceived => Bitmap.ext fun i _ => ?_⟩⟩
    rw [Bool.eq_iff_iff, hbits]
    constructor
    · rintro ⟨hi, hno⟩
      by_contra hmissing
      exact hno (hw.covered i hi (hreceived _ (by omega)) (Bool.eq_false_iff.mpr hmissing))
    · intro hmissing
      refine ⟨hm i hmissing, fun hcarries => ?_⟩
      rw [hall hreceived i hcarries] at hmissing
      cases hmissing

/-- The structural checks never panic. -/
theorem validate_ne_panicked (scan : ProfileScan) : scan.validate ≠ .error .panicked := by
  suffices h : Ends (fun _ => True) (fun _ => True) scan.validate from h.ne_panicked
  refine (Ends.failIf fun _ => trivial).bind fun _ hexp => ?_
  rw [not_not, expected_iff] at hexp
  have hn := hexp.2
  refine (Ends.failIf fun _ => trivial).bind fun _ hfrag => ?_
  rw [ne_eq, not_not] at hfrag
  -- every shift that follows is of less than 16, by the checks so far
  have hcount : scan.expectedFragmentCount.toNat = (scan.expectedSteps.toNat + 2) / 3 := by
    rw [hfrag, UInt8.toNat_ofNat_of_lt' (by simp only [UInt8.size]; omega)]
  have hmask : (expectedStepMask scan.expectedSteps : Outcome RecordError UInt16) = .ok _ :=
    maskU16_eq (by omega)
  have hfmask : (expectedFragmentMask scan.expectedFragmentCount : Outcome RecordError UInt16) =
    .ok _ := maskU16_eq (by omega)
  rw [hmask, Outcome.ok_bind]
  refine (Ends.failIf fun _ => trivial).bind fun _ hmissing => ?_
  rw [ne_eq, not_not, Bitmap.and_not_lowMask_eq_zero (by omega)] at hmissing
  refine (Ends.failIf fun _ => trivial).bind fun _ _ => ?_
  rw [hfmask, Outcome.ok_bind]
  refine (Ends.failIf fun _ => trivial).bind fun _ _ => ?_
  have hle := Bitmap.countOnes_le (by omega) hmissing
  -- the missing steps are among the expected ones
  rw [subU8_eq (by
    rw [UInt8.le_iff_toNat_le, UInt8.toNat_ofNat_of_lt' (by simp only [UInt8.size]; omega)]
    exact hle), Outcome.ok_bind]
  refine (Ends.failIf fun _ => trivial).bind fun _ _ => ?_
  refine (Ends.failIf fun _ => trivial).bind fun _ _ => ?_
  refine Ends.bind (Q := fun _ => True) (Ends.foldlM trivial fun observed _ s _ => ?_)
    fun observed _ => ?_
  · refine (Ends.failIf fun _ => trivial).bind fun _ hlt => ?_
    -- the loop over the steps
    rw [ge_iff_le, UInt8.not_le, UInt8.lt_iff_toNat_lt] at hlt
    have hdiv : (s.stepIndex / 3).toNat = s.stepIndex.toNat / 3 := UInt8.toNat_div ..
    rw [bitU16_eq (by omega), Outcome.ok_bind]
    refine (Ends.failIf fun _ => trivial).bind fun _ _ => ?_
    refine Ends.bind (Q := fun _ => True) ?_ fun _ _ => ?_
    · exact (Ends.failIf fun _ => trivial).bind fun _ _ =>
        (Ends.failIf fun _ => trivial).bind fun _ _ =>
          (Ends.failIf fun _ => trivial).bind fun _ _ => (Ends.failIf fun _ => trivial).mono
            (fun _ _ => trivial) fun _ => id
    · dsimp only
      rw [hdiv, bitU16_eq (by omega), Outcome.ok_bind]
      exact (Ends.failIf fun _ => trivial).bind fun _ _ => trivial
  · refine Ends.bind (Q := fun _ => True) (Ends.forM fun i hi => ?_) fun _ _ => ?_
    -- the loop over the indices
    · have hi := List.mem_range.mp hi
      rw [checkIndex, bitU16_eq (by omega), Outcome.ok_bind, bitU16_eq (by omega), Outcome.ok_bind]
      exact (Ends.failIf fun _ => trivial).mono (fun _ _ => trivial) fun _ => id
    · obtain ⟨unavailable, hu, -⟩ := @exists_unavailable RecordError scan (by omega)
      rw [isTransportComplete_eq (by omega), Outcome.ok_bind, hu, Outcome.ok_bind]
      exact (Ends.failIf fun _ => trivial).mono (fun _ _ => trivial) fun _ => id

end ProfileScan

/-- The structural checks of a configuration never panic. -/
theorem DeviceConfiguration.validate_ne_panicked (c : DeviceConfiguration) :
    c.validate ≠ .error .panicked := by
  suffices h : Ends (fun _ => True) (fun _ => True) c.validate from h.ne_panicked
  refine (Ends.failIf fun _ => trivial).bind fun _ hexp => ?_
  rw [not_not, ProfileScan.expected_iff] at hexp
  have hmask : (expectedStepMask c.expectedStepCount : Outcome RecordError UInt16) = .ok _ :=
    maskU16_eq (by omega)
  refine (Ends.failIf fun _ => trivial).bind fun _ _ => ?_
  refine Ends.bind (Q := fun _ => True) (Ends.forM fun _ _ => ?_) fun _ _ => ?_
  · exact (Ends.failIf fun _ => trivial).mono (fun _ _ => trivial) fun _ => id
  · rw [hmask, Outcome.ok_bind]
    exact (Ends.failIf fun _ => trivial).mono (fun _ _ => trivial) fun _ => id

theorem DeviceConfiguration.expected_of_validate {c : DeviceConfiguration}
    (h : c.validate = .ok ()) :
    1 ≤ c.expectedStepCount.toNat ∧ c.expectedStepCount.toNat ≤ 10 := by
  rw [DeviceConfiguration.validate, Outcome.unit_bind_eq_ok, Outcome.failIf_eq_ok, not_not,
    ProfileScan.expected_iff] at h
  exact h.1

namespace ProfileScan

/-- A step is there and reported missing, while a fragment is lacking. -/
def Contradicted (scan : ProfileScan) : Prop :=
  scan.Windowed ∧ ¬ scan.AllReceived ∧
    ∃ i, scan.Carries i ∧ Bitmap.has scan.reportedMissingSteps i

theorem Windowed.exact_iff {scan : ProfileScan} (h : scan.Windowed) :
    scan.Exact ↔ ∀ i, scan.Carries i → Bitmap.has scan.reportedMissingSteps i = false := by
  constructor
  · intro he i hi
    exact ((he.present i).mp hi).2.2
  · intro hno
    refine ⟨h.toRegular, fun i => ⟨fun hi => ?_, fun ⟨hlt, hr, hm⟩ => h.covered i hlt hr hm⟩⟩
    obtain ⟨hlt, hr⟩ := h.within i hi
    exact ⟨hlt, hr, hno i hi⟩

theorem Exact.windowed {scan : ProfileScan} (h : scan.Exact) : scan.Windowed where
  toRegular := h.toRegular
  within i hi := ⟨((h.present i).mp hi).1, ((h.present i).mp hi).2.1⟩
  covered i hlt hr hm := (h.present i).mpr ⟨hlt, hr, hm⟩

/-- **The checks are exact on the received windows unless a step of an incomplete scan is reported
missing.** -/
theorem validate_exact_iff (scan : ProfileScan) :
    (scan.validate = .ok () ↔ scan.Exact) ↔ ¬ scan.Contradicted := by
  constructor
  · rintro hiff ⟨hw, hnot, i, hi, hm⟩
    have hvalid : scan.validate = .ok () := validate_eq_ok.mpr ⟨hw, fun hall => absurd hall hnot⟩
    rw [((hiff.mp hvalid).present i).mp hi |>.2.2] at hm
    cases hm
  · intro hno
    rw [validate_eq_ok]
    constructor
    · rintro ⟨hw, hall⟩
      refine hw.exact_iff.mpr fun i hi => ?_
      by_cases hr : scan.AllReceived
      · exact hall hr i hi
      · refine Bool.eq_false_iff.mpr fun hm => hno ⟨hw, hr, i, hi, hm⟩
    · intro he
      exact ⟨he.windowed, fun _ => he.windowed.exact_iff.mp he⟩

/-- Four expected steps of which the first three were received, and the first of these is reported
missing. -/
def contradictedScan : ProfileScan where
  identity := ⟨1, 1, 1, 1, 0, 1, 0⟩
  profileId := 1
  profileVersion := 1
  expectedSteps := 4
  observedUniqueSteps := 3
  observedFieldCount := 3
  reportedMissingSteps := 1
  duplicateSteps := 0
  durationUs := 0
  collectionFlags := 0
  finishReason := 0
  duplicateCount := 0
  overwrittenFieldCount := 0
  outOfOrderCount := 0
  ambiguousIndexJumpCount := 0
  invalidGasIndexCount := 0
  intermediateFieldCount := 0
  profileRolloverCount := 0
  fieldsAfterRolloverCount := 0
  pollCount := 0
  expectedFragmentCount := 2
  receivedFragmentBitmap := 1
  duplicateFragmentCount := 0
  conflictingFragmentCount := 0
  steps := [0, 1, 2].map fun i =>
    ⟨i, i, i, 0, i, 0, 0, 0, 0, 0, 0, 0, 0, 0, 0, 0, 0, 0, 0, 0, 0, 0⟩

theorem contradictedScan_accepted :
    ¬ (contradictedScan.validate = .ok () ↔ contradictedScan.Exact) := by
  intro hiff
  have hvalid : contradictedScan.validate = .ok () := by decide +kernel
  have hmissing := ((hiff.mp hvalid).present 0).mp (by decide +kernel)
  exact absurd hmissing.2.2 (by decide +kernel)

end ProfileScan

end Vesta.Receiver
