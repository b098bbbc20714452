import Vesta.Foundations.FirstWins
import Vesta.Receiver.Fragment
import Vesta.Receiver.Valid

/-!
# Receiver — Collection

The fragments of one scan, collected first come first served (`scanRule`).  An active scan is the
picture of such a collection (`ActiveProfile.of`): its slots, its bitmap, its sources and its
counters are functions of what was accepted and of how often a fragment was repeated or clashed.

The profile that a collection makes (`profileOf`) holds exactly the steps of the accepted
fragments, in strictly ascending order; it passes the structural checks of `records.rs`, and it
does not depend on the order of arrival except in the order of its sources.
-/

namespace Vesta.Receiver

open FirstWins (Rule Tally Verdict)
open Protocol (presentIn stepWindow fragmentsOf)

/-! ### Collections -/

/-- A fragment with its provenance. -/
structure Arrival where
  fragment : OwnedFragment
  source : SourceFragment
deriving DecidableEq

namespace Arrival

def key (a : Arrival) : ProfileKey := a.fragment.metadata.key

def index (a : Arrival) : Nat := a.fragment.fragmentIndex.toNat

/-- A well-formed fragment whose source names its index. -/
structure Proper (a : Arrival) : Prop where
  wellFormed : a.fragment.WellFormed
  source : a.source.fragmentIndex = a.fragment.fragmentIndex

end Arrival

abbrev ScanTally := Tally Arrival

/-- The first fragment fixes the metadata, and the first one at an index keeps it. -/
def scanRule : Rule Arrival OwnedFragment UInt8 ProfileMetadata :=
  ⟨(·.fragment), (·.fragmentIndex), (·.metadata), 65535⟩

/-- `t` collects proper fragments of the scan with metadata `m`. -/
structure ScanOf (m : ProfileMetadata) (t : ScanTally) : Prop where
  wellFormed : m.WellFormed
  uniform : scanRule.Uniform t.accepted
  metadata : ∀ a ∈ t.accepted, a.fragment.metadata = m
  proper : ∀ a ∈ t.accepted, a.Proper
  bounded : scanRule.Bounded t

/-- Every fragment of the scan was accepted. -/
def Full (m : ProfileMetadata) (accepted : List Arrival) : Prop :=
  ∀ i < m.expectedFragmentCount.toNat, ∃ a ∈ accepted, a.index = i

instance (m : ProfileMetadata) (accepted : List Arrival) : Decidable (Full m accepted) :=
  inferInstanceAs (Decidable (∀ i < _, _))

/-- The slots of an active scan. -/
def slots (m : ProfileMetadata) (accepted : List Arrival) : List (Option OwnedFragment) :=
  (List.range m.expectedFragmentCount.toNat).map fun i =>
    (accepted.find? fun a => decide (a.index = i)).map (·.fragment)

/-- The bitmap of an active scan. -/
def received (accepted : List Arrival) : UInt16 :=
  accepted.foldl (fun bitmap a => bitmap ||| Bitmap.bit a.index) 0

/-- The active scan that a collection makes. -/
def ActiveProfile.of (m : ProfileMetadata) (t : ScanTally) (lastObservedAt : Nat) :
    ActiveProfile where
  metadata := m
  fragments := slots m t.accepted
  sources := t.accepted.map (·.source)
  receivedFragmentBitmap := received t.accepted
  duplicateFragmentCount := t.repeats
  conflictingFragmentCount := t.clashes
  lastObservedAt := lastObservedAt

/-- The profile that a collection makes. -/
def profileOf (m : ProfileMetadata) (t : ScanTally) : ReassembledProfile :=
  (ActiveProfile.of m t 0).finish

theorem finish_of (m : ProfileMetadata) (t : ScanTally) (lastObservedAt : Nat) :
    (ActiveProfile.of m t lastObservedAt).finish = profileOf m t := rfl

namespace ScanOf

variable {m : ProfileMetadata} {t : ScanTally}

theorem empty (h : m.WellFormed) : ScanOf m .empty :=
  ⟨h, .nil, nofun, nofun, Rule.bounded_empty⟩

theorem step (h : ScanOf m t) {a : Arrival} (ha : a.Proper)
    (hm : t.accepted = [] → a.fragment.metadata = m) : ScanOf m (scanRule.step t a) := by
  have htag : scanRule.verdict t.accepted a.fragment = .fresh → a.fragment.metadata = m := by
    intro hv
    cases ht : t.accepted with
    | nil => exact hm ht
    | cons b bs =>
        have hb : b ∈ t.accepted := ht ▸ List.mem_cons_self
        exact (Rule.verdict_eq_fresh.mp hv b hb).2.symm.trans (h.metadata b hb)
  refine ⟨h.wellFormed, Rule.step_uniform h.uniform, ?_, ?_, Rule.step_bounded h.bounded⟩
  all_goals
    rcases Rule.step_accepted (R := scanRule) (t := t) (a := a) with he | ⟨hv, he⟩
    · rw [he]
      first | exact h.metadata | exact h.proper
    · rw [he]
      intro b hb
      rcases List.mem_append.mp hb with hb | hb
      · first | exact h.metadata b hb | exact h.proper b hb
      · rw [List.mem_singleton.mp hb]
        first | exact htag hv | exact ha

theorem index_lt (h : ScanOf m t) {a : Arrival} (ha : a ∈ t.accepted) :
    a.index < m.expectedFragmentCount.toNat :=
  h.metadata a ha ▸ (h.proper a ha).wellFormed.index_lt

theorem index_lt_four (h : ScanOf m t) {a : Arrival} (ha : a ∈ t.accepted) : a.index < 4 :=
  (h.proper a ha).wellFormed.index_lt_four

theorem eq_of_index (h : ScanOf m t) {a b : Arrival} (ha : a ∈ t.accepted) (hb : b ∈ t.accepted)
    (hi : a.index = b.index) : a = b :=
  h.uniform.eq_of_slot ha hb (UInt8.toNat_inj.mp hi)

theorem nodup (h : ScanOf m t) : t.accepted.Nodup := h.uniform.slots.of_map

/-- A scan has a fragment for each index at most. -/
theorem length_le (h : ScanOf m t) : t.accepted.length ≤ 4 := by
  have hnd : (t.accepted.map Arrival.index).Nodup := h.nodup.map_on fun a ha b hb he =>
    h.eq_of_index ha hb he
  have hsub : t.accepted.map Arrival.index ⊆ List.range 4 := fun i hi =>
    let ⟨a, ha, hai⟩ := List.mem_map.mp hi
    List.mem_range.mpr (hai ▸ h.index_lt_four ha)
  simpa using (List.subperm_of_subset hnd hsub).length_le

theorem perm (h : ScanOf m t) {t' : ScanTally} (ht : t.Equiv t') : ScanOf m t' where
  wellFormed := h.wellFormed
  uniform := h.uniform.perm ht.accepted
  metadata a ha := h.metadata a (ht.accepted.mem_iff.mpr ha)
  proper a ha := h.proper a (ht.accepted.mem_iff.mpr ha)
  bounded := ⟨ht.repeats ▸ h.bounded.repeats, ht.clashes ▸ h.bounded.clashes⟩

/-- The fragment found at an index is the accepted one. -/
theorem find_eq (h : ScanOf m t) {a : Arrival} {i : Nat} :
    t.accepted.find? (fun a => decide (a.index = i)) = some a ↔ a ∈ t.accepted ∧ a.index = i := by
  constructor
  · intro hf
    exact ⟨List.mem_of_find?_eq_some hf, by simpa using List.find?_some hf⟩
  · rintro ⟨ha, rfl⟩
    cases hf : t.accepted.find? fun b => decide (b.index = a.index) with
    | none => simpa using List.find?_eq_none.mp hf a ha
    | some b =>
        have hb := List.find?_some hf
        rw [h.eq_of_index (List.mem_of_find?_eq_some hf) ha (by simpa using hb)]

theorem find_eq_none {accepted : List Arrival} {i : Nat} :
    accepted.find? (fun a => decide (a.index = i)) = none ↔ ∀ a ∈ accepted, a.index ≠ i := by
  simp [List.find?_eq_none]

theorem find_perm (h : ScanOf m t) {t' : ScanTally} (ht : t.Equiv t') (i : Nat) :
    t.accepted.find? (fun a => decide (a.index = i)) =
      t'.accepted.find? (fun a => decide (a.index = i)) := by
  refine Option.ext fun a => ?_
  rw [h.find_eq, (h.perm ht).find_eq, ht.accepted.mem_iff]

end ScanOf

/-! ### The bitmap -/

theorem received_append (accepted : List Arrival) (a : Arrival) :
    received (accepted ++ [a]) = received accepted ||| Bitmap.bit a.index := by
  simp [received]

namespace ScanOf

variable {m : ProfileMetadata} {t : ScanTally} (h : ScanOf m t)
include h

theorem has_received (i : Nat) :
    Bitmap.has (received t.accepted) i ↔ ∃ a ∈ t.accepted, a.index = i := by
  have hbit : ∀ a ∈ t.accepted, (Bitmap.has (Bitmap.bit a.index) i ↔ a.index = i) := by
    intro a ha
    rw [Bitmap.has_bit (lt_trans (h.index_lt_four ha) (by decide)), decide_eq_true_eq, eq_comm]
  rw [received, Bitmap.has_foldl_or]
  simpa using exists_congr fun a => and_congr_right (hbit a)

theorem fragmentMask_eq {ε : Type} : (fragmentMask m.expectedFragmentCount : Outcome ε UInt16) =
    .ok (Bitmap.lowMask m.expectedFragmentCount.toNat) :=
  maskU16_eq (lt_of_le_of_lt h.wellFormed.fragments_le (by decide))

/-- The bitmap is full exactly when every fragment was accepted. -/
theorem received_eq_mask : received t.accepted = Bitmap.lowMask m.expectedFragmentCount.toNat ↔
    Full m t.accepted := by
  have h16 : m.expectedFragmentCount.toNat < 16 :=
    lt_of_le_of_lt h.wellFormed.fragments_le (by decide)
  constructor
  · intro he i hi
    rw [← h.has_received, he, Bitmap.has_lowMask h16]
    exact decide_eq_true hi
  · intro hf
    refine Bitmap.ext fun i _ => Bool.eq_iff_iff.mpr ?_
    rw [h.has_received, Bitmap.has_lowMask h16, decide_eq_true_eq]
    exact ⟨fun ⟨a, ha, hi⟩ => hi ▸ h.index_lt ha, hf i⟩

theorem received_perm {t' : ScanTally} (ht : t.Equiv t') :
    received t.accepted = received t'.accepted := by
  refine Bitmap.ext fun i _ => Bool.eq_iff_iff.mpr ?_
  simp only [h.has_received, (h.perm ht).has_received, ht.accepted.mem_iff]

end ScanOf

theorem Full.perm {m : ProfileMetadata} {accepted accepted' : List Arrival}
    (h : Full m accepted) (hp : accepted.Perm accepted') : Full m accepted' := fun i hi => by
  obtain ⟨a, ha, he⟩ := h i hi
  exact ⟨a, hp.mem_iff.mp ha, he⟩

/-- A full collection accepts nothing. -/
theorem Full.not_fresh {m : ProfileMetadata} {t : ScanTally} (hs : ScanOf m t)
    (h : Full m t.accepted) {a : Arrival} (ha : a.Proper) :
    scanRule.verdict t.accepted a.fragment ≠ .fresh := by
  intro hv
  have hf := Rule.verdict_eq_fresh.mp hv
  obtain ⟨b, hb, -⟩ := h 0 hs.wellFormed.fragments_pos
  have hm : m = a.fragment.metadata := (hs.metadata b hb).symm.trans (hf b hb).2
  obtain ⟨c, hc, hi⟩ := h a.index (hm ▸ ha.wellFormed.index_lt)
  exact (hf c hc).1 (UInt8.toNat_inj.mp hi)

theorem Full.ne_nil {m : ProfileMetadata} {t : ScanTally} (hs : ScanOf m t)
    (h : Full m t.accepted) : t.accepted ≠ [] := by
  obtain ⟨a, ha, -⟩ := h 0 hs.wellFormed.fragments_pos
  exact List.ne_nil_of_mem ha

theorem Full.step {m : ProfileMetadata} {t : ScanTally} (hs : ScanOf m t)
    (h : Full m t.accepted) {a : Arrival} (ha : a.Proper) :
    (scanRule.step t a).accepted = t.accepted ∧ ScanOf m (scanRule.step t a) := by
  refine ⟨?_, hs.step ha fun he => absurd he (h.ne_nil hs)⟩
  rcases Rule.step_accepted (R := scanRule) (t := t) (a := a) with he | ⟨hv, -⟩
  · exact he
  · exact absurd hv (h.not_fresh hs ha)

theorem Full.collect {m : ProfileMetadata} {t : ScanTally} (hs : ScanOf m t)
    (h : Full m t.accepted) {as : List Arrival} (has : ∀ a ∈ as, a.Proper) :
    (scanRule.collect t as).accepted = t.accepted := by
  induction as generalizing t with
  | nil => rfl
  | cons a as ih =>
      obtain ⟨ha, has⟩ := List.forall_mem_cons.mp has
      obtain ⟨he, hs'⟩ := h.step hs ha
      rw [Rule.collect_cons, ih hs' (he ▸ h) has, he]

/-! ### The slots -/

@[simp] theorem length_slots (m : ProfileMetadata) (accepted : List Arrival) :
    (slots m accepted).length = m.expectedFragmentCount.toNat := by simp [slots]

theorem slots_nil (m : ProfileMetadata) :
    slots m [] = List.replicate m.expectedFragmentCount.toNat none := by
  simp [slots]

theorem getElem?_slots {m : ProfileMetadata} {accepted : List Arrival} {i : Nat}
    (h : i < m.expectedFragmentCount.toNat) :
    (slots m accepted)[i]? =
      some ((accepted.find? fun a => decide (a.index = i)).map (·.fragment)) := by
  simp [slots, h]

/-- A fragment at an empty index joins the slots. -/
theorem slots_append {m : ProfileMetadata} {accepted : List Arrival} {a : Arrival}
    (h : ∀ b ∈ accepted, b.index ≠ a.index) :
    slots m (accepted ++ [a]) = (slots m accepted).set a.index (some a.fragment) := by
  refine List.ext_getElem? fun i => ?_
  rw [List.getElem?_set]
  by_cases hi : i < m.expectedFragmentCount.toNat
  · rw [getElem?_slots hi, List.find?_append]
    by_cases he : a.index = i
    · subst he
      rw [ScanOf.find_eq_none.mpr h]
      simp [hi]
    · simp [he, getElem?_slots hi]
  · rw [List.getElem?_eq_none (by simpa using hi)]
    split
    · next he => simp [he, hi]
    · exact (List.getElem?_eq_none (by simpa using hi)).symm

/-- The accepted fragments in the order of their indices. -/
theorem filterMap_slots (m : ProfileMetadata) (accepted : List Arrival) :
    (slots m accepted).filterMap id =
      ((List.range m.expectedFragmentCount.toNat).filterMap fun i =>
        accepted.find? fun a => decide (a.index = i)).map (·.fragment) := by
  simp [slots, List.filterMap_map, List.map_filterMap]

namespace ScanOf

variable {m : ProfileMetadata} {t : ScanTally} (h : ScanOf m t)
include h

theorem slots_perm {t' : ScanTally} (ht : t.Equiv t') :
    slots m t.accepted = slots m t'.accepted := by
  simp only [slots, h.find_perm ht]

theorem perm_sorted : ((List.range m.expectedFragmentCount.toNat).filterMap fun i =>
    t.accepted.find? fun a => decide (a.index = i)).Perm t.accepted := by
  refine (List.perm_ext_iff_of_nodup ?_ h.nodup).mpr fun a => ?_
  · refine List.Nodup.filterMap ?_ List.nodup_range
    intro i j a hi hj
    rw [← (h.find_eq.mp hi).2, (h.find_eq.mp hj).2]
  · rw [List.mem_filterMap]
    constructor
    · rintro ⟨i, -, hi⟩
      exact (h.find_eq.mp hi).1
    · intro ha
      exact ⟨a.index, List.mem_range.mpr (h.index_lt ha), h.find_eq.mpr ⟨ha, rfl⟩⟩

/-- Index after index, the steps of the accepted fragments ascend. -/
theorem steps_ascending : (((slots m t.accepted).filterMap id).flatMap (·.steps)).Pairwise
    fun s s' => s.stepIndex < s'.stepIndex := by
  rw [filterMap_slots, List.flatMap_map, List.pairwise_flatMap]
  constructor
  · intro a ha
    exact (h.proper a (h.perm_sorted.mem_iff.mp ha)).wellFormed.steps_ascending
  · refine List.pairwise_filterMap.mpr (List.pairwise_lt_range.imp ?_)
    intro i j hij a hi b hj s hs s' hs'
    obtain ⟨ha, rfl⟩ := h.find_eq.mp hi
    obtain ⟨hb, rfl⟩ := h.find_eq.mp hj
    have hs := ((h.proper a ha).wellFormed.step_div hs).1
    have hs' := ((h.proper b hb).wellFormed.step_div hs').1
    rw [UInt8.lt_iff_toNat_lt]
    simp only [Arrival.index] at hij
    omega

/-- Sorting leaves the steps as they are. -/
theorem steps_eq : (profileOf m t).scan.steps =
    ((slots m t.accepted).filterMap id).flatMap (·.steps) :=
  (h.steps_ascending.imp fun hlt => UInt8.le_of_lt hlt).insertionSort_eq

theorem steps_profileOf :
    (profileOf m t).scan.steps.Pairwise fun s s' => s.stepIndex < s'.stepIndex :=
  h.steps_eq ▸ h.steps_ascending

/-- The profile has the steps of the accepted fragments and no others. -/
theorem perm_steps : (profileOf m t).scan.steps.Perm (t.accepted.flatMap (·.fragment.steps)) := by
  rw [h.steps_eq, filterMap_slots, List.flatMap_map]
  exact h.perm_sorted.flatMap_right _

/-- The order of arrival shows in the order of the sources only. -/
theorem scan_perm {t' : ScanTally} (ht : t.Equiv t') :
    (profileOf m t).scan = (profileOf m t').scan := by
  simp only [profileOf, ActiveProfile.finish, ActiveProfile.of, h.slots_perm ht,
    h.received_perm ht, ht.repeats, ht.clashes]

end ScanOf

/-! ### Contents -/

section
variable {m : ProfileMetadata} {t t' : ScanTally}
  (hacc : t.accepted.map (·.fragment) = t'.accepted.map (·.fragment))
include hacc

theorem full_contents : Full m t.accepted ↔ Full m t'.accepted := by
  have hfull : ∀ accepted : List Arrival, Full m accepted ↔
      ∀ i < m.expectedFragmentCount.toNat, ∃ f ∈ accepted.map (·.fragment),
        f.fragmentIndex.toNat = i :=
    fun accepted => forall₂_congr fun i _ => by simp [Arrival.index]
  rw [hfull, hfull, hacc]

theorem received_contents : received t.accepted = received t'.accepted := by
  have hfold : ∀ accepted : List Arrival, received accepted =
      (accepted.map (·.fragment)).foldl
        (fun bitmap f => bitmap ||| Bitmap.bit f.fragmentIndex.toNat) 0 := fun accepted => by
    rw [List.foldl_map]
    rfl
  rw [hfold, hfold, hacc]

theorem slots_contents : slots m t.accepted = slots m t'.accepted := by
  refine List.map_congr_left fun i _ => ?_
  have hfind : ∀ accepted : List Arrival,
      (accepted.find? fun a => decide (a.index = i)).map (·.fragment) =
        (accepted.map (·.fragment)).find? fun f => decide (f.fragmentIndex.toNat = i) := by
    intro accepted
    rw [List.find?_map]
    rfl
  rw [hfind, hfind, hacc]

/-- The profile depends on where its fragments came from in its sources only. -/
theorem scan_contents (hr : t.repeats = t'.repeats) (hc : t.clashes = t'.clashes) :
    (profileOf m t).scan = (profileOf m t').scan := by
  simp only [profileOf, ActiveProfile.finish, ActiveProfile.of, slots_contents hacc,
    received_contents hacc, hr, hc]

end

/-! ### Collecting -/

/-- The fragments of one key form a collection. -/
theorem scanOf_collect {as : List Arrival} (has : ∀ a ∈ as, a.Proper) (hne : as ≠ []) :
    ∃ m, ScanOf m (scanRule.collect .empty as) ∧
      (scanRule.collect .empty as).accepted ≠ [] := by
  induction as using List.reverseRecOn with
  | nil => exact absurd rfl hne
  | append_singleton as a ih =>
      have ha := has a (by simp)
      rw [Rule.collect_concat]
      by_cases hnil : as = []
      · subst hnil
        have hv : scanRule.verdict (Tally.empty : ScanTally).accepted a.fragment = .fresh :=
          Rule.verdict_nil
        refine ⟨a.fragment.metadata,
          (ScanOf.empty ha.wellFormed.metadata).step ha fun _ => rfl, ?_⟩
        rw [Rule.collect_nil, Rule.step_fresh (R := scanRule) hv]
        simp
      · obtain ⟨m, hm, hacc⟩ := ih (fun b hb => has b (List.mem_append_left _ hb)) hnil
        refine ⟨m, hm.step ha fun he => absurd he hacc, fun he => hacc ?_⟩
        have hp : _ <+: (scanRule.collect (scanRule.collect .empty as) [a]).accepted :=
          Rule.accepted_prefix
        rw [Rule.collect_cons, Rule.collect_nil, he] at hp
        exact List.prefix_nil.mp hp

/-! ### Validity -/

namespace ScanOf

variable {m : ProfileMetadata} {t : ScanTally} (h : ScanOf m t)
include h

/-- A step of the profile comes from an accepted fragment. -/
theorem exists_fragment {s : ProfileStep} (hs : s ∈ (profileOf m t).scan.steps) :
    ∃ a ∈ t.accepted, s ∈ a.fragment.steps :=
  List.mem_flatMap.mp (h.perm_steps.mem_iff.mp hs)

/-- A step that its received fragment does not report missing is in the profile. -/
theorem exists_step {a : Arrival} (ha : a ∈ t.accepted) {i : Nat} (hi : i / 3 = a.index)
    (hn : i < m.expectedSteps.toNat) (hm : Bitmap.has m.reportedMissingSteps i = false) :
    ∃ s ∈ (profileOf m t).scan.steps, s.stepIndex.toNat = i := by
  have hmem : i ∈ a.fragment.steps.map fun s => s.stepIndex.toNat := by
    rw [(h.proper a ha).wellFormed.steps, h.metadata a ha, presentIn, List.mem_filter,
      Protocol.mem_stepWindow, hm]
    simp only [Arrival.index] at hi
    exact ⟨by omega, rfl⟩
  obtain ⟨s, hs, hsi⟩ := List.mem_map.mp hmem
  exact ⟨s, h.perm_steps.mem_iff.mpr (List.mem_flatMap.mpr ⟨a, ha, hs⟩), hsi⟩

/-- A step of the profile is not reported missing. -/
theorem not_missing {s : ProfileStep} (hs : s ∈ (profileOf m t).scan.steps) :
    Bitmap.has m.reportedMissingSteps s.stepIndex.toNat = false := by
  obtain ⟨a, ha, hsa⟩ := h.exists_fragment hs
  have hmem : s.stepIndex.toNat ∈ a.fragment.steps.map fun s => s.stepIndex.toNat :=
    List.mem_map_of_mem hsa
  rw [(h.proper a ha).wellFormed.steps, h.metadata a ha, presentIn, List.mem_filter,
    Bool.not_eq_true'] at hmem
  exact hmem.2

theorem isTransportComplete {ε : Type} :
    ((profileOf m t).scan.isTransportComplete : Outcome ε Bool) =
      .ok (decide (Full m t.accepted)) := by
  have h16 : (profileOf m t).scan.expectedFragmentCount.toNat < 16 :=
    lt_of_le_of_lt h.wellFormed.fragments_le (by decide)
  rw [ProfileScan.isTransportComplete_eq h16]
  refine congrArg Except.ok (decide_eq_decide.mpr ?_)
  exact forall₂_congr fun k _ => h.has_received k

/-- The counts, the bitmaps and the steps of the profile are regular. -/
theorem regular : (profileOf m t).scan.Regular where
  expected := ⟨h.wellFormed.expectedSteps_pos, h.wellFormed.expectedSteps_le⟩
  fragments := h.wellFormed.toNat_fragments
  missing := h.wellFormed.missing
  duplicate := h.wellFormed.duplicate
  received k hk := by
    obtain ⟨a, ha, rfl⟩ := (h.has_received k).mp hk
    exact h.index_lt ha
  observed := by
    have hle := Bitmap.countOnes_le (le_trans h.wellFormed.expectedSteps_le (by decide))
      h.wellFormed.missing
    have hcount : (UInt8.ofNat (Bitmap.countOnes m.reportedMissingSteps)).toNat =
        Bitmap.countOnes m.reportedMissingSteps :=
      UInt8.toNat_ofNat_of_lt'
        (lt_of_le_of_lt (hle.trans h.wellFormed.expectedSteps_le) (by decide))
    show m.observedUniqueSteps.toNat = _
    rw [h.wellFormed.observed, UInt8.toNat_sub_of_le _ _ (by
      rw [UInt8.le_iff_toNat_le, hcount]
      exact hle), hcount]
    rfl
  fields := by
    have hfields := h.wellFormed.fields
    rw [UInt16.not_lt, UInt16.le_iff_toNat_le, UInt8.toNat_toUInt16] at hfields
    exact hfields
  consistent s hs := by
    obtain ⟨a, ha, hsa⟩ := h.exists_fragment hs
    exact (h.proper a ha).wellFormed.consistent s hsa
  nodup := List.pairwise_map.mpr (h.steps_profileOf.imp fun hlt =>
    (UInt8.lt_iff_toNat_lt.mp hlt).ne)

/-- **The profile of a collection is valid.** -/
theorem validate : (profileOf m t).scan.validate = .ok () := by
  refine ProfileScan.validate_eq_ok.mpr ⟨⟨h.regular, ?_, ?_⟩, ?_⟩
  · rintro i ⟨s, hs, rfl⟩
    obtain ⟨a, ha, hsa⟩ := h.exists_fragment hs
    obtain ⟨hdiv, hlt⟩ := (h.proper a ha).wellFormed.step_div hsa
    exact ⟨h.metadata a ha ▸ hlt, (h.has_received _).mpr ⟨a, ha, hdiv.symm⟩⟩
  · intro i hi hr hm
    obtain ⟨a, ha, hai⟩ := (h.has_received _).mp hr
    exact h.exists_step ha hai.symm hi hm
  · rintro - i ⟨s, hs, rfl⟩
    exact h.not_missing hs

end ScanOf

end Vesta.Receiver
