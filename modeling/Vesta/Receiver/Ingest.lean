import Vesta.Receiver.Collection

/-!
# Receiver — Ingest

What `ingest_at` does, in terms of collections.  Whether the scan of a fragment is new, active or
in the completed queue, the event is the one that its collection gives (`eventOf`); the active scan
becomes the picture of the collection after the step, and a scan whose last fragment arrives moves
to the completed queue (`ingestActive_eq`, `classify_eq`).
-/

namespace Vesta.Receiver

open FirstWins (Rule Tally Verdict)

/-- The event of a fragment whose scan has been collected to `t`. -/
def eventOf (t : ScanTally) (a : Arrival) : FragmentEvent :=
  match scanRule.verdict t.accepted a.fragment with
  | .repeated => .duplicate a.key a.fragment.fragmentIndex
  | .clash => .conflict a.key a.fragment.fragmentIndex
  | .fresh =>
      let m := a.fragment.metadata
      let t := scanRule.step t a
      if Full m t.accepted then .complete (profileOf m t)
      else .pending ⟨a.key, received t.accepted,
        Bitmap.lowMask m.expectedFragmentCount.toNat &&& ~~~received t.accepted⟩

theorem eventOf_pending {t : ScanTally} {a : Arrival}
    (hv : scanRule.verdict t.accepted a.fragment = .fresh)
    (hf : ¬ Full a.fragment.metadata (scanRule.step t a).accepted) :
    ∃ progress, eventOf t a = .pending progress := by
  rw [eventOf, hv]
  exact ⟨_, if_neg hf⟩

theorem eventOf_complete {t : ScanTally} {a : Arrival}
    (hv : scanRule.verdict t.accepted a.fragment = .fresh)
    (hf : Full a.fragment.metadata (scanRule.step t a).accepted) :
    eventOf t a = .complete (profileOf a.fragment.metadata (scanRule.step t a)) := by
  rw [eventOf, hv]
  exact if_pos hf

namespace ActiveProfile

variable {m : ProfileMetadata} {t : ScanTally} {a : Arrival} {last : Nat}

theorem new_eq (f : OwnedFragment) (observedAt : Nat) :
    new f observedAt = of f.metadata .empty observedAt := by
  simp [new, of, Tally.empty, slots_nil, received]

theorem addConflicts_of (hv : scanRule.verdict t.accepted a.fragment = .clash) :
    (of m t last).addConflicts 1 = of m (scanRule.step t a) last := by
  rw [Rule.step_clash (R := scanRule) hv]
  rfl

theorem addDuplicates_of (hv : scanRule.verdict t.accepted a.fragment = .repeated) :
    (of m t last).addDuplicates 1 = of m (scanRule.step t a) last := by
  rw [Rule.step_repeated (R := scanRule) hv]
  rfl

theorem accept_of {ε : Type} (ha : a.Proper)
    (hv : scanRule.verdict t.accepted a.fragment = .fresh) (observedAt : Nat) :
    ((of m t last).accept a.fragment a.source observedAt : Outcome ε ActiveProfile) =
      .ok (of m (scanRule.step t a) (max last observedAt)) := by
  have hne : ∀ b ∈ t.accepted, b.index ≠ a.index := fun b hb he =>
    (Rule.verdict_eq_fresh.mp hv b hb).1 (UInt8.toNat_inj.mp he)
  have h16 : a.fragment.fragmentIndex.toNat < 16 :=
    lt_trans ha.wellFormed.index_lt_four (by decide)
  rw [accept, bitU16_eq h16, Outcome.ok_bind, Rule.step_fresh (R := scanRule) hv]
  simp only [of, slots_append hne, received_append, List.map_append, List.map_singleton]
  rfl

end ActiveProfile

/-- The slot of a fragment of the scan holds what the verdict says. -/
theorem index_slots {ε : Type} {m : ProfileMetadata} {t : ScanTally} {a : Arrival}
    (ha : a.Proper) (hm : a.fragment.metadata = m) :
    (Vesta.index (slots m t.accepted) a.fragment.fragmentIndex.toNat :
      Outcome ε (Option OwnedFragment)) =
        .ok ((t.accepted.find? fun b => decide (b.index = a.index)).map (·.fragment)) := by
  rw [index_eq_ok]
  exact getElem?_slots (hm ▸ ha.wellFormed.index_lt)

section
variable {m : ProfileMetadata} {t : ScanTally} (h : ScanOf m t) {a : Arrival}
include h

/-- A fragment of the scan is fresh exactly when its slot is empty. -/
theorem fresh_iff (hm : a.fragment.metadata = m) :
    scanRule.verdict t.accepted a.fragment = .fresh ↔ ∀ b ∈ t.accepted, b.index ≠ a.index := by
  rw [Rule.verdict_eq_fresh]
  refine forall₂_congr fun b hb => ?_
  have htag : b.fragment.metadata = a.fragment.metadata := (h.metadata b hb).trans hm.symm
  constructor
  · rintro ⟨hs, -⟩ he
    exact hs (UInt8.toNat_inj.mp he)
  · intro hne
    exact ⟨fun hs => hne (congrArg UInt8.toNat hs), htag⟩

/-- In a filled slot, the verdict compares. -/
theorem verdict_of_find {b : Arrival} (hb : b ∈ t.accepted) (hi : b.index = a.index) :
    scanRule.verdict t.accepted a.fragment =
      if b.fragment = a.fragment then .repeated else .clash :=
  h.uniform.verdict_of_slot hb (UInt8.toNat_inj.mp hi)

/-- A fragment with other metadata clashes with any that was accepted. -/
theorem verdict_of_metadata (hne : t.accepted ≠ []) (hm : a.fragment.metadata ≠ m) :
    scanRule.verdict t.accepted a.fragment = .clash := by
  obtain ⟨b, hb⟩ := List.exists_mem_of_ne_nil _ hne
  exact Rule.verdict_of_tag hb (fun he => hm (he.symm.trans (h.metadata b hb))) h.uniform

end

/-! ### Active scans -/

theorem erase_insert (s : AList fun _ : ProfileKey => ActiveProfile) (key : ProfileKey)
    (a : ActiveProfile) : (s.insert key a).erase key = s.erase key := by
  refine AList.ext ?_
  show List.kerase key (⟨key, a⟩ :: List.kerase key s.entries) = List.kerase key s.entries
  exact List.eraseP_cons_of_pos (by simp)

theorem ProfileReassembler.complete_put (r : ProfileReassembler) (key : ProfileKey)
    (a b : ActiveProfile) : (r.put key a).complete key b = r.complete key b := by
  simp only [complete, put, remove, erase_insert]

/-- What `ingestActive` returns when the scan of the fragment, after the eviction, is the picture
of the collection `t`. -/
theorem ProfileReassembler.ingestActive_eq {r r' : ProfileReassembler} {order : HashOrder}
    {evicted : Option ReassembledProfile} {a : Arrival} {observedAt last : Nat}
    {m : ProfileMetadata} {t : ScanTally} (hev : r.evictFor order a.key = (evicted, r'))
    (hact : (r'.active.lookup a.key).getD (.new a.fragment observedAt) = .of m t last)
    (h : ScanOf m t) (ha : a.Proper) (hm : t.accepted = [] → a.fragment.metadata = m) :
    r.ingestActive order a.fragment a.source observedAt =
      .ok (match scanRule.verdict t.accepted a.fragment with
        | .fresh =>
            if Full m (scanRule.step t a).accepted then
              (⟨eventOf t a, evicted, none⟩,
                r'.complete a.key (.of m (scanRule.step t a) (max last observedAt)))
            else
              (⟨eventOf t a, evicted, none⟩,
                r'.put a.key (.of m (scanRule.step t a) (max last observedAt)))
        | _ =>
            (⟨eventOf t a, evicted, some (profileOf m (scanRule.step t a))⟩,
              r'.put a.key (.of m (scanRule.step t a) last))) := by
  have hkey : a.fragment.metadata.key = a.key := rfl
  have hmeta : ∀ t last, (ActiveProfile.of m t last).metadata = m := fun _ _ => rfl
  rw [ingestActive, hkey, hev]
  dsimp only
  rw [hact, hmeta]
  by_cases hma : a.fragment.metadata = m
  -- of the scan's metadata: the slot decides
  · rw [if_neg (not_not.mpr hma.symm)]
    have hindex := index_slots (ε := ReassemblyError) (t := t) ha hma
    rw [show (ActiveProfile.of m t last).fragments = slots m t.accepted from rfl, hindex,
      Outcome.ok_bind]
    cases hf : t.accepted.find? fun b => decide (b.index = a.index) with
    | some b =>
        obtain ⟨hb, hi⟩ := h.find_eq.mp hf
        have hv := verdict_of_find h hb hi
        by_cases he : b.fragment = a.fragment
        · rw [if_pos he] at hv
          simp only [Option.map_some, he, if_true, hv, ActiveProfile.addDuplicates_of hv, eventOf]
          rfl
        · rw [if_neg he] at hv
          simp only [Option.map_some, he, if_false, hv, ActiveProfile.addConflicts_of hv, eventOf]
          rfl
    | none =>
        have hv := (fresh_iff h hma).mpr (ScanOf.find_eq_none.mp hf)
        have hs := h.step ha hm
        simp only [Option.map_none, ActiveProfile.accept_of ha hv, Outcome.ok_bind, hmeta,
          hs.fragmentMask_eq, hv]
        -- an empty slot takes the fragment; the scan may be full then
        have hfull : (ActiveProfile.of m (scanRule.step t a)
            (max last observedAt)).receivedFragmentBitmap =
              Bitmap.lowMask m.expectedFragmentCount.toNat ↔ Full m (scanRule.step t a).accepted :=
          hs.received_eq_mask
        by_cases hF : Full m (scanRule.step t a).accepted
        · simp only [if_pos (hfull.mpr hF), if_pos hF, put, AList.lookup_insert, eventOf, hv, hma]
          rw [← complete_put r' a.key (.of m (scanRule.step t a) (max last observedAt))]
          rfl
        · simp only [if_neg (mt hfull.mp hF), if_neg hF, eventOf, hv, hma]
          rfl
  -- of other metadata, which an empty collection cannot be
  · have hne : t.accepted ≠ [] := fun he => hma (hm he)
    have hv := verdict_of_metadata h hne hma
    rw [if_pos (Ne.symm hma)]
    simp only [hv, ActiveProfile.addConflicts_of hv, eventOf]
    rfl

/-! ### Completed scans -/

/-- A late fragment of a completed scan is a duplicate or a conflict. -/
theorem CompletedProfile.classify_cases (c : CompletedProfile) (f : OwnedFragment) :
    c.classify f = .duplicate f.metadata.key f.fragmentIndex ∨
      c.classify f = .conflict f.metadata.key f.fragmentIndex := by
  rw [classify]
  split
  · split
    · exact .inl rfl
    · exact .inr rfl
  · exact .inr rfl

/-- A late fragment of a completed scan gets the event of its collection. -/
theorem CompletedProfile.classify_eq {c : CompletedProfile} {a : Arrival} {m : ProfileMetadata}
    {t : ScanTally} (hc : c.fragments = slots m t.accepted) (h : ScanOf m t)
    (hf : Full m t.accepted) (ha : a.Proper) : c.classify a.fragment = eventOf t a := by
  obtain ⟨first, hfirst, -⟩ := hf 0 h.wellFormed.fragments_pos
  rw [classify, hc]
  by_cases hi : a.fragment.fragmentIndex.toNat < m.expectedFragmentCount.toNat
  · obtain ⟨b, hb, hbi⟩ := hf _ hi
    have hv := verdict_of_find h (a := a) hb hbi
    rw [getElem?_slots hi, h.find_eq.mpr ⟨hb, hbi⟩]
    by_cases he : b.fragment = a.fragment
    · rw [if_pos he] at hv
      simp only [Option.map_some, if_pos he, eventOf, hv]
      rfl
    · rw [if_neg he] at hv
      simp only [Option.map_some, if_neg he, eventOf, hv]
      rfl
  · -- an index the scan does not have comes with another fragment count
    have hne : a.fragment.metadata ≠ m := fun he => hi (he ▸ ha.wellFormed.index_lt)
    have hv := verdict_of_metadata h (List.ne_nil_of_mem hfirst) hne
    rw [List.getElem?_eq_none (by simpa using hi)]
    simp only [eventOf, hv]
    rfl

end Vesta.Receiver
