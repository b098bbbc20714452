import Vesta.Receiver.Balance

/-!
# Receiver — Storable

What the reassembler hands out can be stored.  Whether a scan is complete, evicted, expired,
drained or only looked at, its profile passes the structural checks of `records.rs` and names a
source; it is transport-complete exactly when it was handed out as complete.
-/

namespace Vesta.Receiver

open FirstWins (Rule Tally Verdict)

/-- The profile is valid and has a source; `complete` says whether all fragments were received. -/
structure Storable (profile : ReassembledProfile) (complete : Bool) : Prop where
  valid : profile.scan.validate = .ok ()
  sources : profile.fragments ≠ []
  transport : ∀ ε : Type, (profile.scan.isTransportComplete : Outcome ε Bool) = .ok complete

theorem storable_profileOf {m : ProfileMetadata} {t : ScanTally} (h : ScanOf m t)
    (hne : t.accepted ≠ []) : Storable (profileOf m t) (decide (Full m t.accepted)) where
  valid := h.validate
  sources hnil := hne (List.map_eq_nil_iff.mp hnil)
  transport _ := h.isTransportComplete

/-- The profile of an active scan, as it stands. -/
theorem ActiveProfile.Sound.storable {key : ProfileKey} {a : ActiveProfile} (h : a.Sound key) :
    Storable a.finish false := by
  have hs := storable_profileOf h.scan h.some
  rw [decide_eq_false h.lacking] at hs
  rw [h.picture, finish_of]
  exact hs

/-- The profile that a call handed out as complete. -/
def completedBy : Output → List ReassembledProfile
  | .ingested (.ok result) => result.event.completed.toList
  | _ => []

/-- The profiles that a call handed out as they stood: evicted ones, integrity snapshots, expired
and drained ones. -/
def partialsBy : Output → List ReassembledProfile
  | .ingested (.ok result) => result.evicted.toList ++ result.integritySnapshot.toList
  | .profiles profiles => profiles
  | _ => []

/-- Every profile that a call handed out can be stored. -/
def AllStorable (output : Output) : Prop :=
  (∀ p ∈ completedBy output, Storable p true) ∧ ∀ p ∈ partialsBy output, Storable p false

namespace ProfileReassembler

variable {r : ProfileReassembler}

theorem Sound.storable_evictFor (h : r.Sound) {order : HashOrder} {key : ProfileKey}
    {evicted : Option ReassembledProfile} {r₁ : ProfileReassembler}
    (hev : r.evictFor order key = (evicted, r₁)) : ∀ p ∈ evicted.toList, Storable p false := by
  rcases r.evictFor_cases order key with ⟨he, -⟩ | ⟨oldest, a, -, ha, -, -, he⟩
  · cases he.symm.trans hev
    exact List.forall_mem_nil _
  · cases he.symm.trans hev
    intro p hp
    rw [Option.toList_some, List.mem_singleton] at hp
    exact hp ▸ (h.active oldest a ha).storable

theorem Sound.storable_takeActive (h : r.Sound) (keys : List ProfileKey) :
    ∀ p ∈ (r.takeActive keys).1, Storable p false := by
  induction keys generalizing r with
  | nil => exact List.forall_mem_nil _
  | cons key keys ih =>
      have hrest := ih (h.remove key)
      rw [takeActive]
      cases hl : r.active.lookup key with
      | none => exact hrest
      | some a => exact List.forall_mem_cons.mpr ⟨(h.active key a hl).storable, hrest⟩

/-- Ingesting hands out storable profiles. -/
theorem Ingests.storable (h : r.Sound) {order : HashOrder} {a : Arrival} (ha : a.Proper)
    {observedAt : Nat} {result : IngestResult} {r' : ProfileReassembler}
    (hi : r.Ingests order a observedAt result r') : AllStorable (.ingested (.ok result)) := by
  cases hi with
  | late c hc hk =>
      refine ⟨?_, List.forall_mem_nil _⟩
      rw [completedBy, CompletedProfile.classify]
      split
      · split
        · exact List.forall_mem_nil _
        · exact List.forall_mem_nil _
      · exact List.forall_mem_nil _
  | counted b hc hb hv =>
      -- the snapshot of a scan that only counted lacks what it lacked before
      have hs := h.active _ b hb
      have hstep := hs.scan.step ha fun he => absurd he hs.some
      have hacc : (scanRule.step b.tally a).accepted = b.tally.accepted := by
        rcases Rule.step_accepted (R := scanRule) (t := b.tally) (a := a) with he | ⟨hf, -⟩
        · exact he
        · exact absurd hf hv
      have hsnapshot := storable_profileOf hstep (hacc ▸ hs.some)
      rw [decide_eq_false (hacc ▸ hs.lacking)] at hsnapshot
      refine ⟨?_, fun p hp => ?_⟩
      · rw [completedBy, eventOf]
        cases hv' : scanRule.verdict b.tally.accepted a.fragment with
        | fresh => exact absurd hv' hv
        | repeated => exact List.forall_mem_nil _
        | clash => exact List.forall_mem_nil _
      · exact List.mem_singleton.mp hp ▸ hsnapshot
  | accepted evicted r₁ last hc hev hv hs hf =>
      refine ⟨?_, ?_⟩
      · rw [completedBy, eventOf, hv]
        dsimp only
        rw [if_neg hf]
        exact List.forall_mem_nil _
      · rw [partialsBy, Option.toList_none, List.append_nil]
        exact h.storable_evictFor hev
  | completed evicted r₁ last hc hev hv hs hf =>
      -- the completed scan is handed out whole, and the evicted one as it was
      have hwhole := storable_profileOf hs (hf.ne_nil hs)
      rw [decide_eq_true hf] at hwhole
      refine ⟨?_, ?_⟩
      · rw [completedBy, eventOf, hv]
        dsimp only
        rw [if_pos hf]
        exact fun p hp => List.mem_singleton.mp hp ▸ hwhole
      · rw [partialsBy, Option.toList_none, List.append_nil]
        exact h.storable_evictFor hev

/-- **Each call hands out storable profiles.** -/
theorem Sound.storable_apply (h : r.Sound) (op : Op) : AllStorable (r.apply op).1 := by
  cases op with
  | ingest order payload fragment decoded source observedAt =>
      obtain ⟨steps, -, hview⟩ := fromView_eq decoded
      have hat : r.ingestAt order fragment source observedAt = r.ingestOwned order
          ⟨.ofView fragment, fragment.header.fragmentIndex, steps.map profileStep⟩ source
            observedAt := by
        rw [ingestAt, hview, Outcome.mapErr_ok, Outcome.ok_bind]
      rw [ProfileReassembler.apply, hat]
      by_cases hsource : source.fragmentIndex = fragment.header.fragmentIndex
      · obtain ⟨result, r', hok, hi⟩ := ingestOwned_cases h order
          (a := ⟨⟨.ofView fragment, fragment.header.fragmentIndex, steps.map profileStep⟩, source⟩)
          ⟨IsFrame.wellFormed ⟨_, decoded, hview⟩, hsource⟩ observedAt
        rw [show r.ingestOwned order _ source observedAt = _ from hok]
        exact hi.storable h ⟨IsFrame.wellFormed ⟨_, decoded, hview⟩, hsource⟩
      · rw [ingestOwned, Outcome.failIf_pos hsource]
        exact ⟨List.forall_mem_nil _, List.forall_mem_nil _⟩
  | expireBefore order cutoff => exact ⟨List.forall_mem_nil _, h.storable_takeActive _⟩
  | drainIncomplete order => exact ⟨List.forall_mem_nil _, h.storable_takeActive _⟩
  | restoreReceiverCounts key duplicates conflicts =>
      rw [ProfileReassembler.apply]
      cases r.restoreReceiverCounts key duplicates conflicts with
      | ok r' => exact ⟨List.forall_mem_nil _, List.forall_mem_nil _⟩
      | error e => exact ⟨List.forall_mem_nil _, List.forall_mem_nil _⟩

/-- Every call of a run hands out storable profiles. -/
theorem Sound.storable_run {ops : List Op} :
    ∀ {r : ProfileReassembler}, r.Sound → ∀ entry ∈ (r.run ops).1, AllStorable entry.2 := by
  induction ops with
  | nil => exact fun _ => List.forall_mem_nil _
  | cons op ops ih =>
      intro r h
      exact List.forall_mem_cons.mpr ⟨h.storable_apply op, ih (h.apply op).1⟩

end ProfileReassembler

end Vesta.Receiver
