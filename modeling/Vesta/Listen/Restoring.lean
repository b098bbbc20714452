import Vesta.Listen.Keeping

/-!
# Listen — Restoring

Reading incomplete scans back into memory.  What was read replays one fragment after the other, each
of them accepted, and the counts follow after the first; the scan in memory is then the stored one,
and only scans of other keys were stored to make room.
-/

namespace Vesta.Listen

open FirstWins (Rule Tally Verdict)
open Journal (Prog wp wp_pure wp_bind)
open Journal.Prog (forEach)
open Receiver (Arrival ScanTally ScanOf Full ProfileKey ProfileMetadata OwnedFragment
  ProfileReassembler ActiveProfile ReassembledProfile ReassemblyProgress scanRule saturatingAdd)
open Store (TelemetryStore StorageError AppError PendingProfileFragment PersistedIncompleteProfile)
open Ledger

variable {I : ProfileKey → Account → Prop}

/-! ### One fragment -/

/-- What was read for a fragment decodes as that fragment. -/
theorem decode_of_replays {f : PendingProfileFragment} {a : Arrival} (h : Replays f a) :
    ∃ view, Protocol.decode f.payload = .ok (.profileFragment view) ∧
      OwnedFragment.fromView view = .ok a.fragment ∧ ProfileKey.ofHeader view.header = a.key ∧
      view.header.fragmentIndex = f.fragmentIndex ∧
      a.source = ⟨f.packetId, view.header.fragmentIndex, f.receivedAtUnixMs, f.radio⟩ := by
  obtain ⟨view, steps, hd, -, hf, he⟩ := h.frame.view
  have hindex : view.header.fragmentIndex = f.fragmentIndex := by rw [h.index, he]
  refine ⟨view, hd, hf, ?_, hindex, ?_⟩
  · rw [Arrival.key, he]
    rfl
  · rw [hindex]
    exact h.source

theorem restoreFragments_cons {profile : PersistedIncompleteProfile} {f : PendingProfileFragment}
    {a : Arrival} (h : Replays f a) (hkey : a.key = profile.key) (replayStarted : Nat)
    (rest : List PendingProfileFragment) (restored : Bool) (ordinal : Nat) :
    ∃ view, OwnedFragment.fromView view = .ok a.fragment ∧
      restoreFragments profile replayStarted (f :: rest) restored ordinal = (do
        let restored ← restoreCountsOnce profile restored
        let result ← ingestAt view a.source (replayStarted + ordinal)
        let restored ← restoreCountsOnce profile restored
        handleProfileFragmentResult result f.packetId
        restoreFragments profile replayStarted rest restored (nextOrdinal ordinal)) := by
  obtain ⟨view, hd, hf, hk, hi, hs⟩ := decode_of_replays h
  refine ⟨view, hf, ?_⟩
  rw [restoreFragments, hd]
  dsimp only
  rw [if_neg (by rw [hk, hkey, hi]; simp), hs]

section
variable {E : Fault AppError → World → Prop} {w : World} {profile : PersistedIncompleteProfile}
  {Q : Bool → World → Prop}

theorem wp_restoreCountsOnce_true (hQ : Q true w) :
    wp (Disk I) Q E (restoreCountsOnce profile true) w := by
  refine wp_bind (wp_containsActive ?_)
  exact wp_pure hQ

theorem wp_restoreCountsOnce_idle (hl : liveAt w.reassembler profile.key = none)
    (hQ : Q false w) : wp (Disk I) Q E (restoreCountsOnce profile false) w := by
  refine wp_bind (wp_containsActive ?_)
  rw [hl]
  exact wp_pure hQ

theorem wp_restoreCountsOnce_live {t : ScanTally} {r : ProfileReassembler}
    (hl : liveAt w.reassembler profile.key = some t)
    (hr : w.reassembler.restoreReceiverCounts profile.key profile.duplicateFragmentCount
      profile.conflictingFragmentCount = .ok r)
    (hQ : Q true { w with reassembler := r, orders := fun n => w.orders (n + 1) }) :
    wp (Disk I) Q E (restoreCountsOnce profile false) w := by
  refine wp_bind (wp_containsActive ?_)
  rw [hl]
  exact wp_bind (wp_restoreReceiverCounts hr (wp_pure hQ))

end

/-- A fragment that leaves its scan pending: what made room for it is stored. -/
theorem wp_handlePending [Account.Stable I] {E : Fault AppError → World → Prop} {w : World}
    {A B : ProfileKey → Account} {queue : List Arrival} {flying : List Flight}
    (h : Holds I w.store A) (hr : Remembers w.reassembler queue flying B)
    (hAB : ∀ f ∈ flying, A f.1.key = B f.1.key) {evicted : Option ReassembledProfile}
    (hev : evicted.toList = profiles flying) (progress : ReassemblyProgress) (packetId : Int)
    {Q : Unit → World → Prop}
    (hQ : ∀ s, Holds I s (landed flying A) → Remembers w.reassembler queue [] (landed flying B) →
      Q () { w with store := s }) :
    wp (Disk I) Q E
      (handleProfileFragmentResult ⟨.pending progress, evicted, none⟩ packetId) w := by
  rw [handleProfileFragmentResult]
  dsimp only
  rw [hev]
  rw [← List.append_nil flying] at hr
  exact wp_bind (wp_persistProfiles h hr hAB fun s hh hm => wp_pure (hQ s hh hm))

/-! ### One scan -/

theorem Full.mono {m : ProfileMetadata} {accepted accepted' : List Arrival}
    (h : Full m accepted) (hs : accepted ⊆ accepted') : Full m accepted' := fun i hi =>
  let ⟨a, ha, hai⟩ := h i hi
  ⟨a, hs ha, hai⟩

/-- The fragments after the first. -/
theorem wp_restoreRest [Account.Stable I] {E : Fault AppError → World → Prop}
    {profile : PersistedIncompleteProfile}
    {replayStarted : Nat} {m : ProfileMetadata} {t : ScanTally} {A : ProfileKey → Account}
    {queue : List Arrival} (hkey : profile.key = m.key) (hs : ScanOf m t)
    (hf : ¬ Full m t.accepted) (hcold : (A m.key).cached = false)
    {fs : List PendingProfileFragment} {as : List Arrival} (hfs : List.Forall₂ Replays fs as) :
    ∀ {done : List Arrival} {w : World} {ordinal : Nat} {Q : Option Bool × Nat → World → Prop},
      (done ++ as).Perm t.accepted →
      Holds I w.store A →
      Remembers w.reassembler queue []
        (Function.update A m.key ((A m.key).restore ⟨done, t.repeats, t.clashes⟩)) →
      (∀ ordinal w', Holds I w'.store A → Remembers w'.reassembler queue []
          (Function.update A m.key ((A m.key).restore ⟨done ++ as, t.repeats, t.clashes⟩)) →
        Q (some true, ordinal) w') →
      wp (Disk I) Q E (restoreFragments profile replayStarted fs true ordinal) w := by
  induction hfs with
  | nil =>
      intro done w ordinal Q _ h hr hQ
      refine wp_pure (hQ ordinal w h ?_)
      rwa [List.append_nil]
  | @cons f a fs as hreplays _ ih =>
      intro done w ordinal Q hperm h hr hQ
      have ha : a ∈ t.accepted := hperm.mem_iff.mp (by simp)
      have hproper := hs.proper a ha
      have hak : a.key = m.key := key_of_scanOf hs ha
      have hlive : liveAt w.reassembler a.key = some ⟨done, t.repeats, t.clashes⟩ := by
        rw [hak, ← hr.live_eq, Function.update_self]
        rfl
      have htally : w.reassembler.tallyAt a.key = ⟨done, t.repeats, t.clashes⟩ := by
        rw [tallyAt_eq, hlive, Option.getD_some]
      have hclosed : ∀ c ∈ w.reassembler.completed, c.key ≠ a.key := by
        refine hr.not_completed ?_
        rw [hak, Function.update_self]
        exact hcold
      -- the fragments of one scan do not meet
      have hv : scanRule.verdict (w.reassembler.tallyAt a.key).accepted a.fragment = .fresh := by
        rw [htally]
        exact Rule.Uniform.fresh (R := scanRule) (hs.uniform.perm hperm.symm)
      have hstep : scanRule.step (w.reassembler.tallyAt a.key) a =
          ⟨done ++ [a], t.repeats, t.clashes⟩ := by
        rw [Rule.step_fresh (R := scanRule) hv, htally]
      have hnot : ¬ Full a.fragment.metadata
          (scanRule.step (w.reassembler.tallyAt a.key) a).accepted := by
        rw [hstep, hs.metadata a ha]
        refine fun hfull => hf (Full.mono hfull fun b hb => hperm.mem_iff.mp ?_)
        rcases List.mem_append.mp hb with hb | hb
        · exact List.mem_append_left _ hb
        · exact List.mem_append_right _ (List.mem_singleton.mp hb ▸ List.mem_cons_self)
      obtain ⟨view, hview, heq⟩ :=
        restoreFragments_cons hreplays (hak.trans hkey.symm) replayStarted fs true ordinal
      rw [heq]
      refine wp_bind (wp_restoreCountsOnce_true (wp_bind (wp_ingestAt hr.sound hview hproper
        fun result r hi => ?_)))
      obtain ⟨evicted, r₁, last, progress, hev, rfl, hscan, hr'⟩ :=
        accepted_of_fresh hi hclosed hv hnot
      -- an active scan needs no room
      obtain ⟨rfl, rfl⟩ : evicted = none ∧ r₁ = w.reassembler := by
        rcases w.reassembler.evictFor_cases (w.orders 0) a.key with ⟨he, -⟩ | ⟨_, _, -, -, hn, -⟩
        · exact ⟨(Prod.mk.inj (he.symm.trans hev)).1.symm, (Prod.mk.inj (he.symm.trans hev)).2.symm⟩
        · rw [liveAt, hn] at hlive
          cases hlive
      have hsound := hi.sound hr.sound hproper
      have hm := hr.restored (.none hr.sound) (fun f hf => (List.not_mem_nil hf).elim) hscan
        (hr' ▸ hsound) hclosed
      rw [← hr', hstep, hak, Function.update_idem, Function.update_self] at hm
      refine wp_bind (wp_restoreCountsOnce_true (wp_bind ?_))
      refine wp_handlePending
        (w := { w with reassembler := r, orders := fun n => w.orders (n + 1) })
        h hm (fun f hf => (List.not_mem_nil hf).elim) rfl progress f.packetId fun s hh hm' => ?_
      refine ih (by simpa using hperm) hh hm' fun ordinal' w' hh' hm'' => ?_
      rw [List.append_assoc] at hm''
      exact hQ ordinal' w' hh' hm''

/-- A scan was read back: idle keys are as before, and nothing more is pending. -/
structure Restored (key : ProfileKey) (t : ScanTally) (A A' : ProfileKey → Account) : Prop where
  self : ∃ t' : ScanTally, t'.Equiv t ∧ A' key = (A key).restore t'
  idle : ∀ k, k ≠ key → (A k).live = none → A' k = A k
  pending : ∀ k, (A' k).pending ⊆ (A k).pending

/-- The scan in memory after its fragments were replayed is the stored one. -/
theorem Kept.restored [Account.Stable I] {w : World} {A : ProfileKey → Account}
    {queue : List Arrival}
    {key : ProfileKey} {t t' : ScanTally} (h : Holds I w.store A) (hp : (A key).part = some t)
    (hl : (A key).live = none) (ht : t'.Equiv t)
    (hm : Remembers w.reassembler queue [] (Function.update A key ((A key).restore t'))) :
    Kept I w queue (Function.update A key ((A key).restore t')) where
  holds := h.memory rfl rfl rfl rfl ((h.books key).sound.restore hl hp ht)
    (fun hf => ((h.books key).exact hf).restore hl hp ht)
    (Account.Stable.moves (h.books key).sound (.restore hl hp ht) (h.books key).invariant)
  memory := hm

/-- **Reading one scan back.** -/
theorem wp_restoreFragments [Account.Stable I] {E : Fault AppError → World → Prop}
    {profile : PersistedIncompleteProfile} {replayStarted : Nat} {t : ScanTally} {w : World}
    {A : ProfileKey → Account} {queue : List Arrival} (h : Kept I w queue A) (hr : Reads profile t)
    (hp : (A profile.key).part = some t) (hw : (A profile.key).whole = none)
    (hl : (A profile.key).live = none) {ordinal : Nat} {Q : Option Bool × Nat → World → Prop}
    (hQ : ∀ ordinal w' A', Kept I w' queue A' → Restored profile.key t A A' →
      Q (some true, ordinal) w') :
    wp (Disk I) Q E (restoreFragments profile replayStarted profile.fragments false ordinal) w := by
  have hsound := (h.holds.books profile.key).sound
  have hcold : (A profile.key).cached = false := by
    refine Bool.eq_false_iff.mpr fun hc => ?_
    rcases hsound.cached hc with hne | ⟨u, hu, -⟩
    · exact hne hw
    · cases hl.symm.trans hu
  obtain ⟨m, hs, hkey⟩ := hr.key
  obtain ⟨m', hs', hne, hf⟩ := hsound.part t hp
  obtain ⟨b, hb⟩ := List.exists_mem_of_ne_nil _ hne
  obtain rfl : m = m' := (hs.metadata b hb).symm.trans (hs'.metadata b hb)
  obtain ⟨order, hperm, hall⟩ := hr.fragments
  cases order with
  | nil => exact absurd (List.nil_perm.mp hperm) hne
  | cons a as =>
      rw [hkey] at hp hw hl hcold
      obtain ⟨f, fs, hreplays, hfs, hfragments⟩ := List.forall₂_cons_right_iff.mp hall
      rw [hfragments]
      have ha : a ∈ t.accepted := hperm.mem_iff.mp List.mem_cons_self
      have hak : a.key = m.key := key_of_scanOf hs ha
      have hidle : liveAt w.reassembler m.key = none := (h.memory.live_eq _).symm.trans hl
      have htally : w.reassembler.tallyAt a.key = .empty := by
        rw [tallyAt_eq, hak, hidle]
        rfl
      have hclosed : ∀ c ∈ w.reassembler.completed, c.key ≠ a.key :=
        h.memory.not_completed (hak ▸ hcold)
      have hv : scanRule.verdict (w.reassembler.tallyAt a.key).accepted a.fragment = .fresh := by
        rw [htally]
        exact Rule.verdict_nil
      have hstep : scanRule.step (w.reassembler.tallyAt a.key) a = ⟨[a], 0, 0⟩ := by
        rw [Rule.step_fresh (R := scanRule) hv, htally]
        rfl
      have hnot : ¬ Full a.fragment.metadata
          (scanRule.step (w.reassembler.tallyAt a.key) a).accepted := by
        rw [hstep, hs.metadata a ha]
        exact fun hfull => hf (Full.mono hfull (List.cons_subset.mpr ⟨ha, List.nil_subset _⟩))
      obtain ⟨view, hview, heq⟩ :=
        restoreFragments_cons hreplays (hak.trans hkey.symm) replayStarted fs false ordinal
      rw [heq]
      refine wp_bind (wp_restoreCountsOnce_idle (hkey ▸ hidle) (wp_bind (wp_ingestAt h.memory.sound
        hview (hs.proper a ha) fun result r hi => ?_)))
      obtain ⟨evicted, r₁, last, progress, hev, rfl, hscan, hr'⟩ :=
        accepted_of_fresh hi hclosed hv hnot
      obtain ⟨flying, hflying, hg, haway⟩ := Gives.evictFor h.memory.sound hev
      have hsound' := hi.sound h.memory.sound (hs.proper a ha)
      have hm := h.memory.restored hg haway hscan (hr' ▸ hsound') hclosed
      rw [← hr', hstep, hak] at hm
      rw [hak] at haway
      -- the counts of the row go to the first fragment
      have hlive : liveAt r m.key = some ⟨[a], 0, 0⟩ := by
        rw [hr', liveAt_put hscan, if_pos hak.symm, hstep]
      obtain ⟨active, hactive, htallied⟩ := Option.map_eq_some_iff.mp hlive
      obtain ⟨r', hok, hm'⟩ := hm.restoreCounts haway hactive t.repeats t.clashes
      rw [Function.update_idem, Function.update_self, htallied] at hm'
      have hrepeats : saturatingAdd 0 t.repeats = t.repeats :=
        (congrArg (min · 65535) (Nat.zero_add _)).trans (min_eq_left hs.bounded.repeats)
      have hclashes : saturatingAdd 0 t.clashes = t.clashes :=
        (congrArg (min · 65535) (Nat.zero_add _)).trans (min_eq_left hs.bounded.clashes)
      rw [← hr.duplicates, ← hr.conflicts] at hok
      rw [hrepeats, hclashes] at hm'
      refine wp_bind (wp_restoreCountsOnce_live (hkey ▸ hlive) (hkey ▸ hok) (wp_bind ?_))
      refine wp_handlePending (w := { w with
          reassembler := r', orders := fun n => w.orders (n + 1 + 1) }) h.holds hm'
        (fun f hf => (Function.update_of_ne (haway f hf) _ _).symm) hflying progress f.packetId
        fun s hh hm'' => ?_
      rw [landed_update haway] at hm''
      have hsame := landed_of_not_mem (A := A) haway
      have hcold' : (landed flying A m.key).cached = false := hsame ▸ hcold
      rw [← hsame] at hm''
      refine wp_restoreRest hkey hs hf hcold' hfs hperm hh hm'' fun ordinal w' hh' hw' => ?_
      have heq : (⟨[a] ++ as, t.repeats, t.clashes⟩ : ScanTally).Equiv t := ⟨hperm, rfl, rfl⟩
      refine hQ ordinal w' _ (Kept.restored hh' (hsame ▸ hp) (hsame ▸ hl) heq hw') ⟨⟨_, heq, ?_⟩,
        fun k hk hidle => ?_, fun k => ?_⟩
      · rw [hkey, Function.update_self, hsame]
      · rw [Function.update_of_ne (hkey ▸ hk)]
        refine landed_of_not_mem fun f hf he => hg.live_ne_none hf ?_
        rw [he, ← h.memory.live_eq, hidle]
      · by_cases hk : k = m.key
        · subst hk
          rw [Function.update_self]
          exact pending_landed flying A m.key
        · rw [Function.update_of_ne hk]
          exact pending_landed flying A k

/-! ### All scans -/

section
variable {E : Fault AppError → World → Prop} {replayStarted : Nat} {queue : List Arrival}

/-- A stored complete scan of the key is in the way of reading the incomplete one back. -/
theorem Kept.stray_of_both {w : World} {A : ProfileKey → Account} {key : ProfileKey}
    (h : Kept I w queue A) (hw : (A key).whole ≠ none) {t : ScanTally}
    (hp : (A key).part = some t) :
    ¬ StrayFree (A key).archive := by
  intro hf
  rcases ((h.holds.books key).exact hf).single with hnone | hnone
  · exact hw hnone
  · cases hnone.symm.trans hp

theorem wp_restoreProfile [Account.Stable I] {profile : PersistedIncompleteProfile}
    {rest : List PersistedIncompleteProfile} {t : ScanTally} {w : World}
    {A : ProfileKey → Account} {Q : Nat → World → Prop} {ordinal : Nat} (h : Kept I w queue A)
    (hr : Reads profile t) (hp : (A profile.key).part = some t)
    (hl : (A profile.key).live = none)
    (hE : (A profile.key).whole ≠ none → ¬ StrayFree (A profile.key).archive →
      E (.error (.database .corruptIncompleteProfile)) w)
    (hQ : (A profile.key).whole = none → ∀ ordinal w' A', Kept I w' queue A' →
      Restored profile.key t A A' →
      wp (Disk I) Q E (restoreIncompleteProfiles replayStarted rest [] ordinal) w') :
    wp (Disk I) Q E (restoreIncompleteProfiles replayStarted (profile :: rest) [] ordinal) w := by
  rw [restoreIncompleteProfiles, if_neg List.not_mem_nil]
  by_cases hw : (A profile.key).whole = none
  · refine wp_bind (wp_database (h.holds.coalesce_none hw) ⟨A, h.holds⟩ ?_)
    refine wp_bind (wp_restoreFragments h hr hp hw hl fun ordinal w' A' hk hres => ?_)
    exact hQ hw ordinal w' A' hk hres
  · exact wp_bind (wp_database_error (h.holds.coalesce_whole hw hp hr)
      (hE hw (h.stray_of_both hw hp)))

/-- **Reading scans of different keys back.** -/
theorem wp_restoreIncompleteProfiles [Account.Stable I] {Q : Nat → World → Prop}
    {profiles : List PersistedIncompleteProfile} :
    ∀ {w : World} {A : ProfileKey → Account} {ordinal : Nat}, Kept I w queue A →
      (profiles.map (·.key)).Nodup →
      (∀ profile ∈ profiles, (A profile.key).live = none ∧
        ∃ t, (A profile.key).part = some t ∧ Reads profile t) →
      (∀ key w' A', Kept I w' queue A' → ¬ StrayFree (A' key).archive →
        E (.error (.database .corruptIncompleteProfile)) w') →
      ((∀ profile ∈ profiles, (A profile.key).whole = none) → ∀ ordinal w' A',
        Kept I w' queue A' → (∀ k, (A' k).pending ⊆ (A k).pending) → Q ordinal w') →
      wp (Disk I) Q E (restoreIncompleteProfiles replayStarted profiles [] ordinal) w := by
  induction profiles with
  | nil =>
      intro w A ordinal h _ _ _ hQ
      refine wp_pure (hQ (fun p hp => ?_) _ _ _ h fun _ => List.Subset.refl _)
      cases hp
  | cons profile rest ih =>
      intro w A ordinal h hnd hall hE hQ
      obtain ⟨⟨hl, t, hp, hr⟩, hrest⟩ := List.forall_mem_cons.mp hall
      obtain ⟨hnew, hnd⟩ := List.nodup_cons.mp hnd
      refine wp_restoreProfile h hr hp hl (fun _ => hE _ w A h) fun hwhole ordinal w'
        A' hk hres => ?_
      -- the keys differ, so restoring one leaves the accounts of the rest
      have hidle : ∀ p ∈ rest, A' p.key = A p.key := fun p hp =>
        hres.idle p.key (fun he => hnew (List.mem_map.mpr ⟨p, hp, he⟩)) (hrest p hp).1
      refine ih hk hnd (fun p hp => ?_) hE fun hwholes ordinal' w'' A'' hk' hsub => ?_
      · rw [hidle p hp]
        exact hrest p hp
      · refine hQ (List.forall_mem_cons.mpr ⟨hwhole, fun p hp => ?_⟩) ordinal' w'' A'' hk' fun k =>
          List.Subset.trans (hsub k) (hres.pending k)
        rw [← hidle p hp]
        exact hwholes p hp

end

end Vesta.Listen
