import Vesta.Receiver.Sound

/-!
# Receiver — Refinement

The reassembler against its specification.  The specification looks at the fragments of one key
only: it collects them first come first served and reports each (`firstWins`).  A fresh
reassembler with room for every key gives, for each key, exactly the events of the specification
on that key's fragments (`ingestAll_refines`), whatever the interleaving with other keys.

The proof is a simulation.  After any prefix of the input, the part of the state that belongs to a
key shows the collection of the key's fragments (`Shows`): nothing, an active scan, or an entry of
the completed queue.
-/

namespace Vesta.Receiver

open FirstWins (Rule Tally Verdict)

/-! ### Inputs -/

/-- One call of `ingest_at` with a decoded fragment. -/
structure Ingest where
  order : HashOrder
  payload : List UInt8
  fragment : Protocol.ProfileFragmentView
  source : SourceFragment
  observedAt : Nat
  decoded : Protocol.decode payload = .ok (.profileFragment fragment)
  index : source.fragmentIndex = fragment.header.fragmentIndex

namespace Ingest

/-- The fragment with its steps extracted, and its source. -/
def arrival (i : Ingest) : Arrival :=
  ⟨⟨.ofView i.fragment, i.fragment.header.fragmentIndex,
    ((fragmentSteps i.fragment).toOption).getD []⟩, i.source⟩

def key (i : Ingest) : ProfileKey := i.arrival.key

theorem fromView_eq (i : Ingest) : OwnedFragment.fromView i.fragment = .ok i.arrival.fragment := by
  obtain ⟨steps, hs, hf⟩ := Receiver.fromView_eq i.decoded
  rw [hf, arrival, fragmentSteps_eq hs]
  rfl

theorem isFrame (i : Ingest) : IsFrame i.payload i.arrival.fragment :=
  ⟨i.fragment, i.decoded, i.fromView_eq⟩

theorem proper (i : Ingest) : i.arrival.Proper := ⟨i.isFrame.wellFormed, i.index⟩

theorem ingestAt_eq (i : Ingest) (r : ProfileReassembler) :
    r.ingestAt i.order i.fragment i.source i.observedAt =
      r.ingestOwned i.order i.arrival.fragment i.arrival.source i.observedAt := by
  rw [ProfileReassembler.ingestAt, i.fromView_eq, Outcome.mapErr_ok, Outcome.ok_bind]
  rfl

end Ingest

/-- Ingest one fragment after the other. -/
def ProfileReassembler.ingestAll (r : ProfileReassembler) :
    List Ingest → Outcome ReassemblyError (List IngestResult × ProfileReassembler)
  | [] => .ok ([], r)
  | i :: is => do
      let (result, r) ← r.ingestAt i.order i.fragment i.source i.observedAt
      let (results, r) ← r.ingestAll is
      return (result :: results, r)

/-! ### The specification -/

/-- The events of the fragments of one key, the scan having been collected to `t`. -/
def firstWins (t : ScanTally) : List Arrival → List FragmentEvent
  | [] => []
  | a :: as => eventOf t a :: firstWins (scanRule.step t a) as

/-- The fragments of one key. -/
def arrivalsFor (key : ProfileKey) (as : List Arrival) : List Arrival :=
  as.filter fun a => decide (a.key = key)

/-- The events of the fragments of one key. -/
def eventsFor (key : ProfileKey) (inputs : List Ingest) (results : List IngestResult) :
    List FragmentEvent :=
  ((inputs.zip results).filter fun p => decide (p.1.key = key)).map (·.2.event)

/-- What was collected of a key. -/
def collectedFor (key : ProfileKey) (as : List Arrival) : ScanTally :=
  scanRule.collect .empty (arrivalsFor key as)

theorem arrivalsFor_concat (key : ProfileKey) (as : List Arrival) (a : Arrival) :
    arrivalsFor key (as ++ [a]) =
      if a.key = key then arrivalsFor key as ++ [a] else arrivalsFor key as := by
  by_cases h : a.key = key <;> simp [arrivalsFor, h]

theorem collectedFor_self (as : List Arrival) (a : Arrival) :
    collectedFor a.key (as ++ [a]) = scanRule.step (collectedFor a.key as) a := by
  rw [collectedFor, arrivalsFor_concat, if_pos rfl, Rule.collect_concat, collectedFor]

theorem collectedFor_ne {key : ProfileKey} (as : List Arrival) {a : Arrival} (h : a.key ≠ key) :
    collectedFor key (as ++ [a]) = collectedFor key as := by
  rw [collectedFor, arrivalsFor_concat, if_neg h, collectedFor]

/-! ### The simulation -/

namespace ProfileReassembler

/-- The state of a reassembler at a key shows the collection `t`. -/
inductive Shows (r : ProfileReassembler) (key : ProfileKey) (t : ScanTally) : Prop where
  | idle (hl : r.active.lookup key = none) (hc : ∀ c ∈ r.completed, c.key ≠ key)
      (ht : t = .empty)
  | active (b : ActiveProfile) (hl : r.active.lookup key = some b)
      (hc : ∀ c ∈ r.completed, c.key ≠ key) (ht : b.tally = t)
  | done (c : CompletedProfile) (m : ProfileMetadata) (hc : c ∈ r.completed) (hk : c.key = key)
      (hs : c.fragments = slots m t.accepted) (hm : ScanOf m t) (hf : Full m t.accepted)

/-- Two states that agree at a key show the same there. -/
theorem Shows.congr {r r' : ProfileReassembler} {key : ProfileKey} {t : ScanTally}
    (h : r.Shows key t) (hl : r'.active.lookup key = r.active.lookup key)
    (hc : ∀ c, c.key = key → (c ∈ r'.completed ↔ c ∈ r.completed)) : r'.Shows key t := by
  have hnone : (∀ c ∈ r.completed, c.key ≠ key) → ∀ c ∈ r'.completed, c.key ≠ key :=
    fun hn c hcc hk => hn c ((hc c hk).mp hcc) hk
  cases h with
  | idle hl' hc' ht => exact .idle (hl.trans hl') (hnone hc') ht
  | active b hl' hc' ht => exact .active b (hl.trans hl') (hnone hc') ht
  | done c m hcc hk hs hm hf => exact .done c m ((hc c hk).mpr hcc) hk hs hm hf

/-- The state after the fragments `seen`, all keys being among `known`. -/
structure Tracks (known : List ProfileKey) (r : ProfileReassembler) (seen : List Arrival) :
    Prop where
  sound : r.Sound
  shows : ∀ key, r.Shows key (collectedFor key seen)
  active : ∀ key a, r.active.lookup key = some a → key ∈ known
  completed : ∀ c ∈ r.completed, c.key ∈ known

theorem tracks_fresh (known : List ProfileKey) (maxActive : Nat) (h : 0 < maxActive) :
    Tracks known ⟨∅, [], maxActive, h⟩ [] where
  sound := sound_fresh maxActive h
  shows _ := .idle rfl (List.forall_mem_nil _) rfl
  active _ _ ha := absurd ha (by simp)
  completed := List.forall_mem_nil _

section
variable {known : List ProfileKey} {r : ProfileReassembler} {seen : List Arrival} {a : Arrival}

theorem length_le_known {keys : List ProfileKey} (hn : keys.Nodup)
    (hs : ∀ k ∈ keys, k ∈ known) : keys.length ≤ known.length :=
  (List.subperm_of_subset hn hs).length_le

/-- Nothing is evicted when there is room for every key. -/
theorem Tracks.evictFor (h : Tracks known r seen) (hu : known.length ≤ r.maxActive)
    (ha : a.key ∈ known) (order : HashOrder) : r.evictFor order a.key = (none, r) := by
  rcases r.evictFor_cases order a.key with ⟨he, -⟩ | ⟨_, _, -, -, hnone, hlen, -⟩
  · exact he
  · have hnd : (a.key :: r.active.keys).Nodup := by
      refine List.nodup_cons.mpr ⟨fun hmem => ?_, r.active.keys_nodup⟩
      rw [r.mem_keys, hnone] at hmem
      cases hmem
    have hle := length_le_known hnd (List.forall_mem_cons.mpr ⟨ha, fun k hk => by
      obtain ⟨b, hb⟩ := Option.isSome_iff_exists.mp (r.mem_keys.mp hk)
      exact h.active k b hb⟩)
    rw [List.length_cons, ← activeLen_eq] at hle
    omega

/-- No entry leaves the completed queue when there is room for every key. -/
theorem Tracks.complete (h : Tracks known r seen) (hu : known.length ≤ r.maxActive)
    (ha : a.key ∈ known) (hc : ∀ c ∈ r.completed, c.key ≠ a.key) (b : ActiveProfile) :
    (r.complete a.key b).completed = r.completed ++ [⟨a.key, b.fragments, b.lastObservedAt⟩] := by
  have hnd : (a.key :: r.completed.map (·.key)).Nodup := by
    refine List.nodup_cons.mpr ⟨fun hmem => ?_, h.sound.nodup⟩
    obtain ⟨c, hcc, hk⟩ := List.mem_map.mp hmem
    exact hc c hcc hk
  have hle := length_le_known hnd (List.forall_mem_cons.mpr ⟨ha, fun k hk => by
    obtain ⟨c, hcc, rfl⟩ := List.mem_map.mp hk
    exact h.completed c hcc⟩)
  rw [List.length_cons, List.length_map] at hle
  show List.drop _ _ = _
  rw [List.length_append, List.length_singleton, Nat.sub_eq_zero_of_le (by omega), List.drop_zero]

/-- What the state at the key of a fragment shows is its collection. -/
theorem Tracks.tallyAt (h : Tracks known r seen) (hc : ∀ c ∈ r.completed, c.key ≠ a.key) :
    r.tallyAt a.key = collectedFor a.key seen := by
  cases h.shows a.key with
  | idle hl _ ht => rw [tallyAt_none hl, ht]
  | active b hl _ ht => rw [tallyAt_some hl, ht]
  | done c _ hcc hk => exact absurd hk (hc c hcc)

/-- **One step of the simulation.** -/
theorem Tracks.step (h : Tracks known r seen) (hu : known.length ≤ r.maxActive)
    (ha : a.Proper) (hk : a.key ∈ known) {order : HashOrder} {observedAt : Nat}
    {result : IngestResult} {r' : ProfileReassembler}
    (hi : r.Ingests order a observedAt result r') :
    result.event = eventOf (collectedFor a.key seen) a ∧ result.evicted = none ∧
      r'.maxActive = r.maxActive ∧ Tracks known r' (seen ++ [a]) := by
  have hsound := hi.sound h.sound ha
  have hself := collectedFor_self seen a
  -- at the other keys nothing changes
  have hother : ∀ key, a.key ≠ key → r.Shows key (collectedFor key (seen ++ [a])) :=
    fun key hne => collectedFor_ne seen hne ▸ h.shows key
  cases hi with
  | late c hc hck =>
      cases h.shows a.key with
      | idle _ hnone => exact absurd hck (hnone c hc)
      | active _ _ hnone => exact absurd hck (hnone c hc)
      | done c' m hc' hck' hs hm hf =>
          obtain rfl : c' = c :=
            List.inj_on_of_nodup_map h.sound.nodup hc' hc (hck'.trans hck.symm)
          obtain ⟨hacc, hm'⟩ := hf.step hm ha
          refine ⟨CompletedProfile.classify_eq hs hm hf ha, rfl, rfl, hsound, fun key => ?_,
            h.active, h.completed⟩
          by_cases hne : a.key = key
          · subst hne
            rw [hself]
            exact .done c' m hc' hck' (hacc ▸ hs) hm' (hacc ▸ hf)
          · exact hother key hne
  | counted b hc hb hv =>
      have hbt : b.tally = collectedFor a.key seen := by rw [← h.tallyAt hc, tallyAt_some hb]
      refine ⟨by rw [hbt], rfl, rfl, hsound, fun key => ?_, fun key c hl => ?_, h.completed⟩
      · by_cases hne : a.key = key
        · subst hne
          have hbs := h.sound.active _ b hb
          rw [hself, ← hbt]
          exact .active _ (r.lookup_put _ _) hc
            (ActiveProfile.tally_of (hbs.scan.step ha fun he => absurd he hbs.some) _)
        · exact (hother key hne).congr (r.lookup_put_ne _ (Ne.symm hne)) fun _ _ => Iff.rfl
      · by_cases hne : key = a.key
        · exact hne ▸ hk
        · exact h.active key c (r.lookup_put_ne _ hne ▸ hl)
  | accepted evicted r₁ last hc hev hv hs hf =>
      cases (h.evictFor hu hk order).symm.trans hev
      rw [h.tallyAt hc] at hs hf hsound ⊢
      refine ⟨rfl, rfl, rfl, hsound, fun key => ?_, fun key c hl => ?_, h.completed⟩
      · by_cases hne : a.key = key
        · subst hne
          rw [hself]
          exact .active _ (r.lookup_put _ _) hc (ActiveProfile.tally_of hs _)
        · exact (hother key hne).congr (r.lookup_put_ne _ (Ne.symm hne)) fun _ _ => Iff.rfl
      · by_cases hne : key = a.key
        · exact hne ▸ hk
        · exact h.active key c (r.lookup_put_ne _ hne ▸ hl)
  | completed evicted r₁ last hc hev hv hs hf =>
      cases (h.evictFor hu hk order).symm.trans hev
      rw [h.tallyAt hc] at hs hf hsound ⊢
      have hqueue := h.complete hu hk hc
        (.of a.fragment.metadata (scanRule.step (collectedFor a.key seen) a) last)
      refine ⟨rfl, rfl, rfl, hsound, fun key => ?_, fun key c hl => ?_, fun c hcc => ?_⟩
      · by_cases hne : a.key = key
        · subst hne
          rw [hself]
          refine .done ⟨a.key, _, last⟩ a.fragment.metadata ?_ rfl rfl hs hf
          rw [hqueue]
          exact List.mem_append_right _ (List.mem_singleton.mpr rfl)
        · refine (hother key hne).congr (r.lookup_complete_ne _ (Ne.symm hne)) fun c hck => ?_
          rw [hqueue, List.mem_append, List.mem_singleton]
          exact or_iff_left fun he => hne (by rw [← hck, he])
      · by_cases hne : key = a.key
        · exact hne ▸ hk
        · exact h.active key c (r.lookup_complete_ne _ hne ▸ hl)
      · rw [hqueue] at hcc
        rcases List.mem_append.mp hcc with hcc | hcc
        · exact h.completed c hcc
        · rw [List.mem_singleton.mp hcc]
          exact hk

end

/-- The run from a state that tracks `seen` gives the events of the specification. -/
theorem Tracks.run {known : List ProfileKey} {inputs : List Ingest} :
    ∀ {r : ProfileReassembler} {seen : List Arrival}, Tracks known r seen →
      known.length ≤ r.maxActive → (∀ i ∈ inputs, i.key ∈ known) →
      ∃ results r', r.ingestAll inputs = .ok (results, r') ∧ results.length = inputs.length ∧
        (∀ result ∈ results, result.evicted = none) ∧
        ∀ key, eventsFor key inputs results =
          firstWins (collectedFor key seen) (arrivalsFor key (inputs.map (·.arrival))) := by
  induction inputs with
  | nil =>
      intro r seen _ _ _
      exact ⟨[], r, rfl, rfl, List.forall_mem_nil _, fun _ => rfl⟩
  | cons i is ih =>
      intro r seen h hu hk
      obtain ⟨hki, hks⟩ := List.forall_mem_cons.mp hk
      obtain ⟨result, r₁, hok, hi⟩ := ingestOwned_cases h.sound i.order i.proper i.observedAt
      obtain ⟨hevent, hev, hmax, h₁⟩ := h.step hu i.proper hki hi
      obtain ⟨results, r', hrun, hlen, hevs, hevents⟩ := ih h₁ (hmax ▸ hu) hks
      refine ⟨result :: results, r', ?_, congrArg Nat.succ hlen,
        List.forall_mem_cons.mpr ⟨hev, hevs⟩, fun key => ?_⟩
      · rw [ingestAll, i.ingestAt_eq, hok, Outcome.ok_bind]
        dsimp only
        rw [hrun]
        rfl
      · have htail := hevents key
        by_cases hik : i.key = key
        · subst hik
          rw [show i.key = i.arrival.key from rfl, collectedFor_self] at htail
          rw [eventsFor] at htail ⊢
          rw [List.zip_cons_cons, List.filter_cons_of_pos (by simp), List.map_cons]
          rw [show i.key = i.arrival.key from rfl, htail, hevent]
          simp [arrivalsFor, firstWins]
        · rw [collectedFor_ne seen (a := i.arrival) hik] at htail
          rw [eventsFor] at htail ⊢
          rw [List.zip_cons_cons, List.filter_cons_of_neg (by simpa using hik), htail]
          have hik' : ¬ i.arrival.key = key := hik
          simp [arrivalsFor, hik']

end ProfileReassembler

/-! ### What the events report -/

namespace FragmentEvent

def isDuplicate : FragmentEvent → Bool
  | duplicate .. => true
  | _ => false

def isConflict : FragmentEvent → Bool
  | conflict .. => true
  | _ => false

/-- The profile of a completion. -/
def completed : FragmentEvent → Option ReassembledProfile
  | complete profile => some profile
  | _ => none

end FragmentEvent

/-- What the event of `a` reports after `before`, the earlier fragments of its key. -/
def Reports (before : List Arrival) (a : Arrival) : FragmentEvent → Prop
  | .duplicate key index =>
      key = a.key ∧ index = a.fragment.fragmentIndex ∧
        ∃ b ∈ (scanRule.collect .empty before).accepted, b.fragment = a.fragment
  | .conflict key index =>
      key = a.key ∧ index = a.fragment.fragmentIndex ∧
        (∀ b ∈ (scanRule.collect .empty before).accepted, b.fragment ≠ a.fragment) ∧
        ∃ b ∈ (scanRule.collect .empty before).accepted,
          b.index = a.index ∨ b.fragment.metadata ≠ a.fragment.metadata
  | .pending progress =>
      let accepted := (scanRule.collect .empty before).accepted ++ [a]
      progress.key = a.key ∧ scanRule.Uniform accepted ∧
        ¬ Full a.fragment.metadata accepted ∧
        ∀ i, (Bitmap.has progress.receivedFragmentBitmap i ↔ ∃ b ∈ accepted, b.index = i) ∧
          (Bitmap.has progress.missingFragmentBitmap i ↔
            i < a.fragment.metadata.expectedFragmentCount.toNat ∧ ∀ b ∈ accepted, b.index ≠ i)
  | .complete profile =>
      let accepted := (scanRule.collect .empty before).accepted ++ [a]
      scanRule.Uniform accepted ∧ Full a.fragment.metadata accepted ∧
        profile.fragments = accepted.map (·.source) ∧
        profile.scan.identity = a.fragment.metadata.identity ∧
        profile.scan.steps.Perm (accepted.flatMap (·.fragment.steps)) ∧
        (profile.scan.steps.Pairwise fun s s' => s.stepIndex < s'.stepIndex) ∧
        profile.scan.duplicateFragmentCount =
          min ((firstWins .empty before).countP FragmentEvent.isDuplicate) 65535 ∧
        profile.scan.conflictingFragmentCount =
          min ((firstWins .empty before).countP FragmentEvent.isConflict) 65535

theorem countP_firstWins (t : ScanTally) (as : List Arrival) :
    (firstWins t as).countP FragmentEvent.isDuplicate = (scanRule.verdicts t as).count .repeated ∧
      (firstWins t as).countP FragmentEvent.isConflict = (scanRule.verdicts t as).count .clash := by
  induction as generalizing t with
  | nil => exact ⟨rfl, rfl⟩
  | cons a as ih =>
      obtain ⟨hd, hc⟩ := ih (scanRule.step t a)
      rw [firstWins, Rule.verdicts, List.countP_cons, List.countP_cons, List.count_cons,
        List.count_cons, hd, hc]
      have hcontent : scanRule.content a = a.fragment := rfl
      rw [hcontent, eventOf]
      cases hv : scanRule.verdict t.accepted a.fragment with
      | fresh =>
          dsimp only
          split <;> exact ⟨rfl, rfl⟩
      | repeated => exact ⟨rfl, rfl⟩
      | clash => exact ⟨rfl, rfl⟩

/-- **Every event reports what it says.** -/
theorem reports {before : List Arrival} {a : Arrival} (hb : ∀ b ∈ before, b.Proper)
    (ha : a.Proper) : Reports before a (eventOf (scanRule.collect .empty before) a) := by
  rw [eventOf]
  cases hv : scanRule.verdict (scanRule.collect .empty before).accepted a.fragment with
  | repeated => exact ⟨rfl, rfl, Rule.verdict_eq_repeated.mp hv⟩
  | clash =>
      obtain ⟨hne, b, hb, hor⟩ := Rule.verdict_eq_clash.mp hv
      exact ⟨rfl, rfl, hne, b, hb, hor.imp_left (congrArg UInt8.toNat)⟩
  | fresh =>
      -- a fresh fragment is accepted, and the collection has its metadata
      have hstep := Rule.step_fresh (R := scanRule) (t := scanRule.collect .empty before) hv
      have hproper : ∀ b ∈ before ++ [a], b.Proper := by
        intro b hmem
        rcases List.mem_append.mp hmem with hmem | hmem
        · exact hb b hmem
        · exact List.mem_singleton.mp hmem ▸ ha
      obtain ⟨m, hs, -⟩ := scanOf_collect hproper (by simp)
      rw [Rule.collect_concat] at hs
      have hmem : a ∈ (scanRule.step (scanRule.collect .empty before) a).accepted := by
        rw [hstep]
        simp
      obtain rfl : a.fragment.metadata = m := hs.metadata a hmem
      have hacc : (scanRule.step (scanRule.collect .empty before) a).accepted =
          (scanRule.collect .empty before).accepted ++ [a] := by rw [hstep]
      dsimp only
      split
      -- it completes: the counts are those of the events before
      · next hf =>
          obtain ⟨hr, hc⟩ := Rule.collect_empty_counts (R := scanRule) before
          obtain ⟨hd, hc'⟩ := countP_firstWins .empty before
          refine ⟨hacc ▸ hs.uniform, hacc ▸ hf, ?_, rfl, hacc ▸ hs.perm_steps, hs.steps_profileOf,
            ?_, ?_⟩
          · rw [← hacc]
            rfl
          · show (scanRule.step (scanRule.collect .empty before) a).repeats = _
            rw [hstep, hd, hr]
            simp [Tally.empty, scanRule]
          · show (scanRule.step (scanRule.collect .empty before) a).clashes = _
            rw [hstep, hc', hc]
            simp [Tally.empty, scanRule]
      · next hf =>
          have h16 : a.fragment.metadata.expectedFragmentCount.toNat < 16 :=
            lt_of_le_of_lt hs.wellFormed.fragments_le (by decide)
          refine ⟨rfl, hacc ▸ hs.uniform, hacc ▸ hf, fun i => ⟨hacc ▸ hs.has_received i, ?_⟩⟩
          rw [← hacc, Bitmap.has_and]
          by_cases hi : i < 16
          · rw [Bitmap.has_lowMask h16, Bitmap.has_not _ hi, Bool.and_eq_true, decide_eq_true_eq,
              Bool.not_eq_true', Bool.eq_false_iff, ne_eq, hs.has_received]
            simp
          · rw [Bitmap.has_of_ge (not_lt.mp hi)]
            simp
            omega

/-! ### The frames of a scan -/

/-- Fragments of one scan that are equal when their indices are. -/
structure Agree (m : ProfileMetadata) (as : List Arrival) : Prop where
  proper : ∀ a ∈ as, a.Proper
  metadata : ∀ a ∈ as, a.fragment.metadata = m
  same : ∀ a ∈ as, ∀ b ∈ as, a.index = b.index → a.fragment = b.fragment

section
variable {m : ProfileMetadata} {t : ScanTally}

/-- Fragments that agree never clash. -/
theorem Agree.verdict {a : Arrival} {as : List Arrival} (h : Agree m (t.accepted ++ a :: as)) :
    scanRule.verdict t.accepted a.fragment ≠ .clash := by
  intro hv
  obtain ⟨hne, b, hb, hor⟩ := Rule.verdict_eq_clash.mp hv
  have hb' : b ∈ t.accepted ++ a :: as := List.mem_append_left _ hb
  have ha' : a ∈ t.accepted ++ a :: as := by simp
  rcases hor with hs | ht
  · exact hne b hb (h.same b hb' a ha' (congrArg UInt8.toNat hs))
  · exact ht ((h.metadata b hb').trans (h.metadata a ha').symm)

theorem Agree.step {a : Arrival} {as : List Arrival} (h : Agree m (t.accepted ++ a :: as)) :
    Agree m ((scanRule.step t a).accepted ++ as) := by
  have hsub : ∀ x ∈ (scanRule.step t a).accepted ++ as, x ∈ t.accepted ++ a :: as := by
    intro x hx
    rcases List.mem_append.mp hx with hx | hx
    · rcases Rule.step_accepted (R := scanRule) (t := t) (a := a) with he | ⟨-, he⟩
      · exact List.mem_append_left _ (he ▸ hx)
      · rcases List.mem_append.mp (he ▸ hx) with hx | hx
        · exact List.mem_append_left _ hx
        · rw [List.mem_singleton.mp hx]
          simp
    · exact List.mem_append_right _ (List.mem_cons_of_mem _ hx)
  exact ⟨fun x hx => h.proper x (hsub x hx), fun x hx => h.metadata x (hsub x hx),
    fun x hx y hy => h.same x (hsub x hx) y (hsub y hy)⟩

/-- Fragments that agree raise no conflict, and an equal of each is accepted. -/
theorem Agree.collect {as : List Arrival} (h : Agree m (t.accepted ++ as)) :
    (scanRule.collect t as).clashes = t.clashes ∧
      (firstWins t as).countP FragmentEvent.isConflict = 0 ∧
      ∀ a ∈ as, ∃ b ∈ (scanRule.collect t as).accepted, b.fragment = a.fragment := by
  induction as generalizing t with
  | nil => exact ⟨rfl, rfl, nofun⟩
  | cons a as ih =>
      obtain ⟨hc, he, ha⟩ := ih h.step
      have hprefix : _ ⊆ (scanRule.collect (scanRule.step t a) as).accepted :=
        Rule.accepted_prefix.subset
      have hself : (scanRule.step t a).clashes = t.clashes ∧ (eventOf t a).isConflict = false ∧
          ∃ b ∈ (scanRule.step t a).accepted, b.fragment = a.fragment := by
        cases hv : scanRule.verdict t.accepted a.fragment with
        | fresh =>
            rw [Rule.step_fresh (R := scanRule) hv, eventOf, hv]
            refine ⟨rfl, ?_, a, by simp, rfl⟩
            dsimp only
            split <;> rfl
        | repeated =>
            rw [Rule.step_repeated (R := scanRule) hv, eventOf, hv]
            exact ⟨rfl, rfl, Rule.verdict_eq_repeated.mp hv⟩
        | clash => exact absurd hv h.verdict
      obtain ⟨hc', he', b, hb, hba⟩ := hself
      refine ⟨hc.trans hc', ?_, List.forall_mem_cons.mpr ⟨⟨b, hprefix hb, hba⟩, ha⟩⟩
      rw [firstWins, List.countP_cons_of_neg (by simp [he']), he]

/-- A collection that fills up completes once, with the profile of what it accepted. -/
theorem completed_firstWins {as : List Arrival} (hs : ScanOf m t)
    (has : ∀ a ∈ as, a.Proper ∧ a.fragment.metadata = m) :
    (Full m t.accepted → (firstWins t as).filterMap FragmentEvent.completed = []) ∧
      (¬ Full m t.accepted → Full m (scanRule.collect t as).accepted →
        ∃ t', ScanOf m t' ∧ t'.accepted = (scanRule.collect t as).accepted ∧
          t'.clashes ≤ (scanRule.collect t as).clashes ∧
          (firstWins t as).filterMap FragmentEvent.completed = [profileOf m t']) := by
  induction as generalizing t with
  | nil => exact ⟨fun _ => rfl, fun hn hf => absurd hf hn⟩
  | cons a as ih =>
      obtain ⟨⟨ha, hma⟩, has⟩ := List.forall_mem_cons.mp has
      have hs' := hs.step ha fun _ => hma
      obtain ⟨ihFull, ihLacking⟩ := ih hs' has
      cases hv : scanRule.verdict t.accepted a.fragment with
      | fresh =>
          -- a fresh fragment completes the scan exactly when it fills it
          have hev : (eventOf t a).completed = if Full m (scanRule.step t a).accepted then
              some (profileOf m (scanRule.step t a)) else none := by
            rw [eventOf, hv, ← hma]
            dsimp only
            split <;> rfl
          refine ⟨fun hf => absurd hv (hf.not_fresh hs ha), fun _ hf => ?_⟩
          by_cases hf' : Full m (scanRule.step t a).accepted
          · -- later fragments find the collection full
            have hacc := hf'.collect hs' fun b hb => (has b hb).1
            rw [if_pos hf'] at hev
            refine ⟨_, hs', hacc.symm, Rule.clashes_le_collect hs'.bounded, ?_⟩
            rw [firstWins, List.filterMap_cons_some hev, ihFull hf']
          · obtain ⟨t', h1, h2, h3, h4⟩ := ihLacking hf' hf
            rw [if_neg hf'] at hev
            refine ⟨t', h1, h2, h3, ?_⟩
            rw [firstWins, List.filterMap_cons_none hev, h4]
      | repeated =>
          -- counting leaves what was accepted, full or not
          have hacc : (scanRule.step t a).accepted = t.accepted := by
            rw [Rule.step_repeated (R := scanRule) hv]
          rw [hacc] at ihFull ihLacking
          have hev : (eventOf t a).completed = none := by
            rw [eventOf, hv]
            rfl
          rw [firstWins, List.filterMap_cons_none hev]
          exact ⟨ihFull, ihLacking⟩
      | clash =>
          have hacc : (scanRule.step t a).accepted = t.accepted := by
            rw [Rule.step_clash (R := scanRule) hv]
          rw [hacc] at ihFull ihLacking
          have hev : (eventOf t a).completed = none := by
            rw [eventOf, hv]
            rfl
          rw [firstWins, List.filterMap_cons_none hev]
          exact ⟨ihFull, ihLacking⟩

end

/-! ### The end result -/

/-- A scan as the receiver records it when all its fragments arrived. -/
def receivedScan (c : Protocol.Common) (scan : Protocol.ProfileScan)
    (duplicateFragmentCount : Nat) : ProfileScan where
  identity := ⟨c.flags, c.nodeId, c.bootId, c.scanSequence, c.uptimeMs, c.configId,
    c.resetCauseFlags⟩
  profileId := scan.profileId
  profileVersion := scan.profileVersion
  expectedSteps := scan.expectedStepCount
  observedUniqueSteps := scan.observedUniqueStepCount
  observedFieldCount := scan.observedFieldCount
  reportedMissingSteps := scan.missingStepsBitmap
  duplicateSteps := scan.duplicateStepsBitmap
  durationUs := scan.scanDurationUs
  collectionFlags := scan.collectionFlags
  finishReason := scan.finishReason
  duplicateCount := scan.duplicateCount
  overwrittenFieldCount := scan.overwrittenFieldCount
  outOfOrderCount := scan.outOfOrderCount
  ambiguousIndexJumpCount := scan.ambiguousIndexJumpCount
  invalidGasIndexCount := scan.invalidGasIndexCount
  intermediateFieldCount := scan.intermediateFieldCount
  profileRolloverCount := scan.profileRolloverCount
  fieldsAfterRolloverCount := scan.fieldsAfterRolloverCount
  pollCount := scan.pollCount
  expectedFragmentCount := .ofNat (Protocol.fragmentsOf scan.expectedStepCount.toNat)
  receivedFragmentBitmap := Bitmap.lowMask (Protocol.fragmentsOf scan.expectedStepCount.toNat)
  duplicateFragmentCount
  conflictingFragmentCount := 0
  steps := (scan.steps.toList.filterMap id).map profileStep

/-- Fragment `k` of a scan, as the receiver extracts it. -/
def ownedOf (c : Protocol.Common) (scan : Protocol.ProfileScan) (k : Nat) : OwnedFragment :=
  ⟨.ofView (Protocol.fragmentView c scan k), .ofNat k, (scan.stepsIn k).map profileStep⟩

section
variable {c : Protocol.Common} {scan : Protocol.ProfileScan} {frames : List (List UInt8)}
  (h : Protocol.encodeProfile c scan = .ok frames)
include h

theorem toNat_index {k : Nat} (hk : k < Protocol.fragmentsOf scan.expectedStepCount.toNat) :
    (UInt8.ofNat k).toNat = k := by
  obtain ⟨hs, -⟩ := Protocol.encodeProfile_eq_ok.mp h
  have hn : scan.expectedStepCount.toNat ≤ 10 :=
    (Protocol.ScanMeta.toNat_count (Protocol.validateProfile_eq_ok.mp hs).1.count).2
  have h4 := Protocol.fragmentsOf_le hn
  exact UInt8.toNat_ofNat_of_lt' (by simp only [UInt8.size]; omega)

/-- An input whose payload is a frame of the scan is one of its fragments. -/
theorem Ingest.of_frame {i : Ingest} (hi : i.payload ∈ frames) :
    ∃ k < Protocol.fragmentsOf scan.expectedStepCount.toNat,
      i.payload = Protocol.fragmentFrame (Protocol.fragmentView c scan k) ∧
        i.arrival.fragment = ownedOf c scan k := by
  obtain ⟨hs, hc, hcv, rfl⟩ := Protocol.encodeProfile_eq_ok.mp h
  obtain ⟨k, hk, hframe⟩ := List.mem_map.mp hi
  have hk := List.mem_range.mp hk
  have hd := Protocol.decode_fragmentFrame hs hc hcv hk
  rw [hframe] at hd
  have hview : i.fragment = Protocol.fragmentView c scan k :=
    Protocol.DecodedFrame.profileFragment.inj (Except.ok.inj (i.decoded.symm.trans hd))
  refine ⟨k, hk, hframe.symm, ?_⟩
  rw [Ingest.arrival, hview, fragmentSteps_eq (Protocol.carries_fragmentView hs hk)]
  rfl

/-- Every frame of a scan is the frame of one of its fragments. -/
theorem frame_mem {k : Nat} (hk : k < Protocol.fragmentsOf scan.expectedStepCount.toNat) :
    Protocol.fragmentFrame (Protocol.fragmentView c scan k) ∈ frames := by
  obtain ⟨-, -, -, rfl⟩ := Protocol.encodeProfile_eq_ok.mp h
  exact List.mem_map_of_mem (List.mem_range.mpr hk)

/-- Fragment frames are told apart by their indices. -/
theorem fragmentFrame_inj {j k : Nat}
    (hj : j < Protocol.fragmentsOf scan.expectedStepCount.toNat)
    (hk : k < Protocol.fragmentsOf scan.expectedStepCount.toNat)
    (he : Protocol.fragmentFrame (Protocol.fragmentView c scan j) =
      Protocol.fragmentFrame (Protocol.fragmentView c scan k)) : j = k := by
  obtain ⟨hs, hc, hcv, -⟩ := Protocol.encodeProfile_eq_ok.mp h
  have hd := Protocol.decode_fragmentFrame hs hc hcv hj
  rw [he, Protocol.decode_fragmentFrame hs hc hcv hk] at hd
  have hview := Protocol.DecodedFrame.profileFragment.inj (Except.ok.inj hd)
  have hi : UInt8.ofNat k = UInt8.ofNat j :=
    congrArg (fun v : Protocol.ProfileFragmentView => v.header.fragmentIndex) hview
  rw [← toNat_index h hj, ← toNat_index h hk, hi]

/-- **The fragments of a scan complete it once**, in any order and with any repetitions. -/
theorem completes_once {as : List Arrival} (hproper : ∀ a ∈ as, a.Proper)
    (hmem : ∀ a ∈ as, ∃ k < Protocol.fragmentsOf scan.expectedStepCount.toNat,
      a.fragment = ownedOf c scan k)
    (hall : ∀ k < Protocol.fragmentsOf scan.expectedStepCount.toNat,
      ∃ a ∈ as, a.fragment = ownedOf c scan k) :
    ∃ profile, (firstWins .empty as).filterMap FragmentEvent.completed = [profile] ∧
      profile.scan = receivedScan c scan profile.scan.duplicateFragmentCount ∧
      (firstWins .empty as).countP FragmentEvent.isConflict = 0 := by
  obtain ⟨hs, -⟩ := Protocol.encodeProfile_eq_ok.mp h
  obtain ⟨hmv, hslots⟩ := Protocol.validateProfile_eq_ok.mp hs
  have hn : scan.expectedStepCount.toNat ≤ 10 := (Protocol.ScanMeta.toNat_count hmv.count).2
  have h1 : 1 ≤ scan.expectedStepCount.toNat := (Protocol.ScanMeta.toNat_count hmv.count).1
  have hmeta : ∀ k, (ownedOf c scan k).metadata = (ownedOf c scan 0).metadata := fun _ => rfl
  have hindex : ∀ a ∈ as, a.fragment = ownedOf c scan a.index := by
    intro a ha
    obtain ⟨k, hk, he⟩ := hmem a ha
    rw [Arrival.index, he]
    show _ = ownedOf c scan (UInt8.ofNat k).toNat
    rw [toNat_index h hk]
  obtain ⟨first, hfirst, hfirst0⟩ := hall 0 (by rw [Protocol.fragmentsOf]; omega)
  have hw : (ownedOf c scan 0).metadata.WellFormed :=
    hfirst0 ▸ (hproper first hfirst).wellFormed.metadata
  have hcount : (ownedOf c scan 0).metadata.expectedFragmentCount.toNat =
      Protocol.fragmentsOf scan.expectedStepCount.toNat := hw.toNat_fragments
  have hagree : Agree (ownedOf c scan 0).metadata
      ((Tally.empty : ScanTally).accepted ++ as) := by
    refine ⟨hproper, fun a ha => ?_, fun a ha b hb hab => ?_⟩
    · rw [hindex a ha, hmeta]
    · rw [hindex a ha, hindex b hb, hab]
  obtain ⟨hclash, hconflict, hcover⟩ := hagree.collect
  have hfull : Full (ownedOf c scan 0).metadata (scanRule.collect .empty as).accepted := by
    intro k hk
    rw [hcount] at hk
    obtain ⟨a, ha, he⟩ := hall k hk
    obtain ⟨b, hb, hba⟩ := hcover a ha
    refine ⟨b, hb, ?_⟩
    rw [Arrival.index, hba, he]
    exact toNat_index h hk
  have hlack : ¬ Full (ownedOf c scan 0).metadata (Tally.empty : ScanTally).accepted := by
    intro hf
    exact hf.ne_nil (.empty hw) rfl
  obtain ⟨t, ht, hacc, hle, hcomplete⟩ := (completed_firstWins (.empty hw) fun a ha =>
    ⟨hproper a ha, hagree.metadata a ha⟩).2 hlack hfull
  refine ⟨_, hcomplete, ?_, hconflict⟩
  have hclashes : t.clashes = 0 := Nat.le_zero.mp (hle.trans hclash.le)
  have hbitmap : received t.accepted =
      Bitmap.lowMask (Protocol.fragmentsOf scan.expectedStepCount.toNat) := by
    rw [← hcount]
    exact ht.received_eq_mask.mpr (hacc ▸ hfull)
  -- slot after slot, the steps are those of the scan
  have hsteps : (profileOf (ownedOf c scan 0).metadata t).scan.steps =
      (scan.steps.toList.filterMap id).map profileStep := by
    rw [ht.steps_eq, ← Protocol.flatMap_stepsIn hslots hn, List.map_flatMap, slots, hcount,
      List.filterMap_map, List.flatMap_def, List.flatMap_def]
    refine congrArg List.flatten ?_
    rw [List.map_filterMap]
    refine (List.filterMap_congr fun k hk => ?_).trans (congrFun List.filterMap_eq_map' _)
    obtain ⟨a, ha, hak⟩ := hfull k (hcount ▸ List.mem_range.mp hk)
    have hain : a ∈ as := by
      rcases Rule.mem_of_mem_collect ha with hm | hm
      · cases hm
      · exact hm
    have hfind := ht.find_eq.mpr ⟨hacc ▸ ha, hak⟩
    simp only [Function.comp_apply, hfind, Option.map_some, id_eq, hindex a hain, hak]
    rfl
  have hscan : (profileOf (ownedOf c scan 0).metadata t).scan =
      { receivedScan c scan t.repeats with
        receivedFragmentBitmap := received t.accepted
        conflictingFragmentCount := t.clashes
        steps := (profileOf (ownedOf c scan 0).metadata t).scan.steps } := rfl
  rw [hscan, hsteps, hbitmap, hclashes]
  rfl

end

theorem mem_arrivalsFor {key : ProfileKey} {inputs : List Ingest} {a : Arrival} :
    a ∈ arrivalsFor key (inputs.map (·.arrival)) ↔ ∃ i ∈ inputs, i.key = key ∧ i.arrival = a := by
  rw [arrivalsFor, List.mem_filter, List.mem_map, decide_eq_true_eq]
  constructor
  · rintro ⟨⟨i, hi, rfl⟩, hk⟩
    exact ⟨i, hi, hk, rfl⟩
  · rintro ⟨i, hi, hk, rfl⟩
    exact ⟨⟨i, hi, rfl⟩, hk⟩

theorem firstWins_append (t : ScanTally) (as bs : List Arrival) :
    firstWins t (as ++ bs) = firstWins t as ++ firstWins (scanRule.collect t as) bs := by
  induction as generalizing t with
  | nil => rfl
  | cons a as ih => rw [List.cons_append, firstWins, ih, firstWins, Rule.collect_cons,
      List.cons_append]

theorem length_firstWins (t : ScanTally) (as : List Arrival) :
    (firstWins t as).length = as.length := by
  induction as generalizing t with
  | nil => rfl
  | cons a as ih => rw [firstWins, List.length_cons, ih, List.length_cons]

/-- **The reassembler refines its specification.**  Into a fresh reassembler with room for every
key, any sequence of decoded fragments is ingested without an error or an eviction.  The events of
a key are those of the specification on the key's fragments alone, and each reports what it says.
If the fragments of a key are the frames of an encoded scan, in any order and with any
repetitions, the scan completes once, with its own metadata and steps, and nothing conflicts. -/
theorem ingestAll_refines {maxActive : Nat} (hpos : 0 < maxActive) (inputs : List Ingest)
    (hkeys : (inputs.map Ingest.key).dedup.length ≤ maxActive) :
    ∃ results r, (⟨∅, [], maxActive, hpos⟩ : ProfileReassembler).ingestAll inputs =
        .ok (results, r) ∧
      results.length = inputs.length ∧
      (∀ result ∈ results, result.evicted = none) ∧
      (∀ key, eventsFor key inputs results =
        firstWins .empty (arrivalsFor key (inputs.map (·.arrival)))) ∧
      (∀ key before a after, arrivalsFor key (inputs.map (·.arrival)) = before ++ a :: after →
        ∃ event, (eventsFor key inputs results)[before.length]? = some event ∧
          Reports before a event) ∧
      (∀ c scan frames, Protocol.encodeProfile c scan = .ok frames → ∀ key,
        (∀ i ∈ inputs, i.key = key → i.payload ∈ frames) →
        (∀ frame ∈ frames, ∃ i ∈ inputs, i.key = key ∧ i.payload = frame) →
        ∃ profile, (eventsFor key inputs results).filterMap FragmentEvent.completed = [profile] ∧
          profile.scan = receivedScan c scan profile.scan.duplicateFragmentCount ∧
          (eventsFor key inputs results).countP FragmentEvent.isConflict = 0) := by
  have hmem : ∀ i ∈ inputs, i.key ∈ (inputs.map Ingest.key).dedup :=
    fun i hi => List.mem_dedup.mpr (List.mem_map_of_mem hi)
  obtain ⟨results, r, hrun, hlen, hev, hevents⟩ :=
    (ProfileReassembler.tracks_fresh (inputs.map Ingest.key).dedup maxActive hpos).run hkeys hmem
  have hevents : ∀ key, eventsFor key inputs results =
      firstWins .empty (arrivalsFor key (inputs.map (·.arrival))) := hevents
  have hproper : ∀ key, ∀ a ∈ arrivalsFor key (inputs.map (·.arrival)), a.Proper := by
    intro key a ha
    obtain ⟨i, -, -, rfl⟩ := mem_arrivalsFor.mp ha
    exact i.proper
  refine ⟨results, r, hrun, hlen, hev, hevents, ?_, ?_⟩
  · intro key before a after hsplit
    have hp := hproper key
    rw [hsplit] at hp
    refine ⟨_, ?_, reports (fun b hb => hp b (List.mem_append_left _ hb)) (hp a (by simp))⟩
    -- the event of `a` is the one the specification gives after `before`
    rw [hevents, hsplit, firstWins_append, List.getElem?_append_right (by rw [length_firstWins]),
      length_firstWins, Nat.sub_self]
    rfl
  · intro c scan frames hframes key hin hall
    rw [hevents]
    -- every arrival of the key is a frame, and every frame arrives
    refine completes_once hframes (hproper key) (fun a ha => ?_) fun k hk => ?_
    · obtain ⟨i, hi, hik, rfl⟩ := mem_arrivalsFor.mp ha
      obtain ⟨k, hk, -, he⟩ := Ingest.of_frame hframes (hin i hi hik)
      exact ⟨k, hk, he⟩
    · obtain ⟨i, hi, hik, hpay⟩ := hall _ (frame_mem hframes hk)
      obtain ⟨j, hj, hframe, he⟩ := Ingest.of_frame hframes (hin i hi hik)
      rw [fragmentFrame_inj hframes hk hj (hpay.symm.trans hframe)]
      exact ⟨i.arrival, mem_arrivalsFor.mpr ⟨i, hi, hik, rfl⟩, he⟩

/-- A scan of which every step is reported missing. -/
def blankScan (expectedStepCount : UInt8) : Protocol.ProfileScan where
  profileId := 1
  profileVersion := 1
  expectedStepCount
  observedUniqueStepCount := 0
  observedFieldCount := 0
  missingStepsBitmap := Bitmap.lowMask expectedStepCount.toNat
  duplicateStepsBitmap := 0
  scanDurationUs := 0
  collectionFlags := 0
  finishReason := 0
  duplicateCount := 0
  overwrittenFieldCount := 0
  outOfOrderCount := 0
  ambiguousIndexJumpCount := 0
  invalidGasIndexCount := 0
  intermediateFieldCount := 0
  profileRolloverCount := 0
  fieldsAfterRolloverCount := 0
  pollCount := 0
  steps := Vector.replicate _ none

/-- Common fields with a trustworthy boot nonce. -/
def blankCommon : Protocol.Common := ⟨1, 1, 1, 1, 0, 1, 0⟩

/-- Fragment `k` of a blank scan, from packet `k`. -/
def blankIngest (k : Nat) (hk : k < 2) : Ingest where
  order := .stored
  payload := Protocol.fragmentFrame (Protocol.fragmentView blankCommon (blankScan 4) k)
  fragment := Protocol.fragmentView blankCommon (blankScan 4) k
  source := ⟨k, .ofNat k, 0, ⟨0, 0, 0⟩⟩
  observedAt := k
  decoded := Protocol.decode_fragmentFrame (by decide +kernel) (by decide +kernel)
    ⟨by decide, by decide, by decide, by decide⟩ hk
  index := rfl

/-- Both frames of a blank scan, the later one first and twice. -/
theorem ingestAll_refines_blank :
    let inputs := [blankIngest 1 (by decide), blankIngest 1 (by decide), blankIngest 0 (by decide)]
    let key := (blankIngest 0 (by decide)).key
    let scan := receivedScan blankCommon (blankScan 4) 1
    ∃ results r profile, (⟨∅, [], 1, Nat.one_pos⟩ : ProfileReassembler).ingestAll inputs =
        .ok (results, r) ∧
      eventsFor key inputs results = [.pending ⟨key, 0b10, 0b01⟩, .duplicate key 1, .complete
        ⟨scan, [(blankIngest 1 (by decide)).source, (blankIngest 0 (by decide)).source]⟩] ∧
      (eventsFor key inputs results).filterMap FragmentEvent.completed = [profile] ∧
      profile.scan = receivedScan blankCommon (blankScan 4)
        profile.scan.duplicateFragmentCount := by
  intro inputs key scan
  obtain ⟨results, r, hrun, -, -, hevents, -, hframes⟩ :=
    ingestAll_refines Nat.one_pos inputs (by decide +kernel)
  have hencoded : Protocol.encodeProfile blankCommon (blankScan 4) =
      .ok [(blankIngest 0 (by decide)).payload, (blankIngest 1 (by decide)).payload] := by
    decide +kernel
  obtain ⟨profile, hprofile, hscan, -⟩ := hframes blankCommon (blankScan 4) _ hencoded key
    (by decide +kernel) (by decide +kernel)
  exact ⟨results, r, profile, hrun, (hevents key).trans (by decide +kernel), hprofile, hscan⟩

end Vesta.Receiver
