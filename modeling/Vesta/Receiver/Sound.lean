import Vesta.Receiver.Ingest

/-!
# Receiver — Sound

The states of the reassembler.  Every active scan is the picture of a collection that is neither
empty nor full, every entry of the completed queue holds the slots of a full one, no key is in
both, and neither part outgrows the bound (`ProfileReassembler.Sound`).  Every operation keeps
this, and a decoded fragment is ingested without an error or a panic (`ingestOwned_cases`).
-/

namespace Vesta.Receiver

open FirstWins (Rule Tally Verdict)

/-! ### The collection of an active scan -/

namespace ActiveProfile

/-- The accepted fragments with their sources, in the order of arrival. -/
def arrivals (a : ActiveProfile) : List Arrival :=
  a.sources.filterMap fun source =>
    (a.fragments[source.fragmentIndex.toNat]?.join).map (⟨·, source⟩)

/-- What was collected. -/
def tally (a : ActiveProfile) : ScanTally :=
  ⟨a.arrivals, a.duplicateFragmentCount, a.conflictingFragmentCount⟩

theorem tally_of {m : ProfileMetadata} {t : ScanTally} (h : ScanOf m t) (last : Nat) :
    (of m t last).tally = t := by
  have harr : (of m t last).arrivals = t.accepted := by
    rw [arrivals]
    show (t.accepted.map (·.source)).filterMap _ = _
    rw [List.filterMap_map]
    refine (List.filterMap_congr fun a ha => ?_).trans List.filterMap_some
    have hi : a.source.fragmentIndex.toNat = a.index := congrArg UInt8.toNat (h.proper a ha).source
    show ((slots m t.accepted)[a.source.fragmentIndex.toNat]?.join).map _ = some a
    rw [hi, getElem?_slots (h.index_lt ha), h.find_eq.mpr ⟨ha, rfl⟩]
    rfl
  rw [tally, harr]
  rfl

/-- The picture of a collection under its key that lacks some fragments and has some. -/
structure Sound (key : ProfileKey) (a : ActiveProfile) : Prop where
  picture : a = .of a.metadata a.tally a.lastObservedAt
  scan : ScanOf a.metadata a.tally
  key : a.metadata.key = key
  some : a.tally.accepted ≠ []
  lacking : ¬ Full a.metadata a.tally.accepted

theorem sound_of {m : ProfileMetadata} {t : ScanTally} (h : ScanOf m t) (hne : t.accepted ≠ [])
    (hf : ¬ Full m t.accepted) (last : Nat) : (of m t last).Sound m.key := by
  have ht := tally_of h last
  refine ⟨?_, ?_, rfl, ?_, ?_⟩
  all_goals rw [ht]
  · rfl
  · exact h
  · exact hne
  · exact hf

/-- Restored counts belong to a collection of the same fragments. -/
theorem Sound.restored {key : ProfileKey} {a : ActiveProfile} (ha : a.Sound key)
    (duplicates conflicts : Nat) :
    ScanOf a.metadata ⟨a.tally.accepted, saturatingAdd a.tally.repeats duplicates,
      saturatingAdd a.tally.clashes conflicts⟩ :=
  ⟨ha.scan.wellFormed, ha.scan.uniform, ha.scan.metadata, ha.scan.proper,
    Nat.min_le_right _ _, Nat.min_le_right _ _⟩

/-- Indices tell the sources of a scan apart. -/
theorem Sound.eq_of_source {key : ProfileKey} {a : ActiveProfile} (ha : a.Sound key)
    {x y : SourceFragment} (hx : x ∈ a.sources) (hy : y ∈ a.sources)
    (he : x.fragmentIndex = y.fragmentIndex) : x = y := by
  have hsources : a.sources = a.tally.accepted.map (·.source) := congrArg sources ha.picture
  rw [hsources] at hx hy
  obtain ⟨b, hb, rfl⟩ := List.mem_map.mp hx
  obtain ⟨c, hc, rfl⟩ := List.mem_map.mp hy
  rw [(ha.scan.proper b hb).source, (ha.scan.proper c hc).source] at he
  rw [ha.scan.eq_of_index hb hc (congrArg UInt8.toNat he)]

end ActiveProfile

/-- The slots of a full collection, kept under its key. -/
def CompletedProfile.Sound (c : CompletedProfile) : Prop :=
  ∃ m t, c.fragments = slots m t.accepted ∧ ScanOf m t ∧ m.key = c.key ∧ Full m t.accepted

namespace ProfileReassembler

/-! ### Lookups -/

section
variable (r : ProfileReassembler) (key : ProfileKey) (a : ActiveProfile)

@[simp] theorem lookup_put : (r.put key a).active.lookup key = some a := AList.lookup_insert _

@[simp] theorem lookup_remove : (r.remove key).active.lookup key = none := AList.lookup_erase ..

@[simp] theorem lookup_complete : (r.complete key a).active.lookup key = none :=
  AList.lookup_erase ..

variable {key}

theorem lookup_put_ne {k : ProfileKey} (h : k ≠ key) :
    (r.put key a).active.lookup k = r.active.lookup k := AList.lookup_insert_ne h

theorem lookup_remove_ne {k : ProfileKey} (h : k ≠ key) :
    (r.remove key).active.lookup k = r.active.lookup k := AList.lookup_erase_ne h

theorem lookup_complete_ne {k : ProfileKey} (h : k ≠ key) :
    (r.complete key a).active.lookup k = r.active.lookup k := AList.lookup_erase_ne h

theorem mem_keys {k : ProfileKey} : k ∈ r.active.keys ↔ (r.active.lookup k).isSome :=
  AList.mem_keys.symm.trans AList.lookup_isSome.symm

theorem activeLen_eq : r.activeLen = r.active.keys.length := by
  simp [activeLen, AList.keys, List.keys]

end

/-- What was collected of the scan with key `key`. -/
def tallyAt (r : ProfileReassembler) (key : ProfileKey) : ScanTally :=
  ((r.active.lookup key).map (·.tally)).getD .empty

theorem tallyAt_some {r : ProfileReassembler} {key : ProfileKey} {a : ActiveProfile}
    (h : r.active.lookup key = some a) : r.tallyAt key = a.tally := by simp [tallyAt, h]

theorem tallyAt_none {r : ProfileReassembler} {key : ProfileKey}
    (h : r.active.lookup key = none) : r.tallyAt key = .empty := by simp [tallyAt, h]

/-! ### Evictions -/

theorem oldestKey_mem {r : ProfileReassembler} {order : HashOrder} {key : ProfileKey}
    (h : r.oldestKey order = some key) : ∃ a, r.active.lookup key = some a := by
  have hm := (order.perm _).mem_iff.mp (List.argmin_mem h)
  exact Option.isSome_iff_exists.mp ((r.mem_keys).mp hm)

/-- Nothing is evicted for an active scan or when there is room; otherwise another scan is. -/
theorem evictFor_cases (r : ProfileReassembler) (order : HashOrder) (key : ProfileKey) :
    (r.evictFor order key = (none, r) ∧
        ((∃ a, r.active.lookup key = some a) ∨ r.activeLen < r.maxActive)) ∨
      ∃ oldest a, oldest ≠ key ∧ r.active.lookup oldest = some a ∧ r.active.lookup key = none ∧
        r.maxActive ≤ r.activeLen ∧
        r.evictFor order key = (some a.finish, r.remove oldest) := by
  unfold evictFor containsActive
  by_cases hc : ¬ (r.active.lookup key).isSome = true ∧ r.activeLen ≥ r.maxActive
  · rw [if_pos hc]
    obtain ⟨hnone, hlen⟩ := hc
    cases ho : r.oldestKey order with
    | none =>
        -- a bound is positive, so a full map is not empty
        have hnil := List.argmin_eq_none.mp ho
        have hlen' := (order.perm r.active.keys).length_eq
        rw [hnil, List.length_nil, ← activeLen_eq] at hlen'
        have := r.positive
        omega
    | some oldest =>
        obtain ⟨a, ha⟩ := oldestKey_mem ho
        refine .inr ⟨oldest, a, ?_, ha, by simpa using hnone, hlen, ?_⟩
        · rintro rfl
          simp [ha] at hnone
        · simp [ha]
  · rw [if_neg hc]
    refine .inl ⟨rfl, ?_⟩
    by_cases hs : (r.active.lookup key).isSome
    · exact .inl (Option.isSome_iff_exists.mp hs)
    · exact .inr (not_le.mp fun hle => hc ⟨hs, hle⟩)

/-! ### Sound states -/

structure Sound (r : ProfileReassembler) : Prop where
  active : ∀ key a, r.active.lookup key = some a → a.Sound key
  completed : ∀ c ∈ r.completed, c.Sound
  apart : ∀ c ∈ r.completed, r.active.lookup c.key = none
  nodup : (r.completed.map (·.key)).Nodup
  activeBound : r.activeLen ≤ r.maxActive
  completedBound : r.completed.length ≤ r.maxActive

theorem sound_fresh (maxActive : Nat) (h : 0 < maxActive) :
    (⟨∅, [], maxActive, h⟩ : ProfileReassembler).Sound where
  active _ _ ha := absurd ha (by simp)
  completed := List.forall_mem_nil _
  apart := List.forall_mem_nil _
  nodup := List.nodup_nil
  activeBound := Nat.zero_le _
  completedBound := Nat.zero_le _

theorem activeLen_remove_le (r : ProfileReassembler) (key : ProfileKey) :
    (r.remove key).activeLen ≤ r.activeLen :=
  (List.kerase_sublist key r.active.entries).length_le

theorem activeLen_remove {r : ProfileReassembler} {key : ProfileKey} {a : ActiveProfile}
    (h : r.active.lookup key = some a) : (r.remove key).activeLen + 1 = r.activeLen := by
  have hmem : key ∈ r.active.keys := r.mem_keys.mpr (by simp [h])
  have hpos := List.length_pos_of_mem hmem
  rw [activeLen_eq, activeLen_eq]
  show (r.active.erase key).keys.length + 1 = _
  rw [AList.keys_erase, List.length_erase_of_mem hmem]
  omega

theorem activeLen_put_le (r : ProfileReassembler) (key : ProfileKey) (a : ActiveProfile) :
    (r.put key a).activeLen ≤ r.activeLen + 1 :=
  Nat.succ_le_succ (List.kerase_sublist key r.active.entries).length_le

theorem activeLen_put {r : ProfileReassembler} {key : ProfileKey} {a b : ActiveProfile}
    (h : r.active.lookup key = some a) : (r.put key b).activeLen = r.activeLen :=
  activeLen_remove h

namespace Sound

variable {r : ProfileReassembler}

theorem remove (h : r.Sound) (key : ProfileKey) : (r.remove key).Sound where
  active k a hk := by
    by_cases he : k = key
    · subst he
      simp at hk
    · exact h.active k a (r.lookup_remove_ne he ▸ hk)
  completed := h.completed
  apart c hc := by
    by_cases he : c.key = key
    · rw [he, lookup_remove]
    · rw [r.lookup_remove_ne he]
      exact h.apart c hc
  nodup := h.nodup
  activeBound := (r.activeLen_remove_le key).trans h.activeBound
  completedBound := h.completedBound

theorem put (h : r.Sound) {key : ProfileKey} {a : ActiveProfile} (ha : a.Sound key)
    (hc : ∀ c ∈ r.completed, c.key ≠ key)
    (hroom : (∃ b, r.active.lookup key = some b) ∨ r.activeLen < r.maxActive) :
    (r.put key a).Sound where
  active k b hk := by
    by_cases he : k = key
    · subst he
      rw [lookup_put] at hk
      exact Option.some.inj hk ▸ ha
    · exact h.active k b (r.lookup_put_ne a he ▸ hk)
  completed := h.completed
  apart c hcc := by
    rw [r.lookup_put_ne a (hc c hcc)]
    exact h.apart c hcc
  nodup := h.nodup
  activeBound := by
    rcases hroom with ⟨b, hb⟩ | hlt
    · exact (activeLen_put hb).trans_le h.activeBound
    · exact (r.activeLen_put_le key a).trans hlt
  completedBound := h.completedBound

/-- Dropping entries of the completed queue. -/
theorem sublist (h : r.Sound) {completed : List CompletedProfile}
    (hs : completed.Sublist r.completed) : ({ r with completed } : ProfileReassembler).Sound where
  active := h.active
  completed c hc := h.completed c (hs.subset hc)
  apart c hc := h.apart c (hs.subset hc)
  nodup := h.nodup.sublist (hs.map _)
  activeBound := h.activeBound
  completedBound := hs.length_le.trans h.completedBound

theorem complete (h : r.Sound) {key : ProfileKey} {a : ActiveProfile}
    (ha : (⟨key, a.fragments, a.lastObservedAt⟩ : CompletedProfile).Sound)
    (hc : ∀ c ∈ r.completed, c.key ≠ key) : (r.complete key a).Sound := by
  have hr := h.remove key
  have hmem : ∀ c ∈ (r.complete key a).completed,
      c ∈ r.completed ∨ c = ⟨key, a.fragments, a.lastObservedAt⟩ := by
    intro c hcc
    simpa using List.mem_of_mem_drop hcc
  refine ⟨hr.active, ?_, ?_, ?_, hr.activeBound, ?_⟩
  · intro c hcc
    rcases hmem c hcc with hcc | rfl
    · exact h.completed c hcc
    · exact ha
  · intro c hcc
    rcases hmem c hcc with hcc | rfl
    · exact hr.apart c hcc
    · exact r.lookup_complete key a
  · refine List.Nodup.sublist ((List.drop_sublist _ _).map _) ?_
    rw [List.map_append, List.map_singleton, List.nodup_append]
    refine ⟨h.nodup, by simp, ?_⟩
    rintro k hk _ hk'
    rw [List.mem_singleton.mp hk']
    obtain ⟨c, hcc, rfl⟩ := List.mem_map.mp hk
    exact hc c hcc
  · show (List.drop _ _).length ≤ r.maxActive
    rw [List.length_drop]
    omega

/-- The scan that a fragment joins, once there is room for it. -/
theorem ready (h : r.Sound) {a : Arrival} (ha : a.Proper) (observedAt : Nat) :
    ∃ m last, (r.active.lookup a.key).getD (.new a.fragment observedAt) =
        .of m (r.tallyAt a.key) last ∧ ScanOf m (r.tallyAt a.key) ∧ m.key = a.key ∧
      ((r.tallyAt a.key).accepted = [] → a.fragment.metadata = m) := by
  cases hl : r.active.lookup a.key with
  | none =>
      rw [tallyAt_none hl]
      exact ⟨a.fragment.metadata, observedAt, ActiveProfile.new_eq _ _,
        .empty ha.wellFormed.metadata, rfl, fun _ => rfl⟩
  | some b =>
      have hb := h.active _ b hl
      rw [tallyAt_some hl]
      exact ⟨b.metadata, b.lastObservedAt, hb.picture, hb.scan, hb.key, fun he => absurd he hb.some⟩

end Sound

/-! ### Ingesting -/

/-- What ingesting a proper fragment does to a sound reassembler. -/
inductive Ingests (r : ProfileReassembler) (order : HashOrder) (a : Arrival) (observedAt : Nat) :
    IngestResult → ProfileReassembler → Prop where
  /-- The scan is in the completed queue. -/
  | late (c : CompletedProfile) (hc : c ∈ r.completed) (hk : c.key = a.key) :
      Ingests r order a observedAt ⟨c.classify a.fragment, none, none⟩ r
  /-- The scan is active and only counts the fragment. -/
  | counted (b : ActiveProfile) (hc : ∀ c ∈ r.completed, c.key ≠ a.key)
      (hb : r.active.lookup a.key = some b)
      (hv : scanRule.verdict b.tally.accepted a.fragment ≠ .fresh) :
      Ingests r order a observedAt
        ⟨eventOf b.tally a, none, some (profileOf b.metadata (scanRule.step b.tally a))⟩
        (r.put a.key (.of b.metadata (scanRule.step b.tally a) b.lastObservedAt))
  /-- The fragment is accepted and others are still missing. -/
  | accepted (evicted : Option ReassembledProfile) (r₁ : ProfileReassembler) (last : Nat)
      (hc : ∀ c ∈ r.completed, c.key ≠ a.key)
      (hev : r.evictFor order a.key = (evicted, r₁))
      (hv : scanRule.verdict (r.tallyAt a.key).accepted a.fragment = .fresh)
      (hs : ScanOf a.fragment.metadata (scanRule.step (r.tallyAt a.key) a))
      (hf : ¬ Full a.fragment.metadata (scanRule.step (r.tallyAt a.key) a).accepted) :
      Ingests r order a observedAt ⟨eventOf (r.tallyAt a.key) a, evicted, none⟩
        (r₁.put a.key (.of a.fragment.metadata (scanRule.step (r.tallyAt a.key) a) last))
  /-- The fragment is the last one. -/
  | completed (evicted : Option ReassembledProfile) (r₁ : ProfileReassembler) (last : Nat)
      (hc : ∀ c ∈ r.completed, c.key ≠ a.key)
      (hev : r.evictFor order a.key = (evicted, r₁))
      (hv : scanRule.verdict (r.tallyAt a.key).accepted a.fragment = .fresh)
      (hs : ScanOf a.fragment.metadata (scanRule.step (r.tallyAt a.key) a))
      (hf : Full a.fragment.metadata (scanRule.step (r.tallyAt a.key) a).accepted) :
      Ingests r order a observedAt ⟨eventOf (r.tallyAt a.key) a, evicted, none⟩
        (r₁.complete a.key (.of a.fragment.metadata (scanRule.step (r.tallyAt a.key) a) last))

/-- The scan of a fragment is not the one that makes room for it. -/
theorem lookup_evictFor {r r₁ : ProfileReassembler} {order : HashOrder} {key : ProfileKey}
    {evicted : Option ReassembledProfile} (h : r.evictFor order key = (evicted, r₁)) :
    r₁.active.lookup key = r.active.lookup key ∧ r₁.completed = r.completed := by
  rcases r.evictFor_cases order key with ⟨he, -⟩ | ⟨oldest, a, hne, -, -, -, he⟩
  · cases he.symm.trans h
    exact ⟨rfl, rfl⟩
  · cases he.symm.trans h
    exact ⟨r.lookup_remove_ne hne.symm, rfl⟩

theorem Sound.evictFor {r r₁ : ProfileReassembler} (hr : r.Sound) {order : HashOrder}
    {key : ProfileKey} {evicted : Option ReassembledProfile}
    (h : r.evictFor order key = (evicted, r₁)) :
    r₁.Sound ∧ ((∃ b, r₁.active.lookup key = some b) ∨ r₁.activeLen < r₁.maxActive) := by
  rcases r.evictFor_cases order key with ⟨he, hroom⟩ | ⟨oldest, a, -, ha, -, -, he⟩
  · cases he.symm.trans h
    exact ⟨hr, hroom⟩
  · cases he.symm.trans h
    have hlen := activeLen_remove ha
    have hbound := hr.activeBound
    refine ⟨hr.remove oldest, .inr ?_⟩
    show (r.remove oldest).activeLen < r.maxActive
    omega

/-- **A proper fragment is ingested.** -/
theorem ingestOwned_cases {r : ProfileReassembler} (hr : r.Sound) (order : HashOrder)
    {a : Arrival} (ha : a.Proper) (observedAt : Nat) :
    ∃ result r', r.ingestOwned order a.fragment a.source observedAt = .ok (result, r') ∧
      r.Ingests order a observedAt result r' := by
  rw [ingestOwned, Outcome.failIf_neg (not_not.mpr ha.source), Outcome.ok_bind]
  cases hfind : r.completed.find? fun entry => decide (entry.key = a.fragment.metadata.key) with
  | some c =>
      have hk : c.key = a.fragment.metadata.key := by simpa using List.find?_some hfind
      exact ⟨_, _, rfl, .late c (List.mem_of_find?_eq_some hfind) hk⟩
  | none =>
      have hc : ∀ c ∈ r.completed, c.key ≠ a.key := by
        simpa [List.find?_eq_none, Arrival.key] using hfind
      obtain ⟨evicted, r₁, hev⟩ : ∃ evicted r₁, r.evictFor order a.key = (evicted, r₁) :=
        ⟨_, _, rfl⟩
      obtain ⟨m, last, hact, hs, hkey, hm⟩ := hr.ready ha observedAt
      rw [← (lookup_evictFor hev).1] at hact
      have heq := ingestActive_eq hev hact hs ha hm
      cases hv : scanRule.verdict (r.tallyAt a.key).accepted a.fragment with
      | fresh =>
          -- a fresh fragment has the metadata of the scan
          have hmm : a.fragment.metadata = m := by
            cases ht : (r.tallyAt a.key).accepted with
            | nil => exact hm ht
            | cons b bs =>
                have hb : b ∈ (r.tallyAt a.key).accepted := ht ▸ List.mem_cons_self
                exact (Rule.verdict_eq_fresh.mp hv b hb).2.symm.trans (hs.metadata b hb)
          subst hmm
          have hs' := hs.step ha hm
          simp only [hv] at heq
          by_cases hf : Full a.fragment.metadata (scanRule.step (r.tallyAt a.key) a).accepted
          · rw [if_pos hf] at heq
            exact ⟨_, _, heq, .completed evicted r₁ _ hc hev hv hs' hf⟩
          · rw [if_neg hf] at heq
            exact ⟨_, _, heq, .accepted evicted r₁ _ hc hev hv hs' hf⟩
      | repeated | clash =>
          -- a counted fragment meets an active scan, so nothing is evicted
          obtain ⟨b, hb⟩ : ∃ b, r.active.lookup a.key = some b := by
            cases hl : r.active.lookup a.key with
            | some b => exact ⟨b, rfl⟩
            | none =>
                rw [tallyAt_none hl] at hv
                cases Rule.verdict_nil.symm.trans hv
          have hev' : r.evictFor order a.key = (none, r) := by
            rcases r.evictFor_cases order a.key with ⟨he, -⟩ | ⟨_, _, -, -, hnone, -⟩
            · exact he
            · cases hnone.symm.trans hb
          cases hev.symm.trans hev'
          have hbs := hr.active _ b hb
          rw [hb, Option.getD_some, hbs.picture, tallyAt_some hb] at hact
          obtain rfl : b.metadata = m := congrArg ActiveProfile.metadata hact
          obtain rfl : b.lastObservedAt = last := congrArg ActiveProfile.lastObservedAt hact
          simp only [hv] at heq
          rw [tallyAt_some hb] at heq hv
          exact ⟨_, _, heq, .counted b hc hb fun hf => by cases hv.symm.trans hf⟩

/-- Ingesting keeps the reassembler sound. -/
theorem Ingests.sound {r r' : ProfileReassembler} {order : HashOrder} {a : Arrival}
    {observedAt : Nat} {result : IngestResult} (hr : r.Sound) (ha : a.Proper)
    (h : r.Ingests order a observedAt result r') : r'.Sound := by
  cases h with
  | late => exact hr
  | counted b hc hb hv =>
      have hbs := hr.active _ b hb
      have hacc : (scanRule.step b.tally a).accepted = b.tally.accepted := by
        rcases Rule.step_accepted (R := scanRule) (t := b.tally) (a := a) with he | ⟨hf, -⟩
        · exact he
        · exact absurd hf hv
      have hs := hbs.scan.step ha fun he => absurd he hbs.some
      have hsound := ActiveProfile.sound_of hs (hacc ▸ hbs.some) (hacc ▸ hbs.lacking)
        b.lastObservedAt
      exact hr.put (hbs.key ▸ hsound) hc (.inl ⟨b, hb⟩)
  | accepted evicted r₁ last hc hev hv hs hf =>
      obtain ⟨hr₁, hroom⟩ := hr.evictFor hev
      have hne : (scanRule.step (r.tallyAt a.key) a).accepted ≠ [] := by
        rw [Rule.step_fresh (R := scanRule) hv]
        simp
      exact hr₁.put (ActiveProfile.sound_of hs hne hf last)
        (fun c hcc => hc c ((lookup_evictFor hev).2 ▸ hcc)) hroom
  | completed evicted r₁ last hc hev hv hs hf =>
      exact (hr.evictFor hev).1.complete ⟨_, _, rfl, hs, rfl, hf⟩
        (fun c hcc => hc c ((lookup_evictFor hev).2 ▸ hcc))

/-! ### The other operations -/

theorem takeActive_snd (r : ProfileReassembler) (keys : List ProfileKey) :
    (r.takeActive keys).2 = keys.foldl remove r := by
  induction keys generalizing r with
  | nil => rfl
  | cons key keys ih =>
      rw [takeActive, List.foldl_cons, ← ih]
      cases r.active.lookup key <;> rfl

theorem lookup_foldl_remove (r : ProfileReassembler) (keys : List ProfileKey) (k : ProfileKey) :
    (keys.foldl remove r).active.lookup k = if k ∈ keys then none else r.active.lookup k := by
  induction keys generalizing r with
  | nil => simp
  | cons key keys ih =>
      rw [List.foldl_cons, ih]
      by_cases he : k = key
      · subst he
        simp
      · simp [he, r.lookup_remove_ne he]

theorem Sound.foldl_remove {r : ProfileReassembler} (h : r.Sound) (keys : List ProfileKey) :
    (keys.foldl ProfileReassembler.remove r).Sound := by
  induction keys generalizing r with
  | nil => exact h
  | cons key keys ih => exact ih (h.remove key)

theorem Sound.expireBefore {r : ProfileReassembler} (h : r.Sound) (order : HashOrder)
    (cutoff : Nat) : (r.expireBefore order cutoff).2.Sound := by
  rw [ProfileReassembler.expireBefore]
  dsimp only
  rw [takeActive_snd]
  exact (h.foldl_remove _).sublist List.filter_sublist

theorem Sound.drainIncomplete {r : ProfileReassembler} (h : r.Sound) (order : HashOrder) :
    (r.drainIncomplete order).2.Sound := by
  rw [ProfileReassembler.drainIncomplete, takeActive_snd]
  exact h.foldl_remove _

theorem Sound.discard {r : ProfileReassembler} (h : r.Sound) (key : ProfileKey) :
    (r.discard key).Sound := (h.remove key).sublist List.filter_sublist

/-- Restoring counts changes the counts of an active scan and nothing else. -/
theorem restoreReceiverCounts_eq {r : ProfileReassembler} {key : ProfileKey} {a : ActiveProfile}
    (hr : r.Sound) (h : r.active.lookup key = some a) (duplicates conflicts : Nat) :
    r.restoreReceiverCounts key duplicates conflicts =
      .ok (r.put key (.of a.metadata ⟨a.tally.accepted, saturatingAdd a.tally.repeats duplicates,
        saturatingAdd a.tally.clashes conflicts⟩ a.lastObservedAt)) := by
  have hp : (a.addDuplicates duplicates).addConflicts conflicts =
      .of a.metadata ⟨a.tally.accepted, saturatingAdd a.tally.repeats duplicates,
        saturatingAdd a.tally.clashes conflicts⟩ a.lastObservedAt :=
    congrArg (fun b => (b.addDuplicates duplicates).addConflicts conflicts)
      (hr.active _ a h).picture
  rw [restoreReceiverCounts, h, ← hp]

theorem Sound.restore {r : ProfileReassembler} (hr : r.Sound) {key : ProfileKey}
    {a : ActiveProfile} (h : r.active.lookup key = some a) (duplicates conflicts : Nat) :
    (r.put key (.of a.metadata ⟨a.tally.accepted, saturatingAdd a.tally.repeats duplicates,
      saturatingAdd a.tally.clashes conflicts⟩ a.lastObservedAt)).Sound := by
  have ha := hr.active _ a h
  have hs := ha.restored duplicates conflicts
  have hc : ∀ c ∈ r.completed, c.key ≠ key := by
    rintro c hc rfl
    cases (hr.apart c hc).symm.trans h
  exact hr.put (ha.key ▸ ActiveProfile.sound_of hs ha.some ha.lacking _) hc (.inl ⟨a, h⟩)

end ProfileReassembler

end Vesta.Receiver
