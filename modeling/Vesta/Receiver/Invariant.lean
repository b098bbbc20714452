import Vesta.Receiver.Balance

/-!
# Receiver — Invariant

The reassembler in place.  `ingestMut` is `ingest_at` as a method that changes its state as it
goes, so that a call which fails leaves what it had changed by then; it agrees with `ingestAt`.

In every state that calls reach from a fresh reassembler, the map, the queue, the slots, the bitmap
and the sources say the same (`ProfileReassembler.WellFormed`); a fragment makes room for itself by
evicting one scan, the one updated least recently; and the one error of a decoded fragment comes
before any change (`reachable_wellFormed`).
-/

namespace Vesta.Receiver

open FirstWins (Rule Tally Verdict)

/-! ### Ingesting in place -/

/-- A method with `&mut self`: it ends in a state also when it fails. -/
abbrev Mut (α : Type) := EStateM (Fault ReassemblyError) ProfileReassembler α

namespace Mut

/-- A step that does not touch the state. -/
def lift {α : Type} (x : Outcome ReassemblyError α) : Mut α := fun r =>
  match x with
  | .ok a => .ok a r
  | .error e => .error e r

/-- The state that a method ends in. -/
def final {α : Type} : EStateM.Result (Fault ReassemblyError) ProfileReassembler α →
    ProfileReassembler
  | .ok _ r => r
  | .error _ r => r

section
variable {α β : Type} (r : ProfileReassembler) (k : α → Mut β)

@[simp] theorem get_bind (k : ProfileReassembler → Mut β) : ((get : Mut _) >>= k) r = k r r := rfl

@[simp] theorem set_bind (r' : ProfileReassembler) (k : PUnit → Mut β) :
    ((set r' : Mut PUnit) >>= k) r = k ⟨⟩ r' := rfl

@[simp] theorem modify_bind (f : ProfileReassembler → ProfileReassembler) (k : PUnit → Mut β) :
    ((modify f : Mut PUnit) >>= k) r = k ⟨⟩ (f r) := rfl

@[simp] theorem pure_apply (a : α) : (pure a : Mut α) r = .ok a r := rfl

@[simp] theorem lift_ok_bind (a : α) : (lift (.ok a) >>= k) r = k a r := rfl

end

end Mut

namespace ProfileReassembler

/-- The part of `ingest_at` after the lookup in the completed queue. -/
def ingestActiveMut (order : HashOrder) (owned : OwnedFragment) (source : SourceFragment)
    (observedAt : Nat) : Mut IngestResult := do
  let key := owned.metadata.key
  let (evicted, r) := (← get).evictFor order key
  set r
  let active := (r.active.lookup key).getD (.new owned observedAt)
  modify (·.put key active)
  if active.metadata ≠ owned.metadata then
    let active := active.addConflicts 1
    modify (·.put key active)
    return ⟨.conflict key owned.fragmentIndex, evicted, some active.snapshot⟩
  else
    match ← Mut.lift (index active.fragments owned.fragmentIndex.toNat) with
    | some previous =>
        if previous = owned then
          let active := active.addDuplicates 1
          modify (·.put key active)
          return ⟨.duplicate key owned.fragmentIndex, evicted, some active.snapshot⟩
        else
          let active := active.addConflicts 1
          modify (·.put key active)
          return ⟨.conflict key owned.fragmentIndex, evicted, some active.snapshot⟩
    | none =>
        let active ← Mut.lift (active.accept owned source observedAt)
        modify (·.put key active)
        let expectedMask ← Mut.lift (fragmentMask active.metadata.expectedFragmentCount)
        if active.receivedFragmentBitmap = expectedMask then
          match (← get).active.lookup key with
          | none => throw (.error .internalState)
          | some active =>
              modify (·.complete key active)
              return ⟨.complete active.finish, evicted, none⟩
        else
          return ⟨.pending ⟨key, active.receivedFragmentBitmap,
            expectedMask &&& ~~~active.receivedFragmentBitmap⟩, evicted, none⟩

/-- `ProfileReassembler::ingest_at`, in place. -/
def ingestMut (order : HashOrder) (fragment : Protocol.ProfileFragmentView)
    (source : SourceFragment) (observedAt : Nat) : Mut IngestResult := do
  let owned ← Mut.lift (Outcome.mapErr .codec (OwnedFragment.fromView fragment))
  if source.fragmentIndex ≠ owned.fragmentIndex then
    throw (.error (.sourceFragmentIndex source.fragmentIndex owned.fragmentIndex))
  else
    match (← get).completed.find? fun entry => decide (entry.key = owned.metadata.key) with
    | some completed => return ⟨completed.classify owned, none, none⟩
    | none => ingestActiveMut order owned source observedAt

/-- `ProfileReassembler::restore_receiver_counts`, in place. -/
def restoreReceiverCountsMut (key : ProfileKey)
    (duplicateFragmentCount conflictingFragmentCount : Nat) : Mut Unit := do
  match (← get).active.lookup key with
  | none => throw (.error .internalState)
  | some active =>
      modify (·.put key
        ((active.addDuplicates duplicateFragmentCount).addConflicts conflictingFragmentCount))

theorem put_put (r : ProfileReassembler) (key : ProfileKey) (a b : ActiveProfile) :
    (r.put key a).put key b = r.put key b := by
  simp only [put, AList.insert_insert]

/-- In place, the same result and the same state. -/
theorem ingestActiveMut_of_ok {r r' : ProfileReassembler} {order : HashOrder}
    {owned : OwnedFragment} {source : SourceFragment} {observedAt : Nat} {result : IngestResult}
    (h : r.ingestActive order owned source observedAt = .ok (result, r')) :
    ingestActiveMut order owned source observedAt r = .ok result r' := by
  obtain ⟨evicted, r₁, hev⟩ : ∃ evicted r₁, r.evictFor order owned.metadata.key = (evicted, r₁) :=
    ⟨_, _, rfl⟩
  rw [ingestActive, hev] at h
  rw [ingestActiveMut, Mut.get_bind, hev]
  dsimp only at h ⊢
  rw [Mut.set_bind, Mut.modify_bind]
  -- both hold the scan after the eviction; one puts it back, one changes it there
  generalize (r₁.active.lookup owned.metadata.key).getD (.new owned observedAt) = active at h ⊢
  by_cases hm : active.metadata ≠ owned.metadata
  · rw [if_pos hm] at h ⊢
    cases h
    rw [Mut.modify_bind, put_put, Mut.pure_apply]
  · rw [if_neg hm] at h ⊢
    obtain ⟨slot, hslot, h⟩ := Outcome.bind_eq_ok.mp h
    rw [hslot, Mut.lift_ok_bind]
    cases slot with
    | some previous =>
        dsimp only at h ⊢
        by_cases he : previous = owned
        · rw [if_pos he] at h ⊢
          cases h
          rw [Mut.modify_bind, put_put, Mut.pure_apply]
        · rw [if_neg he] at h ⊢
          cases h
          rw [Mut.modify_bind, put_put, Mut.pure_apply]
    | none =>
        dsimp only at h ⊢
        -- accepting and the mask may fail, but not here
        obtain ⟨accepted, haccept, h⟩ := Outcome.bind_eq_ok.mp h
        obtain ⟨mask, hmask, h⟩ := Outcome.bind_eq_ok.mp h
        rw [haccept, Mut.lift_ok_bind, Mut.modify_bind, put_put, hmask, Mut.lift_ok_bind]
        by_cases hb : accepted.receivedFragmentBitmap = mask
        · rw [if_pos hb] at h ⊢
          rw [lookup_put] at h
          rw [Mut.get_bind, lookup_put]
          cases h
          rfl
        · rw [if_neg hb] at h ⊢
          cases h
          rw [Mut.pure_apply]

/-- What a call on a fragment with the steps `owned` returned, it returns in place. -/
theorem ingestMut_of_ok {r r' : ProfileReassembler} {order : HashOrder}
    {fragment : Protocol.ProfileFragmentView} {source : SourceFragment} {observedAt : Nat}
    {result : IngestResult} (h : r.ingestAt order fragment source observedAt = .ok (result, r')) :
    ingestMut order fragment source observedAt r = .ok result r' := by
  rw [ingestAt] at h
  obtain ⟨owned, howned, h⟩ := Outcome.bind_eq_ok.mp h
  rw [ingestOwned, Outcome.unit_bind_eq_ok, Outcome.failIf_eq_ok] at h
  obtain ⟨hsource, h⟩ := h
  rw [ingestMut, howned, Mut.lift_ok_bind, if_neg hsource, Mut.get_bind]
  cases hfind : r.completed.find? fun entry => decide (entry.key = owned.metadata.key) with
  | some completed =>
      rw [hfind] at h
      cases h
      rfl
  | none =>
      rw [hfind] at h
      exact ingestActiveMut_of_ok h

end ProfileReassembler

/-! ### What the fields say -/

namespace ActiveProfile

/-- Slot `i` holds a fragment. -/
def Filled (a : ActiveProfile) (i : Nat) : Prop := ∃ f, a.fragments[i]? = some (some f)

/-- The fields of an active scan stored under `key` agree. -/
structure WellFormed (key : ProfileKey) (a : ActiveProfile) : Prop where
  key : a.metadata.key = key
  /-- A slot for each fragment of the scan. -/
  slots : a.fragments.length = a.metadata.expectedFragmentCount.toNat
  held : ∃ i, a.Filled i
  lacking : ∃ i < a.fragments.length, ¬ a.Filled i
  /-- A slot holds the fragment with its index, of this scan. -/
  slot : ∀ (i : Nat) (f : OwnedFragment), a.fragments[i]? = some (some f) →
    f.fragmentIndex.toNat = i ∧ f.metadata = a.metadata
  bitmap : ∀ i, Bitmap.has a.receivedFragmentBitmap i = true ↔ a.Filled i
  /-- A filled slot has one source, and every source a filled slot. -/
  sources : (a.sources.map (·.fragmentIndex)).Nodup ∧
    ∀ i, a.Filled i ↔ ∃ source ∈ a.sources, source.fragmentIndex.toNat = i

section
variable {m : ProfileMetadata} {t : ScanTally} (h : ScanOf m t) {last : Nat}
include h

/-- The slots of a collection hold what was accepted. -/
theorem getElem?_of {i : Nat} {f : OwnedFragment} :
    (of m t last).fragments[i]? = some (some f) ↔
      ∃ a ∈ t.accepted, a.index = i ∧ a.fragment = f := by
  by_cases hi : i < m.expectedFragmentCount.toNat
  · rw [show (of m t last).fragments = slots m t.accepted from rfl, getElem?_slots hi,
      Option.some_inj, Option.map_eq_some_iff]
    exact exists_congr fun a => by rw [h.find_eq, and_assoc]
  · rw [List.getElem?_eq_none (by simpa [of] using hi)]
    refine iff_of_false (by simp) ?_
    rintro ⟨a, ha, rfl, -⟩
    exact hi (h.index_lt ha)

theorem filled_of {i : Nat} : (of m t last).Filled i ↔ ∃ a ∈ t.accepted, a.index = i := by
  rw [Filled]
  simp only [getElem?_of h]
  constructor
  · rintro ⟨f, a, ha, hi, -⟩
    exact ⟨a, ha, hi⟩
  · rintro ⟨a, ha, hi⟩
    exact ⟨a.fragment, a, ha, hi, rfl⟩

/-- The picture of a collection is well formed. -/
theorem wellFormed_of (hne : t.accepted ≠ []) (hf : ¬ Full m t.accepted) :
    (of m t last).WellFormed m.key where
  key := rfl
  slots := length_slots m t.accepted
  held := by
    obtain ⟨a, ha⟩ := List.exists_mem_of_ne_nil _ hne
    exact ⟨a.index, (filled_of h).mpr ⟨a, ha, rfl⟩⟩
  lacking := by
    simp only [filled_of h]
    rw [show (of m t last).fragments.length = _ from length_slots m t.accepted]
    simpa [Full] using hf
  slot i f hslot := by
    obtain ⟨a, ha, rfl, rfl⟩ := (getElem?_of h).mp hslot
    exact ⟨rfl, h.metadata a ha⟩
  bitmap i := (h.has_received i).trans (filled_of h).symm
  sources := by
    -- a source has the index of its fragment
    have hindex : ∀ a ∈ t.accepted, a.source.fragmentIndex = a.fragment.fragmentIndex :=
      fun a ha => (h.proper a ha).source
    constructor
    · have hmap : (t.accepted.map (·.source)).map (·.fragmentIndex) =
          t.accepted.map (·.fragment.fragmentIndex) := by
        rw [List.map_map]
        exact List.map_congr_left hindex
      exact hmap ▸ h.uniform.slots
    · intro i
      rw [filled_of h]
      show _ ↔ ∃ source ∈ t.accepted.map (·.source), source.fragmentIndex.toNat = i
      simp only [List.mem_map, exists_exists_and_eq_and]
      refine exists_congr fun a => and_congr_right fun ha => ?_
      rw [hindex a ha]
      rfl

end

theorem Sound.wellFormed {key : ProfileKey} {a : ActiveProfile} (h : a.Sound key) :
    a.WellFormed key := by
  rw [h.picture, ← h.key]
  exact wellFormed_of h.scan h.some h.lacking

end ActiveProfile

namespace ProfileReassembler

/-- The parts of a reassembler with capacity `m` agree. -/
structure WellFormed (m : Nat) (r : ProfileReassembler) : Prop where
  capacity : r.maxActive = m
  activeBound : r.activeLen ≤ m
  completedBound : r.completed.length ≤ m
  apart : ∀ c ∈ r.completed, r.active.lookup c.key = none
  nodup : (r.completed.map (·.key)).Nodup
  scans : ∀ key a, r.active.lookup key = some a → a.WellFormed key

theorem Sound.wellFormed {r : ProfileReassembler} (h : r.Sound) : r.WellFormed r.maxActive where
  capacity := rfl
  activeBound := h.activeBound
  completedBound := h.completedBound
  apart := h.apart
  nodup := h.nodup
  scans key a ha := (h.active key a ha).wellFormed

/-! ### Evictions -/

/-- What a fragment of the scan `key` does to the other scans. -/
inductive Evicts (r : ProfileReassembler) (key : ProfileKey) :
    Option ReassembledProfile → ProfileReassembler → Prop where
  | none {r' : ProfileReassembler}
      (keep : ∀ k ≠ key, r'.active.lookup k = r.active.lookup k) : Evicts r key none r'
  /-- A new scan takes the place of the one updated least recently. -/
  | oldest {r' : ProfileReassembler} (k₀ : ProfileKey) (a : ActiveProfile)
      (inactive : r.active.lookup key = Option.none) (incomplete : ∀ c ∈ r.completed, c.key ≠ key)
      (full : r.activeLen = r.maxActive) (active : r.active.lookup k₀ = some a)
      (least : ∀ k b, r.active.lookup k = some b → a.lastObservedAt ≤ b.lastObservedAt)
      (gone : r'.active.lookup k₀ = Option.none)
      (keep : ∀ k, k ≠ key → k ≠ k₀ → r'.active.lookup k = r.active.lookup k) :
      Evicts r key (some a.finish) r'

/-- The scan `key` is active or in the completed queue. -/
def Holds (r : ProfileReassembler) (key : ProfileKey) : Prop :=
  (∃ a, r.active.lookup key = some a) ∨ ∃ c ∈ r.completed, c.key = key

/-- No active scan was updated before the oldest one. -/
theorem le_of_oldestKey {r : ProfileReassembler} {order : HashOrder} {k₀ k : ProfileKey}
    {a b : ActiveProfile} (h : r.oldestKey order = some k₀) (ha : r.active.lookup k₀ = some a)
    (hb : r.active.lookup k = some b) : a.lastObservedAt ≤ b.lastObservedAt := by
  have hk : k ∈ order.arrange r.active.keys :=
    (order.perm _).mem_iff.mpr (r.mem_keys.mpr (by simp [hb]))
  simpa [ha, hb] using List.le_of_mem_argmin hk h

/-- The scan that makes room is the one updated least recently. -/
theorem evictFor_eq_some {r r₁ : ProfileReassembler} {order : HashOrder} {key : ProfileKey}
    {p : ReassembledProfile} (h : r.evictFor order key = (some p, r₁)) :
    ∃ k₀ a, r.active.lookup key = none ∧ r.maxActive ≤ r.activeLen ∧
      r.oldestKey order = some k₀ ∧ r.active.lookup k₀ = some a ∧ p = a.finish ∧
      r₁ = r.remove k₀ := by
  rw [evictFor, containsActive] at h
  split at h
  · next hfull =>
      cases ho : r.oldestKey order with
      | none =>
          rw [ho] at h
          cases h
      | some k₀ =>
          obtain ⟨a, ha⟩ := oldestKey_mem ho
          rw [ho] at h
          simp only [ha, Option.map_some] at h
          cases h
          exact ⟨k₀, a, by simpa using hfull.1, hfull.2, rfl, ha, rfl, rfl⟩
  · cases h

/-- Making room, followed by a change of the scan `key` alone. -/
theorem Sound.evicts {r r₁ r' : ProfileReassembler} (hr : r.Sound) {order : HashOrder}
    {key : ProfileKey} {evicted : Option ReassembledProfile}
    (hc : ∀ c ∈ r.completed, c.key ≠ key) (hev : r.evictFor order key = (evicted, r₁))
    (hkeep : ∀ k ≠ key, r'.active.lookup k = r₁.active.lookup k) : Evicts r key evicted r' := by
  cases evicted with
  | none =>
      rcases r.evictFor_cases order key with ⟨he, -⟩ | ⟨_, _, -, -, -, -, he⟩
      · cases he.symm.trans hev
        exact .none hkeep
      · cases he.symm.trans hev
  | some p =>
      obtain ⟨k₀, a, hnew, hfull, ho, ha, rfl, rfl⟩ := evictFor_eq_some hev
      have hne : k₀ ≠ key := by
        rintro rfl
        cases hnew.symm.trans ha
      refine .oldest k₀ a hnew hc (hr.activeBound.antisymm hfull) ha
        (fun k b hb => le_of_oldestKey ho ha hb) ?_ fun k hk hk₀ => ?_
      · rw [hkeep k₀ hne, lookup_remove]
      · rw [hkeep k hk, r.lookup_remove_ne hk₀]

section
variable {r r' : ProfileReassembler} {order : HashOrder} {a : Arrival} {observedAt : Nat}
  {result : IngestResult}

theorem Ingests.evicts (hr : r.Sound) (h : r.Ingests order a observedAt result r') :
    Evicts r a.key result.evicted r' := by
  cases h with
  | late => exact .none fun _ _ => rfl
  | counted => exact .none fun k hk => r.lookup_put_ne _ hk
  | accepted evicted r₁ last hc hev => exact hr.evicts hc hev fun k hk => r₁.lookup_put_ne _ hk
  | completed evicted r₁ last hc hev =>
      exact hr.evicts hc hev fun k hk => r₁.lookup_complete_ne _ hk

/-- The entry just pushed stays in the completed queue. -/
theorem mem_completed_complete (r : ProfileReassembler) (key : ProfileKey) (a : ActiveProfile) :
    ⟨key, a.fragments, a.lastObservedAt⟩ ∈ (r.complete key a).completed := by
  have hpos := r.positive
  simp only [complete]
  rw [List.drop_append_of_le_length (by simp; omega)]
  simp

theorem Ingests.holds (h : r.Ingests order a observedAt result r') : r'.Holds a.key := by
  cases h with
  | late c hc hk => exact .inr ⟨c, hc, hk⟩
  | counted => exact .inl ⟨_, lookup_put ..⟩
  | accepted => exact .inl ⟨_, lookup_put ..⟩
  | completed evicted r₁ last => exact .inr ⟨_, mem_completed_complete r₁ a.key _, rfl⟩

theorem maxActive_evictFor {r₁ : ProfileReassembler} {key : ProfileKey}
    {evicted : Option ReassembledProfile} (h : r.evictFor order key = (evicted, r₁)) :
    r₁.maxActive = r.maxActive := by
  rcases r.evictFor_cases order key with ⟨he, -⟩ | ⟨_, _, -, -, -, -, he⟩
  · cases he.symm.trans h
    rfl
  · cases he.symm.trans h
    rfl

theorem Ingests.maxActive (h : r.Ingests order a observedAt result r') :
    r'.maxActive = r.maxActive := by
  cases h with
  | late => rfl
  | counted => rfl
  | accepted evicted r₁ last hc hev => exact (maxActive_evictFor hev :)
  | completed evicted r₁ last hc hev => exact (maxActive_evictFor hev :)

end

theorem maxActive_foldl_remove (r : ProfileReassembler) (keys : List ProfileKey) :
    (keys.foldl remove r).maxActive = r.maxActive := by
  induction keys generalizing r with
  | nil => rfl
  | cons key keys ih => exact ih _

/-! ### Calls -/

/-- What a call with a decoded fragment does to a sound reassembler. -/
theorem Sound.ingestMut {r : ProfileReassembler} (hr : r.Sound) {payload : List UInt8}
    {fragment : Protocol.ProfileFragmentView}
    (decoded : Protocol.decode payload = .ok (.profileFragment fragment)) (order : HashOrder)
    (source : SourceFragment) (observedAt : Nat) :
    (∃ result r', ingestMut order fragment source observedAt r = .ok result r' ∧ r'.Sound ∧
        r'.maxActive = r.maxActive ∧
        Evicts r (.ofHeader fragment.header) result.evicted r' ∧
        r'.Holds (.ofHeader fragment.header)) ∨
      ingestMut order fragment source observedAt r =
        .error (.error (.sourceFragmentIndex source.fragmentIndex fragment.header.fragmentIndex))
          r := by
  obtain ⟨steps, -, hf⟩ := fromView_eq decoded
  by_cases hsource : source.fragmentIndex = fragment.header.fragmentIndex
  · left
    have ha : (⟨⟨.ofView fragment, fragment.header.fragmentIndex, steps.map profileStep⟩,
        source⟩ : Arrival).Proper := ⟨IsFrame.wellFormed ⟨_, decoded, hf⟩, hsource⟩
    obtain ⟨result, r', hok, hi⟩ := ingestOwned_cases hr order ha observedAt
    have hat : r.ingestAt order fragment source observedAt = .ok (result, r') := by
      rw [ingestAt, hf, Outcome.mapErr_ok, Outcome.ok_bind]
      exact hok
    exact ⟨result, r', ingestMut_of_ok hat, hi.sound hr ha, hi.maxActive, hi.evicts hr, hi.holds⟩
  · right
    rw [ProfileReassembler.ingestMut, hf, Outcome.mapErr_ok, Mut.lift_ok_bind, if_pos hsource]
    rfl

theorem Sound.restoreReceiverCountsMut {r : ProfileReassembler} (hr : r.Sound) (key : ProfileKey)
    (duplicates conflicts : Nat) :
    (Mut.final (restoreReceiverCountsMut key duplicates conflicts r)).Sound ∧
      (Mut.final (restoreReceiverCountsMut key duplicates conflicts r)).maxActive =
        r.maxActive := by
  rw [ProfileReassembler.restoreReceiverCountsMut, Mut.get_bind]
  cases hl : r.active.lookup key with
  | none => exact ⟨hr, rfl⟩
  | some a =>
      refine ⟨?_, rfl⟩
      have hrestored := hr.restore hl duplicates conflicts
      have heq := restoreReceiverCounts_eq hr hl duplicates conflicts
      rw [restoreReceiverCounts, hl] at heq
      rw [← Except.ok.inj heq] at hrestored
      exact hrestored

end ProfileReassembler

/-- The states that calls reach from a reassembler of capacity `m`. -/
inductive Reachable (m : Nat) : ProfileReassembler → Prop where
  | withCapacity {r : ProfileReassembler} (h : ProfileReassembler.withCapacity m = .ok r) :
      Reachable m r
  | ingestAt {r : ProfileReassembler} (h : Reachable m r) (payload : List UInt8)
      (fragment : Protocol.ProfileFragmentView)
      (decoded : Protocol.decode payload = .ok (.profileFragment fragment)) (order : HashOrder)
      (source : SourceFragment) (observedAt : Nat) :
      Reachable m (Mut.final (ProfileReassembler.ingestMut order fragment source observedAt r))
  | expireBefore {r : ProfileReassembler} (h : Reachable m r) (order : HashOrder) (cutoff : Nat) :
      Reachable m (r.expireBefore order cutoff).2
  | drainIncomplete {r : ProfileReassembler} (h : Reachable m r) (order : HashOrder) :
      Reachable m (r.drainIncomplete order).2
  | discard {r : ProfileReassembler} (h : Reachable m r) (key : ProfileKey) :
      Reachable m (r.discard key)
  | restoreReceiverCounts {r : ProfileReassembler} (h : Reachable m r) (key : ProfileKey)
      (duplicates conflicts : Nat) :
      Reachable m
        (Mut.final (ProfileReassembler.restoreReceiverCountsMut key duplicates conflicts r))

namespace Reachable

variable {m : Nat} {r : ProfileReassembler}

theorem sound (h : Reachable m r) : r.Sound ∧ r.maxActive = m := by
  induction h with
  | withCapacity h =>
      rw [ProfileReassembler.withCapacity] at h
      split at h
      · next hpos =>
          cases h
          exact ⟨ProfileReassembler.sound_fresh m hpos, rfl⟩
      · cases h
  | ingestAt h payload fragment decoded order source observedAt ih =>
      obtain ⟨hr, hm⟩ := ih
      rcases hr.ingestMut decoded order source observedAt with
        ⟨result, r', hok, hsound, hmax, -⟩ | herr
      · rw [hok]
        exact ⟨hsound, hmax.trans hm⟩
      · rw [herr]
        exact ⟨hr, hm⟩
  | expireBefore h order cutoff ih =>
      refine ⟨ih.1.expireBefore order cutoff, ?_⟩
      rw [← ih.2, ProfileReassembler.expireBefore]
      dsimp only
      rw [ProfileReassembler.takeActive_snd, ProfileReassembler.maxActive_foldl_remove]
  | drainIncomplete h order ih =>
      refine ⟨ih.1.drainIncomplete order, ?_⟩
      rw [← ih.2, ProfileReassembler.drainIncomplete, ProfileReassembler.takeActive_snd,
        ProfileReassembler.maxActive_foldl_remove]
  | discard h key ih => exact ⟨ih.1.discard key, ih.2⟩
  | restoreReceiverCounts h key duplicates conflicts ih =>
      obtain ⟨hsound, hmax⟩ := ih.1.restoreReceiverCountsMut key duplicates conflicts
      exact ⟨hsound, hmax.trans ih.2⟩

end Reachable

/-- **The parts of the reassembler agree** in every reachable state.  A decoded fragment evicts at
most one scan, the one updated least recently, and only to insert its own into a full map; a call
that fails has changed nothing, and fails for the index of its source alone. -/
theorem reachable_wellFormed {m : Nat} {r : ProfileReassembler} (h : Reachable m r) :
    r.WellFormed m ∧
      ∀ (payload : List UInt8) (fragment : Protocol.ProfileFragmentView),
        Protocol.decode payload = .ok (.profileFragment fragment) →
        ∀ (order : HashOrder) (source : SourceFragment) (observedAt : Nat),
          match ProfileReassembler.ingestMut order fragment source observedAt r with
          | .ok result r' =>
              ProfileReassembler.Evicts r (.ofHeader fragment.header) result.evicted r' ∧
                r'.Holds (.ofHeader fragment.header)
          | .error e r' =>
              r' = r ∧ e = .error (.sourceFragmentIndex source.fragmentIndex
                fragment.header.fragmentIndex) := by
  obtain ⟨hr, rfl⟩ := h.sound
  refine ⟨hr.wellFormed, fun payload fragment decoded order source observedAt => ?_⟩
  rcases hr.ingestMut decoded order source observedAt with ⟨result, r', hok, -, -, hev, hh⟩ | herr
  · rw [hok]
    exact ⟨hev, hh⟩
  · rw [herr]
    exact ⟨rfl, rfl⟩

/-- A fragment of the next blank scan. -/
def laterFragment : Protocol.ProfileFragmentView :=
  Protocol.fragmentView { blankCommon with scanSequence := 2 } (blankScan 4) 0

/-- Its packet, linked to a fragment index. -/
def laterSource (fragmentIndex : UInt8) : SourceFragment := ⟨2, fragmentIndex, 0, ⟨0, 0, 0⟩⟩

theorem decode_laterFragment :
    Protocol.decode (Protocol.fragmentFrame laterFragment) = .ok (.profileFragment laterFragment) :=
  Protocol.decode_fragmentFrame (by decide +kernel) (by decide +kernel)
    ⟨by decide, by decide, by decide, by decide⟩ (by decide)

/-- A reassembler for one scan, after one of the two fragments of a blank one: the next scan evicts
it, and a source of another index changes nothing. -/
theorem reachable_wellFormed_blank :
    let r := Mut.final (ProfileReassembler.ingestMut .stored (blankIngest 1 (by decide)).fragment
      (blankIngest 1 (by decide)).source 1 ⟨∅, [], 1, Nat.one_pos⟩)
    r.WellFormed 1 ∧
      (∃ result r',
        ProfileReassembler.ingestMut .stored laterFragment (laterSource 0) 2 r = .ok result r' ∧
        result.evicted.map (·.fragments) = some [(blankIngest 1 (by decide)).source] ∧
        ProfileReassembler.Evicts r (.ofHeader laterFragment.header) result.evicted r' ∧
        r'.Holds (.ofHeader laterFragment.header)) ∧
      ∃ e, ProfileReassembler.ingestMut .stored laterFragment (laterSource 3) 2 r = .error e r := by
  intro r
  have hreach : Reachable 1 r := .ingestAt (.withCapacity rfl) _ _
    (blankIngest 1 (by decide)).decoded .stored (blankIngest 1 (by decide)).source 1
  obtain ⟨hwell, hcall⟩ := reachable_wellFormed hreach
  have hevicts := hcall _ _ decode_laterFragment .stored (laterSource 0) 2
  have hfails := hcall _ _ decode_laterFragment .stored (laterSource 3) 2
  refine ⟨hwell, ?_, ?_⟩
  · have hgone : (match ProfileReassembler.ingestMut .stored laterFragment (laterSource 0) 2 r with
        | .ok result _ => result.evicted.map (·.fragments)
        | .error _ _ => none) = some [(blankIngest 1 (by decide)).source] := by decide +kernel
    cases hrun : ProfileReassembler.ingestMut .stored laterFragment (laterSource 0) 2 r with
    | ok result r' =>
        rw [hrun] at hevicts hgone
        exact ⟨result, r', rfl, hgone, hevicts⟩
    | error e r' =>
        rw [hrun] at hgone
        cases hgone
  · have herror :
        (match ProfileReassembler.ingestMut .stored laterFragment (laterSource 3) 2 r with
        | .ok _ _ => false
        | .error _ _ => true) = true := by decide +kernel
    cases hrun : ProfileReassembler.ingestMut .stored laterFragment (laterSource 3) 2 r with
    | ok result r' =>
        rw [hrun] at herror
        cases herror
    | error e r' =>
        rw [hrun] at hfails
        exact ⟨e, hfails.1 ▸ rfl⟩

end Vesta.Receiver
