import Vesta.Ledger.Account

/-!
# Ledger — Memory

The memory as accounts: `Remembers r queue flying A` says that the reassembler holds the scans in
memory that the accounts say, apart from those in flight, and that the queue is what waits.  A scan
is in flight when the reassembler has given it up and it is not stored yet.
-/

namespace Vesta.Ledger

open FirstWins (Rule Tally Verdict)
open Receiver (Arrival ScanTally ScanOf Full ProfileKey ProfileMetadata ProfileReassembler
  ActiveProfile CompletedProfile ReassembledProfile HashOrder IngestResult scanRule profileOf
    saturatingAdd)

/-- The scan in memory of a key. -/
def liveAt (r : ProfileReassembler) (key : ProfileKey) : Option ScanTally :=
  (r.active.lookup key).map ActiveProfile.tally

/-- A scan that is given up and not stored yet. -/
abbrev Flight := ProfileMetadata × ScanTally

/-- The scan in flight of a key. -/
def inFlight (flying : List Flight) (key : ProfileKey) : Option ScanTally :=
  (flying.find? fun f => f.1.key = key).map (·.2)

/-- The profiles in flight. -/
def profiles (flying : List Flight) : List ReassembledProfile :=
  flying.map fun f => profileOf f.1 f.2

@[simp] theorem inFlight_nil (key : ProfileKey) : inFlight [] key = none := rfl

theorem inFlight_cons_self (m : ProfileMetadata) (t : ScanTally) (flying : List Flight) :
    inFlight ((m, t) :: flying) m.key = some t := by
  simp [inFlight]

theorem inFlight_cons_ne {m : ProfileMetadata} {key : ProfileKey} (h : key ≠ m.key) (t : ScanTally)
    (flying : List Flight) : inFlight ((m, t) :: flying) key = inFlight flying key := by
  simp [inFlight, h.symm]

theorem inFlight_eq_none {flying : List Flight} {key : ProfileKey}
    (h : ∀ f ∈ flying, f.1.key ≠ key) : inFlight flying key = none := by
  rw [inFlight, List.find?_eq_none.mpr fun f hf => by simpa using h f hf]
  rfl

/-- The memory holds what the accounts say. -/
structure Remembers (r : ProfileReassembler) (queue : List Arrival) (flying : List Flight)
    (A : ProfileKey → Account) : Prop where
  sound : r.Sound
  live : ∀ key, (A key).live = (inFlight flying key).or (liveAt r key)
  cached : ∀ c ∈ r.completed, (A c.key).cached = true
  waiting : ∀ key, (A key).waiting = queue.filter fun a => a.key = key
  scans : ∀ f ∈ flying, ScanOf f.1 f.2
  distinct : (flying.map (·.1.key)).Nodup
  away : ∀ f ∈ flying, liveAt r f.1.key = none

/-- An active scan is the picture of its collection. -/
theorem finish_eq {r : ProfileReassembler} (h : r.Sound) {key : ProfileKey} {a : ActiveProfile}
    (ha : r.active.lookup key = some a) : a.finish = profileOf a.metadata a.tally :=
  (congrArg ActiveProfile.finish (h.active key a ha).picture).trans (Receiver.finish_of _ _ _)

namespace Remembers

variable {r : ProfileReassembler} {queue : List Arrival} {flying : List Flight}
  {A : ProfileKey → Account} (h : Remembers r queue flying A)
include h

theorem live_of_flight {m : ProfileMetadata} {t : ScanTally} {rest : List Flight}
    (hf : flying = (m, t) :: rest) : (A m.key).live = some t := by
  rw [h.live, hf, inFlight_cons_self]
  rfl

/-- No scan of a key that is not cached is complete in memory. -/
theorem not_completed {key : ProfileKey} (hcold : (A key).cached = false) :
    ∀ c ∈ r.completed, c.key ≠ key := by
  intro c hc he
  have hcached := h.cached c hc
  rw [he, hcold] at hcached
  cases hcached

/-- What is in memory of a key changes, and what waits. -/
theorem change {r' : ProfileReassembler} {rest : List Arrival} {flying' : List Flight}
    {key : ProfileKey} {c : Account} (hs : r'.Sound)
    (hself : c.live = (inFlight flying' key).or (liveAt r' key))
    (hother : ∀ k, k ≠ key →
      (inFlight flying' k).or (liveAt r' k) = (inFlight flying k).or (liveAt r k))
    (hcached : ∀ d ∈ r'.completed, d ∈ r.completed ∧ d.key ≠ key ∨ d.key = key ∧ c.cached = true)
    (hw : c.waiting = rest.filter fun a => a.key = key)
    (hrest : ∀ k, k ≠ key → rest.filter (fun a => a.key = k) = queue.filter fun a => a.key = k)
    (hscans : ∀ f ∈ flying', ScanOf f.1 f.2) (hnd : (flying'.map (·.1.key)).Nodup)
    (haway : ∀ f ∈ flying', liveAt r' f.1.key = none) :
    Remembers r' rest flying' (Function.update A key c) := by
  refine ⟨hs, fun k => ?_, fun d hd => ?_, fun k => ?_, hscans, hnd, haway⟩
  · by_cases hk : k = key
    · subst hk
      rw [Function.update_self, hself]
    · rw [Function.update_of_ne hk, h.live, hother k hk]
  · rcases hcached d hd with ⟨hd, hk⟩ | ⟨hk, hc⟩
    · rw [Function.update_of_ne hk]
      exact h.cached d hd
    · rw [hk, Function.update_self, hc]
  · by_cases hk : k = key
    · subst hk
      rw [Function.update_self, hw]
    · rw [Function.update_of_ne hk, h.waiting, hrest k hk]

/-- The first scan in flight is stored. -/
theorem land {m : ProfileMetadata} {t : ScanTally} {rest : List Flight}
    (hf : flying = (m, t) :: rest) {c : Account} (hl : c.live = none)
    (hc : c.cached = (A m.key).cached) (hw : c.waiting = (A m.key).waiting) :
    Remembers r queue rest (Function.update A m.key c) := by
  subst hf
  obtain ⟨hnew, hnd⟩ := List.nodup_cons.mp h.distinct
  refine h.change h.sound ?_ (fun k hk => ?_) (fun d hd => ?_) (hw.trans (h.waiting _))
    (fun _ _ => rfl) (fun f hf => h.scans f (List.mem_cons_of_mem _ hf)) hnd
    fun f hf => h.away f (List.mem_cons_of_mem _ hf)
  · rw [hl, h.away _ List.mem_cons_self, inFlight_eq_none fun f hf he =>
      hnew (List.mem_map.mpr ⟨f, hf, he⟩)]
    rfl
  · rw [inFlight_cons_ne hk]
  · by_cases hk : d.key = m.key
    · exact .inr ⟨hk, hc.trans (hk ▸ h.cached d hd)⟩
    · exact .inl ⟨hd, hk⟩

end Remembers

namespace Remembers

variable {r r' : ProfileReassembler} {queue rest : List Arrival} {A : ProfileKey → Account}
  (h : Remembers r queue [] A)
include h

theorem live_eq (key : ProfileKey) : (A key).live = liveAt r key := h.live key

/-- A fragment is archived. -/
theorem receive (a : Arrival) :
    Remembers r (queue ++ [a]) [] (Function.update A a.key ((A a.key).receive a)) := by
  refine h.change h.sound (h.live _) (fun _ _ => rfl) (fun d hd => ?_) ?_ (fun k hk => ?_) nofun
    List.nodup_nil nofun
  · by_cases hk : d.key = a.key
    · exact .inr ⟨hk, hk ▸ h.cached d hd⟩
    · exact .inl ⟨hd, hk⟩
  · show (A a.key).waiting ++ [a] = _
    rw [h.waiting]
    simp
  · simp [Ne.symm hk]

end Remembers

/-! ### Giving scans up -/

/-- The reassembler gives scans up, and is otherwise as before. -/
structure Gives (r r' : ProfileReassembler) (flying : List Flight) : Prop where
  sound : r'.Sound
  completed : ∀ c ∈ r'.completed, c ∈ r.completed
  live : ∀ key, (inFlight flying key).or (liveAt r' key) = liveAt r key
  scans : ∀ f ∈ flying, ScanOf f.1 f.2
  distinct : (flying.map (·.1.key)).Nodup
  away : ∀ f ∈ flying, liveAt r' f.1.key = none

theorem Remembers.give {r r' : ProfileReassembler} {queue : List Arrival} {flying : List Flight}
    {A : ProfileKey → Account} (h : Remembers r queue [] A) (hg : Gives r r' flying) :
    Remembers r' queue flying A where
  sound := hg.sound
  live key := (h.live_eq key).trans (hg.live key).symm
  cached c hc := h.cached c (hg.completed c hc)
  waiting := h.waiting
  scans := hg.scans
  distinct := hg.distinct
  away := hg.away

theorem liveAt_remove (r : ProfileReassembler) (key k : ProfileKey) :
    liveAt (r.remove key) k = if k = key then none else liveAt r k := by
  rw [liveAt]
  split
  · next hk =>
      rw [hk, ProfileReassembler.lookup_remove]
      rfl
  · next hk => rw [r.lookup_remove_ne hk, liveAt]

namespace Gives

variable {r r' : ProfileReassembler}

theorem none (hr : r.Sound) : Gives r r [] :=
  ⟨hr, fun _ => id, fun _ => rfl, nofun, List.nodup_nil, nofun⟩

/-- One scan is given up before others. -/
theorem cons (hr : r.Sound) {key : ProfileKey} {a : ActiveProfile}
    (ha : r.active.lookup key = some a) {flying : List Flight}
    (h : Gives (r.remove key) r' flying) : Gives r r' ((a.metadata, a.tally) :: flying) := by
  have hs := hr.active key a ha
  have hgone := h.live key
  rw [liveAt_remove, if_pos rfl, Option.or_eq_none_iff] at hgone
  have hother : ∀ f ∈ flying, f.1.key ≠ key := by
    intro f hf he
    have hnone := hgone.1
    rw [inFlight, Option.map_eq_none_iff, List.find?_eq_none] at hnone
    exact hnone f hf (decide_eq_true he)
  refine ⟨h.sound, h.completed, fun k => ?_, ?_, ?_, ?_⟩
  · by_cases hk : k = key
    · subst hk
      have hk : liveAt r k = some a.tally := congrArg (Option.map _) ha
      rw [hk, ← hs.key, inFlight_cons_self]
      rfl
    · rw [inFlight_cons_ne (hs.key ▸ hk), h.live, liveAt_remove, if_neg hk]
  · exact List.forall_mem_cons.mpr ⟨hs.scan, h.scans⟩
  · refine List.nodup_cons.mpr ⟨fun hmem => ?_, h.distinct⟩
    obtain ⟨f, hf, he⟩ := List.mem_map.mp hmem
    exact hother f hf (he.trans hs.key)
  · refine List.forall_mem_cons.mpr ⟨?_, h.away⟩
    rw [hs.key]
    exact hgone.2

/-- Making room gives up one scan at most, and not that of the key. -/
theorem evictFor (hr : r.Sound) {order : HashOrder} {key : ProfileKey}
    {evicted : Option ReassembledProfile} (hev : r.evictFor order key = (evicted, r')) :
    ∃ flying, evicted.toList = profiles flying ∧ Gives r r' flying ∧
      ∀ f ∈ flying, f.1.key ≠ key := by
  rcases r.evictFor_cases order key with ⟨he, -⟩ | ⟨oldest, a, hne, ha, -, -, he⟩
  · cases he.symm.trans hev
    exact ⟨[], rfl, .none hr, nofun⟩
  · cases he.symm.trans hev
    have hs := hr.active oldest a ha
    refine ⟨[(a.metadata, a.tally)], ?_, cons hr ha (.none (hr.remove oldest)), ?_⟩
    · rw [finish_eq hr ha]
      rfl
    · intro f hf
      rw [List.mem_singleton.mp hf, hs.key]
      exact hne

theorem takeActive (hr : r.Sound) (keys : List ProfileKey) : ∃ flying,
    (r.takeActive keys).1 = profiles flying ∧ Gives r (r.takeActive keys).2 flying := by
  induction keys generalizing r with
  | nil => exact ⟨[], rfl, .none hr⟩
  | cons key keys ih =>
      obtain ⟨flying, hfst, hg⟩ := ih (hr.remove key)
      rw [ProfileReassembler.takeActive]
      cases hl : r.active.lookup key with
      | none =>
          refine ⟨flying, hfst, hg.sound, hg.completed, fun k => ?_, hg.scans, hg.distinct, hg.away⟩
          rw [hg.live, liveAt_remove]
          split
          · next hk => rw [hk, liveAt, hl, Option.map_none]
          · rfl
      | some a =>
          refine ⟨(a.metadata, a.tally) :: flying, ?_, cons hr hl hg⟩
          show a.finish :: _ = _
          rw [finish_eq hr hl, hfst]
          rfl

/-- Completed scans are forgotten. -/
theorem sublist {flying : List Flight} (h : Gives r r' flying) {completed : List CompletedProfile}
    (hc : completed.Sublist r'.completed) : Gives r { r' with completed } flying where
  sound := h.sound.sublist hc
  completed c hmem := h.completed c (hc.subset hmem)
  live := h.live
  scans := h.scans
  distinct := h.distinct
  away := h.away

theorem expireOlderThan (hr : r.Sound) (order : HashOrder) (now maximumAge : Nat) : ∃ flying,
    (r.expireOlderThan order now maximumAge).1 = profiles flying ∧
      Gives r (r.expireOlderThan order now maximumAge).2 flying := by
  rw [ProfileReassembler.expireOlderThan]
  split
  · rw [ProfileReassembler.expireBefore]
    obtain ⟨flying, hfst, hg⟩ := takeActive hr ((order.arrange r.active.keys).filter fun key =>
      (r.active.lookup key).any fun scan => scan.lastObservedAt < now - maximumAge)
    exact ⟨flying, hfst, hg.sublist List.filter_sublist⟩
  · exact ⟨[], rfl, .none hr⟩

end Gives

/-! ### Ingesting -/

theorem tallyAt_eq (r : ProfileReassembler) (key : ProfileKey) :
    r.tallyAt key = (liveAt r key).getD .empty := rfl

/-- The scan in memory that a fragment of the key meets. -/
theorem Remembers.tally_eq {r : ProfileReassembler} {queue : List Arrival}
    {A : ProfileKey → Account} (h : Remembers r queue [] A) (key : ProfileKey) :
    r.tallyAt key = (A key).live.getD .empty := by
  rw [tallyAt_eq, h.live_eq]

theorem held_eq (t : Option ScanTally) : held t = (t.getD .empty).accepted := by
  cases t <;> rfl

theorem liveAt_put {m : ProfileMetadata} {t : ScanTally} (hs : ScanOf m t)
    (r : ProfileReassembler) (key : ProfileKey) (last : Nat) (k : ProfileKey) :
    liveAt (r.put key (.of m t last)) k = if k = key then some t else liveAt r k := by
  rw [liveAt]
  split
  · next hk =>
      rw [hk, ProfileReassembler.lookup_put, Option.map_some, ActiveProfile.tally_of hs]
  · next hk => rw [r.lookup_put_ne _ hk, liveAt]

theorem inFlight_append (flying : List Flight) (m : ProfileMetadata) (t : ScanTally)
    (key : ProfileKey) : inFlight (flying ++ [(m, t)]) key =
      (inFlight flying key).or (if key = m.key then some t else none) := by
  rw [inFlight, List.find?_append, Option.map_or, inFlight]
  congr 1
  by_cases hk : key = m.key
  · simp [hk]
  · simp [hk, Ne.symm hk]

theorem filter_cons_ne {a : Arrival} {rest : List Arrival} {k : ProfileKey} (hk : k ≠ a.key) :
    rest.filter (fun b => b.key = k) = (a :: rest).filter fun b => b.key = k := by
  rw [List.filter_cons_of_neg (by simpa using hk.symm)]

namespace Remembers

variable {r r₁ : ProfileReassembler} {a : Arrival} {rest : List Arrival}
  {A : ProfileKey → Account} (h : Remembers r (a :: rest) [] A)
include h

theorem waiting_eq : (A a.key).waiting = a :: rest.filter fun b => b.key = a.key := by
  rw [h.waiting]
  exact List.filter_cons_of_pos (by simp)

theorem tail_waiting : (A a.key).waiting.tail = rest.filter fun b => b.key = a.key := by
  rw [h.waiting_eq, List.tail_cons]

/-- The scan in memory counts a fragment. -/
theorem counted {b : ActiveProfile} (hs : (r.put a.key (.of b.metadata (scanRule.step b.tally a)
      b.lastObservedAt)).Sound)
    (hb : r.active.lookup a.key = some b) (hc : ∀ c ∈ r.completed, c.key ≠ a.key) (ha : a.Proper)
    {v : Verdict} (hv : scanRule.verdict b.tally.accepted a.fragment = v) (hfresh : v ≠ .fresh) :
    Remembers (r.put a.key (.of b.metadata (scanRule.step b.tally a) b.lastObservedAt)) rest []
      (Function.update A a.key ((A a.key).snapshot a b.tally v)) := by
  have hbs := h.sound.active _ b hb
  have hstep : scanRule.step b.tally a = scanRule.count v b.tally :=
    Rule.step_eq_count (R := scanRule) hv hfresh
  have hscan := hbs.scan.step ha fun he => absurd he hbs.some
  refine h.change hs ?_ (fun k hk => ?_) (fun d hd => .inl ⟨hd, hc d hd⟩) h.tail_waiting
    (fun k hk => filter_cons_ne hk) nofun List.nodup_nil nofun
  · rw [inFlight_nil, Option.none_or, liveAt_put hscan, if_pos rfl, hstep]
    rfl
  · rw [liveAt_put hscan, if_neg hk]

/-- A fragment joins the scan in memory, which stays there. -/
theorem accepted {flying : List Flight} (hg : Gives r r₁ flying)
    (hne : ∀ f ∈ flying, f.1.key ≠ a.key) {m : ProfileMetadata} {last : Nat}
    (hscan : ScanOf m (scanRule.step (r.tallyAt a.key) a))
    (hs : (r₁.put a.key (.of m (scanRule.step (r.tallyAt a.key) a) last)).Sound)
    (hc : ∀ c ∈ r.completed, c.key ≠ a.key) :
    Remembers (r₁.put a.key (.of m (scanRule.step (r.tallyAt a.key) a) last)) rest flying
      (Function.update A a.key ((A a.key).accept a false)) := by
  refine (h.give hg).change hs ?_ (fun k hk => ?_)
    (fun d hd => .inl ⟨hd, hc d (hg.completed d hd)⟩) h.tail_waiting
    (fun k hk => filter_cons_ne hk) hg.scans hg.distinct fun f hf => ?_
  · rw [inFlight_eq_none hne, Option.none_or, liveAt_put hscan, if_pos rfl, tallyAt_eq,
      ← h.live_eq]
    rfl
  · rw [liveAt_put hscan, if_neg hk]
  · rw [liveAt_put hscan, if_neg (hne f hf)]
    exact hg.away f hf

/-- A fragment completes the scan in memory, which is then in flight. -/
theorem completed {flying : List Flight} (hg : Gives r r₁ flying)
    (hne : ∀ f ∈ flying, f.1.key ≠ a.key) {m : ProfileMetadata} {active : ActiveProfile}
    (hkey : m.key = a.key) (hscan : ScanOf m (scanRule.step (r.tallyAt a.key) a))
    (hs : (r₁.complete a.key active).Sound) (hc : ∀ c ∈ r.completed, c.key ≠ a.key) :
    Remembers (r₁.complete a.key active) rest
      (flying ++ [(m, scanRule.step (r.tallyAt a.key) a)])
      (Function.update A a.key ((A a.key).accept a true)) := by
  have hlive : ∀ k, liveAt (r₁.complete a.key active) k = if k = a.key then none else liveAt r₁ k :=
    liveAt_remove r₁ a.key
  refine (h.give hg).change hs ?_ (fun k hk => ?_) (fun d hd => ?_) h.tail_waiting
    (fun k hk => filter_cons_ne hk) ?_ ?_ ?_
  · rw [inFlight_append, inFlight_eq_none hne, if_pos hkey.symm, tallyAt_eq, ← h.live_eq]
    rfl
  · rw [inFlight_append, hkey, if_neg hk, Option.or_none, hlive, if_neg hk]
  · have hmem := List.mem_of_mem_drop hd
    rcases List.mem_append.mp hmem with hd | hd
    · exact .inl ⟨hd, hc d (hg.completed d hd)⟩
    · rw [List.mem_singleton.mp hd]
      exact .inr ⟨rfl, rfl⟩
  · intro f hf
    rcases List.mem_append.mp hf with hf | hf
    · exact hg.scans f hf
    · rw [List.mem_singleton.mp hf]
      exact hscan
  · rw [List.map_append, List.nodup_append]
    refine ⟨hg.distinct, List.nodup_singleton _, fun k hk k' hk' he => ?_⟩
    obtain ⟨f, hf, rfl⟩ := List.mem_map.mp hk
    exact hne f hf (he.trans ((List.mem_singleton.mp hk').trans hkey))
  · intro f hf
    rw [hlive]
    rcases List.mem_append.mp hf with hf | hf
    · rw [if_neg (hne f hf)]
      exact hg.away f hf
    · rw [List.mem_singleton.mp hf]
      exact if_pos hkey

/-! ### Counting -/

/-- A match that the scan in memory is told of, if there is one. -/
theorem noted {v : Verdict} {b : ActiveProfile} (hb : r.active.lookup a.key = some b)
    {duplicates conflicts : Nat} (hcount : scanRule.count v b.tally =
      ⟨b.tally.accepted, saturatingAdd b.tally.repeats duplicates,
        saturatingAdd b.tally.clashes conflicts⟩) :
    ∃ r', r.restoreReceiverCounts a.key duplicates conflicts = .ok r' ∧
      Remembers r' rest [] (Function.update A a.key ((A a.key).note a v)) := by
  have hbs := h.sound.active _ b hb
  have hscan := hbs.restored duplicates conflicts
  refine ⟨_, ProfileReassembler.restoreReceiverCounts_eq h.sound hb duplicates conflicts,
    h.change (h.sound.restore hb duplicates conflicts) ?_ (fun k hk => ?_) (fun d hd => .inl
      ⟨hd, fun he => ?_⟩) h.tail_waiting (fun k hk => filter_cons_ne hk) nofun List.nodup_nil nofun⟩
  · rw [inFlight_nil, Option.none_or, liveAt_put hscan, if_pos rfl, ← hcount]
    show (A a.key).live.map _ = _
    rw [h.live_eq, liveAt, hb]
    rfl
  · rw [liveAt_put hscan, if_neg hk]
  · cases (he ▸ h.sound.apart d hd).symm.trans hb

theorem noted_idle {v : Verdict} (hl : liveAt r a.key = none) :
    Remembers r rest [] (Function.update A a.key ((A a.key).note a v)) := by
  refine h.change h.sound ?_ (fun k hk => rfl) (fun d hd => ?_) h.tail_waiting
    (fun k hk => filter_cons_ne hk) nofun List.nodup_nil nofun
  · show (A a.key).live.map _ = _
    rw [h.live_eq, hl]
    rfl
  · by_cases hk : d.key = a.key
    · exact .inr ⟨hk, hk ▸ h.cached d hd⟩
    · exact .inl ⟨hd, hk⟩

/-- A waiting fragment is given up. -/
theorem quarantined :
    Remembers r rest [] (Function.update A a.key ((A a.key).quarantine a)) := by
  refine h.change h.sound (h.live _) (fun k hk => rfl) (fun d hd => ?_) h.tail_waiting
    (fun k hk => filter_cons_ne hk) nofun List.nodup_nil nofun
  by_cases hk : d.key = a.key
  · exact .inr ⟨hk, hk ▸ h.cached d hd⟩
  · exact .inl ⟨hd, hk⟩

end Remembers

/-! ### Restoring -/

/-- A fragment that is fresh and not the last one is accepted. -/
theorem accepted_of_fresh {r r' : ProfileReassembler} {order : HashOrder} {a : Arrival}
    {observedAt : Nat} {result : IngestResult} (hi : r.Ingests order a observedAt result r')
    (hc : ∀ c ∈ r.completed, c.key ≠ a.key)
    (hv : scanRule.verdict (r.tallyAt a.key).accepted a.fragment = .fresh)
    (hf : ¬ Full a.fragment.metadata (scanRule.step (r.tallyAt a.key) a).accepted) :
    ∃ evicted r₁ last progress, r.evictFor order a.key = (evicted, r₁) ∧
      result = ⟨.pending progress, evicted, none⟩ ∧
      ScanOf a.fragment.metadata (scanRule.step (r.tallyAt a.key) a) ∧
      r' = r₁.put a.key (.of a.fragment.metadata (scanRule.step (r.tallyAt a.key) a) last) := by
  cases hi with
  | late c hmem hk => exact absurd hk (hc c hmem)
  | counted b _ hb hv' =>
      rw [ProfileReassembler.tallyAt_some hb] at hv
      exact absurd hv hv'
  | completed evicted r₁ last _ _ _ _ hf' => exact absurd hf' hf
  | accepted evicted r₁ last _ hev _ hs _ =>
      obtain ⟨progress, hevent⟩ := Receiver.eventOf_pending hv hf
      exact ⟨evicted, r₁, last, progress, hev, by rw [hevent], hs, rfl⟩

/-- The memory knows more of a key than its account. -/
theorem Remembers.restored {r r₁ : ProfileReassembler} {queue : List Arrival}
    {flying : List Flight} {A : ProfileKey → Account} (h : Remembers r queue [] A)
    (hg : Gives r r₁ flying) {key : ProfileKey} (hne : ∀ f ∈ flying, f.1.key ≠ key)
    {m : ProfileMetadata} {t : ScanTally} {last : Nat} (hscan : ScanOf m t)
    (hs : (r₁.put key (.of m t last)).Sound) (hc : ∀ c ∈ r.completed, c.key ≠ key) :
    Remembers (r₁.put key (.of m t last)) queue flying
      (Function.update A key ((A key).restore t)) := by
  refine (h.give hg).change hs ?_ (fun k hk => ?_)
    (fun d hd => .inl ⟨hd, hc d (hg.completed d hd)⟩) (h.waiting key)
    (fun k hk => rfl) hg.scans hg.distinct fun f hf => ?_
  · rw [inFlight_eq_none hne, Option.none_or, liveAt_put hscan, if_pos rfl]
    rfl
  · rw [liveAt_put hscan, if_neg hk]
  · rw [liveAt_put hscan, if_neg (hne f hf)]
    exact hg.away f hf

/-- Counts restored to a scan in memory. -/
theorem Remembers.restoreCounts {r : ProfileReassembler} {queue : List Arrival}
    {flying : List Flight} {A : ProfileKey → Account} (h : Remembers r queue flying A)
    {key : ProfileKey} (hne : ∀ f ∈ flying, f.1.key ≠ key) {b : ActiveProfile}
    (hb : r.active.lookup key = some b) (duplicates conflicts : Nat) :
    ∃ r', r.restoreReceiverCounts key duplicates conflicts = .ok r' ∧
      Remembers r' queue flying (Function.update A key ((A key).restore
        ⟨b.tally.accepted, saturatingAdd b.tally.repeats duplicates,
          saturatingAdd b.tally.clashes conflicts⟩)) := by
  have hbs := h.sound.active _ b hb
  have hscan := hbs.restored duplicates conflicts
  refine ⟨_, ProfileReassembler.restoreReceiverCounts_eq h.sound hb duplicates conflicts,
    h.change (h.sound.restore hb duplicates conflicts) ?_ (fun k hk => ?_) (fun d hd => .inl
      ⟨hd, fun he => ?_⟩) (h.waiting key) (fun k hk => rfl) h.scans h.distinct fun f hf => ?_⟩
  · rw [inFlight_eq_none hne, Option.none_or, liveAt_put hscan, if_pos rfl]
    rfl
  · rw [liveAt_put hscan, if_neg hk]
  · cases (he ▸ h.sound.apart d hd).symm.trans hb
  · rw [liveAt_put hscan, if_neg (hne f hf)]
    exact h.away f hf

/-- Only scans in memory are given up. -/
theorem Gives.live_ne_none {r r' : ProfileReassembler} {flying : List Flight}
    (h : Gives r r' flying) {f : Flight} (hf : f ∈ flying) : liveAt r f.1.key ≠ Option.none := by
  intro hnone
  rw [← h.live, Option.or_eq_none_iff, inFlight, Option.map_eq_none_iff, List.find?_eq_none]
    at hnone
  exact hnone.1 f hf (decide_eq_true rfl)

end Vesta.Ledger
