import Vesta.Receiver.Sound
import Vesta.Store.Tables

/-!
# Ledger — Account

What a receiver holds of one key, apart from how it holds it: the fragments it received, in order,
and how each is filed; the stored complete scan and the stored incomplete one; the scan in memory,
whether the key is in the completed queue, and the fragments that wait to be ingested.

`Account.Sound` is what ties these together, whatever was received.  Each thing the receiver does
to an account is a function here, with a lemma that it keeps the account sound.
-/

namespace Vesta.Ledger

open FirstWins (Rule Tally Verdict)
open Receiver (Arrival ScanTally ScanOf Full ProfileKey scanRule)
open Store (FragmentStorageStatus)

/-- A complete scan. -/
def Whole (t : ScanTally) : Prop := ∃ m, ScanOf m t ∧ Full m t.accepted

/-- A scan with some fragments. -/
def Started (t : ScanTally) : Prop := ∃ m, ScanOf m t ∧ t.accepted ≠ []

/-- A scan with some fragments but not all. -/
def Partial (t : ScanTally) : Prop := ∃ m, ScanOf m t ∧ t.accepted ≠ [] ∧ ¬ Full m t.accepted

/-- The fragments of a scan, if there is one. -/
def held (t : Option ScanTally) : List Arrival := (t.map (·.accepted)).getD []

@[simp] theorem held_none : held none = [] := rfl

@[simp] theorem held_some (t : ScanTally) : held (some t) = t.accepted := rfl

/-- A fresh fragment joins the scan in memory, or begins one. -/
theorem accepted_step {live : Option ScanTally} {a : Arrival}
    (hv : scanRule.verdict (held live) a.fragment = .fresh) :
    (scanRule.step (live.getD .empty) a).accepted = held live ++ [a] := by
  cases live with
  | none => exact congrArg Tally.accepted (Rule.step_fresh (R := scanRule) (t := .empty) hv)
  | some t => exact congrArg Tally.accepted (Rule.step_fresh (R := scanRule) (t := t) hv)

abbrev Entry := Arrival × FragmentStorageStatus

/-- File the given fragments under another status. -/
def refile (entries : List Entry) (arrivals : List Arrival) (status : FragmentStorageStatus) :
    List Entry :=
  entries.map fun e => if e.1 ∈ arrivals then (e.1, status) else e

section
variable {entries : List Entry} {arrivals : List Arrival} {status s : FragmentStorageStatus}
  {a : Arrival}

theorem mem_refile : (a, s) ∈ refile entries arrivals status ↔
    (a ∈ arrivals ∧ s = status ∧ ∃ s', (a, s') ∈ entries) ∨
      (a ∉ arrivals ∧ (a, s) ∈ entries) := by
  rw [refile, List.mem_map]
  constructor
  · rintro ⟨⟨b, s'⟩, hmem, he⟩
    by_cases hb : b ∈ arrivals
    · rw [if_pos hb] at he
      obtain ⟨rfl, rfl⟩ := Prod.mk.inj he
      exact .inl ⟨hb, rfl, s', hmem⟩
    · rw [if_neg hb] at he
      obtain ⟨rfl, rfl⟩ := Prod.mk.inj he
      exact .inr ⟨hb, hmem⟩
  · rintro (⟨ha, rfl, s', hmem⟩ | ⟨ha, hmem⟩)
    · exact ⟨(a, s'), hmem, if_pos ha⟩
    · exact ⟨(a, s), hmem, if_neg ha⟩

@[simp] theorem map_fst_refile :
    (refile entries arrivals status).map (·.1) = entries.map (·.1) := by
  rw [refile, List.map_map]
  refine List.map_congr_left fun e _ => ?_
  show (if e.1 ∈ arrivals then (e.1, status) else e).1 = e.1
  split <;> rfl

end

namespace Started

variable {t : ScanTally}

theorem of_whole (h : Whole t) : Started t := by
  obtain ⟨m, hs, hf⟩ := h
  exact ⟨m, hs, hf.ne_nil hs⟩

theorem of_part (h : Partial t) : Started t := by
  obtain ⟨m, hs, hne, -⟩ := h
  exact ⟨m, hs, hne⟩

theorem ne_nil (h : Started t) : t.accepted ≠ [] := by
  obtain ⟨m, -, hne⟩ := h
  exact hne

theorem perm (h : Started t) {t' : ScanTally} (ht : t.Equiv t') : Started t' := by
  obtain ⟨m, hs, hne⟩ := h
  refine ⟨m, hs.perm ht, fun he => hne ?_⟩
  exact List.perm_nil.mp (he ▸ ht.accepted)

theorem step (h : Started t) {a : Arrival} (ha : a.Proper) : Started (scanRule.step t a) := by
  obtain ⟨m, hs, hne⟩ := h
  refine ⟨m, hs.step ha fun he => absurd he hne, ?_⟩
  rcases Rule.step_accepted (R := scanRule) (t := t) (a := a) with he | ⟨-, he⟩
  · rwa [he]
  · rw [he]
    simp

/-- The first fragment of a scan. -/
theorem first {a : Arrival} (ha : a.Proper) : Started (scanRule.step .empty a) := by
  refine ⟨a.fragment.metadata, (ScanOf.empty ha.wellFormed.metadata).step ha fun _ => rfl, ?_⟩
  rw [Rule.step_fresh (R := scanRule) Rule.verdict_nil]
  simp

end Started

/-- Counting changes the counts alone. -/
theorem scanOf_count {m : Receiver.ProfileMetadata} {t : ScanTally} (h : ScanOf m t) (v : Verdict) :
    ScanOf m (scanRule.count v t) where
  wellFormed := h.wellFormed
  uniform := by
    rw [Rule.count_accepted]
    exact h.uniform
  metadata := by
    rw [Rule.count_accepted]
    exact h.metadata
  proper := by
    rw [Rule.count_accepted]
    exact h.proper
  bounded := Rule.count_bounded h.bounded v

theorem Whole.count {t : ScanTally} (h : Whole t) (v : Verdict) : Whole (scanRule.count v t) := by
  obtain ⟨m, hs, hf⟩ := h
  refine ⟨m, scanOf_count hs v, ?_⟩
  rwa [Rule.count_accepted]

theorem Partial.count {t : ScanTally} (h : Partial t) (v : Verdict) :
    Partial (scanRule.count v t) := by
  obtain ⟨m, hs, hne, hf⟩ := h
  refine ⟨m, scanOf_count hs v, ?_⟩
  rw [Rule.count_accepted]
  exact ⟨hne, hf⟩

theorem Started.count {t : ScanTally} (h : Started t) (v : Verdict) :
    Started (scanRule.count v t) := by
  obtain ⟨m, hs, hne⟩ := h
  refine ⟨m, scanOf_count hs v, ?_⟩
  rwa [Rule.count_accepted]

/-- A complete scan and a scan with no index in common: the other one is not complete. -/
theorem Whole.not_whole {t t' : ScanTally} (h : Whole t)
    (hne : ∀ a ∈ t.accepted, ∀ b ∈ t'.accepted, a.index ≠ b.index) : ¬ Whole t' := by
  rintro ⟨m', hs', hf'⟩
  obtain ⟨m, hs, hf⟩ := h
  obtain ⟨a, ha, hai⟩ := hf 0 hs.wellFormed.fragments_pos
  obtain ⟨b, hb, hbi⟩ := hf' 0 hs'.wellFormed.fragments_pos
  exact hne a ha b hb (hai.trans hbi.symm)

/-! ### Accounts -/

/-- What a receiver holds of one key. -/
structure Account where
  archive : List Arrival
  entries : List Entry
  whole : Option ScanTally
  part : Option ScanTally
  live : Option ScanTally
  cached : Bool
  waiting : List Arrival

namespace Account

/-- The fragments still pending, in order. -/
def pending (c : Account) : List Arrival := (c.entries.filter fun e => e.2 = .pending).map (·.1)

theorem mem_pending {c : Account} {a : Arrival} : a ∈ c.pending ↔ (a, .pending) ∈ c.entries := by
  rw [pending, List.mem_map]
  constructor
  · rintro ⟨⟨b, s⟩, hmem, rfl⟩
    obtain ⟨hmem, hs⟩ := List.mem_filter.mp hmem
    obtain rfl : s = .pending := of_decide_eq_true hs
    exact hmem
  · intro hmem
    exact ⟨_, List.mem_filter.mpr ⟨hmem, by simp⟩, rfl⟩

theorem pending_sublist (c : Account) : c.pending.Sublist (c.entries.map (·.1)) :=
  (List.filter_sublist).map _

/-- What holds of every account. -/
structure Sound (key : ProfileKey) (c : Account) : Prop where
  proper : ∀ a ∈ c.archive, a.Proper ∧ a.key = key
  ordered : c.archive.Pairwise fun a b => a.source.packetId < b.source.packetId
  filed : (c.entries.map (·.1)).Sublist c.archive
  whole : ∀ t, c.whole = some t → Whole t
  part : ∀ t, c.part = some t → Partial t
  live : ∀ t, c.live = some t → Started t
  assembled : ∀ a, (a, .assembled) ∈ c.entries ↔ a ∈ held c.whole
  incomplete : ∀ a, (a, .incomplete) ∈ c.entries ↔ a ∈ held c.part
  apart : ∀ a ∈ held c.whole, ∀ b ∈ held c.part, a.index ≠ b.index
  apartLive : ∀ a ∈ held c.whole, ∀ b ∈ held c.live, a.index ≠ b.index
  covers : c.live ≠ none → held c.part ⊆ held c.live
  sources : ∀ a ∈ held c.live, a ∈ held c.part ∨ (a, .pending) ∈ c.entries ∧ a ∉ c.waiting
  waiting : ∀ a ∈ c.waiting, (a, .pending) ∈ c.entries
  queued : c.waiting.Nodup
  counts : c.whole = none → ∀ t p, c.live = some t → c.part = some p →
    t.repeats = p.repeats ∧ t.clashes = p.clashes
  cached : c.cached → c.whole ≠ none ∨ ∃ t, c.live = some t ∧ Whole t

/-- Nothing received. -/
def empty : Account := ⟨[], [], none, none, none, false, []⟩

theorem sound_empty (key : ProfileKey) : empty.Sound key := by
  constructor <;> simp [empty]

namespace Sound

variable {key : ProfileKey} {c : Account} (h : c.Sound key)
include h

theorem mem_archive {a : Arrival} {s : FragmentStorageStatus} (ha : (a, s) ∈ c.entries) :
    a ∈ c.archive :=
  h.filed.subset (List.mem_map.mpr ⟨_, ha, rfl⟩)

/-- Packets tell fragments apart. -/
theorem eq_of_packetId {a b : Arrival} (ha : a ∈ c.archive) (hb : b ∈ c.archive)
    (he : a.source.packetId = b.source.packetId) : a = b := by
  have hnd : (c.archive.map fun a => a.source.packetId).Nodup :=
    List.pairwise_map.mpr (h.ordered.imp ne_of_lt)
  exact List.inj_on_of_nodup_map hnd ha hb he

theorem nodup_entries : (c.entries.map (·.1)).Nodup :=
  (h.ordered.imp fun hlt he => (he ▸ hlt).ne rfl).sublist h.filed

/-- A fragment is filed once. -/
theorem status_unique {a : Arrival} {s s' : FragmentStorageStatus} (ha : (a, s) ∈ c.entries)
    (ha' : (a, s') ∈ c.entries) : s = s' :=
  congrArg Prod.snd (List.inj_on_of_nodup_map h.nodup_entries ha ha' rfl)

theorem entry_of_live {a : Arrival} (ha : a ∈ held c.live) :
    (a, .incomplete) ∈ c.entries ∨ (a, .pending) ∈ c.entries ∧ a ∉ c.waiting :=
  (h.sources a ha).imp_left (h.incomplete a).mpr

theorem mem_archive_of_live {a : Arrival} (ha : a ∈ held c.live) : a ∈ c.archive := by
  rcases h.entry_of_live ha with he | ⟨he, -⟩
  · exact h.mem_archive he
  · exact h.mem_archive he

/-- The first waiting fragment, and the others. -/
theorem head {a : Arrival} {rest : List Arrival} (hw : c.waiting = a :: rest) :
    a ∈ c.waiting ∧ rest ⊆ c.waiting ∧ a ∉ rest ∧ rest.Nodup := by
  obtain ⟨hnot, hnd⟩ := List.nodup_cons.mp (hw ▸ h.queued)
  exact ⟨hw ▸ List.mem_cons_self, hw ▸ List.subset_cons_self a rest, hnot, hnd⟩

/-- A fragment that waits is held nowhere. -/
theorem not_held_of_waiting {a : Arrival} (ha : a ∈ c.waiting) :
    a ∉ held c.whole ∧ a ∉ held c.part ∧ a ∉ held c.live := by
  have hp := h.waiting a ha
  refine ⟨fun hw => ?_, fun hpt => ?_, fun hl => ?_⟩
  · cases h.status_unique hp ((h.assembled a).mpr hw)
  · cases h.status_unique hp ((h.incomplete a).mpr hpt)
  · rcases h.entry_of_live hl with he | ⟨-, hn⟩
    · cases h.status_unique hp he
    · exact hn ha

end Sound

/-! ### What the receiver does to an account -/

/-- A fragment is archived. -/
def receive (c : Account) (a : Arrival) : Account :=
  { c with
    archive := c.archive ++ [a]
    entries := c.entries ++ [(a, .pending)]
    waiting := c.waiting ++ [a] }

/-- Count a verdict in a stored scan that has the index. -/
def countAt (t : Option ScanTally) (index : Nat) (v : Verdict) : Option ScanTally :=
  t.map fun t => if ∃ b ∈ t.accepted, b.index = index then scanRule.count v t else t

@[simp] theorem held_countAt (t : Option ScanTally) (index : Nat) (v : Verdict) :
    held (countAt t index v) = held t := by
  cases t with
  | none => rfl
  | some t =>
      show (ite _ _ t).accepted = t.accepted
      split
      · exact Rule.count_accepted v
      · rfl

/-- How a verdict files a fragment that is not accepted. -/
def statusOf : Verdict → FragmentStorageStatus
  | .clash => .conflict
  | _ => .duplicate

/-- The first waiting fragment meets a stored one at its index. -/
def note (c : Account) (a : Arrival) (v : Verdict) : Account :=
  { c with
    entries := refile c.entries [a] (statusOf v)
    whole := countAt c.whole a.index v
    part := countAt c.part a.index v
    live := c.live.map (scanRule.count v)
    waiting := c.waiting.tail }

/-- The first waiting fragment joins the scan in memory. -/
def accept (c : Account) (a : Arrival) (cached : Bool) : Account :=
  { c with
    live := some (scanRule.step (c.live.getD .empty) a)
    waiting := c.waiting.tail
    cached }

/-- The scan in memory is stored as incomplete and leaves the memory. -/
def persist (c : Account) (t : ScanTally) : Account :=
  { c with
    entries := refile c.entries t.accepted .incomplete
    part := some t
    live := none }

/-- The scan in memory counts the first waiting fragment and is stored as incomplete. -/
def snapshot (c : Account) (a : Arrival) (t : ScanTally) (v : Verdict) : Account :=
  { c with
    entries := refile (refile c.entries t.accepted .incomplete) [a] (statusOf v)
    part := some (scanRule.count v t)
    live := some (scanRule.count v t)
    waiting := c.waiting.tail }

/-- The scan in memory is stored as complete. -/
def complete (c : Account) (t : ScanTally) : Account :=
  { c with
    entries := refile c.entries t.accepted .assembled
    whole := some t
    part := none
    live := none }

/-- The stored incomplete scan is read back into memory. -/
def restore (c : Account) (t : ScanTally) : Account := { c with live := some t }

/-- The memory is lost, and everything pending waits. -/
def forget (c : Account) : Account :=
  { c with live := none, cached := false, waiting := c.pending }

/-- The first waiting fragment is given up. -/
def quarantine (c : Account) (a : Arrival) : Account :=
  { c with
    entries := c.entries.filter fun e => e.1 ≠ a
    waiting := c.waiting.tail }

namespace Sound

variable {key : ProfileKey} {c : Account} (h : c.Sound key)
include h

theorem receive {a : Arrival} (ha : a.Proper) (hkey : a.key = key)
    (hnew : ∀ b ∈ c.archive, b.source.packetId < a.source.packetId) :
    (c.receive a).Sound key := by
  have hnot : a ∉ c.archive := fun hmem => lt_irrefl _ (hnew a hmem)
  have hentry : ∀ b s, s ≠ .pending → ((b, s) ∈ (c.receive a).entries ↔ (b, s) ∈ c.entries) := by
    intro b s hs
    simp [Account.receive, hs]
  exact
    { whole := h.whole
      part := h.part
      live := h.live
      assembled := fun b => (hentry b .assembled (by decide)).trans (h.assembled b)
      incomplete := fun b => (hentry b .incomplete (by decide)).trans (h.incomplete b)
      apart := h.apart
      apartLive := h.apartLive
      covers := h.covers
      counts := h.counts
      cached := h.cached
      proper := by
        intro b hb
        rcases List.mem_append.mp hb with hb | hb
        · exact h.proper b hb
        · exact List.mem_singleton.mp hb ▸ ⟨ha, hkey⟩
      ordered := by
        refine List.pairwise_append.mpr ⟨h.ordered, List.pairwise_singleton _ _, ?_⟩
        intro b hb a' ha'
        exact List.mem_singleton.mp ha' ▸ hnew b hb
      filed := by simpa [Account.receive] using h.filed
      sources := by
        intro b hb
        refine (h.sources b hb).imp_right fun ⟨he, hn⟩ => ⟨List.mem_append_left _ he, ?_⟩
        intro hmem
        rcases List.mem_append.mp hmem with hmem | hmem
        · exact hn hmem
        · exact hnot (List.mem_singleton.mp hmem ▸ h.mem_archive he)
      waiting := by
        intro b hb
        rcases List.mem_append.mp hb with hb | hb
        · exact List.mem_append_left _ (h.waiting b hb)
        · refine List.mem_append_right _ ?_
          rw [List.mem_singleton.mp hb]
          exact List.mem_singleton_self _
      queued := by
        refine List.nodup_append.mpr ⟨h.queued, List.nodup_singleton _, ?_⟩
        intro b hb a' ha' he
        -- nothing that waits is the new fragment
        refine hnot ?_
        rw [← List.mem_singleton.mp ha', ← he]
        exact h.mem_archive (h.waiting b hb) }

/-- The stored scans that count a verdict stay what they are. -/
theorem countAt {index : Nat} {v : Verdict} :
    (∀ t, Account.countAt c.whole index v = some t → Whole t) ∧
      ∀ t, Account.countAt c.part index v = some t → Partial t := by
  constructor
  · intro t ht
    obtain ⟨t, hw, rfl⟩ := Option.map_eq_some_iff.mp ht
    split
    · exact (h.whole t hw).count v
    · exact h.whole t hw
  · intro t ht
    obtain ⟨t, hp, rfl⟩ := Option.map_eq_some_iff.mp ht
    split
    · exact (h.part t hp).count v
    · exact h.part t hp

/-- Filing a waiting fragment as a duplicate or a conflict changes nothing else. -/
theorem mem_refile_statusOf {a : Arrival} (ha : a ∈ c.waiting) (v : Verdict) {b : Arrival}
    {s : FragmentStorageStatus} (hs : s = .assembled ∨ s = .incomplete ∨ s = .pending ∧ b ≠ a) :
    (b, s) ∈ refile c.entries [a] (statusOf v) ↔ (b, s) ∈ c.entries := by
  have hne : s ≠ statusOf v ∨ b ≠ a := by
    rcases hs with rfl | rfl | ⟨-, hne⟩
    · cases v <;> exact .inl nofun
    · cases v <;> exact .inl nofun
    · exact .inr hne
  rw [mem_refile, List.mem_singleton]
  constructor
  · rintro (⟨hb, rfl, -⟩ | ⟨-, hmem⟩)
    · exact absurd hb (hne.resolve_left (not_not.mpr rfl))
    · exact hmem
  · intro hmem
    refine .inr ⟨?_, hmem⟩
    rintro rfl
    have hp := h.status_unique hmem (h.waiting b ha)
    rcases hs with rfl | rfl | ⟨-, hne⟩
    · cases hp
    · cases hp
    · exact hne rfl

theorem note {a : Arrival} {rest : List Arrival} (hw : c.waiting = a :: rest) (v : Verdict)
    (hhit : c.whole = none → ∃ b ∈ held c.part, b.index = a.index) : (c.note a v).Sound key := by
  obtain ⟨ha, hrest, hnot, hnd⟩ := h.head hw
  have htail : (c.note a v).waiting = rest := by rw [Account.note, hw, List.tail_cons]
  have hlive : held (c.note a v).live = held c.live := by
    show held (c.live.map _) = _
    cases c.live with
    | none => rfl
    | some t => exact Rule.count_accepted v
  have hpend : ∀ b, b ≠ a → ((b, .pending) ∈ (c.note a v).entries ↔ (b, .pending) ∈ c.entries) :=
    fun b hb => h.mem_refile_statusOf ha v (.inr (.inr ⟨rfl, hb⟩))
  exact
    { proper := h.proper
      ordered := h.ordered
      filed := by
        show ((refile _ _ _).map _).Sublist _
        rw [map_fst_refile]
        exact h.filed
      whole := h.countAt.1
      part := h.countAt.2
      live := by
        intro t ht
        obtain ⟨t, hl, rfl⟩ := Option.map_eq_some_iff.mp ht
        exact (h.live t hl).count v
      assembled := by
        intro b
        show _ ↔ b ∈ held (Account.countAt ..)
        rw [held_countAt]
        exact (h.mem_refile_statusOf ha v (.inl rfl)).trans (h.assembled b)
      incomplete := by
        intro b
        show _ ↔ b ∈ held (Account.countAt ..)
        rw [held_countAt]
        exact (h.mem_refile_statusOf ha v (.inr (.inl rfl))).trans (h.incomplete b)
      apart := by
        show ∀ _ ∈ held (Account.countAt ..), ∀ _ ∈ held (Account.countAt ..), _
        rw [held_countAt, held_countAt]
        exact h.apart
      apartLive := by
        rw [hlive]
        show ∀ _ ∈ held (Account.countAt ..), _
        rw [held_countAt]
        exact h.apartLive
      covers := by
        intro hne
        rw [hlive]
        show held (Account.countAt ..) ⊆ _
        rw [held_countAt]
        refine h.covers fun hl => hne ?_
        show c.live.map _ = none
        rw [hl, Option.map_none]
      sources := by
        intro b hb
        rw [hlive] at hb
        rw [htail]
        refine (h.sources b hb).imp (fun hp => ?_) fun ⟨he, hn⟩ => ?_
        · show b ∈ held (Account.countAt ..)
          rwa [held_countAt]
        · have hne : b ≠ a := fun he => hn (he ▸ ha)
          exact ⟨(hpend b hne).mpr he, fun hmem => hn (hrest hmem)⟩
      waiting := by
        intro b hb
        rw [htail] at hb
        exact (hpend b (ne_of_mem_of_not_mem hb hnot)).mpr (h.waiting b (hrest hb))
      queued := by
        rw [htail]
        exact hnd
      counts := by
        intro hnone t p ht hp
        have hwhole : c.whole = none := Option.map_eq_none_iff.mp hnone
        obtain ⟨t, hl, rfl⟩ := Option.map_eq_some_iff.mp ht
        obtain ⟨p, hpart, rfl⟩ := Option.map_eq_some_iff.mp hp
        obtain ⟨hr, hc⟩ := h.counts hwhole t p hl hpart
        -- the incomplete scan counts as well, since no complete one has the index
        have hex : ∃ b ∈ p.accepted, b.index = a.index := by
          have hex := hhit hwhole
          rwa [hpart] at hex
        rw [if_pos hex]
        cases v with
        | fresh => exact ⟨hr, hc⟩
        | repeated => exact ⟨congrArg scanRule.bump hr, hc⟩
        | clash => exact ⟨hr, congrArg scanRule.bump hc⟩
      cached := by
        intro hc
        refine (h.cached hc).imp (fun hne hn => hne (Option.map_eq_none_iff.mp hn)) ?_
        rintro ⟨t, hl, ht⟩
        exact ⟨_, Option.map_eq_some_iff.mpr ⟨t, hl, rfl⟩, ht.count v⟩ }

theorem accept {a : Arrival} {rest : List Arrival} (hw : c.waiting = a :: rest) {cached : Bool}
    (hready : c.live ≠ none ∨ c.part = none)
    (hv : scanRule.verdict (held c.live) a.fragment = .fresh)
    (hfree : ∀ b ∈ held c.whole, b.index ≠ a.index)
    (hcached : cached → c.whole ≠ none ∨ Whole (scanRule.step (c.live.getD .empty) a)) :
    (c.accept a cached).Sound key := by
  obtain ⟨ha, hrest, hnot, hnd⟩ := h.head hw
  have htail : (c.accept a cached).waiting = rest := by rw [Account.accept, hw, List.tail_cons]
  have hproper := h.proper a (h.mem_archive (h.waiting a ha))
  -- a fresh fragment is the last of the scan in memory
  have hlive : held (c.accept a cached).live = held c.live ++ [a] := accepted_step hv
  exact
    { h with
      live := by
        intro t ht
        obtain rfl := Option.some.inj ht
        cases hl : c.live with
        | none => exact Started.first hproper.1
        | some t => exact (h.live t hl).step hproper.1
      apartLive := by
        intro x hx b hb
        rw [hlive] at hb
        rcases List.mem_append.mp hb with hb | hb
        · exact h.apartLive x hx b hb
        · exact List.mem_singleton.mp hb ▸ hfree x hx
      -- with nothing in memory there is no incomplete row to cover
      covers := by
        intro _ b hb
        rw [hlive]
        rcases hready with hne | hnone
        · exact List.mem_append_left _ (h.covers hne hb)
        · have hb : b ∈ held c.part := hb
          rw [hnone] at hb
          cases hb
      sources := by
        intro b hb
        rw [htail]
        rw [hlive] at hb
        rcases List.mem_append.mp hb with hb | hb
        · exact (h.sources b hb).imp_right fun ⟨he, hn⟩ => ⟨he, fun hmem => hn (hrest hmem)⟩
        · rw [List.mem_singleton.mp hb]
          exact .inr ⟨h.waiting a ha, hnot⟩
      waiting := by
        intro b hb
        rw [htail] at hb
        exact h.waiting b (hrest hb)
      queued := by
        rw [htail]
        exact hnd
      counts := by
        intro hnone t p ht hp
        obtain rfl := Option.some.inj ht
        cases hl : c.live with
        | none =>
            have hpart := hready.resolve_left (not_not.mpr hl)
            cases hpart.symm.trans hp
        | some t =>
            rw [hl] at hv
            have hs : scanRule.step t a = { t with accepted := t.accepted ++ [a] } :=
              Rule.step_fresh (R := scanRule) hv
            rw [Option.getD_some, hs]
            exact h.counts hnone t p hl hp
      cached := fun hc => (hcached hc).imp_right fun hwhole => ⟨_, rfl, hwhole⟩ }

/-- The fragments of the scan in memory are filed under one of two statuses. -/
theorem mem_refile_live {t : ScanTally} (hl : c.live = some t) {status : FragmentStorageStatus}
    {a : Arrival} : (a, status) ∈ refile c.entries t.accepted status ↔
      a ∈ t.accepted ∨ a ∉ t.accepted ∧ (a, status) ∈ c.entries := by
  rw [mem_refile]
  refine or_congr_left ⟨fun ⟨ha, _⟩ => ha, fun ha => ⟨ha, rfl, ?_⟩⟩
  have ha' : a ∈ held c.live := by rwa [hl]
  rcases h.entry_of_live ha' with he | ⟨he, -⟩
  · exact ⟨_, he⟩
  · exact ⟨_, he⟩

/-- No fragment in memory belongs to the stored complete scan. -/
theorem not_mem_whole {a : Arrival} (ha : a ∈ held c.live) : a ∉ held c.whole :=
  fun hw => h.apartLive a hw a ha rfl

/-- The fragments of the scan in memory do not wait. -/
theorem not_waiting {a : Arrival} (ha : a ∈ held c.live) : a ∉ c.waiting :=
  fun hw => (h.not_held_of_waiting hw).2.2 ha

/-- The scan in memory has what is filed as incomplete. -/
theorem mem_live {t : ScanTally} (hl : c.live = some t) {a : Arrival}
    (ha : (a, .incomplete) ∈ c.entries) : a ∈ t.accepted := by
  have hmem := h.covers (by rw [hl]; exact nofun) ((h.incomplete a).mp ha)
  rwa [hl] at hmem

/-- Filing the scan in memory leaves what waits. -/
theorem waiting_refile {t : ScanTally} (hl : c.live = some t) (status : FragmentStorageStatus)
    {a : Arrival} (ha : a ∈ c.waiting) : (a, .pending) ∈ refile c.entries t.accepted status := by
  refine mem_refile.mpr (.inr ⟨fun hmem => ?_, h.waiting a ha⟩)
  exact h.not_waiting (by rwa [hl]) ha

theorem persist {t : ScanTally} (hl : c.live = some t) (hp : Partial t) :
    (c.persist t).Sound key := by
  have hheld : held c.live = t.accepted := by rw [hl, held_some]
  exact
    { proper := h.proper
      ordered := h.ordered
      filed := by
        show ((refile _ _ _).map _).Sublist _
        rw [map_fst_refile]
        exact h.filed
      whole := h.whole
      part := fun t' ht' => Option.some.inj ht' ▸ hp
      live := nofun
      assembled := by
        intro a
        refine Iff.trans ?_ (h.assembled a)
        show (a, _) ∈ refile _ _ _ ↔ _
        rw [mem_refile]
        constructor
        · rintro (⟨-, he, -⟩ | ⟨-, hmem⟩)
          · cases he
          · exact hmem
        · intro hmem
          refine .inr ⟨fun ha => h.not_mem_whole (hheld ▸ ha) ((h.assembled a).mp hmem), hmem⟩
      incomplete := by
        intro a
        refine (h.mem_refile_live hl).trans ⟨?_, .inl⟩
        rintro (ha | ⟨-, hmem⟩)
        · exact ha
        · exact h.mem_live hl hmem
      apart := by
        have hap := h.apartLive
        rwa [hheld] at hap
      apartLive := fun _ _ _ hb => absurd hb List.not_mem_nil
      covers := fun hne => absurd rfl hne
      sources := fun _ hb => absurd hb List.not_mem_nil
      waiting := fun _ hb => h.waiting_refile hl _ hb
      queued := h.queued
      counts := nofun
      cached := by
        intro hc
        refine .inl ((h.cached hc).resolve_right ?_)
        rintro ⟨t', ht', hwhole⟩
        obtain rfl := Option.some.inj (hl.symm.trans ht')
        -- a scan in the completed queue would be complete
        obtain ⟨m, hs, hne, hf⟩ := hp
        obtain ⟨m', hs', hf'⟩ := hwhole
        obtain ⟨a, ha⟩ := List.exists_mem_of_ne_nil _ hne
        exact hf ((hs.metadata a ha).symm.trans (hs'.metadata a ha) ▸ hf') }

theorem snapshot {a : Arrival} {rest : List Arrival} (hw : c.waiting = a :: rest) {t : ScanTally}
    (hl : c.live = some t) (hp : Partial t) (v : Verdict) : (c.snapshot a t v).Sound key := by
  obtain ⟨ha, hrest, hnot, hnd⟩ := h.head hw
  -- the incomplete row first takes what the memory holds, then the packet is refiled
  have hpersist := h.persist hl hp
  have hheld : held c.live = t.accepted := by rw [hl, held_some]
  have hcount : (scanRule.count v t).accepted = t.accepted := Rule.count_accepted v
  have htail : (c.snapshot a t v).waiting = rest := by
    rw [Account.snapshot, hw, List.tail_cons]
  exact
    { proper := h.proper
      ordered := h.ordered
      filed := by
        show ((refile (refile _ _ _) _ _).map _).Sublist _
        rw [map_fst_refile, map_fst_refile]
        exact h.filed
      whole := h.whole
      part := fun t' ht' => Option.some.inj ht' ▸ hp.count v
      live := fun t' ht' => Option.some.inj ht' ▸ (Started.of_part hp).count v
      assembled := fun b =>
        (hpersist.mem_refile_statusOf ha v (.inl rfl)).trans (hpersist.assembled b)
      incomplete := by
        intro b
        show _ ↔ b ∈ (scanRule.count v t).accepted
        rw [hcount]
        exact (hpersist.mem_refile_statusOf ha v (.inr (.inl rfl))).trans (hpersist.incomplete b)
      apart := by
        show ∀ x ∈ held c.whole, ∀ b ∈ (scanRule.count v t).accepted, _
        rw [hcount]
        exact hpersist.apart
      apartLive := by
        show ∀ x ∈ held c.whole, ∀ b ∈ (scanRule.count v t).accepted, _
        rw [hcount]
        exact hpersist.apart
      covers := fun _ => List.Subset.refl _
      sources := fun _ hb => .inl hb
      waiting := by
        intro b hb
        rw [htail] at hb
        have hne : b ≠ a := ne_of_mem_of_not_mem hb hnot
        exact (hpersist.mem_refile_statusOf ha v (.inr (.inr ⟨rfl, hne⟩))).mpr
          (hpersist.waiting b (hrest hb))
      queued := by
        rw [htail]
        exact hnd
      counts := by
        intro _ t' p ht' hp'
        obtain rfl := Option.some.inj ht'
        obtain rfl := Option.some.inj hp'
        exact ⟨rfl, rfl⟩
      cached := fun hc => .inl ((hpersist.cached hc).resolve_right nofun) }

theorem complete {t : ScanTally} (hl : c.live = some t) (ht : Whole t) :
    c.whole = none ∧ (c.complete t).Sound key := by
  have hheld : held c.live = t.accepted := by rw [hl, held_some]
  have hnone : c.whole = none := by
    cases hw : c.whole with
    | none => rfl
    | some w =>
        -- two complete scans of a key would share an index
        refine absurd ht ((h.whole w hw).not_whole ?_)
        have hap := h.apartLive
        rwa [hw, hheld] at hap
  refine ⟨hnone, ?_⟩
  exact
    { proper := h.proper
      ordered := h.ordered
      filed := by
        show ((refile _ _ _).map _).Sublist _
        rw [map_fst_refile]
        exact h.filed
      whole := fun t' ht' => Option.some.inj ht' ▸ ht
      part := nofun
      live := nofun
      assembled := by
        intro a
        refine (h.mem_refile_live hl).trans ⟨?_, .inl⟩
        rintro (ha | ⟨-, hmem⟩)
        · exact ha
        · have ha := (h.assembled a).mp hmem
          rw [hnone] at ha
          cases ha
      incomplete := by
        intro a
        refine iff_of_false ?_ List.not_mem_nil
        show (a, _) ∉ refile _ _ _
        rw [mem_refile]
        rintro (⟨-, he, -⟩ | ⟨hna, hmem⟩)
        · cases he
        · exact hna (h.mem_live hl hmem)
      apart := fun _ _ _ hb => absurd hb List.not_mem_nil
      apartLive := fun _ _ _ hb => absurd hb List.not_mem_nil
      covers := fun hne => absurd rfl hne
      sources := fun _ hb => absurd hb List.not_mem_nil
      waiting := fun _ hb => h.waiting_refile hl _ hb
      queued := h.queued
      counts := nofun
      cached := fun _ => .inl nofun }

theorem restore {t p : ScanTally} (hl : c.live = none) (hp : c.part = some p) (ht : t.Equiv p) :
    (c.restore t).Sound key := by
  have hmem : ∀ a, a ∈ t.accepted ↔ a ∈ held c.part := by
    intro a
    rw [hp, held_some]
    exact ht.accepted.mem_iff
  exact
    { h with
      live := by
        intro t' ht'
        exact Option.some.inj ht' ▸ (Started.of_part (h.part p hp)).perm ht.symm
      apartLive := fun a ha b hb => h.apart a ha b ((hmem b).mp hb)
      covers := fun _ a ha => (hmem a).mpr ha
      sources := fun a ha => .inl ((hmem a).mp ha)
      counts := by
        intro _ t' p' ht' hp'
        obtain rfl := Option.some.inj ht'
        obtain rfl := Option.some.inj (hp.symm.trans hp')
        exact ⟨ht.repeats, ht.clashes⟩
      cached := by
        intro hc
        refine .inl ((h.cached hc).resolve_right ?_)
        rintro ⟨t', ht', -⟩
        cases hl.symm.trans ht' }

theorem forget : c.forget.Sound key :=
  { h with
    live := nofun
    apartLive := fun _ _ _ hb => absurd hb List.not_mem_nil
    covers := fun hne => absurd rfl hne
    sources := fun _ hb => absurd hb List.not_mem_nil
    waiting := fun _ hb => mem_pending.mp hb
    queued := h.nodup_entries.sublist c.pending_sublist
    counts := nofun
    cached := nofun }

theorem quarantine {a : Arrival} {rest : List Arrival} (hw : c.waiting = a :: rest) :
    (c.quarantine a).Sound key := by
  obtain ⟨ha, hrest, hnot, hnd⟩ := h.head hw
  have htail : (c.quarantine a).waiting = rest := by
    rw [Account.quarantine, hw, List.tail_cons]
  -- only the entry of the poisoned packet goes
  have hentry : ∀ b s, b ≠ a → ((b, s) ∈ (c.quarantine a).entries ↔ (b, s) ∈ c.entries) := by
    intro b s hb
    simp [Account.quarantine, hb]
  obtain ⟨hnw, hnp, hnl⟩ := h.not_held_of_waiting ha
  have hgone : ∀ s, (a, s) ∉ (c.quarantine a).entries := by
    intro s
    simp [Account.quarantine]
  exact
    { h with
      filed := ((List.filter_sublist).map _).trans h.filed
      assembled := by
        intro b
        by_cases hb : b = a
        · subst hb
          exact iff_of_false (hgone _) hnw
        · exact (hentry b _ hb).trans (h.assembled b)
      incomplete := by
        intro b
        by_cases hb : b = a
        · subst hb
          exact iff_of_false (hgone _) hnp
        · exact (hentry b _ hb).trans (h.incomplete b)
      sources := by
        intro b hb
        rw [htail]
        refine (h.sources b hb).imp_right fun ⟨he, hn⟩ => ⟨?_, fun hmem => hn (hrest hmem)⟩
        exact (hentry b _ fun he => hnl (he ▸ hb)).mpr he
      waiting := by
        intro b hb
        rw [htail] at hb
        exact (hentry b _ (ne_of_mem_of_not_mem hb hnot)).mpr (h.waiting b (hrest hb))
      queued := by
        rw [htail]
        exact hnd }

end Sound

/-! ### Invariants -/

/-- What the receiver does to the account of a key, apart from archiving. -/
inductive Moves (c : Account) : Account → Prop where
  | note {a : Arrival} {rest : List Arrival} (v : Verdict) (hw : c.waiting = a :: rest) :
      Moves c (c.note a v)
  | accept {a : Arrival} {rest : List Arrival} (cached : Bool) (hw : c.waiting = a :: rest)
      (hready : c.live ≠ none ∨ c.part = none)
      (hv : scanRule.verdict (held c.live) a.fragment = .fresh) : Moves c (c.accept a cached)
  | snapshot {a : Arrival} {rest : List Arrival} {t : ScanTally} (v : Verdict)
      (hw : c.waiting = a :: rest) (hl : c.live = some t) : Moves c (c.snapshot a t v)
  | persist {t : ScanTally} (hl : c.live = some t) : Moves c (c.persist t)
  | complete {t : ScanTally} (hl : c.live = some t) : Moves c (c.complete t)
  | restore {t p : ScanTally} (hl : c.live = none) (hp : c.part = some p) (ht : t.Equiv p) :
      Moves c (c.restore t)
  | quarantine {a : Arrival} {rest : List Arrival} (hw : c.waiting = a :: rest) :
      Moves c (c.quarantine a)
  | forget : Moves c c.forget

/-- Nothing that the receiver does, apart from archiving, breaks the invariant. -/
class Stable (I : ProfileKey → Account → Prop) : Prop where
  moves : ∀ {key : ProfileKey} {c c' : Account}, c.Sound key → c.Moves c' → I key c → I key c'

/-- Archiving does not break the invariant either. -/
class Growing (I : ProfileKey → Account → Prop) : Prop where
  receive : ∀ {key : ProfileKey} {c : Account} {a : Arrival}, c.Sound key →
    (∀ b ∈ c.archive, b.source.packetId < a.source.packetId) → I key c → I key (c.receive a)

/-- The invariant that says nothing. -/
def Anything (_ : ProfileKey) (_ : Account) : Prop := True

instance : Stable Anything := ⟨fun _ _ _ => trivial⟩

instance : Growing Anything := ⟨fun _ _ _ => trivial⟩

end Account

end Vesta.Ledger
