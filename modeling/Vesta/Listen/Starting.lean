import Vesta.Listen.Receiving

/-!
# Listen — Starting

The start of the receiver: the incomplete scans are read back, and then the pending fragments are
ingested in the order in which they were archived.  What is pending after the first step is what
was pending before it, so every pending fragment gets its turn.
-/

namespace Vesta.Listen

open Journal (Prog wp wp_pure wp_bind wp_lift wp_orElse)
open Journal.Prog (forEach lift)
open Receiver (Arrival ProfileKey ProfileReassembler HashOrder IsFrame)
open Store (TelemetryStore StorageError AppError PacketRow PendingProfileFragment DecodeErrorText
  FragmentStorageStatus)
open Ledger

variable {I : ProfileKey → Account → Prop}

/-! ### What is pending -/

/-- The pending fragments, in the order in which they were archived. -/
def pendingOf (s : TelemetryStore) : List Arrival :=
  ((s.packets.filterMap entryOf).filter fun e => e.2 = .pending).map (·.1)

section
variable {s : TelemetryStore} {A : ProfileKey → Account}

theorem pendingOf_filter (h : Holds I s A) (key : ProfileKey) :
    (pendingOf s).filter (fun a => a.key = key) = (A key).pending := by
  rw [Account.pending, ← (h.books key).entries, entriesOf, pendingOf, List.filter_map,
    List.filter_filter, List.filter_filter]
  congr 1
  refine List.filter_congr fun e _ => ?_
  exact Bool.and_comm _ _

theorem mem_pendingOf (h : Holds I s A) {a : Arrival} :
    a ∈ pendingOf s ↔ a ∈ (A a.key).pending := by
  rw [← pendingOf_filter h, List.mem_filter, decide_eq_true rfl]
  exact (and_iff_left rfl).symm

theorem ordered_pendingOf (h : Orderly s) :
    (pendingOf s).Pairwise fun a b => a.source.packetId < b.source.packetId := by
  refine List.pairwise_map.mpr (List.Pairwise.filter _ (List.pairwise_filterMap.mpr
    (h.packets.imp fun {p q} hlt e he f hf => ?_)))
  rw [packetId_of_arrivalOf (entryOf_eq_some.mp he).1,
    packetId_of_arrivalOf (entryOf_eq_some.mp hf).1]
  exact hlt

/-- What is read for a pending packet. -/
theorem replays_of_entry {p : PacketRow} (hp : Filed p) {a : Arrival}
    {status : FragmentStorageStatus} (he : entryOf p = some (a, status)) :
    ∃ d, p.decoded = some d ∧
      Replays ⟨p.id, d.fragmentIndex, p.receivedAtUnixMs, p.radio, p.payload⟩ a := by
  obtain ⟨ha, hs⟩ := entryOf_eq_some.mp he
  obtain ⟨d, hd, -⟩ := Option.bind_eq_some_iff.mp hs
  have hf := hp d hd
  rw [ha] at hf
  refine ⟨d, hd, isFrame_of_arrivalOf ha, ?_, hf.2.1⟩
  rw [hf.2.1]
  exact source_of_arrivalOf ha

theorem replays_pending {packets : List PacketRow} (hp : ∀ p ∈ packets, Filed p) :
    List.Forall₂ Replays
      ((packets.filter (·.hasStatus .pending)).filterMap fun p => p.decoded.map fun d =>
        (⟨p.id, d.fragmentIndex, p.receivedAtUnixMs, p.radio, p.payload⟩ : PendingProfileFragment))
      (((packets.filterMap entryOf).filter fun e => e.2 = .pending).map (·.1)) := by
  induction packets with
  | nil => exact .nil
  | cons p packets ih =>
      obtain ⟨hfiled, hp⟩ := List.forall_mem_cons.mp hp
      have hiff : p.hasStatus .pending ↔ ∃ a, entryOf p = some (a, .pending) :=
        hasStatus_iff hfiled
      by_cases hs : p.hasStatus .pending = true
      · obtain ⟨a, he⟩ := hiff.mp hs
        obtain ⟨d, hd, hreplays⟩ := replays_of_entry hfiled he
        have hkeep : decide ((a, FragmentStorageStatus.pending).2 = .pending) = true := rfl
        rw [List.filter_cons, if_pos hs, List.filterMap_cons, hd, List.filterMap_cons_some he,
          List.filter_cons, if_pos hkeep, List.map_cons]
        exact .cons hreplays (ih hp)
      -- a packet that is not pending has no pending entry either
      · rw [List.filter_cons, if_neg hs]
        cases he : entryOf p with
        | none =>
            rw [List.filterMap_cons_none he]
            exact ih hp
        | some e =>
            have hne : ¬ decide (e.2 = .pending) = true := by
              intro hpending
              refine hs (hiff.mpr ⟨e.1, ?_⟩)
              rw [he, ← of_decide_eq_true hpending]
            rw [List.filterMap_cons_some he, List.filter_cons, if_neg hne]
            exact ih hp

/-- As many packets are pending as fragments. -/
theorem length_pendingOf (h : Orderly s) :
    (s.packets.filter (·.hasStatus .pending)).length = (pendingOf s).length := by
  rw [pendingOf, ← (replays_pending h.filed).length_eq, List.length_filterMap_eq_countP]
  refine (List.countP_eq_length.mpr fun p hp => ?_).symm
  obtain ⟨hmem, hs⟩ := List.mem_filter.mp hp
  obtain ⟨a, he⟩ := (hasStatus_iff (h.filed p hmem)).mp hs
  obtain ⟨d, hd, -⟩ := replays_of_entry (h.filed p hmem) he
  rw [hd]
  rfl

/-- The query for the pending fragments. -/
theorem pendingProfileFragments_eq (h : Orderly s) {limit : Nat} (hlimit : 0 < limit) :
    (limit < (pendingOf s).length ∧ s.pendingProfileFragments limit =
      Outcome.fail (.pendingReplayLimitExceeded (pendingOf s).length limit)) ∨
    ∃ fs, s.pendingProfileFragments limit = .ok fs ∧ List.Forall₂ Replays fs (pendingOf s) := by
  rw [TelemetryStore.pendingProfileFragments, Outcome.failIf_neg hlimit.ne', Outcome.ok_bind]
  dsimp only
  rw [length_pendingOf h]
  by_cases hc : limit < (pendingOf s).length
  · exact .inl ⟨hc, congrArg (· >>= _) (Outcome.failIf_pos hc _)⟩
  · exact .inr ⟨_, congrArg (· >>= _) (Outcome.failIf_neg hc _), replays_pending h.filed⟩

end

/-- What is pending is what waits, when nothing more is pending. -/
theorem Kept.queue_eq {w : World} {queue : List Arrival} {A : ProfileKey → Account}
    (h : Kept I w queue A)
    (hq : queue.Pairwise fun a b => a.source.packetId < b.source.packetId)
    (hp : ∀ key, (A key).pending ⊆ (A key).waiting) : pendingOf w.store = queue := by
  have hmem : ∀ a, a ∈ pendingOf w.store ↔ a ∈ queue := by
    intro a
    have hqueue : a ∈ queue ↔ a ∈ (A a.key).waiting := by
      rw [h.memory.waiting, List.mem_filter, decide_eq_true rfl]
      exact (and_iff_left rfl).symm
    rw [mem_pendingOf h.holds, hqueue]
    exact ⟨fun ha => hp _ ha, fun ha =>
      Account.mem_pending.mpr ((h.holds.books a.key).sound.waiting a ha)⟩
  have hs := ordered_pendingOf h.holds.orderly
  have hperm := (List.perm_ext_iff_of_nodup (hs.imp fun hlt he => (he ▸ hlt).ne rfl)
    (hq.imp fun hlt he => (he ▸ hlt).ne rfl)).mpr hmem
  exact hperm.eq_of_pairwise (fun a b _ _ hab hba => absurd hba (lt_asymm hab)) hs hq

/-! ### Replaying -/

section
variable {E : Fault AppError → World → Prop}

/-- A pending fragment that could not be ingested is given up, when its key has a stray. -/
theorem wp_quarantinePendingReplay [Account.Stable I] {w : World} {a : Arrival}
    {rest : List Arrival} {A : ProfileKey → Account} (h : Kept I w (a :: rest) A)
    (hstray : ¬ StrayFree (A a.key).archive) (error : DecodeErrorText)
    {Q : Unit → World → Prop} (hQ : ∀ w' A', Kept I w' rest A' → Q () w') :
    wp (Disk I) Q E (quarantinePendingReplay a.source.packetId error) w := by
  have hw := h.memory.waiting_eq
  have hb := h.holds.books a.key
  have hmem := hb.sound.mem_archive (hb.sound.waiting a (hw ▸ List.mem_cons_self))
  obtain ⟨⟨p, hp, ha⟩, -⟩ := h.holds.mem_archive hmem
  obtain ⟨s, hok, hh⟩ := h.holds.quarantinePending hp ha hw hstray error
  rw [packetId_of_arrivalOf ha]
  exact wp_databaseUnit hok ⟨_, hh⟩ (hQ _ _ ⟨hh, h.memory.quarantined⟩)

theorem wp_replayPending [Account.Stable I] {replayStarted : Nat} {fs : List PendingProfileFragment}
    {queue : List Arrival} (hfs : List.Forall₂ Replays fs queue)
    (hE : ∀ w' queue' A' key, Kept I w' queue' A' → ¬ StrayFree (A' key).archive →
      E (.error (.database .corruptIncompleteProfile)) w') :
    ∀ {w : World} {A : ProfileKey → Account} {ordinal : Nat} {Q : Unit → World → Prop},
      Kept I w queue A → (∀ w' A', Kept I w' [] A' → Q () w') →
      wp (Disk I) Q E (replayPending replayStarted fs ordinal) w := by
  induction hfs with
  | nil =>
      intro w A ordinal Q h hQ
      exact wp_pure (hQ w A h)
  | @cons f a fs rest hreplays _ ih =>
      intro w A ordinal Q h hQ
      obtain ⟨view, hd, hview, hkey, hindex, hsource⟩ := decode_of_replays hreplays
      have hb := h.holds.books a.key
      have hmem := hb.sound.mem_archive
        (hb.sound.waiting a (h.memory.waiting_eq ▸ List.mem_cons_self))
      obtain ⟨⟨p, hp, ha⟩, -⟩ := h.holds.mem_archive hmem
      have hpayload : f.payload = p.payload :=
        IsFrame.injective hreplays.frame (isFrame_of_arrivalOf ha)
      have hid : f.packetId = a.source.packetId :=
        (congrArg Receiver.SourceFragment.packetId hsource).symm
      -- the row was checked when it was written, so it decodes under its own key and index
      rw [replayPending, hd]
      dsimp only
      rw [if_neg (not_not.mpr hindex), ← hsource, hpayload, hid]
      refine wp_bind (wp_orElse (wp_ingestArchivedProfileFragment h hp ha hview hkey _
        (fun _ w' A' hk _ => ih hk hQ) fun _ w' A' e hk _ hstray he => ?_))
      -- a refused fragment is quarantined, a contradictory row ends the start
      rcases he with rfl | rfl
      · exact wp_quarantinePendingReplay hk hstray _ fun w'' A'' hk' => ih hk' hQ
      · exact wp_lift (fun _ he => by cases he) fun _ he =>
          Except.error.inj he ▸ hE _ _ A' _ hk hstray

/-! ### The start -/

/-- A database has no more to replay than a start takes. -/
structure Within (s : TelemetryStore) : Prop where
  incomplete : ((s.scans.filter fun row => !row.transportComplete).flatMap (·.fragments)).length ≤
    maxStartupPendingFragments
  pending : (s.packets.filter (·.hasStatus .pending)).length ≤ maxStartupPendingFragments

/-- The errors of a database with more to replay than a start takes. -/
def LimitError (e : AppError) : Prop := ∃ count, maxStartupPendingFragments < count ∧
  (e = .database (.incompleteReplayLimitExceeded count maxStartupPendingFragments) ∨
    e = .database (.pendingReplayLimitExceeded count maxStartupPendingFragments))

/-- The memory of a receiver that was just started, with everything pending ahead of it. -/
theorem remembers_default {s : TelemetryStore} {A : ProfileKey → Account} (h : Holds I s A) :
    Remembers .default (pendingOf s) [] fun key => (A key).forget where
  sound := ProfileReassembler.sound_fresh _ _
  live _ := rfl
  cached _ hc := absurd hc List.not_mem_nil
  waiting key := (pendingOf_filter h key).symm
  scans _ hf := absurd hf List.not_mem_nil
  distinct := List.nodup_nil
  away _ hf := absurd hf List.not_mem_nil

/-- **Starting the receiver** on a database that the accounts describe. -/
theorem wp_reconcilePendingProfiles [Account.Stable I] {s : TelemetryStore}
    {A : ProfileKey → Account}
    (h : Holds I s A) (orders : Nat → HashOrder) (replayStarted : Nat) {Q : Unit → World → Prop}
    (hQ : (∀ key, (A key).whole = none ∨ (A key).part = none) → ∀ w' A', Kept I w' [] A' → Q () w')
    (hlimit : ¬ Within s → ∀ w' queue' A' e, Kept I w' queue' A' → LimitError e → E (.error e) w')
    (hE : ∀ w' queue' A' key, Kept I w' queue' A' → ¬ StrayFree (A' key).archive →
      E (.error (.database .corruptIncompleteProfile)) w') :
    wp (Disk I) Q E (reconcilePendingProfiles replayStarted) ⟨s, .default, orders⟩ := by
  have hpos : 0 < maxStartupPendingFragments := by decide
  have hk : Kept I ⟨s, .default, orders⟩ (pendingOf s) fun key => (A key).forget :=
    ⟨h.forget, remembers_default h⟩
  rcases hk.holds.incompleteProfiles hpos with ⟨hlt, hf⟩ | ⟨ps, hok, hnd, hps, hall⟩
  · refine wp_bind (wp_query_error hf (hlimit (fun hwithin => ?_) _ _ _ _ hk ⟨_, hlt, .inl rfl⟩))
    have hrows : incompleteRowsOf s none = s.scans.filter fun row => !row.transportComplete :=
      List.filter_congr fun row _ => Bool.and_true _
    rw [hrows] at hlt
    exact absurd hwithin.incomplete (not_le.mpr hlt)
  · refine wp_bind (wp_query hok (wp_bind (wp_restoreIncompleteProfiles hk hnd
      (fun p hp => ⟨rfl, hps p hp⟩) (fun key w' A' hk' hstray => hE w' _ A' key hk' hstray)
      fun hwholes ordinal w' A' hk' hsub => ?_)))
    -- restoring files nothing new as pending, so the replay reads the queue of before
    have hqueue : pendingOf w'.store = pendingOf s := by
      refine hk'.queue_eq (ordered_pendingOf h.orderly) fun key => ?_
      rw [hk'.memory.waiting, ← hk.memory.waiting key]
      exact hsub key
    have hsingle : ∀ key, (A key).whole = none ∨ (A key).part = none := by
      intro key
      by_cases hpart : (A key).part = none
      · exact .inr hpart
      · obtain ⟨p, hp, rfl⟩ := hall key hpart
        exact .inl (hwholes p hp)
    rcases pendingProfileFragments_eq hk'.holds.orderly hpos with ⟨hlt, hf⟩ | ⟨fs, hok', hfs⟩
    · refine wp_bind (wp_query_error hf (hlimit (fun hwithin => ?_) _ _ _ _ hk' ⟨_, hlt, .inr rfl⟩))
      rw [hqueue, ← length_pendingOf h.orderly] at hlt
      exact absurd hwithin.pending (not_le.mpr hlt)
    · rw [hqueue] at hfs
      exact wp_bind (wp_query hok' (wp_replayPending hfs hE hk' (hQ hsingle)))

end

end Vesta.Listen
