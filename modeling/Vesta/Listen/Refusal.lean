import Vesta.Listen.System

/-!
# Listen — Refusal

When the receiver fails.  Storing a packet fails exactly when it is refused (`storePacket_ok_iff`):
a stray of a complete scan meets neither a stored fragment nor a scan that could take it.  A start
does not fail on a database without strays, and it fails on every one that has two rows of a key
(`start_returns`), which is what a stray leaves behind.
-/

namespace Vesta.Listen

open Journal (wp)
open Receiver (ProfileKey HashOrder)
open Store (TelemetryStore StorageError AppError)
open Ledger

/-! ### Packets -/

/-- **A packet is stored exactly when it is not refused.** -/
theorem storePacket_ok_iff {w : World} (h : Reach (.up w)) {packet : RadioPacket}
    (hlen : packet.payload.length ≤ maxPayloadLen) (now observedAt : Nat) :
    (∃ outcome, (storePacket now observedAt packet w).result = .ok outcome) ↔
      ¬ Refused w packet.payload := by
  obtain ⟨A, hk⟩ := h.accounted
  have hspec : wp (Disk Account.Anything) (fun _ _ => ¬ Refused w packet.payload)
      (fun _ _ => Refused w packet.payload) (storePacket now observedAt packet) w :=
    wp_storePacket hk hlen now observedAt (fun htaken _ _ _ _ _ => htaken)
      fun hrefused _ _ _ _ _ _ _ _ => hrefused
  constructor
  · rintro ⟨outcome, hok⟩
    exact hspec.ok outcome hok
  · intro htaken
    cases hr : (storePacket now observedAt packet w).result with
    | ok outcome => exact ⟨outcome, rfl⟩
    | error e => exact absurd (hspec.error e hr) htaken

/-- A receiver that has completed a blank scan of two fragments. -/
@[irreducible] def completed : World := (booted.after (blankPacket 4 0)).after (blankPacket 4 1)

/-- The receiver that completes it. -/
def Running.finished : Running := begun.blank 4 1 (by decide +kernel)

theorem reach_completed : Reach (.up completed) := by
  rw [completed]
  exact Running.finished.reach

theorem storePacket_stray : (storePacket 0 0 (blankPacket 10 3) completed).result =
    .error (.error (.reassembly .internalState)) := by decide +kernel

/-- After a complete blank scan, a contradicting fragment at one of its indices is not refused, and
a fragment at an index that it does not have is. -/
theorem storePacket_ok_blank : ¬ Refused completed (blankPacket 5 0).payload ∧
    Refused completed (blankPacket 10 3).payload := by
  have htaken : ∃ outcome, (storePacket 0 0 (blankPacket 5 0) completed).result = .ok outcome :=
    ⟨.validV2, by decide +kernel⟩
  have hrefused : ¬ ∃ outcome, (storePacket 0 0 (blankPacket 10 3) completed).result =
      .ok outcome := by
    rintro ⟨outcome, hok⟩
    cases storePacket_stray.symm.trans hok
  exact ⟨(storePacket_ok_iff reach_completed (length_blankPacket_le 5 0) 0 0).mp htaken, not_not.mp
    (mt (storePacket_ok_iff reach_completed (length_blankPacket_le 10 3) 0 0).mpr hrefused)⟩

/-- The last fragment of a blank scan of four, when the key has a complete one of two. -/
theorem not_storePacket_ok : ¬ ∀ w, Reach (.up w) → ∀ packet : RadioPacket,
    packet.payload.length ≤ maxPayloadLen → ∀ now observedAt,
      ∃ outcome, (storePacket now observedAt packet w).result = .ok outcome := by
  intro hall
  obtain ⟨outcome, hok⟩ := hall completed reach_completed _ (length_blankPacket_le 10 3) 0 0
  cases storePacket_stray.symm.trans hok

/-! ### Starts -/

/-- The start of a receiver, at the instant zero. -/
@[irreducible] def startedOn (s : TelemetryStore) : World :=
  (reconcilePendingProfiles 0 (booting s fun _ => .stored)).state

/-- The database of a receiver that stops. -/
@[irreducible] def World.stopped (w : World) : TelemetryStore := (persistRemaining w).state.store

theorem Reach.startedOn {s : TelemetryStore} (h : Reach (.down s))
    (hok : (reconcilePendingProfiles 0 (booting s fun _ => .stored)).result = .ok ()) :
    Reach (.up (startedOn s)) := by
  rw [Listen.startedOn]
  exact .step h (.start ⟨hok, rfl⟩)

theorem Reach.stopped {w : World} (h : Reach (.up w))
    (hok : (persistRemaining w).result = .ok ()) : Reach (.down w.stopped) := by
  rw [World.stopped]
  exact .step h (.stop ⟨hok, rfl⟩)

/-- After a stop and a start. -/
def Running.restarted (r : Running) (hstop : (persistRemaining r.world).result = .ok ())
    (hstart : (reconcilePendingProfiles 0 (booting r.world.stopped fun _ => .stored)).result =
      .ok ()) : Running :=
  ⟨startedOn r.world.stopped, (r.reach.stopped hstop).startedOn hstart⟩

/-- A stray that came after a restart, and was stored. -/
@[irreducible] def stuck : TelemetryStore :=
  ((startedOn completed.stopped).after (blankPacket 10 3)).stopped

/-- The receiver that stores it. -/
def Running.strayed : Running :=
  (restarted ⟨completed, reach_completed⟩ (by decide +kernel) (by decide +kernel)).blank 10 3
    (by decide +kernel)

theorem reach_stuck : Reach (.down stuck) := by
  rw [stuck]
  exact Running.strayed.reach.stopped (by decide +kernel)

/-- What a crash left: an incomplete row that counts a duplicate, and a fragment that waits. -/
@[irreducible] def interrupted : TelemetryStore :=
  (((booted.after (blankPacket 10 0)).after (blankPacket 10 0)).after (blankPacket 10 1)).store

/-- The receiver that crashes. -/
def Running.interrupted : Running :=
  ((blank ⟨booted, reach_booted⟩ 10 0 (by decide +kernel)).blank 10 0
    (by decide +kernel)).blank 10 1 (by decide +kernel)

theorem reach_interrupted : Reach (.down interrupted) := by
  rw [interrupted]
  exact .step Running.interrupted.reach (@Step.lostInExpiry _ _ 0 (.inl rfl))

/-- All its fragments declare four. -/
theorem strayFree_interrupted (key : ProfileKey) : StrayFree (archiveOf interrupted key) := by
  have hfour : ∀ p ∈ interrupted.packets, ∀ a ∈ arrivalOf p,
      a.fragment.metadata.expectedFragmentCount = 4 := by decide +kernel
  refine StrayFree.of_counts (fun a ha => ?_) fun a ha b hb => ?_
  · obtain ⟨⟨p, -, hp⟩, -⟩ := mem_archiveOf.mp ha
    exact proper_of_arrivalOf hp
  · obtain ⟨⟨p, hp, ha⟩, -⟩ := mem_archiveOf.mp ha
    obtain ⟨⟨q, hq, hb⟩, -⟩ := mem_archiveOf.mp hb
    exact (hfour p hp a ha).trans (hfour q hq b hb).symm

/-- **Starting.**  On a database without strays and with no more to replay than a start takes, the
receiver starts.  On one where a key has a complete row and an incomplete one, it never does. -/
theorem start_returns {s : TelemetryStore} (h : Reach (.down s)) (orders : Nat → HashOrder)
    (replayStarted : Nat) :
    (Within s → (∀ key, StrayFree (archiveOf s key)) →
      ∃ w, Returns (reconcilePendingProfiles replayStarted) (booting s orders) () w) ∧
    ((∃ key, s.completeRows key ≠ [] ∧
        ((s.rows key).filter fun row => !row.transportComplete) ≠ []) →
      ¬ ∃ w, Returns (reconcilePendingProfiles replayStarted) (booting s orders) () w) := by
  obtain ⟨A, hh⟩ := h.accounted
  refine ⟨fun hwithin hfree => ?_, fun ⟨key, hwhole, hpart⟩ ⟨w, hr⟩ => ?_⟩
  · have hclean : Holds Unstrayed s A := hh.satisfy fun key => by
      have hkey := hfree key
      rwa [(hh.books key).archive] at hkey
    have hspec : wp (Disk Unstrayed) (fun _ _ => True) (fun _ _ => False)
        (reconcilePendingProfiles replayStarted) (booting s orders) := by
      refine wp_reconcilePendingProfiles hclean orders replayStarted (fun _ _ _ _ => trivial)
        (fun hn => absurd hwithin hn) fun w' queue' A' key hk hstray => ?_
      exact hstray (hk.holds.books key).invariant
    cases hr : (reconcilePendingProfiles replayStarted (booting s orders)).result with
    | ok a => exact ⟨_, hr, rfl⟩
    | error e => exact (hspec.error e hr).elim
  · have hspec : wp (Disk Account.Anything)
        (fun _ _ => ∀ key, (A key).whole = none ∨ (A key).part = none) (fun _ _ => True)
        (reconcilePendingProfiles replayStarted) (booting s orders) :=
      wp_reconcilePendingProfiles hh orders replayStarted (fun hsingle _ _ _ => hsingle)
        (fun _ _ _ _ _ _ _ => trivial) fun _ _ _ _ _ _ => trivial
    rcases hspec.ok () hr.1 key with hnone | hnone
    · exact (ne_nil_iff (hh.books key).completeRows).mp hwhole hnone
    · exact (ne_nil_iff (hh.books key).incompleteRows).mp hpart hnone

/-- On a database that a crash left, with an incomplete row and a fragment that waits, the receiver
starts.  On one with a complete row and an incomplete one, it does not. -/
theorem start_returns_blank :
    (interrupted.rows blankKey).map (·.transportComplete) = [false] ∧
      (interrupted.packets.filter (·.hasStatus .pending)).length = 1 ∧
      (∃ w, Returns (reconcilePendingProfiles 0) (booting interrupted fun _ => .stored) () w) ∧
      ¬ ∃ w, Returns (reconcilePendingProfiles 0) (booting stuck fun _ => .stored) () w := by
  refine ⟨by decide +kernel, by decide +kernel, ?_, ?_⟩
  · exact (start_returns reach_interrupted _ 0).1 ⟨by decide +kernel, by decide +kernel⟩
      strayFree_interrupted
  · exact (start_returns reach_stuck _ 0).2 ⟨blankKey, by decide +kernel, by decide +kernel⟩

/-- Four packets, a restart and a stop leave a database on which no start returns. -/
theorem not_start_returns : ¬ ∀ s, Reach (.down s) → Within s → ∀ orders replayStarted,
    ∃ w, Returns (reconcilePendingProfiles replayStarted) (booting s orders) () w := by
  intro hall
  obtain ⟨w, hr⟩ := hall stuck reach_stuck ⟨by decide +kernel, by decide +kernel⟩
    (fun _ => .stored) 0
  have hfails : (reconcilePendingProfiles 0 (booting stuck fun _ => .stored)).result =
      .error (.error (.database .corruptIncompleteProfile)) := by decide +kernel
  cases hr.1.symm.trans hfails

end Vesta.Listen
