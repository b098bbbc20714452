import Vesta.Listen.Starting
import Vesta.Receiver.Refinement

/-!
# Listen — System

The receiver over its whole life.  It starts on a database, receives packets, gives up scans that
have become too old, and stops; and it may be lost at any time, by a crash or by an error that ends
the process, which leaves the database as some commit left it.  Packets, clocks and the orders of
hash maps are arbitrary.

In every state that it reaches, some accounts describe what it has (`Reach.accounted`).
-/

namespace Vesta.Listen

open Journal (Prog Leaves wp)
open Receiver (Arrival ProfileKey ProfileReassembler HashOrder blankScan blankCommon)
open Store (TelemetryStore AppError)
open Ledger

/-- A receiver that does not run, with its database, or one that does. -/
inductive Node where
  | down (store : TelemetryStore)
  | up (world : World)

namespace Node

/-- The database of the receiver. -/
def store : Node → TelemetryStore
  | down store => store
  | up world => world.store

end Node

/-- The world in which a receiver starts. -/
def booting (store : TelemetryStore) (orders : Nat → HashOrder) : World :=
  ⟨store, .default, orders⟩

/-- The largest payload of a radio packet. -/
def maxPayloadLen : Nat := 255

/-- The program returns a value and leaves a world. -/
def Returns {α : Type} (x : Program α) (w : World) (a : α) (w' : World) : Prop :=
  (x w).result = .ok a ∧ (x w).state = w'

/-- What can happen to a receiver. -/
inductive Step : Node → Node → Prop where
  | start {s : TelemetryStore} {orders : Nat → HashOrder} {replayStarted : Nat} {w : World}
      (h : Returns (reconcilePendingProfiles replayStarted) (booting s orders) () w) :
      Step (.down s) (.up w)
  | lostAtStart {s d : TelemetryStore} {orders : Nat → HashOrder} {replayStarted : Nat}
      (h : Leaves World.store (reconcilePendingProfiles replayStarted) (booting s orders) d) :
      Step (.down s) (.down d)
  | receive {w w' : World} {packet : RadioPacket} {now observedAt : Nat} {outcome : PacketOutcome}
      (hlen : packet.payload.length ≤ maxPayloadLen)
      (h : Returns (storePacket now observedAt packet) w outcome w') : Step (.up w) (.up w')
  | lostInPacket {w : World} {d : TelemetryStore} {packet : RadioPacket} {now observedAt : Nat}
      (hlen : packet.payload.length ≤ maxPayloadLen)
      (h : Leaves World.store (storePacket now observedAt packet) w d) : Step (.up w) (.down d)
  | expire {w w' : World} {now : Nat} (h : Returns (persistExpiredProfiles now) w () w') :
      Step (.up w) (.up w')
  | lostInExpiry {w : World} {d : TelemetryStore} {now : Nat}
      (h : Leaves World.store (persistExpiredProfiles now) w d) : Step (.up w) (.down d)
  | stop {w w' : World} (h : Returns persistRemaining w () w') : Step (.up w) (.down w'.store)
  | lostInStop {w : World} {d : TelemetryStore} (h : Leaves World.store persistRemaining w d) :
      Step (.up w) (.down d)

/-- The states that a receiver reaches from a fresh database. -/
inductive Reach : Node → Prop where
  | fresh : Reach (.down .fresh)
  | step {n n' : Node} (h : Reach n) (hs : Step n n') : Reach n'

/-- Some accounts, which satisfy the invariant, describe what the receiver has. -/
def Accounted (I : ProfileKey → Account → Prop) : Node → Prop
  | .down s => Disk I s
  | .up w => ∃ A, Kept I w [] A

section
variable {I : ProfileKey → Account → Prop}

theorem Accounted.disk {n : Node} (h : Accounted I n) : Disk I n.store := by
  cases n with
  | down s => exact h
  | up w =>
      obtain ⟨A, hk⟩ := h
      exact ⟨A, hk.holds⟩

/-- A program of the receiver that keeps the accounts. -/
abbrev Keeps (I : ProfileKey → Account → Prop) {α : Type} (x : Program α) (w : World) : Prop :=
  wp (Disk I) (fun _ w' => Accounted I (.up w')) (fun _ _ => True) x w

namespace Keeps

theorem returns {α : Type} {x : Program α} {w w' : World} {a : α} (h : Keeps I x w)
    (hr : Returns x w a w') : Accounted I (.up w') :=
  hr.2 ▸ h.ok a hr.1

theorem leaves {α : Type} {x : Program α} {w : World} {d : TelemetryStore} (h : Keeps I x w)
    (hw : Disk I w.store) (hl : Leaves World.store x w d) : Accounted I (.down d) :=
  wp.leaves h hw hl

variable [Account.Stable I]

theorem reconcilePendingProfiles {s : TelemetryStore} (h : Disk I s) (orders : Nat → HashOrder)
    (replayStarted : Nat) :
    Keeps I (reconcilePendingProfiles replayStarted) (booting s orders) := by
  obtain ⟨A, hh⟩ := h
  exact wp_reconcilePendingProfiles hh orders replayStarted (fun _ _ A' hk => ⟨A', hk⟩)
    (fun _ _ _ _ _ _ _ => trivial) fun _ _ _ _ _ _ => trivial

variable {w : World} (h : Accounted I (.up w))
include h

theorem storePacket [Account.Growing I] {packet : RadioPacket}
    (hlen : packet.payload.length ≤ maxPayloadLen) (now observedAt : Nat) :
    Keeps I (storePacket now observedAt packet) w := by
  obtain ⟨A, hk⟩ := h
  exact wp_storePacket hk hlen now observedAt (fun _ _ _ A' hk' _ => ⟨A', hk'⟩)
    fun _ _ _ _ _ _ _ _ _ => trivial

theorem persistExpiredProfiles (now : Nat) : Keeps I (persistExpiredProfiles now) w := by
  obtain ⟨A, hk⟩ := h
  exact wp_persistExpiredProfiles hk now fun _ A' hk' => ⟨A', hk'⟩

theorem persistRemaining : Keeps I persistRemaining w := by
  obtain ⟨A, hk⟩ := h
  exact wp_persistRemaining hk fun _ A' hk' _ => ⟨A', hk'⟩

end Keeps

/-- Every step keeps the accounts, and an invariant that archiving does not break. -/
theorem Step.accounted [Account.Stable I] [Account.Growing I] {n n' : Node} (hs : Step n n')
    (h : Accounted I n) : Accounted I n' := by
  cases hs with
  | start hr => exact (Keeps.reconcilePendingProfiles h _ _).returns hr
  | lostAtStart hl => exact (Keeps.reconcilePendingProfiles h _ _).leaves h hl
  | receive hlen hr => exact (Keeps.storePacket h hlen _ _).returns hr
  | lostInPacket hlen hl => exact (Keeps.storePacket h hlen _ _).leaves h.disk hl
  | expire hr => exact (Keeps.persistExpiredProfiles h _).returns hr
  | lostInExpiry hl => exact (Keeps.persistExpiredProfiles h _).leaves h.disk hl
  | stop hr => exact ((Keeps.persistRemaining h).returns hr).disk
  | lostInStop hl => exact (Keeps.persistRemaining h).leaves h.disk hl

end

/-- **The accounts are kept.** -/
theorem Reach.accounted {n : Node} (h : Reach n) : Accounted Account.Anything n := by
  induction h with
  | fresh => exact ⟨_, holds_fresh fun _ => trivial⟩
  | step _ hs ih => exact hs.accounted ih

/-! ### Blank packets -/

/-- Fragment `k` of a blank scan with so many steps. -/
def blankPacket (expectedStepCount : UInt8) (k : Nat) : RadioPacket where
  payload := Protocol.fragmentFrame
    (Protocol.fragmentView blankCommon (blankScan expectedStepCount) k)
  metadata := ⟨0, 0, 0⟩

theorem length_blankPacket_le (expectedStepCount : UInt8) (k : Nat) :
    (blankPacket expectedStepCount k).payload.length ≤ maxPayloadLen :=
  (Protocol.length_fragmentFrame_le _ _ _).trans (by decide)

/-- The key of all blank scans. -/
def blankKey : ProfileKey := .ofHeader (Protocol.fragmentView blankCommon (blankScan 4) 0).header

/-- A receiver that was started on a fresh database. -/
@[irreducible] def booted : World :=
  (reconcilePendingProfiles 0 (booting .fresh fun _ => .stored)).state

/-- The receiver after a packet, at the instant zero. -/
@[irreducible] def World.after (w : World) (packet : RadioPacket) : World :=
  (storePacket 0 0 packet w).state

theorem reach_booted : Reach (.up booted) := by
  rw [booted]
  exact .step .fresh (.start ⟨by decide +kernel, rfl⟩)

theorem Step.after {w : World} {packet : RadioPacket}
    (hlen : packet.payload.length ≤ maxPayloadLen)
    (hok : (storePacket 0 0 packet w).result = .ok .validV2) :
      Step (.up w) (.up (w.after packet)) := by
  rw [World.after]
  exact .receive hlen ⟨hok, rfl⟩

theorem Reach.after {w : World} (h : Reach (.up w)) (packet : RadioPacket)
    (hlen : packet.payload.length ≤ maxPayloadLen)
    (hok : (storePacket 0 0 packet w).result = .ok .validV2) : Reach (.up (w.after packet)) :=
  .step h (.after hlen hok)

/-- A receiver that runs, reached from a fresh database. -/
structure Running where
  world : World
  reach : Reach (.up world)

namespace Running

/-- After a packet that it takes. -/
def after (r : Running) (packet : RadioPacket) (hlen : packet.payload.length ≤ maxPayloadLen)
    (hok : (storePacket 0 0 packet r.world).result = .ok .validV2) : Running :=
  ⟨r.world.after packet, r.reach.after packet hlen hok⟩

/-- After a fragment of a blank scan. -/
def blank (r : Running) (expectedStepCount : UInt8) (k : Nat)
    (hok : (storePacket 0 0 (blankPacket expectedStepCount k) r.world).result = .ok .validV2) :
    Running :=
  r.after (blankPacket expectedStepCount k) (length_blankPacket_le expectedStepCount k) hok

/-- After the first fragment of a blank scan of two. -/
def begun : Running := blank ⟨booted, reach_booted⟩ 4 0 (by decide +kernel)

/-- After that fragment and its duplicate. -/
def repeated : Running := begun.blank 4 0 (by decide +kernel)

end Running

end Vesta.Listen
