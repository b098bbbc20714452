import Vesta.Listen.Live
import Vesta.Radio.Sx1262

/-!
# Listen — Loop

`listen` of `main.rs`: it restores what the database holds, opens the radio, polls it until it is
asked to stop or a limit is reached, stores each packet, gives up scans that have become too old,
and stores what is left.  The radio is let go however that ends.

The board, the signals and the clocks are the host (`Host`), which answers as it likes.  The
database is open.
-/

namespace Vesta.Listen

open Journal (Prog)
open Journal.Prog (lift turns)
open Receiver (HashOrder)
open Store (TelemetryStore AppError)
open Radio (Board Sx1262Hat Driver RadioError ReceiveEvent pollReceive openHat dropHat)

/-- What `listen` runs on, besides its database. -/
structure Host (H : Type) extends Board H where
  /-- `termination_flag` -/
  terminationFlag : H → Except String Unit × H
  /-- `stopping.load` -/
  stopping : H → Bool × H
  /-- `Instant::now`, in nanoseconds -/
  now : H → Nat × H
  /-- `current_unix_ms` -/
  currentUnixMs : H → Nat × H

/-- The radio and the receiver. -/
abbrev Machine (H : Type) := Sx1262Hat H × World

/-- `AppError`, as far as `listen` can fail. -/
inductive ListenError where
  | signal (error : String)
  | radio (error : RadioError)
  | storing (error : AppError)
deriving DecidableEq

/-- A program of `listen`.  The database is its durable part. -/
abbrev Listener (H α : Type) := Prog TelemetryStore (Machine H) (Fault ListenError) α

/-- The same fault, with another error. -/
def faultMap {ε ε' : Type} (f : ε → ε') : Fault ε → Fault ε'
  | .error e => .error (f e)
  | .panicked => .panicked

/-- The limits of a run, as the command line accepts them. -/
structure Limits where
  /-- `--duration`, in seconds -/
  duration : Option Nat
  /-- `--count` -/
  count : Option Nat
  duration_range : ∀ seconds ∈ duration, 1 ≤ seconds ∧ seconds ≤ 86400
  count_range : ∀ n ∈ count, 1 ≤ n ∧ n < 2 ^ 64

/-- The counters of a run. -/
structure Counters where
  validFrames : Nat
  headerErrors : Nat
  crcErrors : Nat
  unsupportedPackets : Nat
  protocolErrors : Nat
deriving DecidableEq

namespace Counters

def zero : Counters := ⟨0, 0, 0, 0, 0⟩

/-- Count a packet. -/
def countPacket (c : Counters) : PacketOutcome → Counters
  | .validV1 | .validV2 => { c with validFrames := c.validFrames + 1 }
  | .unsupported => { c with unsupportedPackets := c.unsupportedPackets + 1 }
  | .invalid => { c with protocolErrors := c.protocolErrors + 1 }

/-- `valid_frames` has reached the maximum. -/
def reached (c : Counters) (maximum : Option Nat) : Bool := maximum.any (· ≤ c.validFrames)

end Counters

/-- 250 milliseconds. -/
def maxPollTime : Nat := 250 * 10 ^ 6

section
variable {H α : Type}

/-- A program of the driver. -/
def radio (x : Driver H α) : Listener H α :=
  x.embed Empty.elim Prod.fst (fun hat m => (hat, m.2)) (faultMap .radio)

/-- A program of the receiver. -/
def storing (x : Program α) : Listener H α :=
  x.embed id Prod.snd (fun w m => (m.1, w)) (faultMap .storing)

/-- Ask the host. -/
def ask (f : H → α × H) : Listener H α := radio (Radio.outside f)

variable (host : Host H)

/-- The poll time, unless the deadline has passed. -/
def pollTime : Option Nat → Listener H (Option Nat)
  | none => return some maxPollTime
  | some deadline => do
      let now ← ask host.now
      return if deadline < now then none else some (min (deadline - now) maxPollTime)

/-- What `listen` does with an event. -/
def handleEvent (c : Counters) : ReceiveEvent → Listener H Counters
  | .packet packet => do
      let now ← ask host.currentUnixMs
      let observedAt ← ask host.now
      return c.countPacket (← storing (storePacket now observedAt packet))
  | .headerError _ => return { c with headerErrors := c.headerErrors + 1 }
  | .crcError _ => return { c with crcErrors := c.crcErrors + 1 }
  | .radioTimeout _ | .otherIrq _ => return c

/-- One turn of the loop of `listen`.  It goes on with new counters, or ends. -/
def listenTurn (count deadline : Option Nat) (c : Counters) : Listener H (Counters ⊕ Counters) := do
  if (← ask host.stopping) || c.reached count then return .inr c
  match ← pollTime host deadline with
  | none => return .inr c
  | some timeout => do
      let c ← match ← radio (pollReceive host.toBoard timeout) with
        | none => pure c
        | some event => handleEvent host c event
      storing (persistExpiredProfiles (← ask host.now))
      return .inl c

/-- The part of `listen` after the radio was opened.  `fuel` bounds the turns of the loop; without a
value, it still goes on. -/
def listenOpened (limits : Limits) (fuel : Nat) : Listener H (Option Counters) := do
  let started ← ask host.now
  let deadline := limits.duration.map fun seconds => started + seconds * 10 ^ 9
  match ← turns (listenTurn host limits.count deadline) fuel .zero with
  | none => return none
  | some c => do
      storing persistRemaining
      return some c

/-- `listen`. -/
def listen (limits : Limits) (fuel : Nat) : Listener H (Option Counters) := do
  let registered ← ask host.terminationFlag
  lift (registered.mapError fun e => .error (.signal e))
  storing (reconcilePendingProfiles (← ask host.now))
  radio (openHat host.toBoard)
  (listenOpened host limits fuel).ensuring (radio (dropHat host.toBoard))

end

/-- A receiver that starts on a database. -/
def starting {H : Type} (h : H) (s : TelemetryStore) (orders : Nat → HashOrder) : Machine H :=
  (.unclaimed h, ⟨s, .default, orders⟩)

end Vesta.Listen
