import Vesta.Foundations.Fault
import Vesta.Foundations.Journal

/-!
# Radio — Board

What the driver of `sx1262.rs` has to do with: the lines and the bus of the board, and time.  The
board answers as it likes (`Board`); only its clock is known, which never goes back and has moved on
after a sleep.  What the driver did to it is logged in order, so that a property of every run is one
of every log.

Addresses of pins and the error types of the platform are left out; an error of the platform is its
text.
-/

namespace Vesta.Radio

open Journal (Prog)
open Journal.Prog (get lift update)

inductive Level where
  | low
  | high
deriving DecidableEq

/-- A line that the driver sets. -/
inductive Pin where
  | rfRx
  | reset
  | nss
deriving DecidableEq

/-- One transfer on the bus.  As many bytes come in as go out. -/
structure Transfer where
  outgoing : List UInt8
  incoming : List UInt8
deriving DecidableEq

/-- What the driver does to the board. -/
inductive Action where
  | drive (pin : Pin) (level : Level)
  | exchange (transfer : Transfer)
deriving DecidableEq

/-- Failure while controlling the board. -/
inductive RadioError where
  | gpio (error : String)
  | spi (error : String)
  | busyTimeout
  | shortTransfer (expected actual : Nat)
  | invalidStatus (opcode status : UInt8)
  | commandRejected (opcode status : UInt8)
  | unexpectedPacketType (packetType : UInt8)
  | syncWordMismatch (syncWord : UInt16)
  | deviceErrors (errors : UInt16)
  | unexpectedMode (expected status : UInt8)
deriving DecidableEq

/-- A board with states `H`.  Times are in nanoseconds. -/
structure Board (H : Type) where
  /-- `Instant::now` -/
  instant : H → Nat
  /-- `thread::sleep` -/
  sleep : Nat → H → H
  /-- `Gpio::new` -/
  openGpio : H → Except String Unit × H
  /-- `Gpio::get` for a pin that is an output -/
  claimOutput : Pin → H → Except String Unit × H
  /-- `Gpio::get` for the pins that are inputs -/
  claimInputs : H → Except String Unit × H
  /-- `Spi::new` -/
  openSpi : H → Except String Unit × H
  setPin : Pin → Level → H → H
  readBusy : H → Level × H
  readDio1 : H → Level × H
  /-- `InputPin::poll_interrupt`: whether there was an interrupt -/
  pollInterrupt : Bool → Nat → H → Except String Bool × H
  /-- `InputPin::set_interrupt` for a rising edge -/
  setInterrupt : H → Except String Unit × H
  /-- `Spi::transfer`: the length transferred, and the bytes that came in -/
  transfer : List UInt8 → H → (Except String Nat × (Nat → UInt8)) × H
  instant_readBusy : ∀ h, instant h ≤ instant (readBusy h).2
  instant_sleep : ∀ d h, instant h + d ≤ instant (sleep d h)

/-- The controller of `Sx1262Hat`, with the board and the log of what was done to it. -/
structure Sx1262Hat (H : Type) where
  outside : H
  initialized : Bool
  log : List Action

/-- A program of the driver.  Nothing of it is durable. -/
abbrev Driver (H α : Type) := Prog Empty (Sx1262Hat H) (Fault RadioError) α

/-- The driver before it has claimed the pins. -/
def Sx1262Hat.unclaimed {H : Type} (outside : H) : Sx1262Hat H := ⟨outside, false, []⟩

section
variable {H α : Type}

/-- Ask the board, or let time pass. -/
def outside (f : H → α × H) : Driver H α :=
  update fun hat =>
    let (a, h) := f hat.outside
    .ok (a, { hat with outside := h })

/-- The value, or the error, of an operation on a pin. -/
def gpio (x : Except String α) : Driver H α :=
  lift (x.mapError fun e => .error (.gpio e))

/-- The value, or the error, of an operation on the bus. -/
def spi (x : Except String α) : Driver H α :=
  lift (x.mapError fun e => .error (.spi e))

/-- Run `x` and keep its error as a value.  A panic is none. -/
def attempt (x : Driver H α) : Driver H (Except RadioError α) := fun hat =>
  match x hat with
  | ⟨.ok a, hat, commits⟩ => ⟨.ok (.ok a), hat, commits⟩
  | ⟨.error (.error e), hat, commits⟩ => ⟨.ok (.error e), hat, commits⟩
  | ⟨.error .panicked, hat, commits⟩ => ⟨.error .panicked, hat, commits⟩

variable (board : Board H)

def sleep (duration : Nat) : Driver H Unit :=
  outside fun h => ((), board.sleep duration h)

/-- `OutputPin::set_high` and `OutputPin::set_low`. -/
def drive (pin : Pin) (level : Level) : Driver H Unit :=
  update fun hat => .ok ((), { hat with
    outside := board.setPin pin level hat.outside
    log := hat.log ++ [.drive pin level] })

/-- `Spi::transfer` into a buffer as long as `outgoing`. -/
def spiTransfer (outgoing : List UInt8) : Driver H (Except String Nat × List UInt8) :=
  update fun hat =>
    let ((result, reply), h) := board.transfer outgoing hat.outside
    let incoming := (List.range outgoing.length).map reply
    .ok ((result, incoming), { hat with
      outside := h
      log := hat.log ++ [.exchange ⟨outgoing, incoming⟩] })

end

/-! ### Waiting -/

/-- One second. -/
def busyTimeout : Nat := 10 ^ 9

/-- 100 microseconds. -/
def busyPollInterval : Nat := 100 * 10 ^ 3

section
variable {H : Type} (board : Board H)

/-- The loop of `wait_busy_low`.  Each round that does not end it sleeps, so the time that is left
until the deadline shrinks. -/
def awaitLow (deadline : Nat) (h : H) : Except (Fault RadioError) Unit × H :=
  match _hr : board.readBusy h with
  | (.low, h') => (.ok (), h')
  | (.high, h') =>
      if deadline ≤ board.instant h' then (.error (.error .busyTimeout), h')
      else awaitLow deadline (board.sleep busyPollInterval h')
termination_by deadline - board.instant h
decreasing_by
  have hread := board.instant_readBusy h
  have hsleep := board.instant_sleep busyPollInterval h'
  rw [_hr] at hread
  simp only [busyPollInterval] at hread hsleep ⊢
  omega

def awaitLowUntil (deadline : Nat) : Driver H Unit := fun hat =>
  let r := awaitLow board deadline hat.outside
  ⟨r.1, { hat with outside := r.2 }, []⟩

/-- `wait_busy_low`. -/
def waitBusyLow : Driver H Unit := fun hat =>
  awaitLowUntil board (board.instant hat.outside + busyTimeout) hat

end

end Vesta.Radio
