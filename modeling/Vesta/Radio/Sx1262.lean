import Vesta.Foundations.Layout
import Vesta.Listen.Live
import Vesta.Radio.Board

/-!
# Radio — Sx1262

The driver of `sx1262.rs`: the reset and the configuration of the radio, its readback, and the poll
for one event.
-/

namespace Vesta.Radio

open Journal (Prog)
open Journal.Prog (get lift update)
open Outcome (failIf)
open Receiver (RadioMetadata)
open Listen (RadioPacket)

/-! ### Commands -/

def opSetStandby : UInt8 := 0x80
def opSetRx : UInt8 := 0x82
def opSetPacketType : UInt8 := 0x8a
def opSetRfFrequency : UInt8 := 0x86
def opSetBufferBaseAddress : UInt8 := 0x8f
def opSetModulationParams : UInt8 := 0x8b
def opSetPacketParams : UInt8 := 0x8c
def opSetDioIrqParams : UInt8 := 0x08
def opGetIrqStatus : UInt8 := 0x12
def opClearIrqStatus : UInt8 := 0x02
def opGetRxBufferStatus : UInt8 := 0x13
def opGetPacketStatus : UInt8 := 0x14
def opGetStatus : UInt8 := 0xc0
def opGetPacketType : UInt8 := 0x11
def opGetDeviceErrors : UInt8 := 0x17
def opCalibrateImage : UInt8 := 0x98
def opSetRegulatorMode : UInt8 := 0x96
def opSetDio2AsRfSwitch : UInt8 := 0x9d
def opSetStopRxTimerOnPreamble : UInt8 := 0x9f
def opSetLoraSymbolTimeout : UInt8 := 0xa0
def opWriteRegister : UInt8 := 0x0d
def opReadRegister : UInt8 := 0x1d
def opReadBuffer : UInt8 := 0x1e

def packetTypeLora : UInt8 := 0x01
def standbyRc : UInt8 := 0x00
def regulatorLdo : UInt8 := 0x00
def rxContinuous : List UInt8 := [0xff, 0xff, 0xff]

def irqRxDone : UInt16 := 0x0002
def irqHeaderError : UInt16 := 0x0020
def irqCrcError : UInt16 := 0x0040
def irqRxTxTimeout : UInt16 := 0x0200
def irqTerminalMask : UInt16 := irqRxDone ||| irqHeaderError ||| irqCrcError ||| irqRxTxTimeout

def registerLoraSyncWord : UInt16 := 0x0740
def registerIqPolarity : UInt16 := 0x0736
def registerRxGain : UInt16 := 0x08ac
def privateSyncWord : List UInt8 := [0x14, 0x24]
def iqNormalMask : UInt8 := 0x04
def rxGainPowerSaving : UInt8 := 0x94

def rfFrequencyWord : UInt32 := 0x36419999

/-- 10 microseconds. -/
def nssSettleTime : Nat := 10 * 10 ^ 3

/-- `u16::from_be_bytes`. -/
def u16OfBe (bytes : List UInt8) : UInt16 := .ofNat (ofBe bytes)

/-! ### Events -/

/-- One terminal receive event reported by the SX1262. -/
inductive ReceiveEvent where
  | packet (packet : RadioPacket)
  | headerError (irq : UInt16)
  | crcError (irq : UInt16)
  | radioTimeout (irq : UInt16)
  | otherIrq (irq : UInt16)

inductive IrqKind where
  | headerError
  | crcError
  | packet
  | timeout
  | other
deriving DecidableEq

/-- `classify_irq`. -/
def classifyIrq (irq : UInt16) : IrqKind :=
  if irq &&& irqHeaderError ≠ 0 then .headerError
  else if irq &&& irqCrcError ≠ 0 then .crcError
  else if irq &&& irqRxDone ≠ 0 then .packet
  else if irq &&& irqRxTxTimeout ≠ 0 then .timeout
  else .other

/-- `check_status`. -/
def checkStatus (opcode status : UInt8) : Outcome RadioError Unit := do
  failIf (status = 0x00 ∨ status = 0xff) (.invalidStatus opcode status)
  failIf (status &&& 0x0e = 0x06 ∨ status &&& 0x0e = 0x08 ∨ status &&& 0x0e = 0x0a)
    (.commandRejected opcode status)

/-- `ensure_mode`. -/
def ensureMode (status expected : UInt8) : Outcome RadioError Unit :=
  failIf (status &&& 0x70 ≠ expected) (.unexpectedMode expected status)

/-- `decode_packet_status`. -/
def decodePacketStatus (raw₀ raw₁ raw₂ : UInt8) : RadioMetadata where
  packetRssiCentiDbm := -Int16.ofNat raw₀.toNat * 50
  snrCentiDb := Int16.ofInt raw₁.toInt8.toInt * 25
  signalRssiCentiDbm := -Int16.ofNat raw₂.toNat * 50

/-! ### Transactions -/

section
variable {H : Type} (board : Board H)

/-- The part of `transaction` from the edge of the chip select on. -/
def exchange (outgoing : List UInt8) : Driver H (List UInt8) := do
  drive board .nss .low
  sleep board nssSettleTime
  let (transferResult, incoming) ← spiTransfer board outgoing
  sleep board nssSettleTime
  drive board .nss .high
  let transferred ← spi transferResult
  lift (failIf (transferred ≠ outgoing.length) (.shortTransfer outgoing.length transferred))
  waitBusyLow board
  return incoming

/-- `transaction`. -/
def transaction (outgoing : List UInt8) : Driver H (List UInt8) := do
  waitBusyLow board
  exchange board outgoing

def command (bytes : List UInt8) : Driver H Unit := do
  let _ ← transaction board bytes

/-- `read_command`. -/
def readCommand (opcode : UInt8) (length : Nat) : Driver H (List UInt8) := do
  let received ← transaction board (opcode :: List.replicate (length + 1) 0)
  lift (checkStatus opcode (← lift (index received 1)))
  lift (sliceFrom received 2)

/-- `write_register`. -/
def writeRegister (address : UInt16) (data : List UInt8) : Driver H Unit :=
  command board (opWriteRegister :: Layout.u16.put address ++ data)

/-- `read_register`. -/
def readRegister (address : UInt16) (length : Nat) : Driver H (List UInt8) := do
  let received ← transaction board
    (opReadRegister :: Layout.u16.put address ++ List.replicate (length + 1) 0)
  lift (sliceFrom received 4)

/-- `read_buffer`. -/
def readBuffer (offset : UInt8) (length : Nat) : Driver H (List UInt8) := do
  let received ← transaction board (opReadBuffer :: offset :: List.replicate (length + 1) 0)
  lift (sliceFrom received 3)

/-- `get_status`. -/
def getStatus : Driver H UInt8 := do
  let received ← transaction board [opGetStatus, 0x00]
  let status ← lift (index received 1)
  lift (checkStatus opGetStatus status)
  return status

/-- `get_irq_status`. -/
def getIrqStatus : Driver H UInt16 := do
  let bytes ← readCommand board opGetIrqStatus 2
  return u16OfBe [← lift (index bytes 0), ← lift (index bytes 1)]

/-- `clear_all_irq`. -/
def clearAllIrq : Driver H Unit := command board [opClearIrqStatus, 0xff, 0xff]

/-- `enter_continuous_receive`. -/
def enterContinuousReceive : Driver H Unit := command board (opSetRx :: rxContinuous)

/-- `restart_receive`. -/
def restartReceive : Driver H Unit := do
  clearAllIrq board
  enterContinuousReceive board

/-! ### Opening -/

/-- `hardware_reset`. -/
def hardwareReset : Driver H Unit := do
  drive board .rfRx .high
  drive board .nss .high
  drive board .reset .high
  sleep board (10 * 10 ^ 6)
  drive board .reset .low
  sleep board (1 * 10 ^ 6)
  drive board .reset .high
  sleep board (10 * 10 ^ 6)
  waitBusyLow board
  let status ← getStatus board
  lift (ensureMode status 0x20)

/-- `verify_readback`. -/
def verifyReadback : Driver H Unit := do
  let packetType ← lift (index (← readCommand board opGetPacketType 1) 0)
  lift (failIf (packetType ≠ packetTypeLora) (.unexpectedPacketType packetType))
  let syncWordBytes ← readRegister board registerLoraSyncWord 2
  let syncWord := u16OfBe [← lift (index syncWordBytes 0), ← lift (index syncWordBytes 1)]
  lift (failIf (syncWord ≠ u16OfBe privateSyncWord) (.syncWordMismatch syncWord))
  let errorBytes ← readCommand board opGetDeviceErrors 2
  let errors := u16OfBe [← lift (index errorBytes 0), ← lift (index errorBytes 1)]
  lift (failIf (errors ≠ 0) (.deviceErrors errors))

/-- The part of `configure_receive` before the readback. -/
def writeConfiguration : Driver H Unit := do
  command board [opSetStandby, standbyRc]
  command board [opSetRegulatorMode, regulatorLdo]
  command board [opSetDio2AsRfSwitch, 0x01]
  command board [opSetPacketType, packetTypeLora]
  writeRegister board registerLoraSyncWord privateSyncWord
  command board [opSetBufferBaseAddress, 0x00, 0x00]
  command board [opCalibrateImage, 0xd7, 0xdb]
  command board (opSetRfFrequency :: Layout.u32.put rfFrequencyWord)
  -- SF7, BW125, CR4/5, low-data-rate optimization disabled
  command board [opSetModulationParams, 0x07, 0x04, 0x01, 0x00]
  -- preamble 8, explicit header, maximum payload, CRC, normal IQ
  command board [opSetPacketParams, 0x00, 0x08, 0x00, 0xff, 0x01, 0x00]
  let iqPolarity ← lift (index (← readRegister board registerIqPolarity 1) 0)
  writeRegister board registerIqPolarity [iqPolarity ||| iqNormalMask]
  writeRegister board registerRxGain [rxGainPowerSaving]
  command board [opSetStopRxTimerOnPreamble, 0x01]
  command board [opSetLoraSymbolTimeout, 0x00]
  command board (opSetDioIrqParams :: Layout.u16.put irqTerminalMask ++
    Layout.u16.put irqTerminalMask ++ [0x00, 0x00, 0x00, 0x00])

/-- `configure_receive`. -/
def configureReceive : Driver H Unit := do
  writeConfiguration board
  verifyReadback board
  gpio (← outside board.setInterrupt)
  let _ ← gpio (← outside (board.pollInterrupt true 0))
  clearAllIrq board
  enterContinuousReceive board

/-- `Drop::drop`. -/
def dropHat : Driver H Unit := do
  if (← get).initialized then
    let _ ← attempt (command board [opSetStandby, standbyRc])
  drive board .nss .high
  drive board .reset .high
  drive board .rfRx .high

/-- `Gpio::get` and `Pin::into_output_high`. -/
def claimHigh (pin : Pin) : Driver H Unit := do
  gpio (← outside (board.claimOutput pin))
  drive board pin .high

/-- The part of `open` that claims the pins and the bus. -/
def claimPins : Driver H Unit := do
  gpio (← outside board.openGpio)
  claimHigh board .rfRx
  claimHigh board .reset
  claimHigh board .nss
  gpio (← outside board.claimInputs)
  spi (← outside board.openSpi)

/-- The part of `open` after the pins were claimed. -/
def startUp : Driver H Unit := do
  hardwareReset board
  update fun hat => .ok ((), { hat with initialized := true })
  configureReceive board

/-- `open`.  A controller that could not be started is dropped. -/
def openHat : Driver H Unit := do
  claimPins board
  (startUp board).orElse fun e => do
    dropHat board
    lift (.error e)

/-! ### Receiving -/

/-- `read_packet`. -/
def readPacket : Driver H RadioPacket := do
  let bufferStatus ← readCommand board opGetRxBufferStatus 2
  let payloadLength := (← lift (index bufferStatus 0)).toNat
  let offset ← lift (index bufferStatus 1)
  let payload ← readBuffer board offset payloadLength
  let packetStatus ← readCommand board opGetPacketStatus 3
  return ⟨payload, decodePacketStatus (← lift (index packetStatus 0))
    (← lift (index packetStatus 1)) (← lift (index packetStatus 2))⟩

/-- The event of an interrupt. -/
def eventOf (irq : UInt16) : Driver H ReceiveEvent :=
  match classifyIrq irq with
  | .headerError => return .headerError irq
  | .crcError => return .crcError irq
  | .packet => do return .packet (← readPacket board)
  | .timeout => return .radioTimeout irq
  | .other => return .otherIrq irq

/-- Whether there is an interrupt within the time. -/
def interrupted (timeout : Nat) : Driver H Bool := do
  if (← outside board.readDio1) = .high then return true
  else gpio (← outside (board.pollInterrupt false timeout))

/-- `poll_receive`. -/
def pollReceive (timeout : Nat) : Driver H (Option ReceiveEvent) := do
  if !(← interrupted board timeout) then return none
  let irq ← getIrqStatus board
  let eventResult ← attempt (eventOf board irq)
  let restartResult ← attempt (restartReceive board)
  let event ← lift (eventResult.mapError .error)
  lift (restartResult.mapError .error)
  return some event

end

end Vesta.Radio
