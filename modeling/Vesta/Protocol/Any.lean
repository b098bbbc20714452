import Vesta.Protocol.Encode
import Vesta.Protocol.Decode

/-!
# Protocol — Any

The fixed-size frames of protocol v1, and `decodeAny`, which selects the version by the byte
after the magic.

`TelemetryV1.layout` is the layout of a v1 frame.  `encode` copies its fields one after the other
into a zeroed buffer, and `decode` reads each at its offset; both are the two directions of the
layout, after the magic and the version (`encode_eq`, `decode_eq_ok`).
-/

namespace Vesta.Protocol

open Outcome (failIf)

/-! ### Version 1 -/

def frameLen : Nat := 48
def version : UInt8 := 1

structure Temperature where
  centiCelsius : Int16
deriving DecidableEq, Repr

structure Pressure where
  pascals : UInt32
deriving DecidableEq, Repr

structure RelativeHumidity where
  milliPercentRh : UInt32
deriving DecidableEq, Repr

structure GasResistance where
  ohms : UInt32
deriving DecidableEq, Repr

structure Bme68xStatus where
  bits : UInt8
deriving DecidableEq, Repr

namespace Bme68xStatus

def newData : UInt8 := 0x80
def gasMeasurementValid : UInt8 := 0x20
def heaterStable : UInt8 := 0x10
def knownMask : UInt8 := newData ||| gasMeasurementValid ||| heaterStable

def isNewData (s : Bme68xStatus) : Bool := s.bits &&& newData ≠ 0
def isGasMeasurementValid (s : Bme68xStatus) : Bool := s.bits &&& gasMeasurementValid ≠ 0
def isHeaterStable (s : Bme68xStatus) : Bool := s.bits &&& heaterStable ≠ 0
def unknownBits (s : Bme68xStatus) : UInt8 := s.bits &&& ~~~knownMask

end Bme68xStatus

/-- Compensated environmental values emitted by the sensor driver. -/
structure CompensatedReadings where
  temperature : Temperature
  pressure : Pressure
  humidity : RelativeHumidity
  gasResistance : GasResistance
deriving DecidableEq, Repr

/-- Uncompensated channels and measurement metadata. -/
structure RawReadings where
  temperatureAdc : UInt32
  pressureAdc : UInt32
  humidityAdc : UInt16
  gasResistanceAdc : UInt16
  gasRange : UInt8
  gasIndex : UInt8
  measurementIndex : UInt8
  heaterResistance : UInt8
  heaterCurrent : UInt8
  gasWait : UInt8
deriving DecidableEq, Repr

/-- Fully decoded version 1 frame. -/
structure TelemetryV1 where
  sensorStatus : Bme68xStatus
  nodeId : UInt64
  sequence : UInt32
  compensated : CompensatedReadings
  raw : RawReadings
deriving DecidableEq, Repr

inductive DecodeError where
  | wrongLength (expected actual : Nat)
  | invalidMagic (found : UInt8 × UInt8)
  | unsupportedVersion (found : UInt8)
deriving DecidableEq, Repr

/-- `read_u16`, `read_i16`, `read_u32` and `read_u64`: the bytes of one layout at an offset. -/
def readAt {ε α : Type} (L : Layout α) (bytes : List UInt8) (offset : Nat) : Outcome ε α := do
  return L.get (← slice bytes offset (offset + L.width))

/-- `frame[offset..][..bytes.len()].copy_from_slice(bytes)`. -/
def copyAt (frame : List UInt8) (offset : Nat) (bytes : List UInt8) : List UInt8 :=
  frame.take offset ++ bytes ++ frame.drop (offset + bytes.length)

namespace TelemetryV1

def decode (bytes : List UInt8) : Outcome DecodeError TelemetryV1 := do
  failIf (bytes.length ≠ frameLen) (.wrongLength frameLen bytes.length)
  let foundMagic := (← index bytes 0, ← index bytes 1)
  failIf (foundMagic ≠ magic) (.invalidMagic foundMagic)
  let found ← index bytes 2
  failIf (found ≠ version) (.unsupportedVersion found)
  let sensorStatus ← index bytes 3
  let nodeId ← readAt .u64 bytes 4
  let sequence ← readAt .u32 bytes 12
  let temperature ← readAt .i16 bytes 16
  let pressure ← readAt .u32 bytes 18
  let humidity ← readAt .u32 bytes 22
  let gasResistance ← readAt .u32 bytes 26
  let temperatureAdc ← readAt .u32 bytes 30
  let pressureAdc ← readAt .u32 bytes 34
  let humidityAdc ← readAt .u16 bytes 38
  let gasResistanceAdc ← readAt .u16 bytes 40
  let gasRange ← index bytes 42
  let gasIndex ← index bytes 43
  let measurementIndex ← index bytes 44
  let heaterResistance ← index bytes 45
  let heaterCurrent ← index bytes 46
  let gasWait ← index bytes 47
  return {
    sensorStatus := ⟨sensorStatus⟩, nodeId, sequence,
    compensated := ⟨⟨temperature⟩, ⟨pressure⟩, ⟨humidity⟩, ⟨gasResistance⟩⟩,
    raw := {
      temperatureAdc, pressureAdc, humidityAdc, gasResistanceAdc, gasRange, gasIndex,
      measurementIndex, heaterResistance, heaterCurrent, gasWait } }

def encode (f : TelemetryV1) : List UInt8 :=
  let frame := List.replicate frameLen 0
  let frame := copyAt frame 0 [magic.1, magic.2]
  let frame := copyAt frame 2 [version]
  let frame := copyAt frame 3 [f.sensorStatus.bits]
  let frame := copyAt frame 4 (Layout.u64.put f.nodeId)
  let frame := copyAt frame 12 (Layout.u32.put f.sequence)
  let frame := copyAt frame 16 (Layout.i16.put f.compensated.temperature.centiCelsius)
  let frame := copyAt frame 18 (Layout.u32.put f.compensated.pressure.pascals)
  let frame := copyAt frame 22 (Layout.u32.put f.compensated.humidity.milliPercentRh)
  let frame := copyAt frame 26 (Layout.u32.put f.compensated.gasResistance.ohms)
  let frame := copyAt frame 30 (Layout.u32.put f.raw.temperatureAdc)
  let frame := copyAt frame 34 (Layout.u32.put f.raw.pressureAdc)
  let frame := copyAt frame 38 (Layout.u16.put f.raw.humidityAdc)
  let frame := copyAt frame 40 (Layout.u16.put f.raw.gasResistanceAdc)
  let frame := copyAt frame 42 [f.raw.gasRange]
  let frame := copyAt frame 43 [f.raw.gasIndex]
  let frame := copyAt frame 44 [f.raw.measurementIndex]
  let frame := copyAt frame 45 [f.raw.heaterResistance]
  let frame := copyAt frame 46 [f.raw.heaterCurrent]
  copyAt frame 47 [f.raw.gasWait]

end TelemetryV1

/-! ### Either version -/

/-- A decoded frame selected by its on-wire version byte. -/
inductive DecodedTelemetry where
  | v1 (frame : TelemetryV1)
  | v2 (frame : DecodedFrame)
deriving DecidableEq

inductive ProtocolDecodeError where
  | truncatedDiscriminator (actual : Nat)
  | invalidMagic (found : UInt8 × UInt8)
  | unsupportedVersion (found : UInt8)
  | v1 (error : DecodeError)
  | v2 (error : Error)
deriving DecidableEq, Repr

/-- Decode either supported protocol version without guessing from length. -/
def decodeAny (bytes : List UInt8) : Outcome ProtocolDecodeError DecodedTelemetry := do
  failIf (bytes.length < 3) (.truncatedDiscriminator bytes.length)
  let foundMagic := (← index bytes 0, ← index bytes 1)
  failIf (foundMagic ≠ magic) (.invalidMagic foundMagic)
  let found ← index bytes 2
  if found = version then
    return .v1 (← Outcome.mapErr .v1 (TelemetryV1.decode bytes))
  else if found = versionV2 then
    return .v2 (← Outcome.mapErr .v2 (decode bytes))
  else Outcome.fail (.unsupportedVersion found)

/-! ### The layout of version 1 -/

section
variable {ε α β γ : Type} (A : Layout α) (B : Layout γ) (p : α × γ)

/-- A read past the first part of a pair is a read of the second part. -/
theorem readAt_seq (L : Layout β) {offset : Nat} (h : A.width ≤ offset) :
    (readAt L ((A.seq B).put p) offset : Outcome ε β) =
      readAt L (B.put p.2) (offset - A.width) := by
  obtain ⟨k, rfl⟩ := Nat.exists_eq_add_of_le h
  have hd : ((A.seq B).put p).drop (A.width + k) = (B.put p.2).drop k := by
    show (A.put p.1 ++ B.put p.2).drop (A.width + k) = _
    rw [← A.length_put p.1, List.drop_length_add_append]
  have hl : ((A.seq B).put p).length = A.width + (B.put p.2).length := by simp
  have hw : A.width + (k + L.width) - (A.width + k) = L.width := by omega
  simp only [readAt, slice, hd, hl, hw, Nat.add_sub_cancel_left, Nat.add_assoc,
    Nat.add_le_add_iff_left]

theorem readAt_seq_zero : (readAt A ((A.seq B).put p) 0 : Outcome ε α) = .ok p.1 := by
  rw [readAt, Nat.zero_add]
  show (slice (A.put p.1 ++ B.put p.2) 0 A.width >>= _) = _
  rw [slice_append (A.length_put _)]
  simp

theorem index_seq {offset : Nat} (h : A.width ≤ offset) :
    (index ((A.seq B).put p) offset : Outcome ε UInt8) =
      index (B.put p.2) (offset - A.width) := by
  have he : ((A.seq B).put p)[offset]? = (B.put p.2)[offset - A.width]? := by
    show (A.put p.1 ++ B.put p.2)[offset]? = _
    rw [List.getElem?_append_right (by rwa [A.length_put]), A.length_put]
  simp only [index, he]

theorem index_u8_seq_zero (q : UInt8 × γ) :
    (index ((Layout.u8.seq B).put q) 0 : Outcome ε UInt8) = .ok q.1 := by
  have he : (Layout.u8.seq B).put q = q.1 :: B.put q.2 := by
    show Layout.u8.put q.1 ++ _ = _
    rw [Layout.put_u8]
    rfl
  rw [he]
  rfl

theorem index_u8_zero (x : UInt8) : (index (Layout.u8.put x) 0 : Outcome ε UInt8) = .ok x := by
  rw [Layout.put_u8]
  rfl

end

namespace TelemetryV1

/-- The fields of a v1 frame, the magic and the version included. -/
def layout : Layout (UInt8 × UInt8 × UInt8 × UInt8 × UInt64 × UInt32 × Int16 × UInt32 × UInt32 ×
    UInt32 × UInt32 × UInt32 × UInt16 × UInt16 × UInt8 × UInt8 × UInt8 × UInt8 × UInt8 × UInt8) :=
  .seq .u8 <| .seq .u8 <| .seq .u8 <| .seq .u8 <| .seq .u64 <| .seq .u32 <| .seq .i16 <|
  .seq .u32 <| .seq .u32 <| .seq .u32 <| .seq .u32 <| .seq .u32 <| .seq .u16 <| .seq .u16 <|
  .seq .u8 <| .seq .u8 <| .seq .u8 <| .seq .u8 <| .seq .u8 .u8

theorem width_layout : layout.width = frameLen := rfl

/-- The bytes of a v1 frame. -/
def bytes (f : TelemetryV1) : List UInt8 :=
  layout.put (magic.1, magic.2, version, f.sensorStatus.bits, f.nodeId, f.sequence,
    f.compensated.temperature.centiCelsius, f.compensated.pressure.pascals,
    f.compensated.humidity.milliPercentRh, f.compensated.gasResistance.ohms,
    f.raw.temperatureAdc, f.raw.pressureAdc, f.raw.humidityAdc, f.raw.gasResistanceAdc,
    f.raw.gasRange, f.raw.gasIndex, f.raw.measurementIndex, f.raw.heaterResistance,
    f.raw.heaterCurrent, f.raw.gasWait)

/-- A copy right after the bytes already written. -/
theorem copyAt_replicate {pre bytes : List UInt8} {offset n : Nat} (h : pre.length = offset) :
    copyAt (pre ++ List.replicate n 0) offset bytes =
      (pre ++ bytes) ++ List.replicate (n - bytes.length) 0 := by
  subst h
  rw [copyAt, List.take_left, List.drop_length_add_append, List.drop_replicate]

theorem encode_eq (f : TelemetryV1) : f.encode = f.bytes := by
  have h0 : List.replicate frameLen (0 : UInt8) = [] ++ List.replicate 48 0 := rfl
  simp only [encode, h0]
  simp (disch := simp [frameLen]) only [copyAt_replicate, Layout.length_put, Layout.width_u64,
    Layout.width_u32, Layout.width_i16, Layout.width_u16, List.length_cons, List.length_nil,
    Nat.reduceAdd, Nat.reduceSub]
  simp only [bytes, layout, Layout.seq, Layout.put_u8, List.replicate_zero, List.append_nil,
    List.nil_append, List.append_assoc, List.cons_append]

theorem decode_put {m₀ m₁ v s : UInt8} {node : UInt64} {seq : UInt32} {t : Int16}
    {p h g ta pa : UInt32} {ha ga : UInt16} {r gi mi hr hc gw : UInt8} {f : TelemetryV1} :
    decode (layout.put
        (m₀, m₁, v, s, node, seq, t, p, h, g, ta, pa, ha, ga, r, gi, mi, hr, hc, gw)) = .ok f ↔
      (m₀, m₁) = magic ∧ v = version ∧
        f = ⟨⟨s⟩, node, seq, ⟨⟨t⟩, ⟨p⟩, ⟨h⟩, ⟨g⟩⟩, ⟨ta, pa, ha, ga, r, gi, mi, hr, hc, gw⟩⟩ := by
  rw [decode, Outcome.failIf_neg (by simp [width_layout])]
  simp (disch := decide) only [layout, index_seq, readAt_seq, readAt_seq_zero, index_u8_seq_zero,
    index_u8_zero, Layout.width_u8, Layout.width_u64, Layout.width_u32, Layout.width_i16,
    Layout.width_u16, Nat.reduceSub, Outcome.ok_bind, Outcome.unit_bind_eq_ok,
    Outcome.failIf_eq_ok, Outcome.pure_eq_ok, Except.ok.injEq, ne_eq, not_not, eq_comm (a := f)]

/-- The frames that decode are the encodings. -/
theorem decode_eq_ok {b : List UInt8} {f : TelemetryV1} : decode b = .ok f ↔ b = f.encode := by
  rw [encode_eq]
  constructor
  · intro hd
    have hlen : b.length = frameLen := by
      by_contra hne
      rw [decode, Outcome.failIf_pos hne] at hd
      cases hd
    obtain ⟨⟨m₀, m₁, v, s, node, seq, t, p, h, g, ta, pa, ha, ga, r, gi, mi, hr, hc, gw⟩, rfl⟩ :=
      layout.exists_put b hlen
    obtain ⟨hm, rfl, rfl⟩ := decode_put.mp hd
    obtain ⟨rfl, rfl⟩ := Prod.mk.injEq .. ▸ hm
    rfl
  · rintro rfl
    exact decode_put.mpr ⟨rfl, rfl, rfl⟩

end TelemetryV1

end Vesta.Protocol
