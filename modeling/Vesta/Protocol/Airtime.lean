import Vesta.Foundations.Rounding
import Vesta.Protocol.Records

/-!
# Protocol — Airtime

How long one packet occupies the air.  `loraTimeOnAirUs` is the receiver's calculation, in `u64`
and `i64` with every operation checked; `Transmission.airtime` is the duration in seconds as an
exact rational.  The calculation never overflows and returns the duration in microseconds, rounded
up (`loraTimeOnAirUs_exact`).

A larger spreading factor or a narrower band makes a symbol longer and the payload fewer symbols.
The symbols win: doubling the symbol at worst halves the coded blocks (`blocks_le_two_mul`), also
where the longer symbol switches low-data-rate optimization on and the blocks shrink back.
-/

namespace Vesta.Protocol

open Outcome (failIf failIf_neg)

/-! ### The calculation -/

namespace LoraTimeOnAir

/-- `symbol_numerator`: one symbol, in microseconds times the bandwidth. -/
def symbolNumerator (spreadingFactor : UInt8) : Result Nat := do
  fitU64 ((← bitU64 spreadingFactor.toNat) * 1_000_000)

/-- `low_data_rate_optimization`: a symbol of `symbolNumerator / bandwidthHz` microseconds. -/
def lowDataRateOptimization (symbolNumerator : Nat) (bandwidthHz : UInt32) : Result Bool := do
  let limit ← fitU64 (16_000 * bandwidthHz.toNat)
  return limit ≤ symbolNumerator

/-- `numerator` of the payload-symbol equation. -/
def numerator (payloadLen : Nat) (spreadingFactor : UInt8) (explicitHeader crcEnabled : Bool) :
    Result Int := do
  let ih : Int := if explicitHeader then 0 else 1
  let crc : Int := if crcEnabled then 1 else 0
  let n ← fitI64 (8 * (← tryI64 payloadLen (.frameTooLong payloadLen)))
  let n ← fitI64 (n - (← fitI64 (4 * (spreadingFactor.toNat : Int))))
  let n ← fitI64 (n + 28)
  let n ← fitI64 (n + (← fitI64 (16 * crc)))
  fitI64 (n - (← fitI64 (20 * ih)))

/-- `denominator` of the payload-symbol equation. -/
def denominator (spreadingFactor : UInt8) (lowDataRateOptimization : Bool) : Result Int := do
  let de : Int := if lowDataRateOptimization then 1 else 0
  let reduced ← fitI64 ((spreadingFactor.toNat : Int) - (← fitI64 (2 * de)))
  fitI64 (4 * reduced)

/-- `coded_blocks`. -/
def codedBlocks (numerator denominator : Int) : Result Int := do
  if numerator ≤ 0 then
    return 0
  else
    divI64 (← fitI64 ((← fitI64 (numerator + denominator)) - 1)) denominator

end LoraTimeOnAir

open LoraTimeOnAir in
/-- Exact `LoRa` packet duration rounded up to the next microsecond. -/
def loraTimeOnAirUs (payloadLen : Nat) (spreadingFactor : UInt8) (bandwidthHz : UInt32)
    (codingRateDenominator : UInt8) (preambleSymbols : UInt16)
    (explicitHeader crcEnabled : Bool) : Result Nat := do
  failIf (payloadLen > maxPhyFrameLen) (.frameTooLong payloadLen)
  failIf (¬ (5 ≤ spreadingFactor ∧ spreadingFactor ≤ 12)) (.invalidField "spreading_factor")
  failIf (bandwidthHz = 0) (.invalidField "bandwidth_hz")
  failIf (¬ (5 ≤ codingRateDenominator ∧ codingRateDenominator ≤ 8))
    (.invalidField "coding_rate_denominator")
  let symbolNumerator ← symbolNumerator spreadingFactor
  let de ← lowDataRateOptimization symbolNumerator bandwidthHz
  let numerator ← numerator payloadLen spreadingFactor explicitHeader crcEnabled
  let denominator ← denominator spreadingFactor de
  let codedBlocks ← codedBlocks numerator denominator
  let codedBlocks ← tryU64 codedBlocks (.invalidField "coded_blocks")
  let payloadSymbols ← fitU64 (8 + (← fitU64 (codedBlocks * codingRateDenominator.toNat)))
  let symbols ← fitU64 (preambleSymbols.toNat + payloadSymbols)
  let totalQuarterSymbols ← fitU64 ((← fitU64 (4 * symbols)) + 17)
  let airtimeNumerator ← fitU64 (totalQuarterSymbols * symbolNumerator)
  let airtimeDenominator ← fitU64 (4 * bandwidthHz.toNat)
  divCeilU64 airtimeNumerator airtimeDenominator

/-! ### The duration -/

/-- One packet and the radio parameters it is sent with. -/
structure Transmission where
  payloadLen : Nat
  spreadingFactor : UInt8
  bandwidthHz : UInt32
  codingRateDenominator : UInt8
  preambleSymbols : UInt16
  explicitHeader : Bool
  crcEnabled : Bool

namespace Transmission

/-- The radio can send it. -/
structure Supported (t : Transmission) : Prop where
  payload : t.payloadLen ≤ maxPhyFrameLen
  spreading : 5 ≤ t.spreadingFactor ∧ t.spreadingFactor ≤ 12
  bandwidth : t.bandwidthHz ≠ 0
  coding : 5 ≤ t.codingRateDenominator ∧ t.codingRateDenominator ≤ 8

/-- The duration the receiver calculates. -/
def timeOnAirUs (t : Transmission) : Result Nat :=
  loraTimeOnAirUs t.payloadLen t.spreadingFactor t.bandwidthHz t.codingRateDenominator
    t.preambleSymbols t.explicitHeader t.crcEnabled

/-- One symbol, in seconds. -/
def symbolTime (t : Transmission) : ℚ := 2 ^ t.spreadingFactor.toNat / t.bandwidthHz.toNat

/-- `DE`: one symbol lasts at least 16 ms. -/
def de (t : Transmission) : ℤ := if 16 / 1000 ≤ t.symbolTime then 1 else 0

/-- `CRC`. -/
def crc (t : Transmission) : ℤ := if t.crcEnabled then 1 else 0

/-- `IH`. -/
def ih (t : Transmission) : ℤ := if t.explicitHeader then 0 else 1

/-- `8 PL - 4 SF + 28 + 16 CRC - 20 IH`. -/
def payloadBits (t : Transmission) : ℤ :=
  8 * t.payloadLen - 4 * t.spreadingFactor.toNat + 28 + 16 * t.crc - 20 * t.ih

/-- `4 (SF - 2 DE)`. -/
def blockBits (t : Transmission) : ℤ := 4 * (t.spreadingFactor.toNat - 2 * t.de)

/-- The symbols of the packet. -/
def symbols (t : Transmission) : ℚ :=
  t.preambleSymbols.toNat + 4.25 + 8
    + t.codingRateDenominator.toNat * (max 0 ⌈(t.payloadBits : ℚ) / t.blockBits⌉ : ℤ)

/-- The duration of the packet, in seconds. -/
def airtime (t : Transmission) : ℚ := t.symbols * t.symbolTime

theorem symbols_eq (t : Transmission) :
    t.symbols = t.preambleSymbols.toNat + 4.25 + 8
      + t.codingRateDenominator.toNat * (blocks t.payloadBits t.blockBits : ℤ) := rfl

theorem symbols_nonneg (t : Transmission) : 0 ≤ t.symbols := by
  have hblocks : (0 : ℚ) ≤ (blocks t.payloadBits t.blockBits : ℤ) :=
    Int.cast_nonneg (blocks_nonneg _ _)
  rw [symbols_eq]
  positivity

/-! ### Ranges -/

theorem crc_eq (t : Transmission) : t.crc = if t.crcEnabled then 1 else 0 := rfl

theorem ih_eq (t : Transmission) : t.ih = if t.explicitHeader then 0 else 1 := rfl

theorem de_eq (t : Transmission) : t.de = if 16 / 1000 ≤ t.symbolTime then 1 else 0 := rfl

theorem crc_range (t : Transmission) : 0 ≤ t.crc ∧ t.crc ≤ 1 := by
  unfold crc
  split <;> decide

theorem ih_range (t : Transmission) : 0 ≤ t.ih ∧ t.ih ≤ 1 := by
  unfold ih
  split <;> decide

theorem de_range (t : Transmission) : 0 ≤ t.de ∧ t.de ≤ 1 := by
  unfold de
  split <;> decide

/-- A longer symbol does not switch the optimization off. -/
theorem de_mono {t t' : Transmission} (h : t.symbolTime ≤ t'.symbolTime) : t.de ≤ t'.de := by
  unfold de
  split
  next hde => rw [if_pos (hde.trans h)]
  next => split <;> decide

namespace Supported

variable {t : Transmission} (h : t.Supported)
include h

theorem spreading_range : 5 ≤ t.spreadingFactor.toNat ∧ t.spreadingFactor.toNat ≤ 12 :=
  ⟨UInt8.le_iff_toNat_le.mp h.spreading.1, UInt8.le_iff_toNat_le.mp h.spreading.2⟩

theorem coding_range :
    5 ≤ t.codingRateDenominator.toNat ∧ t.codingRateDenominator.toNat ≤ 8 :=
  ⟨UInt8.le_iff_toNat_le.mp h.coding.1, UInt8.le_iff_toNat_le.mp h.coding.2⟩

theorem bandwidth_pos : 0 < t.bandwidthHz.toNat :=
  Nat.pos_of_ne_zero fun hz => h.bandwidth (UInt32.toNat_inj.mp hz)

theorem symbolTime_pos : 0 < t.symbolTime :=
  div_pos (by positivity) (Nat.cast_pos.mpr h.bandwidth_pos)

theorem blockBits_range : 12 ≤ t.blockBits ∧ t.blockBits ≤ 48 := by
  have hsf := h.spreading_range
  have hde := t.de_range
  unfold blockBits
  omega

theorem payloadBits_range : -40 ≤ t.payloadBits ∧ t.payloadBits ≤ 2064 := by
  have hlen : t.payloadLen ≤ 255 := h.payload
  have hsf := h.spreading_range
  have hcrc := t.crc_range
  have hih := t.ih_range
  unfold payloadBits
  omega

theorem blocks_le : blocks t.payloadBits t.blockBits ≤ 172 := by
  have hblock := h.blockBits_range
  have hbits := h.payloadBits_range
  refine (blocks_le_iff (by omega) (by omega)).mpr ?_
  omega

end Supported

/-! ### Longer packets -/

/-- `t` with the next spreading factor. -/
def spread (t : Transmission) : Transmission :=
  { t with spreadingFactor := t.spreadingFactor + 1 }

/-- `t` with one parameter changed so that the packet takes longer. -/
inductive Longer (t : Transmission) : Transmission → Prop where
  | payload (len : Nat) (h : t.payloadLen ≤ len) : Longer t { t with payloadLen := len }
  | preamble (n : UInt16) (h : t.preambleSymbols ≤ n) : Longer t { t with preambleSymbols := n }
  | coding (cr : UInt8) (h : t.codingRateDenominator ≤ cr) :
      Longer t { t with codingRateDenominator := cr }
  | spreading : Longer t t.spread
  | bandwidth (bw : UInt32) (h : bw ≤ t.bandwidthHz) : Longer t { t with bandwidthHz := bw }

section
variable {t t' : Transmission}

/-- More symbols of the same length. -/
theorem airtime_le_of_symbols (h : t.Supported) (hs : t.symbols ≤ t'.symbols)
    (ht : t'.symbolTime = t.symbolTime) : t.airtime ≤ t'.airtime := by
  rw [airtime, airtime, ht]
  exact mul_le_mul_of_nonneg_right hs h.symbolTime_pos.le

/-- At an equal coding rate the symbols are ordered as the coded blocks. -/
theorem symbols_le_of_blocks (hpre : t'.preambleSymbols = t.preambleSymbols)
    (hcr : t'.codingRateDenominator = t.codingRateDenominator)
    (hblocks : blocks t.payloadBits t.blockBits ≤ blocks t'.payloadBits t'.blockBits) :
    t.symbols ≤ t'.symbols := by
  rw [symbols_eq, symbols_eq, hpre, hcr]
  have hmul := mul_le_mul_of_nonneg_left (Int.cast_le (R := ℚ).mpr hblocks)
    (Nat.cast_nonneg (α := ℚ) t.codingRateDenominator.toNat)
  linarith

theorem spreadingFactor_spread (h : t.Supported) :
    t.spread.spreadingFactor.toNat = t.spreadingFactor.toNat + 1 := by
  have hsf := h.spreading_range
  show (t.spreadingFactor + 1).toNat = _
  rw [UInt8.toNat_add]
  exact Nat.mod_eq_of_lt (by show _ + 1 < _; omega)

/-- One more bit a symbol doubles the symbol. -/
theorem symbolTime_spread (h : t.Supported) : t.spread.symbolTime = 2 * t.symbolTime := by
  unfold symbolTime
  rw [spreadingFactor_spread h, pow_succ]
  show _ / (t.bandwidthHz.toNat : ℚ) = _
  ring

/-- Blocks half as many at best, whatever the optimization does to them. -/
theorem blocks_spread (h : t.Supported) (h' : t.spread.Supported) :
    blocks t.payloadBits t.blockBits
      ≤ 2 * blocks t.spread.payloadBits t.spread.blockBits + 1 := by
  have hsf := spreadingFactor_spread h
  have hblock := h.blockBits_range
  have hblock' := h'.blockBits_range
  have hde : t.de ≤ t.spread.de := by
    have htime := h.symbolTime_pos
    refine de_mono ?_
    rw [symbolTime_spread h]
    linarith
  have hgrow : t.spread.blockBits ≤ t.blockBits + 4 := by
    simp only [blockBits, hsf]
    omega
  have hshrink : t.payloadBits ≤ t.spread.payloadBits + 4 := by
    simp only [payloadBits, hsf]
    show _ ≤ 8 * (t.payloadLen : ℤ) - 4 * ((t.spreadingFactor.toNat + 1 : ℕ) : ℤ) + 28
      + 16 * t.crc - 20 * t.ih + 4
    omega
  exact blocks_le_two_mul (by omega) (by omega) (by omega) hgrow hshrink

/-- Twice as long a symbol outweighs the symbols it saves. -/
theorem symbols_spread (h : t.Supported) (h' : t.spread.Supported) :
    t.symbols ≤ 2 * t.spread.symbols := by
  have hblocks : (blocks t.payloadBits t.blockBits : ℚ)
      ≤ 2 * blocks t.spread.payloadBits t.spread.blockBits + 1 := by
    exact_mod_cast blocks_spread h h'
  have hmul := mul_le_mul_of_nonneg_left hblocks
    (Nat.cast_nonneg (α := ℚ) t.codingRateDenominator.toNat)
  have hcr : (t.codingRateDenominator.toNat : ℚ) ≤ 8 := by exact_mod_cast h.coding_range.2
  have hpre : (0 : ℚ) ≤ t.preambleSymbols.toNat := Nat.cast_nonneg _
  rw [symbols_eq, symbols_eq]
  show _ ≤ 2 * ((t.preambleSymbols.toNat : ℚ) + 4.25 + 8 + t.codingRateDenominator.toNat * _)
  linarith

/-- A change of one parameter for the longer makes the packet no shorter. -/
theorem Longer.airtime_le (hl : Longer t t') (h : t.Supported) (h' : t'.Supported) :
    t.airtime ≤ t'.airtime := by
  have hblock := h.blockBits_range
  cases hl with
  | payload len hlen =>
      refine airtime_le_of_symbols h (symbols_le_of_blocks rfl rfl ?_) rfl
      refine blocks_mono (by omega) ?_
      simp only [payloadBits, crc, ih]
      omega
  | preamble n hn =>
      refine airtime_le_of_symbols h ?_ rfl
      have hn : (t.preambleSymbols.toNat : ℚ) ≤ n.toNat :=
        Nat.cast_le.mpr (UInt16.le_iff_toNat_le.mp hn)
      exact add_le_add_left (add_le_add_left (add_le_add_left hn _) _) _
  | coding cr hcr =>
      refine airtime_le_of_symbols h ?_ rfl
      have hcr : (t.codingRateDenominator.toNat : ℚ) ≤ cr.toNat :=
        Nat.cast_le.mpr (UInt8.le_iff_toNat_le.mp hcr)
      have hblocks : (0 : ℚ) ≤ (blocks t.payloadBits t.blockBits : ℤ) :=
        Int.cast_nonneg (blocks_nonneg _ _)
      exact add_le_add_right (mul_le_mul_of_nonneg_right hcr hblocks) _
  -- a longer symbol, though there may be fewer of them
  | spreading =>
      rw [airtime, airtime, symbolTime_spread h, mul_left_comm, ← mul_assoc]
      exact mul_le_mul_of_nonneg_right (symbols_spread h h') h.symbolTime_pos.le
  | bandwidth bw hbw =>
      have hbw : (bw.toNat : ℚ) ≤ t.bandwidthHz.toNat :=
        Nat.cast_le.mpr (UInt32.le_iff_toNat_le.mp hbw)
      have htime : t.symbolTime ≤ { t with bandwidthHz := bw }.symbolTime :=
        div_le_div_of_nonneg_left (by positivity) (Nat.cast_pos.mpr h'.bandwidth_pos) hbw
      have hblock' := h'.blockBits_range
      refine mul_le_mul (symbols_le_of_blocks rfl rfl ?_) htime h.symbolTime_pos.le
        (symbols_nonneg _)
      refine blocks_anti (by omega) ?_
      -- a longer symbol may turn on the optimization, which makes blocks shorter
      have hde := de_mono htime
      simp only [blockBits]
      omega

end

/-! ### The calculation is exact -/

open LoraTimeOnAir

section
variable {t : Transmission} (h : t.Supported)
include h

theorem symbolNumerator_eq :
    symbolNumerator t.spreadingFactor = .ok (2 ^ t.spreadingFactor.toNat * 1_000_000) := by
  have hsf := h.spreading_range.2
  have hpow : 2 ^ t.spreadingFactor.toNat ≤ 2 ^ 12 := Nat.pow_le_pow_right (by omega) hsf
  rw [symbolNumerator, bitU64_eq (by omega), Outcome.ok_bind, fitU64_eq (by omega)]

/-- The optimization is switched on exactly when a symbol lasts 16 ms. -/
theorem lowDataRateOptimization_eq :
    lowDataRateOptimization (2 ^ t.spreadingFactor.toNat * 1_000_000) t.bandwidthHz
      = .ok (decide (16 / 1000 ≤ t.symbolTime)) := by
  have hbw := t.bandwidthHz.toNat_lt
  have hpos : (0 : ℚ) < t.bandwidthHz.toNat := Nat.cast_pos.mpr h.bandwidth_pos
  have hiff : 16_000 * t.bandwidthHz.toNat ≤ 2 ^ t.spreadingFactor.toNat * 1_000_000
      ↔ 16 / 1000 ≤ t.symbolTime := by
    rw [symbolTime, div_le_div_iff₀ (by norm_num) hpos, ← Nat.cast_le (α := ℚ)]
    push_cast
    constructor
    · intro hle
      linarith
    · intro hle
      linarith
  rw [lowDataRateOptimization, fitU64_bind (by omega)]
  exact congrArg _ (decide_eq_decide.mpr hiff)

theorem numerator_eq :
    numerator t.payloadLen t.spreadingFactor t.explicitHeader t.crcEnabled = .ok t.payloadBits := by
  have hlen : t.payloadLen ≤ 255 := h.payload
  have hsf := h.spreading_range
  have hcrc := t.crc_range
  have hih := t.ih_range
  unfold numerator payloadBits
  rw [← crc_eq, ← ih_eq, tryI64_eq (by omega), Outcome.ok_bind]
  iterate 7 rw [fitI64_bind (by omega) (by omega)]
  exact fitI64_eq (by omega) (by omega)

theorem denominator_eq :
    denominator t.spreadingFactor (decide (16 / 1000 ≤ t.symbolTime)) = .ok t.blockBits := by
  have hsf := h.spreading_range
  have hde := t.de_range
  unfold denominator blockBits
  simp only [decide_eq_true_eq]
  rw [← de_eq]
  iterate 2 rw [fitI64_bind (by omega) (by omega)]
  exact fitI64_eq (by omega) (by omega)

end

theorem codedBlocks_eq {n d : ℤ} (hd : 0 < d) (hn : n + d < 2 ^ 63) :
    codedBlocks n d = .ok (blocks n d) := by
  unfold codedBlocks
  split
  next hle => rw [blocks_eq_zero hd hle, Outcome.pure_eq_ok]
  next hpos =>
      have hblocks := blocks_nonneg n d
      have hle : blocks n d ≤ n := (blocks_le_iff hd (by omega)).mpr
        (le_mul_of_one_le_right (by omega) hd)
      rw [fitI64_bind (by omega) hn, fitI64_bind (by omega) (by omega), divI64, if_neg hd.ne',
        tdiv_eq_blocks (by omega) hd, fitI64_eq (by omega) (by omega)]

/-- The duration in microseconds, over the common denominator of the calculation. -/
theorem airtime_eq {t : Transmission} {b : ℕ} (h : t.Supported)
    (hb : blocks t.payloadBits t.blockBits = b) :
    (((4 * (t.preambleSymbols.toNat + (8 + b * t.codingRateDenominator.toNat)) + 17)
        * (2 ^ t.spreadingFactor.toNat * 1_000_000) : ℕ) : ℚ) / (4 * t.bandwidthHz.toNat : ℕ)
      = 1_000_000 * t.airtime := by
  have hbw : (t.bandwidthHz.toNat : ℚ) ≠ 0 := Nat.cast_ne_zero.mpr h.bandwidth_pos.ne'
  rw [airtime, symbols_eq, symbolTime, hb]
  push_cast
  field_simp
  ring

theorem timeOnAirUs_eq {t : Transmission} (h : t.Supported) :
    ∃ us : ℕ, t.timeOnAirUs = .ok us ∧ (us : ℤ) = ⌈1_000_000 * t.airtime⌉ := by
  obtain ⟨b, hb⟩ := Int.eq_ofNat_of_zero_le (blocks_nonneg t.payloadBits t.blockBits)
  have hle : b ≤ 172 := by
    have := h.blocks_le
    omega
  have hblock := h.blockBits_range
  have hbits := h.payloadBits_range
  have hcoded : b * t.codingRateDenominator.toNat ≤ 172 * 8 :=
    Nat.mul_le_mul hle h.coding_range.2
  have hpre := t.preambleSymbols.toNat_lt
  have hbw := h.bandwidth_pos
  have hbw' := t.bandwidthHz.toNat_lt
  have hsymbol : 2 ^ t.spreadingFactor.toNat * 1_000_000 ≤ 2 ^ 12 * 1_000_000 :=
    Nat.mul_le_mul_right _ (Nat.pow_le_pow_right (by omega) h.spreading_range.2)
  have hair : (4 * (t.preambleSymbols.toNat + (8 + b * t.codingRateDenominator.toNat)) + 17)
      * (2 ^ t.spreadingFactor.toNat * 1_000_000) ≤ 267693 * (2 ^ 12 * 1_000_000) :=
    Nat.mul_le_mul (by omega) hsymbol
  obtain ⟨us, hus, hceil⟩ := divCeilU64_eq (ε := Error) (b := 4 * t.bandwidthHz.toNat) (by omega)
    (Nat.lt_of_le_of_lt hair (by norm_num))
  refine ⟨us, ?_, hceil.trans (congrArg Int.ceil (airtime_eq h hb))⟩
  rw [timeOnAirUs, loraTimeOnAirUs, failIf_neg (Nat.not_lt.mpr h.payload), Outcome.ok_bind,
    failIf_neg (not_not_intro h.spreading), Outcome.ok_bind, failIf_neg h.bandwidth,
    Outcome.ok_bind, failIf_neg (not_not_intro h.coding), Outcome.ok_bind, symbolNumerator_eq h,
    Outcome.ok_bind, lowDataRateOptimization_eq h, Outcome.ok_bind, numerator_eq h,
    Outcome.ok_bind, denominator_eq h, Outcome.ok_bind, codedBlocks_eq (by omega) (by omega),
    Outcome.ok_bind, hb]
  rw [tryU64_natCast, Outcome.ok_bind]
  iterate 7 rw [fitU64_bind (by omega)]
  exact hus

/-- The calculation does not overflow, its divisor is positive, it returns the duration in
microseconds rounded up, and a change for the longer never makes the result smaller. -/
theorem loraTimeOnAirUs_exact (t : Transmission) (h : t.Supported) :
    ∃ (symbol : ℕ) (de : Bool) (d : ℤ) (us : ℕ),
      symbolNumerator t.spreadingFactor = .ok symbol
        ∧ lowDataRateOptimization symbol t.bandwidthHz = .ok de
        ∧ (de = true ↔ 16 / 1000 ≤ t.symbolTime)
        ∧ denominator t.spreadingFactor de = .ok d
        ∧ 0 < d
        ∧ loraTimeOnAirUs t.payloadLen t.spreadingFactor t.bandwidthHz t.codingRateDenominator
            t.preambleSymbols t.explicitHeader t.crcEnabled = .ok us
        ∧ (us : ℤ) = ⌈1_000_000 * t.airtime⌉
        ∧ ∀ t', Longer t t' → t'.Supported →
            ∃ us', loraTimeOnAirUs t'.payloadLen t'.spreadingFactor t'.bandwidthHz
              t'.codingRateDenominator t'.preambleSymbols t'.explicitHeader t'.crcEnabled = .ok us'
              ∧ us ≤ us' := by
  have hblock := h.blockBits_range
  obtain ⟨us, hus, hceil⟩ := timeOnAirUs_eq h
  refine ⟨_, _, _, us, symbolNumerator_eq h, lowDataRateOptimization_eq h, decide_eq_true_iff,
    denominator_eq h, by omega, hus, hceil, fun t' hl h' => ?_⟩
  obtain ⟨us', hus', hceil'⟩ := timeOnAirUs_eq h'
  refine ⟨us', hus', Int.ofNat_le.mp ?_⟩
  rw [hceil, hceil']
  refine Int.ceil_mono (mul_le_mul_of_nonneg_left (hl.airtime_le h h') ?_)
  norm_num

/-- A frame of 48 bytes, and the same frame at the next spreading factor. -/
theorem loraTimeOnAirUs_exact_frame :
    ∃ us us' : ℕ, loraTimeOnAirUs 48 7 125_000 5 8 true true = .ok us ∧ us = 97_536
      ∧ (us : ℤ) = ⌈1_000_000 * airtime ⟨48, 7, 125_000, 5, 8, true, true⟩⌉
      ∧ loraTimeOnAirUs 48 8 125_000 5 8 true true = .ok us' ∧ us ≤ us' := by
  obtain ⟨-, -, -, us, -, -, -, -, -, hus, hceil, hmono⟩ :=
    loraTimeOnAirUs_exact ⟨48, 7, 125_000, 5, 8, true, true⟩
      ⟨by decide, by decide, by decide, by decide⟩
  obtain ⟨us', hus', hle⟩ := hmono _ .spreading ⟨by decide, by decide, by decide, by decide⟩
  have hvalue : loraTimeOnAirUs 48 7 125_000 5 8 true true = .ok 97_536 := by decide
  exact ⟨us, us', hus, Except.ok.inj (hus.symm.trans hvalue), hceil, hus', hle⟩

end Transmission

end Vesta.Protocol
