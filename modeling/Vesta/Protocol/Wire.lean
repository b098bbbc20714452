import Vesta.Protocol.Encode
import Vesta.Protocol.Decode

/-!
# Protocol — Wire

The byte layout of the v2 header, and what it makes of `encodeHeader` and `decodeHeader`: one
writes exactly the bytes the other accepts.

`headerBytes h` are the 48 bytes of a header.  `encodeHeader` returns them, under conditions on
the fields (`encodeHeader_eq_ok`); `decodeHeader` accepts them, followed by a payload of the
length they announce, under the same conditions (`decodeHeader_eq_ok`), and accepts nothing else.
-/

namespace Vesta.Protocol

open Outcome (failIf)

/-! ### Fields -/

/-- The fields of a header as they stand on the wire: the magic, the version, the frame type, the
header length, the flags, the fragment coordinates, the payload length and the common fields. -/
def headerLayout : Layout (UInt8 × UInt8 × UInt8 × UInt8 × UInt8 × UInt8 × UInt8 × UInt8 × UInt16 ×
    UInt64 × UInt64 × UInt32 × UInt64 × UInt64 × UInt16) :=
  .seq .u8 <| .seq .u8 <| .seq .u8 <| .seq .u8 <| .seq .u8 <| .seq .u8 <| .seq .u8 <| .seq .u8 <|
  .seq .u16 <| .seq .u64 <| .seq .u64 <| .seq .u32 <| .seq .u64 <| .seq .u64 .u16

theorem width_headerLayout : headerLayout.width = headerLen := rfl

/-- The 48 bytes of a header. -/
def headerBytes (h : Header) : List UInt8 :=
  headerLayout.put (magic.1, magic.2, versionV2, h.frameType.toU8, 48, h.common.flags,
    h.fragmentIndex, h.fragmentCount, h.payloadLen, h.common.nodeId, h.common.bootId,
    h.common.scanSequence, h.common.uptimeMs, h.common.configId, h.common.resetCauseFlags)

@[simp] theorem length_headerBytes (h : Header) : (headerBytes h).length = headerLen :=
  headerLayout.length_put _

theorem headerBytes_injective : Function.Injective headerBytes := by
  rintro ⟨t, ⟨f, n, b, s, u, c, r⟩, i, k, l⟩ ⟨t', ⟨f', n', b', s', u', c', r'⟩, i', k', l'⟩ h
  have h' := headerLayout.put_injective h
  simp only [Prod.mk.injEq] at h'
  obtain ⟨-, -, -, ht, -, rfl, rfl, rfl, rfl, rfl, rfl, rfl, rfl, rfl, rfl⟩ := h'
  have ht' := congrArg FrameType.tryFrom ht
  simp only [FrameType.tryFrom_toU8, Except.ok.injEq] at ht'
  rw [ht']

/-! ### Conditions -/

theorem ensureKnownU8_eq_ok {field : String} {value known : UInt8} {u : Unit} :
    ensureKnownU8 field value known = .ok u ↔ value &&& ~~~known = 0 := by
  simp [ensureKnownU8]

theorem ensureKnownU16_eq_ok {field : String} {value known : UInt16} {u : Unit} :
    ensureKnownU16 field value known = .ok u ↔ value &&& ~~~known = 0 := by
  simp [ensureKnownU16]

theorem ensureKnownU32_eq_ok {field : String} {value known : UInt32} {u : Unit} :
    ensureKnownU32 field value known = .ok u ↔ value &&& ~~~known = 0 := by
  simp [ensureKnownU32]

theorem stepMask_eq {stepCount : UInt8} (h : stepCount ≤ 10) :
    stepMask stepCount = .ok (Bitmap.lowMask stepCount.toNat) :=
  maskU16_eq (lt_of_le_of_lt (UInt8.le_iff_toNat_le.mp h) (by decide))

/-- The common fields a header may carry. -/
structure Common.Valid (c : Common) : Prop where
  flags : c.flags &&& ~~~commonFlagsKnown = 0
  rng : ¬ (c.flags &&& commonFlagBootIdFromHwRng ≠ 0 ∧ c.flags &&& commonFlagBootIdValid = 0)
  bootId : ¬ (c.flags &&& commonFlagBootIdValid = 0 ∧ c.bootId ≠ 0)
  resetCause : c.resetCauseFlags &&& ~~~resetCauseFlagsKnown = 0

/-- The headers that can be written and read. -/
structure Header.Valid (h : Header) : Prop where
  common : h.common.Valid
  count : h.fragmentCount ≠ 0
  index : h.fragmentIndex < h.fragmentCount

/-! ### Encoding and decoding -/

theorem writes_version_seq (v : UInt8 × UInt8 × UInt8) {k : Unit → Write} {ys : List UInt8}
    (hk : Writer.Writes (k ()) ys) :
    Writer.Writes (writeVersion v >>= k)
      (Layout.u8.put v.1 ++ (Layout.u8.put v.2.1 ++ (Layout.u8.put v.2.2 ++ ys))) := by
  simp only [Layout.put_u8]
  exact (Writer.writes_bytes [v.1, v.2.1, v.2.2]).seq hk

theorem fillSlice_eq (capacity start : Nat) {m : Write} {bs : List UInt8} (hm : Writer.Writes m bs)
    (h : start + bs.length ≤ capacity) : fillSlice capacity start bs.length m = .ok bs := by
  rw [fillSlice, if_pos h, Writer.fill_length hm]

theorem writes_header (t : FrameType) (c : Common) (i n : UInt8) {len : Nat} (h : len < 65536) :
    Writer.Writes (writeHeader t c i n len) (headerBytes ⟨t, c, i, n, .ofNat len⟩) := by
  -- the magic is one write of two bytes, and two fields of the layout
  have hm : Writer.Writes (Writer.bytes [magic.1, magic.2])
      (Layout.u8.put magic.1 ++ Layout.u8.put magic.2) := Writer.writes_bytes _
  have he : headerBytes ⟨t, c, i, n, .ofNat len⟩ =
      (Layout.u8.put magic.1 ++ Layout.u8.put magic.2) ++ _ := (List.append_assoc _ _ _).symm
  rw [he]
  refine hm.seq ?_
  iterate 6 refine (Writer.writes_bytes _).seq ?_
  refine .lift (tryU16_eq h _) ?_
  iterate 6 refine (Writer.writes_bytes _).seq ?_
  exact Writer.writes_bytes _

theorem fill_header (t : FrameType) (c : Common) (i n : UInt8) {len : Nat}
    (h : headerLen + len ≤ maxPhyFrameLen) :
    Writer.fill headerLen (writeHeader t c i n len) =
      .ok (headerBytes ⟨t, c, i, n, .ofNat len⟩) := by
  have hlen : len < 65536 := by
    rw [headerLen, maxPhyFrameLen] at h
    omega
  have hfill := Writer.fill_length (writes_header t c i n hlen)
  rwa [length_headerBytes] at hfill

theorem encodeHeader_eq_ok {t : FrameType} {c : Common} {i n : UInt8} {len : Nat}
    {bytes : List UInt8} :
    encodeHeader headerLen t c i n len = .ok bytes ↔
      Header.Valid ⟨t, c, i, n, .ofNat len⟩ ∧ headerLen + len ≤ maxPhyFrameLen ∧
        bytes = headerBytes ⟨t, c, i, n, .ofNat len⟩ := by
  simp only [encodeHeader, Outcome.unit_bind_eq_ok, Outcome.failIf_eq_ok, ensureKnownU8_eq_ok,
    ensureKnownU16_eq_ok, ne_eq, not_true_eq_false, not_false_eq_true, true_and]
  constructor
  · rintro ⟨hn, hi, hf, hr, hb, hc, hl, hfill⟩
    rw [fill_header t c i n (not_lt.mp hl)] at hfill
    exact ⟨⟨⟨hf, hr, hb, hc⟩, hn, UInt8.not_le.mp hi⟩, not_lt.mp hl, (Except.ok.inj hfill).symm⟩
  · rintro ⟨⟨⟨hf, hr, hb, hc⟩, hn, hi⟩, hl, rfl⟩
    exact ⟨hn, UInt8.not_le.mpr hi, hf, hr, hb, hc, not_lt.mpr hl, fill_header t c i n hl⟩

/-- What `decodeHeader` makes of the fields of a header, whatever they are. -/
theorem decodeHeader_put {m₀ m₁ v t l f i n : UInt8} {len r : UInt16} {nid bid up cid : UInt64}
    {ss : UInt32} {payload : List UInt8} {h : Header} :
    decodeHeader (headerLayout.put
        (m₀, m₁, v, t, l, f, i, n, len, nid, bid, ss, up, cid, r) ++ payload) = .ok h ↔
      h.Valid ∧ payload.length = h.payloadLen.toNat ∧
        (m₀, m₁, v, t, l, f, i, n, len, nid, bid, ss, up, cid, r) =
          (magic.1, magic.2, versionV2, h.frameType.toU8, 48, h.common.flags, h.fragmentIndex,
            h.fragmentCount, h.payloadLen, h.common.nodeId, h.common.bootId,
            h.common.scanSequence, h.common.uptimeMs, h.common.configId,
            h.common.resetCauseFlags) := by
  have hlen : (headerLayout.put
      (m₀, m₁, v, t, l, f, i, n, len, nid, bid, ss, up, cid, r)).length = headerLen :=
    headerLayout.length_put _
  -- the length byte is compared as a number
  have hl48 : l.toNat ≠ headerLen ↔ l ≠ 48 := not_congr (UInt8.toNat_inj (b := 48))
  unfold decodeHeader
  rw [slice_append hlen, List.length_append, hlen, Outcome.failIf_neg (by omega)]
  simp only [Outcome.ok_bind, headerLayout, Layout.seq, Reader.new_eq, StateT.run]
  rw [Outcome.bind_eq_ok]
  -- field by field, each reader takes its own writing
  simp only [Reader.u8, Reader.u16, Reader.u32, Reader.u64, Reader.field_bind_at,
    Reader.field_bind_at_end, Reader.failIf_bind_eq_ok, Reader.check_bind_eq_ok,
    Reader.liftM_bind_eq_ok, Reader.pure_eq_ok, Outcome.unit_bind_eq_ok, Outcome.failIf_eq_ok,
    ensureKnownU8_eq_ok, ensureKnownU16_eq_ok, Outcome.pure_eq_ok, Except.ok.injEq, hl48]
  constructor
  · rintro ⟨p, ⟨hm, hv, t', ht, hl, hf, hn, hi, rfl⟩, -, hr, hrng, hb, hlen', rfl⟩
    obtain rfl := FrameType.tryFrom_eq_ok ht
    obtain rfl := not_not.mp hv
    obtain rfl := not_not.mp hl
    obtain ⟨rfl, rfl⟩ := Prod.mk.injEq .. ▸ not_not.mp hm
    exact ⟨⟨⟨hf, hrng, hb, hr⟩, hn, UInt8.not_le.mp hi⟩,
      Nat.add_left_cancel (not_not.mp hlen'), rfl⟩
  · rintro ⟨⟨⟨hf, hrng, hb, hr⟩, hn, hi⟩, hlen', he⟩
    obtain ⟨rfl, rfl, rfl, rfl, rfl, rfl, rfl, rfl, rfl, rfl, rfl, rfl, rfl, rfl, rfl⟩ := by
      simpa only [Prod.mk.injEq] using he
    refine ⟨(h, _), ⟨by simp, by simp, h.frameType, FrameType.tryFrom_toU8 _, by simp, hf, hn,
      UInt8.not_le.mpr hi, rfl⟩, ?_, hr, hrng, hb, ?_, rfl⟩
    · simp
    · simp [hlen']

theorem decodeHeader_eq_ok {bytes : List UInt8} {h : Header} :
    decodeHeader bytes = .ok h ↔
      ∃ payload, bytes = headerBytes h ++ payload ∧ h.Valid ∧
        payload.length = h.payloadLen.toNat := by
  constructor
  · intro hd
    have hlen : headerLen ≤ bytes.length := by
      by_contra hlt
      rw [decodeHeader, Outcome.failIf_pos (not_le.mp hlt)] at hd
      cases hd
    obtain ⟨⟨m₀, m₁, v, t, l, f, i, n, len, nid, bid, ss, up, cid, r⟩, payload, rfl, -⟩ :=
      headerLayout.exists_put_append bytes (hlen.trans_eq' width_headerLayout)
    obtain ⟨hv, hp, he⟩ := decodeHeader_put.mp hd
    exact ⟨payload, by rw [he]; rfl, hv, hp⟩
  · rintro ⟨payload, rfl, hv, hp⟩
    exact decodeHeader_put.mpr ⟨hv, hp, rfl⟩

end Vesta.Protocol
