import Vesta.Foundations.Digest
import Vesta.Protocol.Total

/-!
# Protocol — Integrity

The configuration hash as a check of integrity.  A round of FNV-1a can be undone, given the byte
or given the hash (`fnvStep_lossless`), so one changed byte changes the hash of a payload; and the
config ID is the one field of the header that the hash is compared with.  A configuration frame
with one byte of either corrupted is rejected, whatever else the change does to it
(`corrupted_config_rejected`).
-/

namespace Vesta.Protocol

open Digest (Lossless)

/-! ### The hash -/

/-- The inverse of the prime modulo `2 ^ 64`. -/
theorem fnvPrime_mul_inverse : (0x100000001b3 : UInt64) * 0xce965057aff6957b = 1 := by decide

theorem mul_fnvPrime_injective : Function.Injective fun hash : UInt64 => hash * 0x100000001b3 := by
  have hinverse : Function.LeftInverse (fun x : UInt64 => x * 0xce965057aff6957b)
      fun hash => hash * 0x100000001b3 := by
    intro hash
    show hash * 0x100000001b3 * 0xce965057aff6957b = hash
    rw [UInt64.mul_assoc, fnvPrime_mul_inverse, UInt64.mul_one]
  exact hinverse.injective

theorem fnvStep_lossless : Lossless fnvStep where
  value byte _ _ h := (UInt64.xor_left_inj byte.toUInt64).mp (mul_fnvPrime_injective h)
  letter hash _ _ h :=
    UInt8.toUInt64_inj.mp ((UInt64.xor_right_inj hash).mp (mul_fnvPrime_injective h))

theorem fnv1a64_set_ne {bs : List UInt8} {i : Nat} {v : UInt8} (hi : i < bs.length)
    (hv : bs[i] ≠ v) : fnv1a64 (bs.set i v) ≠ fnv1a64 bs :=
  fnvStep_lossless.foldl_set_ne _ hi hv

/-! ### The header -/

/-- The fourth byte of a header is the frame type. -/
theorem headerBytes_frameType (h : Header) : (headerBytes h)[3]? = some h.frameType.toU8 := by
  simp [headerBytes, headerLayout, Layout.seq, Layout.put_u8]

/-- The eight bytes from 38 on are the config ID. -/
theorem headerBytes_configId (h : Header) {k : Nat} (hk : k < 8) :
    (headerBytes h)[38 + k]? = (Layout.u64.put h.common.configId)[k]? := by
  simp only [headerBytes, headerLayout, Layout.seq]
  iterate 13
    rw [List.getElem?_append_right (by
      simp only [Layout.length_put, Layout.width_u8, Layout.width_u16, Layout.width_u32,
        Layout.width_u64]
      omega)]
  simp only [Layout.length_put, Layout.width_u8, Layout.width_u16, Layout.width_u32,
    Layout.width_u64]
  rw [List.getElem?_append_left (by rw [Layout.length_put, Layout.width_u64]; omega)]
  exact congrArg (_[·]?) (by omega)

/-- The fourth byte alone decides that a frame is a configuration. -/
theorem decode_frameType {b : List UInt8} {f : DecodedFrame} (h : decode b = .ok f)
    (ht : b[3]? = some FrameType.deviceConfig.toU8) :
    ∃ header config, f = .deviceConfig header config := by
  obtain ⟨header, payload, rfl, -, -, hf⟩ := decode_eq_ok.mp h
  have hlt : 3 < (headerBytes header).length := by
    rw [length_headerBytes]
    decide
  rw [List.getElem?_append_left hlt, headerBytes_frameType] at ht
  have ht := congrArg FrameType.tryFrom (Option.some.inj ht)
  rw [FrameType.tryFrom_toU8, FrameType.tryFrom_toU8] at ht
  have hconfig : header.frameType = .deviceConfig := Except.ok.inj ht
  rcases hf with ⟨-, config, -, rfl⟩ | ⟨hne, -⟩ | ⟨hne, -⟩
  · exact ⟨header, config, rfl⟩
  · cases hconfig.symm.trans hne
  · cases hconfig.symm.trans hne

/-! ### Corruption -/

section
variable {header : Header} {config : DeviceConfig} {i : Nat} {v : UInt8} {f : DecodedFrame}

/-- A corrupted payload does not hash to the config ID. -/
theorem decode_set_payload (h : decode (headerBytes header ++ configBytes config) =
      .ok (.deviceConfig header config)) (hi : i < (configBytes config).length)
    (hv : (configBytes config)[i] ≠ v) :
    decode (headerBytes header ++ (configBytes config).set i v) ≠ .ok f := by
  intro hd
  obtain ⟨ht, -, -, -, -, -, hid, -, -⟩ := decode_config.mp h
  have hlt : 3 < (headerBytes header).length := by
    rw [length_headerBytes]
    decide
  obtain ⟨header', config', rfl⟩ := decode_frameType hd (by
    rw [List.getElem?_append_left hlt, headerBytes_frameType, ht])
  obtain ⟨-, -, -, -, -, -, hid', -, hb⟩ := decode_config.mp hd
  obtain ⟨hheader, hpayload⟩ := List.append_inj hb (by simp)
  obtain rfl := headerBytes_injective hheader
  rw [← hpayload, ← hid] at hid'
  exact fnv1a64_set_ne hi hv hid'

/-- A corrupted config ID is not the hash of the payload. -/
theorem decode_set_configId (h : decode (headerBytes header ++ configBytes config) =
      .ok (.deviceConfig header config)) (hi : i < 8)
    (hv : (headerBytes header)[38 + i]? ≠ some v) :
    decode ((headerBytes header).set (38 + i) v ++ configBytes config) ≠ .ok f := by
  intro hd
  obtain ⟨ht, -, -, -, -, -, hid, -, -⟩ := decode_config.mp h
  have hlen : ((headerBytes header).set (38 + i) v).length = headerLen := by simp
  obtain ⟨header', config', rfl⟩ := decode_frameType hd (by
    rw [List.getElem?_append_left (by rw [hlen]; decide), List.getElem?_set_ne (by omega),
      headerBytes_frameType, ht])
  obtain ⟨-, -, -, -, -, -, hid', -, hb⟩ := decode_config.mp hd
  obtain ⟨hheader, hpayload⟩ := List.append_inj hb (by simp)
  rw [← hpayload, hid] at hid'
  -- the two headers have one config ID, and so the same byte at the corrupted place
  apply hv
  rw [headerBytes_configId header hi, hid', ← headerBytes_configId header' hi, ← hheader,
    List.getElem?_set_self (by rw [length_headerBytes, headerLen]; omega)]

end

/-- **A corrupted byte of a configuration is always noticed.**  Replace one byte of a configuration
frame, in its payload or in its config ID, by another: decoding returns an error.  Behind this,
byte strings of one length that differ in exactly one byte have different hashes. -/
theorem corrupted_config_rejected :
    (∀ b header config, decode b = .ok (.deviceConfig header config) →
      ∀ (i : Nat) (hi : i < b.length) (v : UInt8), (38 ≤ i ∧ i < 46) ∨ 48 ≤ i → v ≠ b[i] →
        ∃ e, decode (b.set i v) = .error (.error e)) ∧
    ∀ as bs : List UInt8, as.length = bs.length → ∀ i : Nat, as[i]? ≠ bs[i]? →
      (∀ j, j ≠ i → as[j]? = bs[j]?) → fnv1a64 as ≠ fnv1a64 bs := by
  refine ⟨fun b header config h i hi v hpos hv => ?_, fun as bs hlen i hne hsame he => ?_⟩
  · have hnot : ∀ f, decode (b.set i v) ≠ .ok f := by
      intro f
      obtain ⟨-, -, -, -, -, -, -, -, rfl⟩ := decode_config.mp h
      rcases hpos with ⟨hge, hlt⟩ | hge
      -- in the header: the config ID
      · obtain ⟨k, rfl⟩ := Nat.exists_eq_add_of_le hge
        have hk : 38 + k < (headerBytes header).length := by
          rw [length_headerBytes, headerLen]
          omega
        rw [List.set_append_left _ _ hk]
        refine decode_set_configId h (by omega) ?_
        rw [← List.getElem?_append_left hk, List.getElem?_eq_getElem hi]
        exact fun he => hv (Option.some.inj he).symm
      · obtain ⟨k, rfl⟩ := Nat.exists_eq_add_of_le hge
        -- in the payload
        have hge : (headerBytes header).length ≤ 48 + k := by
          rw [length_headerBytes, headerLen]
          omega
        have hsub : 48 + k - (headerBytes header).length = k := by
          rw [length_headerBytes, headerLen]
          omega
        rw [List.set_append_right _ _ hge, hsub]
        refine decode_set_payload h ?_ ?_
        · rw [List.length_append, length_headerBytes, headerLen] at hi
          omega
        · rw [List.getElem_append_right hge] at hv
          simp only [hsub] at hv
          exact hv.symm
    -- no frame, and no panic: an error
    cases hd : decode (b.set i v) with
    | ok f => exact absurd hd (hnot f)
    | error e =>
        cases e with
        | error e => exact ⟨e, rfl⟩
        | panicked => exact absurd hd (decode_returns _).ne_panicked
  · have hi : i < bs.length := by
      by_contra hge
      rw [List.getElem?_eq_none (hlen ▸ not_lt.mp hge), List.getElem?_eq_none (not_lt.mp hge)]
        at hne
      exact hne rfl
    have hi' : i < as.length := hlen ▸ hi
    have hv : as[i] ≠ bs[i] := by
      rw [List.getElem?_eq_getElem hi, List.getElem?_eq_getElem hi'] at hne
      exact fun heq => hne (congrArg some heq)
    rw [Digest.eq_set hlen hi hsame] at he
    exact fnv1a64_set_ne hi' hv he.symm

end Vesta.Protocol
