import Vesta.Protocol.Wire

/-!
# Protocol — HealthWire

The byte layout of a health payload: 54 bytes, then the optional measurements in increasing order
of their type.  `decodeDeviceHealth` accepts exactly the bytes `healthBytes` of the records that
pass the checks, and `encodeDeviceHealth` writes them.
-/

namespace Vesta.Protocol

/-! ### Layouts -/

/-- The fields before the optional measurements, the schema version and the length of what
follows included. -/
def healthLayout : Layout (UInt8 × UInt8 × UInt32 × UInt32 × UInt32 × UInt32 × UInt32 × UInt32 ×
    UInt32 × UInt32 × UInt32 × UInt32 × UInt8 × UInt8 × UInt8 × UInt16 × UInt16 × UInt16 × UInt16 ×
    UInt8) :=
  .seq .u8 <| .seq .u8 <| .seq .u32 <| .seq .u32 <| .seq .u32 <| .seq .u32 <| .seq .u32 <|
  .seq .u32 <| .seq .u32 <| .seq .u32 <| .seq .u32 <| .seq .u32 <| .seq .u8 <| .seq .u8 <|
  .seq .u8 <| .seq .u16 <| .seq .u16 <| .seq .u16 <| .seq .u16 .u8

theorem width_healthLayout : healthLayout.width = healthBaseLen := rfl

/-- One optional measurement: its type, its length and its value. -/
def extensionBytes {α : Type} (kind : UInt8) (L : Layout α) : Option α → List UInt8
  | some value => Layout.u8.put kind ++ (Layout.u8.put 2 ++ L.put value)
  | none => []

/-- The optional measurements. -/
def extensionsBytes (temperature : Option Int16) (vdd : Option UInt16) : List UInt8 :=
  extensionBytes 1 .i16 temperature ++ extensionBytes 2 .u16 vdd

def DeviceHealth.extensionLen (health : DeviceHealth) : Nat :=
  health.calibratedMcuTemperatureCentiCelsius.isSome.toNat * 4
    + health.calibratedVddMillivolt.isSome.toNat * 4

/-- The bytes of a health payload. -/
def healthBytes (h : DeviceHealth) : List UInt8 :=
  healthLayout.put (healthSchemaVersion, h.flags, h.resetCauseRaw, h.successfulSensorScans,
    h.failedSensorScans, h.incompleteProfiles, h.i2cErrors, h.radioTxErrors, h.droppedProfiles,
    h.droppedFragments, h.overwrittenFields, h.currentSampleIntervalMs, h.firmwareVersion.1,
    h.firmwareVersion.2.1, h.firmwareVersion.2.2, h.profileId, h.profileVersion,
    h.lastSensorError, h.lastRadioError, .ofNat h.extensionLen) ++
  extensionsBytes h.calibratedMcuTemperatureCentiCelsius h.calibratedVddMillivolt

theorem length_extensionsBytes (temperature : Option Int16) (vdd : Option UInt16) :
    (extensionsBytes temperature vdd).length =
      temperature.isSome.toNat * 4 + vdd.isSome.toNat * 4 := by
  cases temperature <;> cases vdd <;> simp [extensionsBytes, extensionBytes]

theorem DeviceHealth.extensionLen_le (h : DeviceHealth) : h.extensionLen ≤ 8 := by
  have h₁ := Bool.toNat_le h.calibratedMcuTemperatureCentiCelsius.isSome
  have h₂ := Bool.toNat_le h.calibratedVddMillivolt.isSome
  simp only [DeviceHealth.extensionLen]
  omega

theorem length_healthBytes (h : DeviceHealth) :
    (healthBytes h).length = healthBaseLen + h.extensionLen := by
  rw [healthBytes, List.length_append, Layout.length_put, length_extensionsBytes,
    width_healthLayout]
  rfl

/-! ### The optional measurements -/

theorem validateExtensions_nil {pre : List UInt8} {fuel : Nat} {prev : UInt8} :
    validateExtensions pre (fuel + 1) pre.length prev = .ok () := by
  simp [validateExtensions]

/-- One pass of the loop over the optional measurements: a type above the last, the length two,
two bytes of value, and the rest. -/
theorem validateExtensions_cons {pre rest : List UInt8} {fuel : Nat} {prev : UInt8}
    (hne : rest ≠ []) :
    validateExtensions (pre ++ rest) (fuel + 1) pre.length prev = .ok () ↔
      ∃ kind a b rest', rest = kind :: 2 :: a :: b :: rest' ∧ prev < kind ∧
        (kind = 1 ∨ kind = 2) ∧
        validateExtensions ((pre ++ [kind, 2, a, b]) ++ rest') fuel
          (pre ++ [kind, 2, a, b]).length kind = .ok () := by
  have hpos : 0 < rest.length := List.length_pos_iff.mpr hne
  rw [validateExtensions, if_pos (by rw [List.length_append]; omega)]
  simp only [Outcome.bind_eq_ok, Outcome.failIf_eq_ok, index_eq_ok, subUsize_eq_ok, exists_const,
    not_lt, List.length_append]
  constructor
  · rintro ⟨_, ⟨-, rfl⟩, h2, kind, hk, len, hl, hprev, _, ⟨-, rfl⟩, hlen, h⟩
    -- two checks of the length and one of the kind leave four bytes
    rw [Nat.add_sub_cancel_left] at h2
    rw [Nat.add_sub_add_left] at hlen
    by_cases hkind : kind = 1 ∨ kind = 2
    · rw [if_pos hkind] at h
      obtain ⟨htwo, h⟩ := Outcome.unit_bind_eq_ok.mp h
      rw [Outcome.failIf_eq_ok, not_not] at htwo
      obtain rfl : len = 2 := UInt8.toNat_inj.mp htwo
      rw [List.getElem?_append_right (by omega)] at hk hl
      obtain ⟨k, l, a, b, rest', rfl⟩ : ∃ k l a b rest', rest = k :: l :: a :: b :: rest' := by
        rcases rest with _ | ⟨k, _ | ⟨l, _ | ⟨a, _ | ⟨b, rest'⟩⟩⟩⟩
        · simp at hpos
        · simp at h2
        · simp at hlen
        · simp at hlen
        · exact ⟨k, l, a, b, rest', rfl⟩
      simp only [Nat.sub_self, List.getElem?_cons_zero, Option.some.injEq,
        Nat.add_sub_cancel_left, List.getElem?_cons_succ] at hk hl
      subst hk hl
      exact ⟨k, a, b, rest', rfl, UInt8.not_le.mp hprev, hkind, by simpa using h⟩
    · rw [if_neg hkind] at h
      cases h
  · rintro ⟨kind, a, b, rest', rfl, hprev, hkind, h⟩
    refine ⟨_, ⟨by simp, rfl⟩, by simp, kind, by simp, 2, by simp, UInt8.not_le.mpr hprev, _,
      ⟨by simp, rfl⟩, ?_, ?_⟩
    · simp only [List.length_cons, UInt8.reduceToNat]
      omega
    · rw [if_pos hkind, Outcome.unit_bind_eq_ok]
      exact ⟨by simp, by simpa using h⟩

/-- After a measurement of type 2 there is none. -/
theorem validateExtensions_two {pre rest : List UInt8} {fuel : Nat} :
    validateExtensions (pre ++ rest) (fuel + 1) pre.length 2 = .ok () ↔ rest = [] := by
  constructor
  · intro h
    by_contra hne
    obtain ⟨kind, a, b, rest', rfl, hlt, rfl | rfl, -⟩ := (validateExtensions_cons hne).mp h <;>
      exact absurd hlt (by decide)
  · rintro rfl
    rw [List.append_nil]
    exact validateExtensions_nil

/-- After a measurement of type 1 there may be one of type 2. -/
theorem validateExtensions_one {pre rest : List UInt8} {fuel : Nat} :
    validateExtensions (pre ++ rest) (fuel + 2) pre.length 1 = .ok () ↔
      ∃ vdd, rest = extensionBytes 2 .u16 vdd := by
  constructor
  · intro h
    by_cases hne : rest = []
    · exact ⟨none, hne⟩
    · obtain ⟨kind, a, b, rest', rfl, hlt, rfl | rfl, h⟩ := (validateExtensions_cons hne).mp h
      · exact absurd hlt (by decide)
      · obtain rfl := validateExtensions_two.mp h
        obtain ⟨v, hv⟩ := Layout.u16.exists_put [a, b] rfl
        exact ⟨some v, by simp [extensionBytes, hv, Layout.put_u8]⟩
  · rintro ⟨_ | v, rfl⟩
    · rw [extensionBytes, List.append_nil]
      exact validateExtensions_nil
    · obtain ⟨a, b, hab⟩ := List.length_eq_two.mp (Layout.u16.length_put v)
      have hrest : extensionBytes 2 .u16 (some v) = [2, 2, a, b] := by
        simp [extensionBytes, hab, Layout.put_u8]
      rw [hrest]
      exact (validateExtensions_cons (by simp)).mpr ⟨2, a, b, [], rfl, by decide, by simp,
        validateExtensions_two.mpr rfl⟩

theorem validateExtensions_zero (pre rest : List UInt8) (fuel : Nat) :
    validateExtensions (pre ++ rest) (fuel + 3) pre.length 0 = .ok () ↔
      ∃ temperature vdd, rest = extensionsBytes temperature vdd := by
  constructor
  · intro h
    by_cases hne : rest = []
    · exact ⟨none, none, hne⟩
    · obtain ⟨kind, a, b, rest', rfl, -, rfl | rfl, h⟩ := (validateExtensions_cons hne).mp h
      -- the temperature, and the voltage may follow
      · obtain ⟨vdd, rfl⟩ := validateExtensions_one.mp h
        obtain ⟨t, ht⟩ := Layout.i16.exists_put [a, b] rfl
        exact ⟨some t, vdd, by simp [extensionsBytes, extensionBytes, ht, Layout.put_u8]⟩
      -- the voltage, which is the last
      · obtain rfl := validateExtensions_two.mp h
        obtain ⟨v, hv⟩ := Layout.u16.exists_put [a, b] rfl
        exact ⟨none, some v, by simp [extensionsBytes, extensionBytes, hv, Layout.put_u8]⟩
  · rintro ⟨_ | t, vdd, rfl⟩
    · cases vdd with
      | none =>
          rw [extensionsBytes, extensionBytes, extensionBytes, List.append_nil, List.append_nil]
          exact validateExtensions_nil
      | some v =>
          obtain ⟨a, b, hab⟩ := List.length_eq_two.mp (Layout.u16.length_put v)
          have hrest : extensionsBytes none (some v) = [2, 2, a, b] := by
            simp [extensionsBytes, extensionBytes, hab, Layout.put_u8]
          rw [hrest]
          exact (validateExtensions_cons (by simp)).mpr ⟨2, a, b, [], rfl, by decide, by simp,
            validateExtensions_two.mpr rfl⟩
    · obtain ⟨a, b, hab⟩ := List.length_eq_two.mp (Layout.i16.length_put t)
      have hrest : extensionsBytes (some t) vdd =
          1 :: 2 :: a :: b :: extensionBytes 2 .u16 vdd := by
        simp [extensionsBytes, extensionBytes, hab, Layout.put_u8]
      rw [hrest]
      exact (validateExtensions_cons (by simp)).mpr ⟨1, a, b, _, rfl, by decide, by simp,
        validateExtensions_one.mpr ⟨vdd, rfl⟩⟩

/-! ### Reading -/

theorem readExtensions_nil (fuel : Nat) (health : DeviceHealth) (pre : List UInt8) :
    readExtensions (fuel + 1) health (Reader.at_ pre []) = .ok (health, Reader.at_ pre []) := by
  rw [readExtensions, Reader.get_bind, if_neg (by simp [Reader.offset_lt_at])]
  rfl

/-- One pass over a measurement of type 1. -/
theorem readExtensions_temperature (fuel : Nat) (health : DeviceHealth) (t : Int16)
    (pre rest : List UInt8) :
    readExtensions (fuel + 1) health
        (Reader.at_ pre (Layout.u8.put 1 ++ (Layout.u8.put 2 ++ (Layout.i16.put t ++ rest)))) =
      readExtensions fuel { health with calibratedMcuTemperatureCentiCelsius := some t }
        (Reader.at_ (pre ++ Layout.u8.put 1 ++ Layout.u8.put 2 ++ Layout.i16.put t) rest) := by
  rw [readExtensions, Reader.get_bind,
    if_pos (Reader.offset_lt_at.mpr (by simp [Layout.put_u8]))]
  simp only [Reader.u8, Reader.i16, Reader.field_bind_at, if_true]
  rw [Reader.failIf_bind_neg (by decide), Reader.field_bind_at]

/-- One pass over a measurement of type 2. -/
theorem readExtensions_vdd (fuel : Nat) (health : DeviceHealth) (v : UInt16)
    (pre rest : List UInt8) :
    readExtensions (fuel + 1) health
        (Reader.at_ pre (Layout.u8.put 2 ++ (Layout.u8.put 2 ++ (Layout.u16.put v ++ rest)))) =
      readExtensions fuel { health with calibratedVddMillivolt := some v }
        (Reader.at_ (pre ++ Layout.u8.put 2 ++ Layout.u8.put 2 ++ Layout.u16.put v) rest) := by
  rw [readExtensions, Reader.get_bind,
    if_pos (Reader.offset_lt_at.mpr (by simp [Layout.put_u8]))]
  simp only [Reader.u8, Reader.u16, Reader.field_bind_at, if_true]
  rw [Reader.failIf_bind_neg (by decide), if_neg (by decide), Reader.field_bind_at]

theorem readExtensions_at (health : DeviceHealth) (temperature : Option Int16)
    (vdd : Option UInt16) (h₁ : health.calibratedMcuTemperatureCentiCelsius = none)
    (h₂ : health.calibratedVddMillivolt = none) :
    readExtensions ((extensionsBytes temperature vdd).length + 1) health
        (Reader.at_ [] (extensionsBytes temperature vdd)) =
      .ok ({ health with calibratedMcuTemperatureCentiCelsius := temperature,
                         calibratedVddMillivolt := vdd },
        Reader.at_ (extensionsBytes temperature vdd) []) := by
  have hvdd (fuel : Nat) (health : DeviceHealth) (v : UInt16) (pre : List UInt8) :=
    readExtensions_vdd fuel health v pre []
  have htemp (fuel : Nat) (health : DeviceHealth) (t : Int16) (pre : List UInt8) :=
    readExtensions_temperature fuel health t pre []
  simp only [List.append_nil] at hvdd htemp
  rw [length_extensionsBytes]
  rcases temperature with _ | t <;> rcases vdd with _ | v <;>
    simp only [Option.isSome, Bool.toNat, cond, Nat.reduceMul, Nat.reduceAdd, extensionsBytes,
      extensionBytes, List.append_assoc, List.nil_append,
      List.append_nil, hvdd, htemp, readExtensions_temperature, readExtensions_nil, ← h₁, ← h₂]

/-- The record without its optional measurements. -/
def DeviceHealth.base (health : DeviceHealth) : DeviceHealth :=
  { health with calibratedMcuTemperatureCentiCelsius := none, calibratedVddMillivolt := none }

/-- The bytes of a health payload before the optional measurements, for any length of these. -/
def healthBaseBytes (schema extensionLen : UInt8) (h : DeviceHealth) : List UInt8 :=
  healthLayout.put (schema, h.flags, h.resetCauseRaw, h.successfulSensorScans,
    h.failedSensorScans, h.incompleteProfiles, h.i2cErrors, h.radioTxErrors, h.droppedProfiles,
    h.droppedFragments, h.overwrittenFields, h.currentSampleIntervalMs, h.firmwareVersion.1,
    h.firmwareVersion.2.1, h.firmwareVersion.2.2, h.profileId, h.profileVersion,
    h.lastSensorError, h.lastRadioError, extensionLen)

theorem length_healthBaseBytes (schema extensionLen : UInt8) (h : DeviceHealth) :
    (healthBaseBytes schema extensionLen h).length = healthBaseLen := healthLayout.length_put _

theorem healthBytes_eq (h : DeviceHealth) :
    healthBytes h = healthBaseBytes healthSchemaVersion (.ofNat h.extensionLen) h ++
      extensionsBytes h.calibratedMcuTemperatureCentiCelsius h.calibratedVddMillivolt := rfl

/-- Any 54 bytes are the fields of a record. -/
theorem exists_healthBaseBytes {payload : List UInt8} (h : healthBaseLen ≤ payload.length) :
    ∃ schema extensionLen health rest,
      payload = healthBaseBytes schema extensionLen health ++ rest := by
  obtain ⟨⟨schema, flags, reset, ok, failed, incomplete, i2c, radio, dropped, fragments,
    overwritten, interval, v₀, v₁, v₂, pid, pver, sensor, radio', len⟩, rest, rfl, -⟩ :=
    healthLayout.exists_put_append payload (h.trans_eq' width_healthLayout)
  exact ⟨schema, len, ⟨flags, reset, ok, failed, incomplete, i2c, radio, dropped, fragments,
    overwritten, interval, (v₀, v₁, v₂), pid, pver, sensor, radio', none, none⟩, rest, rfl⟩

theorem readHealthBase_at {schema extensionLen : UInt8} {health : DeviceHealth}
    {p : (DeviceHealth × UInt8) × Reader} :
    (do Reader.failIf ((← Reader.u8) ≠ healthSchemaVersion) (.invalidField "health_schema_version")
        readHealthBase : Read (DeviceHealth × UInt8))
        (Reader.at_ [] (healthBaseBytes schema extensionLen health)) = .ok p ↔
      schema = healthSchemaVersion ∧ p = ((health.base, extensionLen),
        Reader.at_ (healthBaseBytes schema extensionLen health) []) := by
  simp only [healthBaseBytes, healthLayout, Layout.seq, readHealthBase, readVersion, bind_assoc,
    pure_bind, Reader.u8, Reader.u16, Reader.u32, Reader.field_bind_at, Reader.field_bind_at_end,
    Reader.failIf_bind_eq_ok, Reader.pure_eq_ok, List.nil_append, List.append_assoc, ne_eq,
    not_not, Prod.mk.eta, DeviceHealth.base]

theorem healthBaseBytes_getElem? (schema extensionLen : UInt8) (h : DeviceHealth)
    (rest : List UInt8) :
    (healthBaseBytes schema extensionLen h ++ rest)[0]? = some schema ∧
      (healthBaseBytes schema extensionLen h ++ rest)[1]? = some h.flags ∧
      (healthBaseBytes schema extensionLen h ++ rest)[53]? = some extensionLen := by
  refine ⟨?_, ?_, ?_⟩
  · simp [healthBaseBytes, healthLayout, Layout.seq, Layout.put_u8]
  · simp [healthBaseBytes, healthLayout, Layout.seq, Layout.put_u8]
  · simp [healthBaseBytes, healthLayout, Layout.seq, Layout.put_u8, List.getElem?_append]

/-! ### Decoding and encoding -/

/-- What the first checks make of the fields of a health payload. -/
theorem validateDecodedHealth_eq_ok {header : Header} {schema extensionLen : UInt8}
    {health : DeviceHealth} {rest : List UInt8} :
    validateDecodedHealth header (healthBaseBytes schema extensionLen health ++ rest) = .ok () ↔
      header.fragmentIndex = 0 ∧ header.fragmentCount = 1 ∧ schema = healthSchemaVersion ∧
        validateHealthFlags header.common health.flags = .ok () ∧
        rest.length = extensionLen.toNat ∧
        ∃ temperature vdd, rest = extensionsBytes temperature vdd := by
  obtain ⟨h₀, h₁, h₅₃⟩ := healthBaseBytes_getElem? schema extensionLen health rest
  have hlen := length_healthBaseBytes schema extensionLen health
  have hext := validateExtensions_zero (healthBaseBytes schema extensionLen health) rest
    (52 + rest.length)
  have hfuel : healthBaseLen + rest.length + 1 = 52 + rest.length + 3 := by
    simp only [healthBaseLen]
    omega
  rw [hlen] at hext
  simp only [validateDecodedHealth, Outcome.bind_eq_ok, Outcome.failIf_eq_ok, index_eq_ok, h₀, h₁,
    h₅₃, exists_const, Outcome.exists_unit, Option.some.injEq, exists_eq_left', not_or, not_not,
    not_lt, ne_eq, List.length_append, hlen, hfuel, hext, Nat.add_left_cancel_iff,
    Nat.le_add_right, true_and, and_assoc]

theorem decodeDeviceHealth_put {header : Header} {schema extensionLen : UInt8}
    {base health : DeviceHealth} {rest : List UInt8} :
    decodeDeviceHealth header (healthBaseBytes schema extensionLen base ++ rest) = .ok health ↔
      header.fragmentIndex = 0 ∧ header.fragmentCount = 1 ∧ schema = healthSchemaVersion ∧
        validateHealthFlags header.common base.flags = .ok () ∧
        rest.length = extensionLen.toNat ∧
        validateHealthConfigIdentity header.common health = .ok () ∧
        ∃ temperature vdd, rest = extensionsBytes temperature vdd ∧
          health = { base with
            calibratedMcuTemperatureCentiCelsius := temperature,
            calibratedVddMillivolt := vdd } := by
  have hlen := length_healthBaseBytes schema extensionLen base
  rw [decodeDeviceHealth, Outcome.unit_bind_eq_ok, validateDecodedHealth_eq_ok,
    slice_append hlen, sliceFrom_append hlen]
  simp only [Outcome.bind_eq_ok, Except.ok.injEq, exists_eq_left', Reader.new_eq, StateT.run,
    readHealthBase_at, subUsize_eq (Nat.le_add_right _ _), Outcome.failIf_eq_ok, exists_const,
    Outcome.exists_unit, List.length_append, hlen, Nat.add_sub_cancel_left, not_not, ne_eq,
    Outcome.pure_eq_ok]
  constructor
  · rintro ⟨⟨hi, hn, hs, hf, hl, t, v, rfl⟩, _, ⟨-, rfl⟩, -, -, p, hp, -, hc, rfl⟩
    rw [readExtensions_at base.base t v rfl rfl] at hp
    obtain rfl := Except.ok.inj hp
    exact ⟨hi, hn, hs, hf, hl, hc, t, v, rfl, rfl⟩
  · rintro ⟨hi, hn, hs, hf, hl, hc, t, v, rfl, rfl⟩
    exact ⟨⟨hi, hn, hs, hf, hl, t, v, rfl⟩, _, ⟨hs, rfl⟩, Reader.finish_at _, hl.symm, _,
      readExtensions_at base.base t v rfl rfl, Reader.finish_at _, hc, rfl⟩

/-- The bytes of the records that pass the checks decode, and no others. -/
theorem decodeDeviceHealth_eq_ok {header : Header} {payload : List UInt8} {health : DeviceHealth} :
    decodeDeviceHealth header payload = .ok health ↔
      header.fragmentIndex = 0 ∧ header.fragmentCount = 1 ∧
        validateHealthFlags header.common health.flags = .ok () ∧
        validateHealthConfigIdentity header.common health = .ok () ∧
        payload = healthBytes health := by
  constructor
  · intro hd
    have hlen : healthBaseLen ≤ payload.length := by
      rw [decodeDeviceHealth, Outcome.unit_bind_eq_ok] at hd
      simp only [validateDecodedHealth, Outcome.unit_bind_eq_ok, Outcome.failIf_eq_ok] at hd
      exact not_lt.mp hd.1.2.1
    obtain ⟨schema, len, base, rest, rfl⟩ := exists_healthBaseBytes hlen
    obtain ⟨hi, hn, rfl, hf, hl, hc, t, v, rfl, rfl⟩ := decodeDeviceHealth_put.mp hd
    refine ⟨hi, hn, hf, hc, ?_⟩
    rw [length_extensionsBytes] at hl
    rw [healthBytes_eq, DeviceHealth.extensionLen, hl, UInt8.ofNat_toNat]
    rfl
  · rintro ⟨hi, hn, hf, hc, rfl⟩
    have hle := health.extensionLen_le
    refine decodeDeviceHealth_put.mpr ⟨hi, hn, rfl, hf, ?_, hc, _, _, rfl, rfl⟩
    rw [length_extensionsBytes, UInt8.toNat_ofNat_of_lt' (by simp only [UInt8.size]; omega)]
    rfl

/-! ### Writing -/

theorem writes_extension {α : Type} {kind : UInt8} {L : Layout α} {write : α → Write}
    (hw : ∀ a, Writer.Writes (write a) (L.put a)) :
    ∀ x : Option α, Writer.Writes (writeExtension kind write x) (extensionBytes kind L x)
  | none => Writer.writes_pure
  | some a => (Writer.writes_bytes _).seq ((Writer.writes_bytes _).seq (hw a))

theorem writes_healthPayload (health : DeviceHealth) :
    Writer.Writes (writeHealthPayload health health.extensionLen) (healthBytes health) := by
  simp only [healthBytes, healthLayout, extensionsBytes, Layout.seq, List.append_assoc]
  unfold writeHealthPayload
  iterate 12 refine (Writer.writes_bytes _).seq ?_
  refine writes_version_seq _ ?_
  iterate 4 refine (Writer.writes_bytes _).seq ?_
  refine .lift (tryU8_eq (lt_of_le_of_lt health.extensionLen_le (by decide)) _) ?_
  refine (Writer.writes_bytes _).seq ?_
  exact (writes_extension (fun _ => Writer.writes_bytes _) _).seq
    (writes_extension (fun _ => Writer.writes_bytes _) _)

/-- The header of a health frame. -/
def healthHeader (common : Common) (health : DeviceHealth) : Header :=
  ⟨.deviceHealth, common, 0, 1, .ofNat (healthBaseLen + health.extensionLen)⟩

theorem encodeDeviceHealth_eq_ok {common : Common} {health : DeviceHealth} {bytes : List UInt8} :
    encodeDeviceHealth common health = .ok bytes ↔
      validateHealthFlags common health.flags = .ok () ∧
        validateHealthConfigIdentity common health = .ok () ∧
        (healthHeader common health).Valid ∧
        bytes = headerBytes (healthHeader common health) ++ healthBytes health := by
  have hle := health.extensionLen_le
  have hfit : headerLen + (healthBaseLen + health.extensionLen) ≤ maxPhyFrameLen := by
    simp only [headerLen, healthBaseLen, maxPhyFrameLen]
    omega
  have hfill := fillSlice_eq maxPhyFrameLen headerLen
    (writes_healthPayload health) (by rwa [length_healthBytes])
  rw [length_healthBytes] at hfill
  have hlen : health.calibratedMcuTemperatureCentiCelsius.isSome.toNat * 4
      + health.calibratedVddMillivolt.isSome.toNat * 4 = health.extensionLen := rfl
  rw [encodeDeviceHealth, Outcome.unit_bind_eq_ok, Outcome.unit_bind_eq_ok, hlen]
  simp only [hfill, Outcome.ok_bind, Outcome.bind_eq_ok, encodeHeader_eq_ok, frameOf,
    Outcome.failIf_eq_ok, exists_const, Outcome.pure_eq_ok, Except.ok.injEq]
  refine and_congr_right fun _ => and_congr_right fun _ => ?_
  constructor
  · rintro ⟨header, ⟨hh, -, rfl⟩, -, rfl⟩
    exact ⟨hh, rfl⟩
  · rintro ⟨hh, rfl⟩
    exact ⟨_, ⟨hh, hfit, rfl⟩, not_lt.mpr hfit, rfl⟩

end Vesta.Protocol
