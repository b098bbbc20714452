import Vesta.Protocol.Wire

/-!
# Protocol — ConfigWire

The byte layout of a configuration payload, `configBytes`.  The encoder writes it, and the
decoder accepts exactly these bytes, for a configuration that passes `validateConfig` and under a
header whose config ID is their hash (`decodeDeviceConfig_eq_ok`).
-/

namespace Vesta.Protocol

/-! ### Layouts -/

/-- The 43 bytes before the step count, the schema version included. -/
def configHeadLayout : Layout (UInt8 × UInt8 × UInt8 × UInt8 × UInt8 × UInt8 × UInt64 × UInt8 ×
    UInt8 × UInt8 × UInt8 × UInt8 × UInt8 × UInt8 × UInt8 × UInt8 × UInt8 × UInt16 × UInt8 ×
    UInt32 × UInt32 × UInt32 × UInt16 × UInt16) :=
  .seq .u8 <| .seq .u8 <| .seq .u8 <| .seq .u8 <| .seq .u8 <| .seq .u8 <| .seq .u64 <| .seq .u8 <|
  .seq .u8 <| .seq .u8 <| .seq .u8 <| .seq .u8 <| .seq .u8 <| .seq .u8 <| .seq .u8 <| .seq .u8 <|
  .seq .u8 <| .seq .u16 <| .seq .u8 <| .seq .u32 <| .seq .u32 <| .seq .u32 <| .seq .u16 .u16

/-- The 39 bytes between the step count and the heater steps. -/
def configTailLayout : Layout (UInt16 × UInt8 × UInt64 × UInt32 × UInt16 × UInt8 × UInt32 × Int8 ×
    UInt8 × UInt32 × UInt8 × UInt8 × UInt16 × UInt8 × UInt8 × UInt8 × UInt16 × UInt8 × UInt8) :=
  .seq .u16 <| .seq .u8 <| .seq .u64 <| .seq .u32 <| .seq .u16 <| .seq .u8 <| .seq .u32 <|
  .seq .i8 <| .seq .u8 <| .seq .u32 <| .seq .u8 <| .seq .u8 <| .seq .u16 <| .seq .u8 <| .seq .u8 <|
  .seq .u8 <| .seq .u16 <| .seq .u8 .u8

/-- The ten bytes of a heater step. -/
def heaterStepLayout : Layout HeaterStepConfig :=
  (Layout.seq .u16 <| .seq .u32 <| .seq .u8 <| .seq .u8 <| .seq .u8 .u8).congr
    ⟨fun ⟨t, d, m, c, r, w⟩ => ⟨t, d, m, c, r, w⟩, fun ⟨t, d, m, c, r, w⟩ => ⟨t, d, m, c, r, w⟩,
      fun _ => rfl, fun _ => rfl⟩

theorem width_configHeadLayout : configHeadLayout.width = 43 := rfl
theorem width_configTailLayout : configTailLayout.width = 39 := rfl
theorem width_heaterStepLayout : heaterStepLayout.width = configStepLen := rfl

/-- The configured heater steps. -/
def DeviceConfig.usedSteps (config : DeviceConfig) : List HeaterStepConfig :=
  config.steps.toList.take config.expectedStepCount.toNat

/-- The bytes of a configuration payload. -/
def configBytes (config : DeviceConfig) : List UInt8 :=
  configHeadLayout.put (configSchemaVersion, config.flags, config.firmwareVersion.1,
    config.firmwareVersion.2.1, config.firmwareVersion.2.2, config.firmwareBuildFlags,
    config.firmwareBuildId, config.sensorChipId, config.sensorVariant, config.sensorI2cAddress,
    config.temperatureOversampling, config.humidityOversampling, config.pressureOversampling,
    config.iirFilter, config.standbyTime, config.operationMode, config.heaterEnabled,
    config.parallelRequestedSharedWaitMs, config.parallelSharedWaitRegister,
    config.parallelQuantizedSharedWaitUs, config.tphgDurationUs,
    config.expectedProfileDurationUs, config.profileId, config.profileVersion) ++
  (Layout.u8.put config.expectedStepCount ++
  (configTailLayout.put (config.heaterReadbackValidBitmap, config.calibrationHashAlgorithm,
    config.calibrationHash, config.scanIntervalMs, config.configRepeatIntervalScans,
    config.outputRoutes, config.radioFrequencyHz, config.radioTxPowerDbm,
    config.radioSpreadingFactor, config.radioBandwidthHz, config.radioCodingRateNumerator,
    config.radioCodingRateDenominator, config.radioPreambleSymbols, config.radioHeaderMode,
    config.radioPhyCrcEnabled, config.radioIqInverted, config.radioSyncWord, config.maxFrameLen,
    config.profileStepsPerFragment) ++
  config.usedSteps.flatMap heaterStepLayout.put))

theorem length_usedSteps {config : DeviceConfig} (h : config.expectedStepCount.toNat ≤ 10) :
    config.usedSteps.length = config.expectedStepCount.toNat := by
  simp [DeviceConfig.usedSteps, h]

theorem length_configBytes {config : DeviceConfig} (h : config.expectedStepCount.toNat ≤ 10) :
    (configBytes config).length = configPayloadLen config := by
  simp only [configBytes, List.length_append, Layout.length_put, Layout.length_flatMap_put,
    length_usedSteps h, width_configHeadLayout, width_configTailLayout, width_heaterStepLayout,
    Layout.width_u8, configPayloadLen, configBaseLen]
  omega

/-! ### What `validateConfig` checks -/

section
variable {config : DeviceConfig} (h : validateConfig config = .ok ())
include h

theorem validateConfig_count :
    1 ≤ config.expectedStepCount ∧ config.expectedStepCount ≤ 10 := by
  simp only [validateConfig, Outcome.unit_bind_eq_ok, Outcome.failIf_eq_ok] at h
  exact not_not.mp h.2.2.2.2.2.2.2.2.2.2.1

theorem validateConfig_toNat_le : config.expectedStepCount.toNat ≤ 10 :=
  UInt8.le_iff_toNat_le.mp (validateConfig_count h).2

theorem validateConfig_flags : config.flags &&& ~~~configFlagsKnown = 0 ∧
    config.firmwareBuildFlags &&& ~~~buildFlagsKnown = 0 := by
  simp only [validateConfig, Outcome.unit_bind_eq_ok, ensureKnownU8_eq_ok] at h
  exact ⟨h.1, h.2.1⟩

/-- The read-back bitmap names configured steps only. -/
theorem validateConfig_readback :
    config.heaterReadbackValidBitmap &&&
      ~~~(Bitmap.lowMask config.expectedStepCount.toNat) = 0 := by
  have hc := (validateConfig_count h).2
  simp only [validateConfig, Outcome.unit_bind_eq_ok, Outcome.failIf_eq_ok, stepMask_eq hc,
    Outcome.ok_bind] at h
  exact not_not.mp h.2.2.2.2.2.2.2.2.2.2.2.1

theorem validateConfig_heaterStep {i : Nat} (hi : i < maxProfileSteps) :
    validateHeaterStep config config.steps[i] i = .ok () := by
  have hc := (validateConfig_count h).2
  simp only [validateConfig, Outcome.unit_bind_eq_ok, Outcome.failIf_eq_ok, stepMask_eq hc,
    Outcome.ok_bind, Outcome.forM_eq_ok] at h
  refine h.2.2.2.2.2.2.2.2.2.2.2.2.2.2.2.2.2.2.2.2.2 (config.steps[i], i) ?_
  simp [List.mem_zipIdx_iff_getElem?, hi]

/-- The slots past the step count are empty. -/
theorem validateConfig_unused {i : Nat} (hi : i < maxProfileSteps)
    (hu : config.expectedStepCount.toNat ≤ i) : config.steps[i] = .default := by
  have hs := validateConfig_heaterStep h hi
  simp only [validateHeaterStep, Outcome.unit_bind_eq_ok, Outcome.failIf_eq_ok] at hs
  by_contra hne
  exact hs.1 ⟨hu, hne⟩

/-- Refilling the slots with the used steps gives the slots back. -/
theorem heaterSlots_usedSteps : heaterSlots config.usedSteps = config.steps := by
  refine Vector.ext fun i hi => ?_
  rw [heaterSlots, Vector.getElem_ofFn]
  by_cases hu : i < config.expectedStepCount.toNat
  · simp [DeviceConfig.usedSteps, List.getD_eq_getElem?_getD, hu, hi]
  · have hd := validateConfig_unused h hi (not_lt.mp hu)
    simp [DeviceConfig.usedSteps, List.getD_eq_getElem?_getD, hu, hd]

end

/-! ### Writing -/

theorem writes_heaterStep (step : HeaterStepConfig) :
    Writer.Writes (writeHeaterStep step) (heaterStepLayout.put step) := by
  unfold writeHeaterStep
  iterate 5 refine (Writer.writes_bytes _).seq ?_
  exact Writer.writes_bytes _

theorem writes_configPayload {config : DeviceConfig} (h : config.expectedStepCount.toNat ≤ 10) :
    Writer.Writes (writeConfigPayload config) (configBytes config) := by
  have hs : (slice config.steps.toList 0 config.expectedStepCount.toNat : Result _) =
      .ok config.usedSteps := by
    rw [slice_eq (Nat.zero_le _) (by simpa using h)]
    rfl
  simp only [configBytes, configHeadLayout, configTailLayout, Layout.seq, List.append_assoc]
  unfold writeConfigPayload
  iterate 2 refine (Writer.writes_bytes _).seq ?_
  refine writes_version_seq _ ?_
  iterate 39 refine (Writer.writes_bytes _).seq ?_
  exact Writer.Writes.lift hs (Writer.writes_forM writes_heaterStep _)

/-! ### Reading -/

theorem readHeaterStep_at (step : HeaterStepConfig) (pre rest : List UInt8) :
    readHeaterStep (Reader.at_ pre (heaterStepLayout.put step ++ rest)) =
      .ok (step, Reader.at_ (pre ++ heaterStepLayout.put step) rest) := by
  simp only [readHeaterStep, heaterStepLayout, Layout.congr, Layout.seq, Equiv.coe_fn_symm_mk,
    Reader.u8, Reader.u16, Reader.u32, List.append_assoc, Reader.field_bind_at, Reader.pure_run]

theorem readHeaterSteps_at {steps : List HeaterStepConfig} (h : steps.length ≤ maxProfileSteps)
    (pre rest : List UInt8) :
    readHeaterSteps steps.length (Reader.at_ pre (steps.flatMap heaterStepLayout.put ++ rest)) =
      .ok (steps, Reader.at_ (pre ++ steps.flatMap heaterStepLayout.put) rest) := by
  rw [readHeaterSteps, if_pos h]
  exact Reader.mapM_at _ readHeaterStep_at _ _ pre rest (by simp)

/-- After the schema version, the reader of a configuration's bytes reads that configuration. -/
theorem readConfig_at {config : DeviceConfig} (hc : config.expectedStepCount.toNat ≤ 10)
    (hs : heaterSlots config.usedSteps = config.steps) {p : DeviceConfig × Reader} :
    (do Reader.failIf ((← Reader.u8) ≠ configSchemaVersion) (.invalidField "config_schema_version")
        readConfig : Read DeviceConfig) (Reader.at_ [] (configBytes config)) = .ok p ↔
      p = (config, Reader.at_ (configBytes config) []) := by
  have hu := length_usedSteps hc
  have hrows : ∀ (k : List HeaterStepConfig → Read DeviceConfig) (pre : List UInt8),
      (readHeaterSteps config.expectedStepCount.toNat >>= k)
        (Reader.at_ pre (config.usedSteps.flatMap heaterStepLayout.put)) =
      k config.usedSteps
        (Reader.at_ (pre ++ config.usedSteps.flatMap heaterStepLayout.put) []) := fun k pre => by
    have h := readHeaterSteps_at (hu.trans_le hc) pre []
    rw [hu, List.append_nil] at h
    show (readHeaterSteps _ _ >>= fun q => k q.1 q.2) = _
    rw [h]
    rfl
  simp only [configBytes, configHeadLayout, configTailLayout, Layout.seq, List.append_assoc,
    readConfig, readVersion, bind_assoc, pure_bind, Reader.u8, Reader.i8, Reader.u16, Reader.u32,
    Reader.u64, Reader.field_bind_at, Reader.failIf_bind_eq_ok, hrows, hs, Reader.pure_eq_ok,
    List.nil_append, ne_eq, not_true_eq_false, not_false_eq_true, true_and, Prod.mk.eta]

theorem take_heaterSlots {rows : List HeaterStepConfig} (h : rows.length ≤ maxProfileSteps) :
    (heaterSlots rows).toList.take rows.length = rows := by
  refine List.ext_getElem (by simp [h]) fun i h₁ h₂ => ?_
  simp [heaterSlots, List.getD_eq_getElem?_getD, h₂]

/-- A payload of the length its step count announces is the bytes of a configuration. -/
theorem exists_configBytes {payload : List UInt8} {n : UInt8} (hn : n.toNat ≤ 10)
    (hlen : payload.length = configBaseLen + n.toNat * configStepLen)
    (h₀ : payload[0]? = some configSchemaVersion) (h₄₃ : payload[43]? = some n) :
    ∃ config, payload = configBytes config ∧ config.expectedStepCount = n ∧
      heaterSlots config.usedSteps = config.steps := by
  obtain ⟨⟨schema, head⟩, rest, rfl, hr⟩ := configHeadLayout.exists_put_append
    payload (by rw [hlen, width_configHeadLayout, configBaseLen]; omega)
  obtain ⟨count, rest, rfl, hr'⟩ := Layout.u8.exists_put_append rest
    (by rw [hr, hlen, width_configHeadLayout, configBaseLen, Layout.width_u8]; omega)
  obtain ⟨tail, rest, rfl, hr''⟩ := configTailLayout.exists_put_append rest
    (by rw [hr', hr, hlen, width_configHeadLayout, width_configTailLayout, configBaseLen,
      Layout.width_u8]; omega)
  -- the two bytes the decoder looks at before it reads the rest
  obtain rfl : schema = configSchemaVersion := by
    simpa [configHeadLayout, Layout.seq, Layout.put_u8] using h₀
  have hw : (configHeadLayout.put (configSchemaVersion, head)).length = 43 :=
    configHeadLayout.length_put _
  obtain rfl : count = n := by
    rw [List.getElem?_append_right hw.le, hw, Layout.put_u8] at h₄₃
    simpa using h₄₃
  obtain ⟨rows, hrows, rfl⟩ := heaterStepLayout.exists_flatMap_put count.toNat rest
    (by rw [hr'', hr', hr, hlen, width_configHeadLayout, width_configTailLayout,
      width_heaterStepLayout, configBaseLen, Layout.width_u8]; omega)
  obtain ⟨flags, v₀, v₁, v₂, buildFlags, buildId, chip, variant, i2c, tOs, hOs, pOs, iir, standby,
    mode, heater, reqWait, waitReg, quantWait, tphg, duration, pid, pver⟩ := head
  obtain ⟨readback, hashAlg, hash, interval, repeats, routes, freq, power, sf, bw, crNum, crDen,
    preamble, headerMode, crc, iq, sync, maxLen, perFragment⟩ := tail
  have hused : (heaterSlots rows).toList.take count.toNat = rows := by
    rw [← hrows]
    exact take_heaterSlots (hrows.trans_le hn)
  refine ⟨⟨flags, (v₀, v₁, v₂), buildFlags, buildId, chip, variant, i2c, tOs, hOs, pOs, iir,
    standby, mode, heater, reqWait, waitReg, quantWait, tphg, duration, pid, pver, count, readback,
    hashAlg, hash, interval, repeats, routes, freq, power, sf, bw, crNum, crDen, preamble,
    headerMode, crc, iq, sync, maxLen, perFragment, heaterSlots rows⟩, ?_, rfl, ?_⟩
  · simp only [configBytes, DeviceConfig.usedSteps, hused]
  · simp only [DeviceConfig.usedSteps, hused]

/-! ### Decoding and encoding -/

theorem configBytes_getElem? (config : DeviceConfig) :
    (configBytes config)[0]? = some configSchemaVersion ∧
      (configBytes config)[1]? = some config.flags ∧
      (configBytes config)[5]? = some config.firmwareBuildFlags ∧
      (configBytes config)[43]? = some config.expectedStepCount := by
  refine ⟨?_, ?_, ?_, ?_⟩
  · simp [configBytes, configHeadLayout, Layout.seq, Layout.put_u8]
  · simp [configBytes, configHeadLayout, Layout.seq, Layout.put_u8]
  · simp [configBytes, configHeadLayout, Layout.seq, Layout.put_u8]
  · rw [configBytes, List.getElem?_append_right (by simp [width_configHeadLayout]),
      configHeadLayout.length_put, width_configHeadLayout, Layout.put_u8]
    rfl

theorem validateDecodedConfig_eq_ok {header : Header} {payload : List UInt8} :
    validateDecodedConfig header payload = .ok () ↔
      header.fragmentIndex = 0 ∧ header.fragmentCount = 1 ∧
        payload[0]? = some configSchemaVersion ∧
        (∃ n : UInt8, payload[43]? = some n ∧ 1 ≤ n ∧ n ≤ 10 ∧
          payload.length = configBaseLen + n.toNat * configStepLen) ∧
        (∃ flags, payload[1]? = some flags ∧ flags &&& ~~~configFlagsKnown = 0) ∧
        (∃ flags, payload[5]? = some flags ∧ flags &&& ~~~buildFlagsKnown = 0) ∧
        header.common.configId ≠ 0 ∧ fnv1a64 payload = header.common.configId := by
  simp only [validateDecodedConfig, Outcome.failIf_eq_ok, Outcome.bind_eq_ok, index_eq_ok,
    ensureKnownU8_eq_ok, not_or, not_not, not_lt, exists_const]
  constructor
  · rintro ⟨⟨hi, hn⟩, -, b, h₀, rfl, n, h₄₃, hn', hlen, f₁, h₁, hf₁, f₅, h₅, hf₅, hid, hh⟩
    exact ⟨hi, hn, h₀, ⟨n, h₄₃, hn'.1, hn'.2, hlen⟩, ⟨f₁, h₁, hf₁⟩, ⟨f₅, h₅, hf₅⟩, hid, hh⟩
  · rintro ⟨hi, hn, h₀, ⟨n, h₄₃, hn₁, hn₂, hlen⟩, ⟨f₁, h₁, hf₁⟩, ⟨f₅, h₅, hf₅⟩, hid, hh⟩
    exact ⟨⟨hi, hn⟩, by omega, _, h₀, rfl, n, h₄₃, ⟨hn₁, hn₂⟩, hlen, f₁, h₁, hf₁, f₅, h₅, hf₅,
      hid, hh⟩

/-- Under a header whose config ID is the hash of the payload, the bytes of the configurations
that pass `validateConfig` decode, and no others. -/
theorem decodeDeviceConfig_eq_ok {header : Header} {payload : List UInt8} {config : DeviceConfig} :
    decodeDeviceConfig header payload = .ok config ↔
      header.fragmentIndex = 0 ∧ header.fragmentCount = 1 ∧ header.common.configId ≠ 0 ∧
        fnv1a64 payload = header.common.configId ∧ payload = configBytes config ∧
        validateConfig config = .ok () := by
  unfold decodeDeviceConfig
  rw [Outcome.unit_bind_eq_ok, validateDecodedConfig_eq_ok]
  constructor
  · rintro ⟨⟨hi, hn, h₀, ⟨n, h₄₃, -, hn₂, hlen⟩, -, -, hid, hh⟩, hd⟩
    obtain ⟨config', rfl, rfl, hs⟩ :=
      exists_configBytes (UInt8.le_iff_toNat_le.mp hn₂) hlen h₀ h₄₃
    obtain ⟨p, hp, hd⟩ := Outcome.bind_eq_ok.mp hd
    obtain rfl := (readConfig_at (UInt8.le_iff_toNat_le.mp hn₂) hs).mp hp
    simp only [Reader.finish_at, Outcome.ok_bind, Outcome.unit_bind_eq_ok, Outcome.pure_eq_ok,
      Except.ok.injEq] at hd
    obtain ⟨hv, rfl⟩ := hd
    exact ⟨hi, hn, hid, hh, rfl, hv⟩
  · rintro ⟨hi, hn, hid, hh, rfl, hv⟩
    obtain ⟨h₀, h₁, h₅, h₄₃⟩ := configBytes_getElem? config
    obtain ⟨hc₁, hc₂⟩ := validateConfig_count hv
    obtain ⟨hf, hb⟩ := validateConfig_flags hv
    have hle := validateConfig_toNat_le hv
    refine ⟨⟨hi, hn, h₀, ⟨_, h₄₃, hc₁, hc₂, length_configBytes hle⟩, ⟨_, h₁, hf⟩, ⟨_, h₅, hb⟩,
      hid, hh⟩, Outcome.bind_eq_ok.mpr
        ⟨_, (readConfig_at hle (heaterSlots_usedSteps hv)).mpr rfl, ?_⟩⟩
    simp [hv]

theorem configPayloadLen_le {config : DeviceConfig} (h : config.expectedStepCount.toNat ≤ 10) :
    configPayloadLen config ≤ 183 := by
  simp only [configPayloadLen, configBaseLen, configStepLen]
  omega

theorem deviceConfigId_eq_ok {config : DeviceConfig} {id : UInt64} :
    deviceConfigId config = .ok id ↔
      validateConfig config = .ok () ∧ id ≠ 0 ∧ id = fnv1a64 (configBytes config) := by
  unfold deviceConfigId
  rw [Outcome.unit_bind_eq_ok]
  refine and_congr_right fun hv => ?_
  have hle := validateConfig_toNat_le hv
  have hfill := fillSlice_eq (configBaseLen + maxProfileSteps * configStepLen) 0
    (writes_configPayload hle)
    (by rw [length_configBytes hle]; exact (Nat.zero_add _).trans_le (configPayloadLen_le hle))
  rw [length_configBytes hle] at hfill
  simp only [hfill, Outcome.ok_bind, Outcome.unit_bind_eq_ok, Outcome.failIf_eq_ok,
    Outcome.pure_eq_ok, Except.ok.injEq]
  constructor
  · rintro ⟨hz, rfl⟩
    exact ⟨hz, rfl⟩
  · rintro ⟨hz, rfl⟩
    exact ⟨hz, rfl⟩

/-- The flags of a configuration frame. -/
def configFrameFlags (common : Common) (repeated : Bool) : UInt8 :=
  if repeated then common.flags ||| commonFlagConfigRepeat else common.flags

/-- The header of a configuration frame. -/
def configHeader (common : Common) (config : DeviceConfig) (repeated : Bool) : Header :=
  ⟨.deviceConfig, { common with
    configId := fnv1a64 (configBytes config), flags := configFrameFlags common repeated },
    0, 1, .ofNat (configPayloadLen config)⟩

@[simp] theorem configId_configHeader (common : Common) (config : DeviceConfig) (repeated : Bool) :
    (configHeader common config repeated).common.configId = fnv1a64 (configBytes config) := by
  rw [configHeader]

/-- An encoded configuration is the header with its hash, and its bytes. -/
theorem encodeDeviceConfig_eq_ok {common : Common} {config : DeviceConfig} {repeated : Bool}
    {bytes : List UInt8} :
    encodeDeviceConfig common config repeated = .ok bytes ↔
      validateConfig config = .ok () ∧ fnv1a64 (configBytes config) ≠ 0 ∧
        (configHeader common config repeated).Valid ∧
        bytes = headerBytes (configHeader common config repeated) ++ configBytes config := by
  unfold encodeDeviceConfig
  rw [Outcome.unit_bind_eq_ok]
  refine and_congr_right fun hv => ?_
  have hle := validateConfig_toNat_le hv
  have hlen := configPayloadLen_le hle
  have hfill := fillSlice_eq maxPhyFrameLen headerLen
    (writes_configPayload hle)
    (by rw [length_configBytes hle]; simp only [headerLen, maxPhyFrameLen]; omega)
  rw [length_configBytes hle] at hfill
  simp only [hfill, Outcome.ok_bind, Outcome.bind_eq_ok, deviceConfigId_eq_ok, encodeHeader_eq_ok,
    frameOf, Outcome.failIf_eq_ok, Outcome.pure_eq_ok, Except.ok.injEq]
  constructor
  · rintro ⟨id, ⟨-, hz, rfl⟩, header, ⟨hh, -, rfl⟩, u, -, rfl⟩
    exact ⟨hz, hh, rfl⟩
  · rintro ⟨hz, hh, rfl⟩
    refine ⟨_, ⟨hv, hz, rfl⟩, _, ⟨hh, ?_, rfl⟩, (), ?_, rfl⟩
    · simp only [headerLen, maxPhyFrameLen]; omega
    · simp only [headerLen]; omega

end Vesta.Protocol
