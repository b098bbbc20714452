import Vesta.Protocol.Any
import Vesta.Protocol.ConfigWire
import Vesta.Protocol.HealthWire
import Vesta.Protocol.ProfileWire

/-!
# Protocol — RoundTrip

Encoding and decoding are inverse to each other, for every kind of frame.

The equivalences of the wire modules are assembled frame by frame: `decode_config`,
`decode_fragment` and `decode_health` say of each kind which bytes decode to it.  From these,
`decode_encode` (what is encoded decodes to what was encoded) and `decodeAny_canonical` (what
decodes is the encoding of what it decodes to, so that no two byte strings decode alike).

A fragment is one window of a scan.  The other windows are not in its bytes, so the scan it is
shown to come from is a completion, `ProfileFragmentView.completion`, with placeholder steps there.
-/

namespace Vesta.Protocol

/-! ### What decodes to each kind of frame -/

/-- What `decode` returned, payload by payload. -/
theorem decode_eq_ok {b : List UInt8} {f : DecodedFrame} :
    decode b = .ok f ↔
      ∃ header payload, b = headerBytes header ++ payload ∧ header.Valid ∧
        payload.length = header.payloadLen.toNat ∧
        ((header.frameType = .deviceConfig ∧
            ∃ config, decodeDeviceConfig header payload = .ok config ∧
              f = .deviceConfig header config) ∨
          (header.frameType = .profileFragment ∧
            ∃ view, decodeProfileFragment header payload = .ok view ∧ f = .profileFragment view) ∨
          (header.frameType = .deviceHealth ∧
            ∃ health, decodeDeviceHealth header payload = .ok health ∧
              f = .deviceHealth header health)) := by
  simp only [decode, Outcome.bind_eq_ok, decodeHeader_eq_ok]
  constructor
  · rintro ⟨header, ⟨payload, rfl, hv, hlen⟩, _, hp, hd⟩
    rw [sliceFrom_append (length_headerBytes header)] at hp
    obtain rfl := Except.ok.inj hp
    refine ⟨header, payload, rfl, hv, hlen, ?_⟩
    cases ht : header.frameType <;> rw [ht] at hd <;>
      obtain ⟨x, hx, he⟩ := Outcome.bind_eq_ok.mp hd <;> cases he <;> simp [hx]
  · rintro ⟨header, payload, rfl, hv, hlen, hd⟩
    refine ⟨header, ⟨payload, rfl, hv, hlen⟩, payload,
      sliceFrom_append (length_headerBytes header), ?_⟩
    rcases hd with ⟨ht, x, hx, rfl⟩ | ⟨ht, x, hx, rfl⟩ | ⟨ht, x, hx, rfl⟩ <;>
      simp [ht, hx]

theorem decode_config {b : List UInt8} {header : Header} {config : DeviceConfig} :
    decode b = .ok (.deviceConfig header config) ↔
      header.frameType = .deviceConfig ∧ header.Valid ∧
        header.payloadLen.toNat = (configBytes config).length ∧ header.fragmentIndex = 0 ∧
        header.fragmentCount = 1 ∧ header.common.configId ≠ 0 ∧
        fnv1a64 (configBytes config) = header.common.configId ∧
        validateConfig config = .ok () ∧ b = headerBytes header ++ configBytes config := by
  simp only [decode_eq_ok, decodeDeviceConfig_eq_ok]
  constructor
  · rintro ⟨_, _, rfl, hv, hl, ⟨ht, _, ⟨hi, hn, hz, hid, rfl, hc⟩, hf⟩ | ⟨-, _, -, hf⟩ |
      ⟨-, _, -, hf⟩⟩ <;> cases hf
    exact ⟨ht, hv, hl.symm, hi, hn, hz, hid, hc, rfl⟩
  · rintro ⟨ht, hv, hl, hi, hn, hz, hid, hc, rfl⟩
    exact ⟨header, _, rfl, hv, hl.symm, .inl ⟨ht, config, ⟨hi, hn, hz, hid, rfl, hc⟩, rfl⟩⟩

theorem decode_fragment {b : List UInt8} {view : ProfileFragmentView} :
    decode b = .ok (.profileFragment view) ↔
      view.header.frameType = .profileFragment ∧ view.header.Valid ∧
        view.header.payloadLen.toNat = (fragmentBytes view).length ∧ view.Valid ∧
        b = fragmentFrame view := by
  simp only [decode_eq_ok, decodeProfileFragment_eq_ok]
  constructor
  · rintro ⟨_, _, rfl, hv, hl, ⟨-, _, -, hf⟩ | ⟨ht, _, ⟨rfl, hw, rfl⟩, hf⟩ | ⟨-, _, -, hf⟩⟩ <;>
      cases hf
    exact ⟨ht, hv, hl.symm, hw, rfl⟩
  · rintro ⟨ht, hv, hl, hw, rfl⟩
    exact ⟨view.header, _, rfl, hv, hl.symm, .inr (.inl ⟨ht, view, ⟨rfl, hw, rfl⟩, rfl⟩)⟩

theorem decode_health {b : List UInt8} {header : Header} {health : DeviceHealth} :
    decode b = .ok (.deviceHealth header health) ↔
      header.frameType = .deviceHealth ∧ header.Valid ∧
        header.payloadLen.toNat = (healthBytes health).length ∧ header.fragmentIndex = 0 ∧
        header.fragmentCount = 1 ∧ validateHealthFlags header.common health.flags = .ok () ∧
        validateHealthConfigIdentity header.common health = .ok () ∧
        b = headerBytes header ++ healthBytes health := by
  simp only [decode_eq_ok, decodeDeviceHealth_eq_ok]
  constructor
  · rintro ⟨_, _, rfl, hv, hl, ⟨-, _, -, hf⟩ | ⟨-, _, -, hf⟩ |
        ⟨ht, _, ⟨hi, hn, hh, hc, rfl⟩, hf⟩⟩ <;>
      cases hf
    exact ⟨ht, hv, hl.symm, hi, hn, hh, hc, rfl⟩
  · rintro ⟨ht, hv, hl, hi, hn, hh, hc, rfl⟩
    exact ⟨header, _, rfl, hv, hl.symm, .inr (.inr ⟨ht, health, ⟨hi, hn, hh, hc, rfl⟩, rfl⟩)⟩

/-! ### Either version -/

theorem TelemetryV1.length_encode (f : TelemetryV1) : f.encode.length = frameLen := by
  rw [encode_eq, bytes, Layout.length_put, width_layout]

theorem TelemetryV1.encode_discriminator (f : TelemetryV1) :
    f.encode[0]? = some magic.1 ∧ f.encode[1]? = some magic.2 ∧ f.encode[2]? = some version := by
  rw [encode_eq]
  refine ⟨?_, ?_, ?_⟩ <;> simp [bytes, layout, Layout.seq, Layout.put_u8]

/-- The bytes that `decodeAny` looks at, and what it then does. -/
theorem decodeAny_eq_ok {b : List UInt8} {t : DecodedTelemetry} :
    decodeAny b = .ok t ↔
      b[0]? = some magic.1 ∧ b[1]? = some magic.2 ∧
        ((b[2]? = some version ∧ ∃ f, TelemetryV1.decode b = .ok f ∧ t = .v1 f) ∨
          (b[2]? = some versionV2 ∧ ∃ f, decode b = .ok f ∧ t = .v2 f)) := by
  simp only [decodeAny, Outcome.bind_eq_ok, Outcome.failIf_eq_ok, index_eq_ok, exists_const,
    not_not, not_lt]
  constructor
  · rintro ⟨-, m₀, h₀, m₁, h₁, hm, v, h₂, hd⟩
    obtain ⟨rfl, rfl⟩ := Prod.mk.injEq .. ▸ hm
    refine ⟨h₀, h₁, ?_⟩
    by_cases hv : v = version
    · rw [if_pos hv, Outcome.bind_eq_ok] at hd
      obtain ⟨f, hf, he⟩ := hd
      cases he
      exact .inl ⟨hv ▸ h₂, f, Outcome.mapErr_eq_ok.mp hf, rfl⟩
    · rw [if_neg hv] at hd
      by_cases hv' : v = versionV2
      · rw [if_pos hv', Outcome.bind_eq_ok] at hd
        obtain ⟨f, hf, he⟩ := hd
        cases he
        exact .inr ⟨hv' ▸ h₂, f, Outcome.mapErr_eq_ok.mp hf, rfl⟩
      · rw [if_neg hv'] at hd
        cases hd
  · rintro ⟨h₀, h₁, ⟨h₂, f, hf, rfl⟩ | ⟨h₂, f, hf, rfl⟩⟩
    all_goals
      obtain ⟨hlt, -⟩ := List.getElem?_eq_some_iff.mp h₂
      refine ⟨hlt, _, h₀, _, h₁, rfl, _, h₂, ?_⟩
    · rw [if_pos rfl, Outcome.mapErr_eq_ok.mpr hf]
      rfl
    · rw [if_neg (by decide), if_pos rfl, Outcome.mapErr_eq_ok.mpr hf]
      rfl

theorem decodeAny_v1 {b : List UInt8} {f : TelemetryV1} :
    decodeAny b = .ok (.v1 f) ↔ b = f.encode := by
  rw [decodeAny_eq_ok]
  constructor
  · rintro ⟨-, -, ⟨-, f', hf, he⟩ | ⟨-, f', -, he⟩⟩ <;> cases he
    exact TelemetryV1.decode_eq_ok.mp hf
  · intro hb
    have hd := TelemetryV1.decode_eq_ok.mpr hb
    obtain ⟨h₀, h₁, h₂⟩ := f.encode_discriminator
    rw [← hb] at h₀ h₁ h₂
    exact ⟨h₀, h₁, .inl ⟨h₂, f, hd, rfl⟩⟩

theorem decodeAny_v2 {b : List UInt8} {f : DecodedFrame} :
    decodeAny b = .ok (.v2 f) ↔ decode b = .ok f := by
  rw [decodeAny_eq_ok]
  constructor
  · rintro ⟨-, -, ⟨-, f', -, he⟩ | ⟨-, f', hf, he⟩⟩ <;> cases he
    exact hf
  · intro h
    obtain ⟨header, payload, rfl, -⟩ := decode_eq_ok.mp h
    refine ⟨?_, ?_, .inr ⟨?_, f, h, rfl⟩⟩ <;>
      simp [headerBytes, headerLayout, Layout.seq, Layout.put_u8]

/-! ### Configurations and health -/

/-- A payload length written as a `u16` reads back. -/
theorem toNat_payloadLen {n : Nat} (h : n ≤ 207) : (UInt16.ofNat n).toNat = n :=
  UInt16.toNat_ofNat_of_lt' (lt_of_le_of_lt h (by decide))

theorem decode_encodeDeviceConfig {c : Common} {config : DeviceConfig} {repeated : Bool}
    {frame : List UInt8} (h : encodeDeviceConfig c config repeated = .ok frame) :
    decode frame = .ok (.deviceConfig (configHeader c config repeated) config) := by
  obtain ⟨hc, hz, hv, rfl⟩ := encodeDeviceConfig_eq_ok.mp h
  have hle := validateConfig_toNat_le hc
  refine decode_config.mpr ⟨rfl, hv, ?_, rfl, rfl, by rwa [configId_configHeader],
    (configId_configHeader c config repeated).symm, hc, rfl⟩
  rw [length_configBytes hle]
  have hlen := configPayloadLen_le hle
  exact toNat_payloadLen (by omega)

theorem decode_encodeDeviceHealth {c : Common} {health : DeviceHealth} {frame : List UInt8}
    (h : encodeDeviceHealth c health = .ok frame) :
    decode frame = .ok (.deviceHealth (healthHeader c health) health) := by
  obtain ⟨hf, hc, hv, rfl⟩ := encodeDeviceHealth_eq_ok.mp h
  have hle := health.extensionLen_le
  refine decode_health.mpr ⟨rfl, hv, ?_, rfl, rfl, hf, hc, rfl⟩
  rw [length_healthBytes]
  exact toNat_payloadLen (by simp only [healthBaseLen]; omega)

/-- A header is determined by its common fields, its coordinates and its payload length. -/
theorem Header.ext_toNat {h h' : Header} (ht : h.frameType = h'.frameType)
    (hc : h.common = h'.common) (hi : h.fragmentIndex = h'.fragmentIndex)
    (hn : h.fragmentCount = h'.fragmentCount) (hl : h.payloadLen.toNat = h'.payloadLen.toNat) :
    h = h' := by
  obtain ⟨t, c, i, n, l⟩ := h
  obtain ⟨t', c', i', n', l'⟩ := h'
  simp only at ht hc hi hn hl
  rw [ht, hc, hi, hn, UInt16.toNat_inj.mp hl]

theorem encodeDeviceConfig_decode {b : List UInt8} {header : Header} {config : DeviceConfig}
    (h : decode b = .ok (.deviceConfig header config)) :
    encodeDeviceConfig header.common config false = .ok b := by
  obtain ⟨ht, hv, hl, hi, hn, hz, hid, hc, rfl⟩ := decode_config.mp h
  have hle := validateConfig_toNat_le hc
  have hh : configHeader header.common config false = header := by
    refine Header.ext_toNat ht.symm ?_ hi.symm hn.symm ?_
    · simp only [configHeader, configFrameFlags, hid]
      rfl
    · rw [hl, length_configBytes hle]
      have hlen := configPayloadLen_le hle
      exact toNat_payloadLen (by omega)
  exact encodeDeviceConfig_eq_ok.mpr ⟨hc, hid ▸ hz, hh.symm ▸ hv, by rw [hh]⟩

theorem encodeDeviceHealth_decode {b : List UInt8} {header : Header} {health : DeviceHealth}
    (h : decode b = .ok (.deviceHealth header health)) :
    encodeDeviceHealth header.common health = .ok b := by
  obtain ⟨ht, hv, hl, hi, hn, hf, hc, rfl⟩ := decode_health.mp h
  have hle := health.extensionLen_le
  have hh : healthHeader header.common health = header := by
    refine Header.ext_toNat ht.symm rfl hi.symm hn.symm ?_
    rw [hl, length_healthBytes]
    exact toNat_payloadLen (by simp only [healthBaseLen]; omega)
  exact encodeDeviceHealth_eq_ok.mpr ⟨hf, hc, hh.symm ▸ hv, by rw [hh]⟩

/-! ### Profiles -/

section
variable {c : Common} {scan : ProfileScan}

/-- The view of fragment `k` of a scan that passes the checks carries the steps of window `k`. -/
theorem carries_fragmentView (h : validateProfile scan = .ok ()) {k : Nat}
    (hk : k < fragmentsOf scan.expectedStepCount.toNat) :
    (fragmentView c scan k).Carries (scan.stepsIn k) := by
  obtain ⟨hm, hs⟩ := validateProfile_eq_ok.mp h
  have hn : scan.expectedStepCount.toNat ≤ 10 := (ScanMeta.toNat_count hm.count).2
  have hk' : (UInt8.ofNat k).toNat = k :=
    UInt8.toNat_ofNat_of_lt' (lt_trans hk (lt_of_le_of_lt (fragmentsOf_le hn) (by decide)))
  obtain ⟨hidx, hval⟩ := filterMap_slot hs
    (stepWindow scan.expectedStepCount.toNat k) fun i hi =>
      have hlt := (mem_stepWindow.mp hi).2.2
      ⟨hlt, lt_of_lt_of_le hlt hn⟩
  refine ⟨rfl, rfl, ?_, hval⟩
  show _ = presentIn scan.missingStepsBitmap
    (stepWindow scan.expectedStepCount.toNat (UInt8.ofNat k).toNat)
  rw [hk']
  exact hidx

theorem valid_fragmentView (h : validateProfile scan = .ok ())
    (hc : validateProfileConfigIdentity c scan.collectionFlags scan.finishReason = .ok ()) {k : Nat}
    (hk : k < fragmentsOf scan.expectedStepCount.toNat) : (fragmentView c scan k).Valid := by
  obtain ⟨hm, -⟩ := validateProfile_eq_ok.mp h
  have h4 := fragmentsOf_le (ScanMeta.toNat_count hm.count).2
  have hk4 : k < 4 := lt_of_lt_of_le hk h4
  refine ⟨hm, hc, rfl, ?_, _, carries_fragmentView h hk⟩
  show (UInt8.ofNat (k * stepsPerFragment)).toNat = (UInt8.ofNat k).toNat * stepsPerFragment
  rw [UInt8.toNat_ofNat_of_lt' (by simp only [UInt8.size, stepsPerFragment]; omega),
    UInt8.toNat_ofNat_of_lt' (by simp only [UInt8.size]; omega)]

theorem decode_fragmentFrame (h : validateProfile scan = .ok ())
    (hc : validateProfileConfigIdentity c scan.collectionFlags scan.finishReason = .ok ())
    (hcv : c.Valid) {k : Nat} (hk : k < fragmentsOf scan.expectedStepCount.toNat) :
    decode (fragmentFrame (fragmentView c scan k)) =
      .ok (.profileFragment (fragmentView c scan k)) := by
  obtain ⟨hm, -⟩ := validateProfile_eq_ok.mp h
  have h3 := scan.length_stepsIn_le k
  refine decode_fragment.mpr ⟨rfl, (header_fragmentView_valid c
    (ScanMeta.toNat_count hm.count).2 hk).mpr hcv, ?_, valid_fragmentView h hc hk, rfl⟩
  rw [length_fragmentBytes_fragmentView]
  exact toNat_payloadLen (by simp only [profileFragmentMetaLen, profileStepLen]; omega)

end

/-- Reading the steps of a view one after the other. -/
def ProfileFragmentView.readSteps (v : ProfileFragmentView) : Result (List ProfileStep) :=
  (List.range v.stepsInFragment.toNat).mapM v.step

theorem ProfileFragmentView.Carries.readSteps {v : ProfileFragmentView} {steps : List ProfileStep}
    (h : v.Carries steps) : v.readSteps = .ok steps := by
  rw [ProfileFragmentView.readSteps, h.toNat_count, List.range_eq_range']
  refine Outcome.mapM_range'_eq_ok fun j hj => ?_
  rw [Nat.zero_add]
  exact h.step hj

/-! ### Completions -/

/-- A step with index `i` that passes `validateProfileStep`. -/
def placeholder (i : Nat) : ProfileStep where
  stepIndex := .ofNat i
  gasIndex := .ofNat i
  measurementIndex := 0
  status := 0
  rawMeasurementStatus := .ofNat i
  rawGasStatus := 0
  targetTemperatureCelsius := 0
  configuredDurationUs := 0
  offsetUs := 0
  temperatureCentiCelsius := 0
  pressurePascal := 0
  humidityMilliPercentRh := 0
  gasResistanceOhm := 0
  temperatureAdc := 0
  pressureAdc := 0
  humidityAdc := 0
  gasResistanceAdc := 0
  gasRange := 0
  repetitionMultiplier := 0
  heaterResistance := 0
  heaterCurrent := 0
  gasWait := 0

theorem validate_placeholder : ∀ i < maxProfileSteps,
    (placeholder i).stepIndex.toNat = i ∧ validateProfileStep (placeholder i) = .ok () := by
  decide

/-- A scan with the metadata of a fragment, `steps` in their own slots, and placeholders in the
other slots that are present. -/
def ScanMeta.completion (m : ScanMeta) (steps : List ProfileStep) : ProfileScan :=
  m.scan (Vector.ofFn fun i =>
    if i.val < m.expectedStepCount.toNat ∧ Bitmap.has m.missingStepsBitmap i = false then
      some ((steps.find? fun s => s.stepIndex.toNat == i.val).getD (placeholder i))
    else none)

section
variable {m : ScanMeta} {steps : List ProfileStep}

theorem slot_completion {i : Nat} (hi : i < maxProfileSteps) :
    (m.completion steps).slot i =
      if i < m.expectedStepCount.toNat ∧ Bitmap.has m.missingStepsBitmap i = false then
        some ((steps.find? fun s => s.stepIndex.toNat == i).getD (placeholder i))
      else none := by
  simp [ProfileScan.slot, ScanMeta.completion, ScanMeta.scan, hi]

theorem validateProfile_completion (hm : m.Valid)
    (hs : ∀ s ∈ steps, validateProfileStep s = .ok ()) :
    validateProfile (m.completion steps) = .ok () := by
  refine validateProfile_eq_ok.mpr ⟨hm, fun i hi => ?_⟩
  rw [ProfileScan.SlotOk, slot_completion hi]
  show if i < m.expectedStepCount.toNat ∧ Bitmap.has m.missingStepsBitmap i = false then _ else _
  split
  · refine ⟨_, rfl, ?_⟩
    cases hf : steps.find? fun s => s.stepIndex.toNat == i with
    | none => exact validate_placeholder i hi
    | some s =>
        have hidx := List.find?_some hf
        exact ⟨by simpa using hidx, hs s (List.mem_of_find?_eq_some hf)⟩
  · rfl

/-- The completion holds the given steps in a window they fill. -/
theorem stepsIn_completion {k : Nat} (hm : m.Valid)
    (hidx : steps.map (fun s => s.stepIndex.toNat) =
      presentIn m.missingStepsBitmap (stepWindow m.expectedStepCount.toNat k)) :
    (m.completion steps).stepsIn k = steps := by
  have hn : m.expectedStepCount.toNat ≤ 10 := (ScanMeta.toNat_count hm.count).2
  -- the slots of the window are the found steps
  have hslots : (m.completion steps).stepsIn k =
      (presentIn m.missingStepsBitmap (stepWindow m.expectedStepCount.toNat k)).map fun i =>
        (steps.find? fun s => s.stepIndex.toNat == i).getD (placeholder i) := by
    rw [presentIn, ← List.filterMap_eq_map, List.filterMap_filter]
    refine List.filterMap_congr fun i hi => ?_
    have hlt : i < m.expectedStepCount.toNat := (mem_stepWindow.mp hi).2.2
    rw [slot_completion (lt_of_lt_of_le hlt hn)]
    by_cases hb : Bitmap.has m.missingStepsBitmap i <;> simp [hlt, hb]
  -- and each index finds its own step
  have hnodup : (steps.map fun s => s.stepIndex.toNat).Nodup := by
    rw [hidx, presentIn, stepWindow]
    exact List.Nodup.filter _ List.nodup_range'
  rw [hslots, ← hidx, List.map_map]
  conv_rhs => rw [← List.map_id steps]
  refine List.map_congr_left fun s hs => ?_
  have hfind : (steps.find? fun t => t.stepIndex.toNat == s.stepIndex.toNat) = some s := by
    cases hf : steps.find? fun t => t.stepIndex.toNat == s.stepIndex.toNat with
    | none => exact absurd (List.find?_eq_none.mp hf s hs) (by simp)
    | some t =>
        have ht := List.find?_some hf
        rw [List.inj_on_of_nodup_map hnodup (List.mem_of_find?_eq_some hf) hs (by simpa using ht)]
  simp [hfind]

end

/-- **A fragment is a frame of a scan.**  A decoded fragment is the frame, at its own index, of a
scan with its metadata that holds its steps in its window. -/
theorem encodeProfile_decode {b : List UInt8} {v : ProfileFragmentView}
    (h : decode b = .ok (.profileFragment v)) :
    ∃ scan steps frames, scan.scanMeta = v.scanMeta ∧ v.readSteps = .ok steps ∧
      windowSteps scan v.header.fragmentIndex.toNat = .ok steps ∧
      encodeProfile v.header.common scan = .ok frames ∧
      frames[v.header.fragmentIndex.toNat]? = some b := by
  obtain ⟨ht, hv, hl, ⟨hm, hcfg, hcount, hstart, steps, hs⟩, rfl⟩ := decode_fragment.mp h
  have hn : v.expectedStepCount.toNat ≤ 10 := (ScanMeta.toNat_count hm.count).2
  have h4 := fragmentsOf_le hn
  have hk : v.header.fragmentIndex.toNat < fragmentsOf v.expectedStepCount.toNat := by
    have hlt := UInt8.lt_iff_toNat_lt.mp hv.index
    rwa [hcount, UInt8.toNat_ofNat_of_lt' (lt_of_le_of_lt h4 (by decide))] at hlt
  have hsteps := stepsIn_completion hm hs.indices
  have hview : fragmentView v.header.common (v.scanMeta.completion steps)
      v.header.fragmentIndex.toNat = v := by
    have hstart' : UInt8.ofNat (v.header.fragmentIndex.toNat * stepsPerFragment) =
        v.stepWindowStart := by
      rw [← hstart, UInt8.ofNat_toNat]
    have hheader : (⟨.profileFragment, v.header.common, .ofNat v.header.fragmentIndex.toNat,
        .ofNat (fragmentsOf v.expectedStepCount.toNat),
        .ofNat (profileFragmentMetaLen + steps.length * profileStepLen)⟩ : Header) = v.header := by
      refine Header.ext_toNat ht.symm rfl UInt8.ofNat_toNat hcount.symm ?_
      have h3 := hs.length_le
      rw [hl, length_fragmentBytes, hs.length_stepBytes]
      exact toNat_payloadLen (by simp only [profileFragmentMetaLen, profileStepLen]; omega)
    rw [fragmentView, hsteps, hstart', ← hs.count, ← hs.bytes]
    refine Eq.trans ?_ v.eq_view.symm
    exact congrArg (fun h => v.scanMeta.view h v.stepWindowStart v.stepsInFragment v.stepBytes)
      hheader
  refine ⟨v.scanMeta.completion steps, steps, _, rfl, hs.readSteps,
    (windowSteps_eq hn hk).trans (congrArg _ hsteps),
    encodeProfile_eq_ok.mpr ⟨validateProfile_completion hm hs.valid, hcfg, hv.common, rfl⟩, ?_⟩
  show ((List.range (fragmentsOf v.expectedStepCount.toNat)).map _)[_]? = _
  rw [List.getElem?_map, List.getElem?_range hk, Option.map_some, hview]

/-- The frames of a scan decode to its fragments. -/
theorem decode_encodeProfile {c : Common} {scan : ProfileScan} {frames : List (List UInt8)}
    (h : encodeProfile c scan = .ok frames) :
    frames.length = fragmentsOf scan.expectedStepCount.toNat ∧
      frames.mapM decode = .ok (((List.range (fragmentsOf scan.expectedStepCount.toNat)).map
        (fragmentView c scan)).map .profileFragment) := by
  obtain ⟨hs, hc, hcv, rfl⟩ := encodeProfile_eq_ok.mp h
  refine ⟨by simp, ?_⟩
  rw [List.mapM_map, List.map_map]
  exact Outcome.mapM_eq_map fun k hk => decode_fragmentFrame hs hc hcv (List.mem_range.mp hk)

/-- Read in order, the steps of the fragments are the present steps of the scan. -/
theorem readSteps_fragmentView {c : Common} {scan : ProfileScan}
    (h : validateProfile scan = .ok ()) :
    ((List.range (fragmentsOf scan.expectedStepCount.toNat)).map (fragmentView c scan)).mapM
        ProfileFragmentView.readSteps =
      .ok ((List.range (fragmentsOf scan.expectedStepCount.toNat)).map scan.stepsIn) := by
  rw [List.mapM_map]
  exact Outcome.mapM_eq_map fun k hk =>
    (carries_fragmentView h (List.mem_range.mp hk)).readSteps

/-! ### The round trips -/

/-- **Decoding undoes encoding.**  An encoded configuration or health record decodes to the record,
under the common fields it was encoded with, except that a configuration's header carries its ID
and the repeat flag.  The frames of an encoded scan decode to its fragments, in order; read in
order, their steps are the present steps of the scan in ascending order. -/
theorem decode_encode (c : Common) :
    (∀ config repeated frame, encodeDeviceConfig c config repeated = .ok frame →
      ∃ header id, decode frame = .ok (.deviceConfig header config) ∧
        deviceConfigId config = .ok id ∧
        header.common = { c with
          configId := id
          flags := if repeated then c.flags ||| commonFlagConfigRepeat else c.flags }) ∧
    (∀ health frame, encodeDeviceHealth c health = .ok frame →
      ∃ header, decode frame = .ok (.deviceHealth header health) ∧ header.common = c) ∧
    (∀ scan frames, encodeProfile c scan = .ok frames →
      frames.length = (scan.expectedStepCount.toNat + 2) / 3 ∧
      ∃ views : List ProfileFragmentView,
        frames.mapM decode = .ok (views.map .profileFragment) ∧
        (∀ (k : Nat) (view : ProfileFragmentView), views[k]? = some view →
          view.header.common = c ∧ view.header.fragmentIndex.toNat = k ∧
            view.header.fragmentCount.toNat = frames.length ∧ view.scanMeta = scan.scanMeta) ∧
        (∃ stepLists, views.mapM ProfileFragmentView.readSteps = .ok stepLists ∧
          stepLists.flatten = scan.steps.toList.filterMap id) ∧
        (scan.steps.toList.filterMap id).Pairwise fun s t => s.stepIndex < t.stepIndex) := by
  refine ⟨fun config repeated frame h => ?_, fun health frame h => ?_, fun scan frames h => ?_⟩
  · obtain ⟨hc, hz, -, -⟩ := encodeDeviceConfig_eq_ok.mp h
    exact ⟨_, fnv1a64 (configBytes config), decode_encodeDeviceConfig h,
      deviceConfigId_eq_ok.mpr ⟨hc, hz, rfl⟩, by rw [configHeader, configFrameFlags]⟩
  · exact ⟨_, decode_encodeDeviceHealth h, rfl⟩
  · obtain ⟨hlen, hdec⟩ := decode_encodeProfile h
    obtain ⟨hs, -, -, -⟩ := encodeProfile_eq_ok.mp h
    -- at most ten steps, so at most four fragments, whose indices fit their bytes
    obtain ⟨hm, hslots⟩ := validateProfile_eq_ok.mp hs
    have hn : scan.expectedStepCount.toNat ≤ 10 := (ScanMeta.toNat_count hm.count).2
    have h4 := fragmentsOf_le hn
    refine ⟨hlen, _, hdec, fun k view hview => ?_, ⟨_, readSteps_fragmentView hs, ?_⟩,
      pairwise_present hslots hn⟩
    · obtain ⟨hk, rfl⟩ : k < fragmentsOf scan.expectedStepCount.toNat ∧
          fragmentView c scan k = view := by
        simpa [List.getElem?_eq_some_iff] using hview
      refine ⟨rfl, ?_, ?_, rfl⟩
      · exact UInt8.toNat_ofNat_of_lt' (by simp only [UInt8.size]; omega)
      · rw [hlen]
        exact UInt8.toNat_ofNat_of_lt' (by simp only [UInt8.size]; omega)
    · rw [← List.flatMap_def]
      exact flatMap_stepsIn hslots hn

theorem decode_injective {b b' : List UInt8} {f : DecodedFrame} (h : decode b = .ok f)
    (h' : decode b' = .ok f) : b = b' := by
  cases f with
  | deviceConfig header config =>
      obtain ⟨-, -, -, -, -, -, -, -, rfl⟩ := decode_config.mp h
      obtain ⟨-, -, -, -, -, -, -, -, rfl⟩ := decode_config.mp h'
      rfl
  | profileFragment view =>
      obtain ⟨-, -, -, -, rfl⟩ := decode_fragment.mp h
      obtain ⟨-, -, -, -, rfl⟩ := decode_fragment.mp h'
      rfl
  | deviceHealth header health =>
      obtain ⟨-, -, -, -, -, -, -, rfl⟩ := decode_health.mp h
      obtain ⟨-, -, -, -, -, -, -, rfl⟩ := decode_health.mp h'
      rfl

theorem length_le_of_decode {b : List UInt8} {f : DecodedFrame} (h : decode b = .ok f) :
    b.length ≤ 231 := by
  cases f with
  | deviceConfig header config =>
      obtain ⟨-, -, -, -, -, -, -, hc, rfl⟩ := decode_config.mp h
      have hle := validateConfig_toNat_le hc
      have hlen := configPayloadLen_le hle
      rw [List.length_append, length_headerBytes, length_configBytes hle, headerLen]
      omega
  | profileFragment view =>
      obtain ⟨-, -, -, ⟨-, -, -, -, steps, hs⟩, rfl⟩ := decode_fragment.mp h
      have h3 := hs.length_le
      rw [fragmentFrame, List.length_append, length_headerBytes, length_fragmentBytes,
        hs.length_stepBytes, headerLen, profileFragmentMetaLen, profileStepLen]
      omega
  | deviceHealth header health =>
      obtain ⟨-, -, -, -, -, -, -, rfl⟩ := decode_health.mp h
      have hle := health.extensionLen_le
      rw [List.length_append, length_headerBytes, length_healthBytes, headerLen, healthBaseLen]
      omega

/-- **What decodes is canonical.**  Every accepted byte string is the encoding of the frame it
decodes to; so no two decode to the same frame, and none is longer than 231 bytes. -/
theorem decodeAny_canonical (b : List UInt8) :
    (∀ f, decodeAny b = .ok (.v1 f) ↔ b = f.encode) ∧
    (∀ header config, decodeAny b = .ok (.v2 (.deviceConfig header config)) →
      encodeDeviceConfig header.common config false = .ok b) ∧
    (∀ header health, decodeAny b = .ok (.v2 (.deviceHealth header health)) →
      encodeDeviceHealth header.common health = .ok b) ∧
    (∀ v, decodeAny b = .ok (.v2 (.profileFragment v)) →
      ∃ scan steps frames, scan.scanMeta = v.scanMeta ∧ v.readSteps = .ok steps ∧
        windowSteps scan v.header.fragmentIndex.toNat = .ok steps ∧
        encodeProfile v.header.common scan = .ok frames ∧
        frames[v.header.fragmentIndex.toNat]? = some b) ∧
    (∀ b' t, decodeAny b = .ok t → decodeAny b' = .ok t → b = b') ∧
    (∀ t, decodeAny b = .ok t → b.length ≤ 231) := by
  refine ⟨fun f => decodeAny_v1, fun header config h => ?_, fun header health h => ?_,
    fun v h => ?_, fun b' t h h' => ?_, fun t h => ?_⟩
  · exact encodeDeviceConfig_decode (decodeAny_v2.mp h)
  · exact encodeDeviceHealth_decode (decodeAny_v2.mp h)
  · exact encodeProfile_decode (decodeAny_v2.mp h)
  · cases t with
    | v1 f => rw [decodeAny_v1.mp h, decodeAny_v1.mp h']
    | v2 f => exact decode_injective (decodeAny_v2.mp h) (decodeAny_v2.mp h')
  · cases t with
    | v1 f =>
        rw [decodeAny_v1.mp h, TelemetryV1.length_encode]
        decide
    | v2 f => exact length_le_of_decode (decodeAny_v2.mp h)

end Vesta.Protocol
