import Vesta.Receiver.Fragment

/-!
# Receiver — Device

The records that the receiver makes of configuration and health frames.  A decoded configuration is
converted without a panic and passes the checks of `records.rs`, and neither conversion loses
anything: equal records come from equal frames.
-/

namespace Vesta.Receiver

open Protocol (DecodedFrame DeviceConfig Header HeaterStepConfig Common validateConfig)

/-! ### Identities -/

theorem common_of_recordIdentity {header header' : Header}
    (h : recordIdentity header = recordIdentity header') : header.common = header'.common := by
  obtain ⟨t, ⟨c1, c2, c3, c4, c5, c6, c7⟩, i, n, l⟩ := header
  obtain ⟨t', ⟨d1, d2, d3, d4, d5, d6, d7⟩, i', n', l'⟩ := header'
  obtain ⟨rfl, rfl, rfl, rfl, rfl, rfl, rfl⟩ := RecordIdentity.mk.injEq .. ▸ h
  rfl

/-! ### Configurations -/

/-- The record of a heater step at its position. -/
def heaterStepConfiguration (p : HeaterStepConfig × Nat) : HeaterStepConfiguration :=
  ⟨.ofNat p.2, p.1.targetTemperatureCelsius, p.1.configuredDurationUs,
    p.1.repetitionMultiplier, p.1.readbackHeaterCurrent, p.1.programmedHeaterResistance,
    p.1.programmedGasWait⟩

theorem step_of_heaterStepConfiguration {p p' : HeaterStepConfig × Nat}
    (h : heaterStepConfiguration p = heaterStepConfiguration p') : p.1 = p'.1 := by
  obtain ⟨⟨a1, a2, a3, a4, a5, a6⟩, i⟩ := p
  obtain ⟨⟨b1, b2, b3, b4, b5, b6⟩, i'⟩ := p'
  obtain ⟨-, rfl, rfl, rfl, rfl, rfl, rfl⟩ := HeaterStepConfiguration.mk.injEq .. ▸ h
  rfl

/-- The records of heater steps keep every step. -/
theorem heaterSteps_injective {steps steps' : List HeaterStepConfig}
    (h : steps.zipIdx.map heaterStepConfiguration = steps'.zipIdx.map heaterStepConfiguration) :
    steps = steps' := by
  refine List.ext_getElem? fun i => ?_
  have hi := congrArg (fun l : List HeaterStepConfiguration => l[i]?) h
  simp only [List.getElem?_map, List.getElem?_zipIdx, Option.map_map] at hi
  cases ha : steps[i]? with
  | none =>
      cases hb : steps'[i]? with
      | none => rfl
      | some b =>
          rw [ha, hb] at hi
          cases hi
  | some a =>
      cases hb : steps'[i]? with
      | none =>
          rw [ha, hb] at hi
          cases hi
      | some b =>
          rw [ha, hb] at hi
          exact congrArg some (step_of_heaterStepConfiguration (Option.some.inj hi))

section
variable {header header' : Header} {config config' : DeviceConfig}

theorem slice_usedSteps {ε : Type} (h : validateConfig config = .ok ()) :
    (slice config.steps.toList 0 config.expectedStepCount.toNat : Outcome ε _) =
      .ok config.usedSteps := by
  rw [slice_eq (Nat.zero_le _) (by simpa using Protocol.validateConfig_toNat_le h)]
  rfl

/-- Equal configuration records come from equal common fields and configurations. -/
theorem deviceConfiguration_injective {ε : Type} (h : validateConfig config = .ok ())
    (h' : validateConfig config' = .ok ())
    (he : (deviceConfiguration header config : Outcome ε DeviceConfiguration) =
      deviceConfiguration header' config') : header.common = header'.common ∧ config = config' := by
  have hrecord := (Outcome.bind_of_eq_ok (slice_usedSteps h)).symm.trans
    (he.trans (Outcome.bind_of_eq_ok (slice_usedSteps h')))
  have hfields := Except.ok.inj hrecord
  rw [DeviceConfiguration.mk.injEq] at hfields
  obtain ⟨hid, -, h1, h2, h3, h4, h5, h6, h7, h8, h9, h10, h11, h12, h13, h14, h15, h16, h17, h18,
    h19, h20, h21, h22, h23, h24, h25, h26, h27, h28, h29, h30, h31, h32, h33, h34, h35, h36, h37,
    h38, h39, h40, h41, hsteps⟩ := hfields
  have hused : config.steps = config'.steps := by
    rw [← Protocol.heaterSlots_usedSteps h, ← Protocol.heaterSlots_usedSteps h',
      heaterSteps_injective hsteps]
  refine ⟨common_of_recordIdentity hid, ?_⟩
  cases config
  cases config'
  simp only at *
  subst h1 h2 h3 h4 h5 h6 h7 h8 h9 h10 h11 h12 h13 h14 h15 h16 h17 h18 h19 h20 h21 h22 h23 h24
    h25 h26 h27 h28 h29 h30 h31 h32 h33 h34 h35 h36 h37 h38 h39 h40 h41 hused
  rfl

/-- **The record of a decoded configuration is valid.** -/
theorem validate_deviceConfiguration {ε : Type} (h : validateConfig config = .ok ()) :
    ∃ c, (deviceConfiguration header config : Outcome ε DeviceConfiguration) = .ok c ∧
      c.validate = .ok () ∧ c.expectedStepCount = config.expectedStepCount ∧
      c.heaterSteps = config.usedSteps.zipIdx.map heaterStepConfiguration := by
  refine ⟨_, Outcome.bind_of_eq_ok (slice_usedSteps h), ?_, rfl, rfl⟩
  have hle := Protocol.validateConfig_toNat_le h
  have hmask : (expectedStepMask config.expectedStepCount : Outcome RecordError UInt16) =
      .ok (Bitmap.lowMask config.expectedStepCount.toNat) := maskU16_eq (by omega)
  have hlen : config.expectedStepCount.toNat =
      (config.usedSteps.zipIdx.map heaterStepConfiguration).length := by
    rw [List.length_map, List.length_zipIdx, Protocol.length_usedSteps hle]
  have horder : (config.usedSteps.zipIdx.map heaterStepConfiguration).zipIdx.forM
      (fun p => Outcome.failIf (p.1.stepIndex ≠ UInt8.ofNat p.2)
        (RecordError.configurationStepOrder (.ofNat p.2) p.1.stepIndex)) = .ok () := by
    rw [Outcome.forM_eq_ok]
    rintro ⟨step, position⟩ hmem
    rw [List.mem_zipIdx_iff_getElem?, List.getElem?_map, List.getElem?_zipIdx,
      Option.map_map, Option.map_eq_some_iff] at hmem
    obtain ⟨used, -, hstep⟩ := hmem
    have hindex : UInt8.ofNat (0 + position) = step.stepIndex :=
      congrArg HeaterStepConfiguration.stepIndex hstep
    rw [Nat.zero_add] at hindex
    exact Outcome.failIf_neg (not_not.mpr hindex.symm) _
  simp only [DeviceConfiguration.validate, Outcome.bind_eq_ok, Outcome.failIf_eq_ok]
  exact ⟨(), not_not.mpr (Protocol.validateConfig_count h), (), not_not.mpr hlen, (), horder,
    _, hmask, not_not.mpr (Protocol.validateConfig_readback h)⟩

end

/-! ### Health -/

/-- Equal health records come from equal common fields and health frames. -/
theorem deviceHealth_injective {header header' : Header} {health health' : Protocol.DeviceHealth}
    (h : deviceHealth header health = deviceHealth header' health') :
    header.common = header'.common ∧ health = health' := by
  obtain ⟨hid, h1, h2, h3, h4, h5, h6, h7, h8, h9, h10, h11, h12, h13, h14, h15, h16, h17, h18⟩ :=
    DeviceHealth.mk.injEq .. ▸ h
  refine ⟨common_of_recordIdentity hid, ?_⟩
  cases health
  cases health'
  simp only at *
  subst h1 h2 h3 h4 h5 h6 h7 h8 h9 h10 h11 h12 h13 h14 h15 h16 h17 h18
  rfl

/-! ### Frames -/

section
variable {a b : List UInt8} {header header' : Header}

/-- Two configuration frames with the same record are the same frame. -/
theorem deviceConfiguration_determines {config config' : DeviceConfig} {ε : Type}
    (ha : Protocol.decode a = .ok (.deviceConfig header config))
    (hb : Protocol.decode b = .ok (.deviceConfig header' config')) :
    (deviceConfiguration header config : Outcome ε DeviceConfiguration) =
      deviceConfiguration header' config' ↔ a = b := by
  constructor
  · intro he
    obtain ⟨-, -, -, -, -, -, -, hc, -⟩ := Protocol.decode_config.mp ha
    obtain ⟨-, -, -, -, -, -, -, hc', -⟩ := Protocol.decode_config.mp hb
    obtain ⟨hcommon, rfl⟩ := deviceConfiguration_injective hc hc' he
    have hea := Protocol.encodeDeviceConfig_decode ha
    rw [hcommon] at hea
    exact Except.ok.inj (hea.symm.trans (Protocol.encodeDeviceConfig_decode hb))
  · rintro rfl
    cases ha.symm.trans hb
    rfl

/-- Two health frames with the same record are the same frame. -/
theorem deviceHealth_determines {health health' : Protocol.DeviceHealth}
    (ha : Protocol.decode a = .ok (.deviceHealth header health))
    (hb : Protocol.decode b = .ok (.deviceHealth header' health')) :
    deviceHealth header health = deviceHealth header' health' ↔ a = b := by
  constructor
  · intro he
    obtain ⟨hcommon, rfl⟩ := deviceHealth_injective he
    have hea := Protocol.encodeDeviceHealth_decode ha
    rw [hcommon] at hea
    exact Except.ok.inj (hea.symm.trans (Protocol.encodeDeviceHealth_decode hb))
  · rintro rfl
    cases ha.symm.trans hb
    rfl

/-- Two fragment frames with the same fragment are the same frame. -/
theorem fromView_determines {v v' : Protocol.ProfileFragmentView}
    (ha : Protocol.decode a = .ok (.profileFragment v))
    (hb : Protocol.decode b = .ok (.profileFragment v')) :
    OwnedFragment.fromView v = OwnedFragment.fromView v' ↔ a = b := by
  constructor
  · intro he
    obtain ⟨f, hf⟩ := isFrame_of_decode ha
    obtain ⟨w, hw, hwf⟩ := id hf
    cases ha.symm.trans hw
    exact hf.injective ⟨v', hb, he.symm.trans hwf⟩
  · rintro rfl
    cases ha.symm.trans hb
    rfl

end

end Vesta.Receiver
