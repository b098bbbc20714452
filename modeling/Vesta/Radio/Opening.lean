import Vesta.Radio.Polling

/-!
# Radio — Opening

How the radio is started and let go.  `open` claims the lines high, pulses the reset, writes the
configuration, reads back what shows that it took effect, and enters continuous receive
(`Opened`).  When that fails after the lines were claimed, the controller is dropped: it asks for
standby and leaves every line high.
-/

namespace Vesta.Radio

open Journal (wp wp_bind wp_update)
open Tracing (Does does_grouped)

/-! ### What is sent -/

/-- The commands that configure the radio, given the IQ register as it was read. -/
def configurationScript (iqPolarity : UInt8) : List (List UInt8) := [
  [opSetStandby, standbyRc],
  [opSetRegulatorMode, regulatorLdo],
  [opSetDio2AsRfSwitch, 0x01],
  [opSetPacketType, packetTypeLora],
  opWriteRegister :: Layout.u16.put registerLoraSyncWord ++ privateSyncWord,
  [opSetBufferBaseAddress, 0x00, 0x00],
  [opCalibrateImage, 0xd7, 0xdb],
  opSetRfFrequency :: Layout.u32.put rfFrequencyWord,
  [opSetModulationParams, 0x07, 0x04, 0x01, 0x00],
  [opSetPacketParams, 0x00, 0x08, 0x00, 0xff, 0x01, 0x00],
  opReadRegister :: Layout.u16.put registerIqPolarity ++ List.replicate 2 0,
  opWriteRegister :: Layout.u16.put registerIqPolarity ++ [iqPolarity ||| iqNormalMask],
  opWriteRegister :: Layout.u16.put registerRxGain ++ [rxGainPowerSaving],
  [opSetStopRxTimerOnPreamble, 0x01],
  [opSetLoraSymbolTimeout, 0x00],
  opSetDioIrqParams :: Layout.u16.put irqTerminalMask ++ Layout.u16.put irqTerminalMask ++
    [0x00, 0x00, 0x00, 0x00]]

/-- The transfers that configure the radio.  The IQ register is written as it was read, with one
bit set. -/
def Configures (ts : List Transfer) : Prop :=
  ∃ iqPolarity, ts.map (·.outgoing) = configurationScript iqPolarity ∧
    ∃ t ∈ ts,
      t.outgoing = opReadRegister :: Layout.u16.put registerIqPolarity ++ List.replicate 2 0 ∧
      t.incoming.drop 4 = [iqPolarity]

/-- The transfers that read the configuration back, when it is what it should be. -/
inductive ReadsBack : List Transfer → Prop where
  | intro {packetType syncWord errors : List UInt8} (htype : packetType.drop 2 = [packetTypeLora])
      (hsync : syncWord.drop 4 = privateSyncWord) (herrors : errors.drop 2 = [0x00, 0x00]) :
      ReadsBack [⟨opGetPacketType :: List.replicate 2 0, packetType⟩,
        ⟨opReadRegister :: Layout.u16.put registerLoraSyncWord ++ List.replicate 3 0, syncWord⟩,
        ⟨opGetDeviceErrors :: List.replicate 3 0, errors⟩]

/-- A status that reports standby after a reset. -/
def AfterReset (status : UInt8) : Prop := status &&& 0x70 = 0x20

/-- The transfers of `open` when it succeeds. -/
inductive Opened : List Transfer → Prop where
  | intro {status : List UInt8} {configure readback rearm : List Transfer}
      (hstatus : ∃ s, status[1]? = some s ∧ AfterReset s) (hconfigure : Configures configure)
      (hreadback : ReadsBack readback) (hrearm : Rearms rearm) :
      Opened (⟨[opGetStatus, 0x00], status⟩ :: (configure ++ (readback ++ rearm)))

def openOpcodes : List UInt8 := [opGetStatus, opSetStandby, opSetRegulatorMode, opSetDio2AsRfSwitch,
  opSetPacketType, opWriteRegister, opSetBufferBaseAddress, opCalibrateImage, opSetRfFrequency,
  opSetModulationParams, opSetPacketParams, opReadRegister, opSetStopRxTimerOnPreamble,
  opSetLoraSymbolTimeout, opSetDioIrqParams, opGetPacketType, opGetDeviceErrors, opClearIrqStatus,
  opSetRx]

/-- Two bytes are told by the number they make. -/
theorem u16OfBe_inj {a b c d : UInt8} (h : u16OfBe [a, b] = u16OfBe [c, d]) : a = c ∧ b = d := by
  have hlt : ∀ x y : UInt8, ofBe [x, y] < 2 ^ 16 := fun x y => by simpa using ofBe_lt [x, y]
  have hnat := congrArg UInt16.toNat h
  rw [u16OfBe, u16OfBe, UInt16.toNat_ofNat_of_lt' (hlt a b), UInt16.toNat_ofNat_of_lt' (hlt c d)]
    at hnat
  have hbytes := congrArg (toBe 2) hnat
  rw [show 2 = [a, b].length from rfl, toBe_ofBe, show [a, b].length = [c, d].length from rfl,
    toBe_ofBe] at hbytes
  simpa using hbytes

section
variable {H : Type} {board : Board H} {hat : Sx1262Hat H}

theorem within_writeConfiguration :
    Within openOpcodes (fun _ ts => Configures ts) (writeConfiguration board) hat := by
  refine Within.bind (Within.command rfl (by decide)) fun _ ts hat₁ hb => ?_
  obtain ⟨i₁, rfl⟩ := hb
  refine Within.bind (Within.command rfl (by decide)) fun _ ts hat₂ hb => ?_
  obtain ⟨i₂, rfl⟩ := hb
  refine Within.bind (Within.command rfl (by decide)) fun _ ts hat₃ hb => ?_
  obtain ⟨i₃, rfl⟩ := hb
  refine Within.bind (Within.command rfl (by decide)) fun _ ts hat₄ hb => ?_
  obtain ⟨i₄, rfl⟩ := hb
  refine Within.bind (Within.writeRegister (by decide) _ _) fun _ ts hat₅ hb => ?_
  obtain ⟨i₅, rfl⟩ := hb
  refine Within.bind (Within.command rfl (by decide)) fun _ ts hat₆ hb => ?_
  obtain ⟨i₆, rfl⟩ := hb
  refine Within.bind (Within.command rfl (by decide)) fun _ ts hat₇ hb => ?_
  obtain ⟨i₇, rfl⟩ := hb
  refine Within.bind (Within.command rfl (by decide)) fun _ ts hat₈ hb => ?_
  obtain ⟨i₈, rfl⟩ := hb
  refine Within.bind (Within.command rfl (by decide)) fun _ ts hat₉ hb => ?_
  obtain ⟨i₉, rfl⟩ := hb
  refine Within.bind (Within.command rfl (by decide)) fun _ ts hat₁₀ hb => ?_
  obtain ⟨i₁₀, rfl⟩ := hb
  refine Within.bind (Within.readRegister (by decide) _ 1) fun bytes ts hat₁₁ hb => ?_
  obtain ⟨i₁₁, rfl, hbytes, hlen⟩ := hb
  obtain ⟨iqPolarity, rfl⟩ := List.length_eq_one_iff.mp hlen
  refine Within.lift_ok rfl ?_
  refine Within.bind (Within.writeRegister (by decide) _ _) fun _ ts hat₁₂ hb => ?_
  obtain ⟨i₁₂, rfl⟩ := hb
  refine Within.bind (Within.writeRegister (by decide) _ _) fun _ ts hat₁₃ hb => ?_
  obtain ⟨i₁₃, rfl⟩ := hb
  refine Within.bind (Within.command rfl (by decide)) fun _ ts hat₁₄ hb => ?_
  obtain ⟨i₁₄, rfl⟩ := hb
  refine Within.bind (Within.command rfl (by decide)) fun _ ts hat₁₅ hb => ?_
  obtain ⟨i₁₅, rfl⟩ := hb
  refine Within.mono (Within.command rfl (by decide)) (List.Subset.refl _) fun _ ts hb => ?_
  obtain ⟨i₁₆, rfl⟩ := hb
  refine ⟨iqPolarity, rfl, ?_⟩
  exact ⟨⟨_, i₁₁⟩, by simp, rfl, hbytes.symm⟩

theorem within_verifyReadback :
    Within openOpcodes (fun _ ts => ReadsBack ts) (verifyReadback board) hat := by
  refine Within.bind (Within.readCommand (by decide) 1) fun bytes ts hat₁ hb => ?_
  obtain ⟨packetType, rfl, htype, hlen⟩ := hb
  obtain ⟨b, rfl⟩ := List.length_eq_one_iff.mp hlen
  refine Within.lift_ok rfl (Within.check fun hlora => ?_)
  refine Within.bind (Within.readRegister (by decide) _ 2) fun bytes ts hat₂ hb => ?_
  obtain ⟨syncWord, rfl, hsync, hlen⟩ := hb
  obtain ⟨s₀, s₁, rfl⟩ := List.length_eq_two.mp hlen
  refine Within.lift_ok rfl (Within.lift_ok rfl (Within.check fun hword => ?_))
  refine Within.bind (Within.readCommand (by decide) 2) fun bytes ts hat₃ hb => ?_
  obtain ⟨errors, rfl, herrors, hlen⟩ := hb
  obtain ⟨e₀, e₁, rfl⟩ := List.length_eq_two.mp hlen
  refine Within.lift_ok rfl (Within.lift_ok rfl (Within.last_check fun hnone => ?_))
  obtain rfl : b = packetTypeLora := not_not.mp hlora
  obtain ⟨rfl, rfl⟩ := u16OfBe_inj (not_not.mp hword)
  obtain ⟨rfl, rfl⟩ := u16OfBe_inj (c := 0) (d := 0) (not_not.mp hnone)
  exact .intro htype.symm hsync.symm herrors.symm

theorem within_configureReceive : Within openOpcodes
    (fun _ ts => ∃ configure readback rearm, ts = configure ++ (readback ++ rearm) ∧
      Configures configure ∧ ReadsBack readback ∧ Rearms rearm) (configureReceive board) hat := by
  refine Within.bind within_writeConfiguration fun _ configure hat₁ hconfigure => ?_
  refine Within.bind within_verifyReadback fun _ readback hat₂ hreadback => ?_
  refine Within.bind (Within.ask _) fun _ ts hat₃ hb => ?_
  subst hb
  refine Within.bind (Within.gpio _) fun _ ts hat₄ hb => ?_
  subst hb
  refine Within.bind (Within.ask _) fun _ ts hat₅ hb => ?_
  subst hb
  refine Within.bind (Within.gpio _) fun _ ts hat₆ hb => ?_
  subst hb
  refine Within.mono (within_restartReceive (by decide)) (List.Subset.refl _)
    fun _ rearm hrearm => ?_
  exact ⟨configure, readback, rearm, by simp, hconfigure, hreadback, hrearm⟩

/-! ### The lines -/

/-- The lines are claimed high, the receive switch first. -/
def claimActions : List Action := [.drive .rfRx .high, .drive .reset .high, .drive .nss .high]

/-- The pulse of the reset. -/
def resetActions : List Action := [.drive .rfRx .high, .drive .nss .high, .drive .reset .high,
  .drive .reset .low, .drive .reset .high]

/-- The lines that a controller leaves behind. -/
def closeActions : List Action := [.drive .nss .high, .drive .reset .high, .drive .rfRx .high]

/-- What is told by transfers can be told by actions. -/
theorem Drives.toActions {α : Type} {ok : α → List Transfer → Prop} {err : List Transfer → Prop}
    {x : Driver H α} (h : Drives transfers ok err x hat) :
    Drives actions (fun a es => ∃ ts, es = framed ts ∧ ok a ts)
      (fun es => ∃ ts, es = framed ts ∧ err ts) x hat := by
  refine Drives.any_cut (K := fun _ => True) (Does.mono (does_grouped.mp h) (fun _ _ => id)
    (fun e es he => ?_) fun _ _ => trivial)
  obtain ⟨ts, rfl, hne, herr⟩ := he
  exact ⟨hne, ts, rfl, herr⟩

theorem drives_claimHigh (pin : Pin) : Drives actions (fun _ es => es = [.drive pin .high]) (· = [])
    (claimHigh board pin) hat := by
  refine Drives.bind (drives_outside _) (fun x es hat₁ he => ?_) fun _ => False.elim
  subst he
  refine Drives.bind (drives_gpio (E := (· = [])) x rfl) (fun _ es hat₂ he => ?_) fun es he => he
  subst he
  exact Drives.mono (drives_drive pin .high) (fun _ _ he => he) fun _ => False.elim

theorem drives_claimPins : Drives actions (fun _ es => es = claimActions) (· <+: claimActions)
    (claimPins board) hat := by
  have hstart : ∀ es : List Action, es = [] → es <+: claimActions := fun es he =>
    he ▸ List.nil_prefix
  refine Drives.bind (drives_outside _) (fun x es hat₁ he => ?_) fun _ => False.elim
  subst he
  refine Drives.bind (drives_gpio (E := (· = [])) x rfl) (fun _ es hat₂ he => ?_) hstart
  subst he
  refine Drives.bind (drives_claimHigh .rfRx) (fun _ es hat₃ he => ?_) hstart
  subst he
  refine Drives.bind (drives_claimHigh .reset) (fun _ es hat₄ he => ?_) fun es he => ?_
  · subst he
    refine Drives.bind (drives_claimHigh .nss) (fun _ es hat₅ he => ?_) fun es he => ?_
    · subst he
      refine Drives.bind (drives_outside _) (fun y es hat₆ he => ?_) fun _ => False.elim
      subst he
      refine Drives.bind (drives_gpio (E := (· = [])) y rfl) (fun _ es hat₇ he => ?_)
        fun es he => ?_
      · subst he
        refine Drives.bind (drives_outside _) (fun z es hat₈ he => ?_) fun _ => False.elim
        subst he
        refine Drives.mono (drives_spi (E := (· = [])) z rfl) (fun _ es he => ?_) fun es he => ?_
        · rw [he]
          rfl
        · rw [he]
          decide
      · rw [he]
        decide
    · rw [he]
      decide
  · rw [he]
    decide

theorem drives_hardwareReset : Drives actions
    (fun _ es => ∃ status : List UInt8, es = resetActions ++
      framed [⟨[opGetStatus, 0x00], status⟩] ∧
      ∃ s, status[1]? = some s ∧ AfterReset s)
    (fun es => ∃ ts, es = resetActions ++ framed ts ∧ OfCommands openOpcodes ts)
    (hardwareReset board) hat := by
  refine Drives.bind (drives_drive _ _) (fun _ es hat₁ he => ?_) fun _ => False.elim
  subst he
  refine Drives.bind (drives_drive _ _) (fun _ es hat₂ he => ?_) fun _ => False.elim
  subst he
  refine Drives.bind (drives_drive _ _) (fun _ es hat₃ he => ?_) fun _ => False.elim
  subst he
  refine Drives.bind (drives_outside _) (fun _ es hat₄ he => ?_) fun _ => False.elim
  subst he
  refine Drives.bind (drives_drive _ _) (fun _ es hat₅ he => ?_) fun _ => False.elim
  subst he
  refine Drives.bind (drives_outside _) (fun _ es hat₆ he => ?_) fun _ => False.elim
  subst he
  refine Drives.bind (drives_drive _ _) (fun _ es hat₇ he => ?_) fun _ => False.elim
  subst he
  refine Drives.bind (drives_outside _) (fun _ es hat₈ he => ?_) fun _ => False.elim
  subst he
  refine Drives.bind drives_waitBusyLow (fun _ es hat₉ he => ?_) fun es he => ?_
  · subst he
    have hstatus : Within openOpcodes _ (getStatus board) hat₉ := Within.getStatus (by decide)
    refine Drives.bind (Drives.toActions hstatus) (fun status es hat₁₀ he => ?_) fun es he => ?_
    · obtain ⟨_, rfl, ⟨incoming, rfl, hindex⟩, hops⟩ := he
      refine Drives.lift ((Outcome.Ends.failIf fun _ => ?_).mono (fun _ hmode => ?_) fun _ => id)
      · exact ⟨[⟨[opGetStatus, 0x00], incoming⟩], rfl, hops⟩
      · exact ⟨incoming, rfl, status, hindex, not_not.mp hmode⟩
    · obtain ⟨ts, rfl, hops⟩ := he
      exact ⟨ts, rfl, hops⟩
  · exact ⟨[], by rw [he]; rfl, .nil⟩

theorem drives_startUp : Drives actions
    (fun _ es => ∃ ts, es = resetActions ++ framed ts ∧ Opened ts ∧ OfCommands openOpcodes ts)
    (fun es => ∃ ts, es = resetActions ++ framed ts ∧ OfCommands openOpcodes ts)
    (startUp board) hat := by
  refine Drives.bind drives_hardwareReset (fun _ es hat₁ he => ?_) fun _ => id
  obtain ⟨status, rfl, hstatus⟩ := he
  have hget : OfCommands openOpcodes [⟨[opGetStatus, 0x00], status⟩] := .singleton (by decide) rfl
  refine Drives.bind (P := fun _ es => es = []) (E := fun _ => False)
    (Does.update (fun _ hat₂ he => ?_) nofun) (fun _ es hat₂ he => ?_) fun _ => False.elim
  · obtain ⟨-, rfl⟩ := Prod.mk.inj (Except.ok.inj he)
    exact ⟨[], ⟨(List.append_nil _).symm, fun _ => rfl⟩, rfl⟩
  · subst he
    refine Drives.mono (Drives.toActions within_configureReceive) (fun _ es he => ?_)
      fun es he => ?_
    · obtain ⟨_, rfl, ⟨configure, readback, rearm, rfl, hconfigure, hreadback, hrearm⟩, hops⟩ := he
      refine ⟨_, ?_, .intro hstatus hconfigure hreadback hrearm, OfCommands.append.mpr ⟨hget, hops⟩⟩
      rw [framed_cons _ (configure ++ (readback ++ rearm))]
      simp only [List.append_assoc]
      rfl
    · obtain ⟨ts, rfl, hops⟩ := he
      refine ⟨_, ?_, OfCommands.append.mpr ⟨hget, hops⟩⟩
      rw [framed_append]
      simp only [List.nil_append, List.append_assoc]

/-- A controller that was started is initialized. -/
theorem startUp_initialized {u : Unit} (h : (startUp board hat).result = .ok u) :
    (startUp board hat).state.initialized = true := by
  have hwp : wp (fun _ => True) (fun _ hat' => hat'.initialized = true) (fun _ _ => True)
      (startUp board) hat := by
    refine wp_bind (wp.mono drives_hardwareReset (fun d _ => d.elim) (fun _ hat₁ _ => ?_)
      fun _ _ _ => trivial)
    refine wp_bind (wp_update (fun _ hat₂ he => ?_) nofun)
    obtain ⟨-, rfl⟩ := Prod.mk.inj (Except.ok.inj he)
    refine wp.mono within_configureReceive (fun d _ => d.elim) (fun _ hat₃ hs => ?_)
      fun _ _ _ => trivial
    obtain ⟨ts, hafter, -⟩ := hs
    exact hafter.2 rfl
  exact hwp.ok u h

/-- The command by which a controller is let go. -/
def standby (incoming : List UInt8) : Transfer := ⟨[opSetStandby, standbyRc], incoming⟩

theorem drives_close : Drives actions (fun _ es => es = closeActions) (fun _ => False)
    (do drive board .nss .high; drive board .reset .high; drive board .rfRx .high) hat := by
  refine Drives.bind (drives_drive _ _) (fun _ es hat₁ he => ?_) fun _ => False.elim
  subst he
  refine Drives.bind (drives_drive _ _) (fun _ es hat₂ he => ?_) fun _ => False.elim
  subst he
  exact Drives.mono (drives_drive _ _) (fun _ es he => by rw [he]; rfl) fun _ => False.elim

/-- Letting a controller go.  Standby is asked for once, unless the controller is not initialized or
BUSY stays high. -/
theorem drives_dropHat : Drives actions
    (fun _ es => ∃ ts, es = framed ts ++ closeActions ∧
      (ts = [] ∨ ∃ incoming, ts = [standby incoming]))
    (fun _ => False) (dropHat board) hat := by
  have hask : Drives transfers (fun (_ : Except RadioError Unit) ts => ts = [] ∨ ∃ incoming,
      ts = [standby incoming]) (fun _ => False) (attempt (command board [opSetStandby, standbyRc]))
      hat := by
    refine Drives.attempt (Drives.bind (drives_transaction _) (fun _ ts hat₁ hb => ?_)
      fun ts he _ => he)
    rw [hb.1]
    exact Drives.pure (.inr ⟨_, List.append_nil _⟩)
  refine Does.get_bind ?_
  split
  · refine Drives.bind (Drives.toActions hask) (fun _ es hat₁ he => ?_) fun _ he => ?_
    · obtain ⟨ts, rfl, hts⟩ := he
      exact Drives.mono drives_close (fun _ es he => ⟨ts, by rw [he], hts⟩) fun _ => False.elim
    · obtain ⟨ts, -, hf⟩ := he
      exact hf
  · exact Drives.mono drives_close (fun _ es he => ⟨[], by rw [he]; rfl, .inl rfl⟩) fun _ => id

/-- An initialized controller whose BUSY falls in time is let go in standby. -/
theorem drives_dropHat_of_idle (hinit : hat.initialized = true)
    (h : (waitBusyLow board hat).result = .ok ()) : Drives actions
      (fun _ es => ∃ incoming, es = framed [standby incoming] ++ closeActions) (fun _ => False)
      (dropHat board) hat := by
  have hask : Drives transfers (fun (_ : Except RadioError Unit) ts => ∃ incoming,
      ts = [standby incoming]) (fun _ => False) (attempt (command board [opSetStandby, standbyRc]))
      hat := by
    refine Drives.attempt (Drives.bind (drives_transaction_of_idle h) (fun _ ts hat₁ hb => ?_)
      fun ts he _ => he)
    rw [hb.1]
    exact Drives.pure ⟨_, List.append_nil _⟩
  refine Does.get_bind ?_
  rw [if_pos hinit]
  refine Drives.bind (Drives.toActions hask) (fun _ es hat₁ he => ?_) fun _ he => ?_
  · obtain ⟨_, rfl, incoming, rfl⟩ := he
    exact Drives.mono drives_close (fun _ es he => ⟨incoming, by rw [he]⟩) fun _ => False.elim
  · obtain ⟨ts, -, hf⟩ := he
    exact hf

/-- **Opening.**  Either the lines could not be claimed; or the radio was reset and configured, and
is let go again when that failed. -/
theorem drives_openHat : Drives actions
    (fun _ es => ∃ ts, es = claimActions ++ (resetActions ++ framed ts) ∧ Opened ts ∧
      OfCommands openOpcodes ts)
    (fun es => es <+: claimActions ∨ ∃ ts, es = claimActions ++ (resetActions ++ (framed ts ++
      closeActions)) ∧ OfCommands openOpcodes ts)
    (openHat board) hat := by
  refine Drives.bind drives_claimPins (fun _ es hat₁ he => ?_) fun es he => .inl he
  subst he
  refine Does.orElse (K := fun _ => True) drives_startUp (fun _ es he => ?_)
    (fun e es hat₂ _ he => ?_) fun _ => id
  · obtain ⟨ts, rfl, hopened, hops⟩ := he
    exact ⟨ts, rfl, hopened, hops⟩
  · obtain ⟨hne, ts, rfl, hops⟩ := he
    refine Drives.bind drives_dropHat (fun _ es hat₃ he => ?_) fun _ => False.elim
    obtain ⟨us, rfl, hus⟩ := he
    have hstandby : OfCommands openOpcodes us := by
      obtain rfl | ⟨incoming, rfl⟩ := hus
      · exact .nil
      · exact .singleton (c := opSetStandby) (by decide) rfl
    refine Does.lift nofun fun e' he => ?_
    obtain rfl := Except.error.inj he
    refine ⟨hne, .inr ⟨ts ++ us, ?_, OfCommands.append.mpr ⟨hops, hstandby⟩⟩⟩
    simp only [framed_append, List.append_assoc, List.append_nil]

/-- A controller that was opened is initialized. -/
theorem openHat_initialized {u : Unit} (h : (openHat board hat).result = .ok u) :
    (openHat board hat).state.initialized = true := by
  have hwp : wp (fun _ => True) (fun _ hat' => hat'.initialized = true) (fun _ _ => True)
      (openHat board) hat := by
    refine wp_bind (wp.mono drives_claimPins (fun d _ => d.elim) (fun _ hat₁ _ => ?_)
      fun _ _ _ => trivial)
    refine Journal.wp_orElse ⟨fun d _ => d.elim, fun u hu => startUp_initialized hu, fun e he => ?_⟩
    refine wp_bind (wp.mono drives_dropHat (fun d _ => d.elim) (fun _ hat₂ _ => ?_)
      fun _ _ _ => trivial)
    exact Journal.wp_lift nofun fun _ _ => trivial
  exact hwp.ok u h

end

end Vesta.Radio
