import Vesta.Ledger.Books
import Vesta.Receiver.Device

/-!
# Ledger — Archiving

Archiving a packet never fails, whatever it carries: a payload fits, the frames that decode have
what the schema asks for, and the other tables do not concern the accounts.  A fragment enters the
account of its key, and waits.
-/

namespace Vesta.Ledger

open Outcome (failIf)
open Receiver (Arrival ProfileKey OwnedFragment IsFrame RadioMetadata HeaterStepConfiguration
  DeviceConfiguration deviceConfiguration deviceHealth heaterStepConfiguration)
open Store (FragmentStorageStatus PacketRow PacketDecode ScanRow TelemetryStore StorageError
  StoredRecord AppError PacketDisposition DecodeErrorText V2PacketKind nextRowId)

variable {I : ProfileKey → Account → Prop}

/-! ### Payloads -/

theorem fragmentOf_eq_none {payload : List UInt8}
    (h : ∀ view, Protocol.decode payload ≠ .ok (.profileFragment view)) :
    fragmentOf payload = none := by
  cases hf : fragmentOf payload with
  | none => rfl
  | some f =>
      obtain ⟨view, hview, -⟩ := fragmentOf_eq_some.mp hf
      exact absurd hview (h view)

/-- The frames that are not of version 2 are no fragments. -/
theorem fragmentOf_of_decodeAny {payload : List UInt8}
    (h : ∀ frame, Protocol.decodeAny payload ≠ .ok (.v2 frame)) : fragmentOf payload = none :=
  fragmentOf_eq_none fun _ hview => h _ (Protocol.decodeAny_v2.mpr hview)

/-! ### Other tables -/

section
variable {s s' : TelemetryStore} {A : ProfileKey → Account}

theorem Holds.of_tables (h : Holds I s A) (hp : s'.packets = s.packets) (hs : s'.scans = s.scans) :
    Holds I s' A where
  orderly := by
    refine ⟨?_, ?_, ?_⟩
    · exact hp ▸ h.orderly.packets
    · exact hp ▸ h.orderly.filed
    · exact hs ▸ h.orderly.scans
  books key := by
    refine (h.books key).agree ⟨?_, ?_, ?_⟩
    · rw [archiveOf, hp, archiveOf]
    · rw [entriesOf, hp, entriesOf]
    · rw [TelemetryStore.rows, hs, TelemetryStore.rows]

/-- Steps with different indices are inserted one after the other. -/
theorem insertHeaterSteps_eq {steps : List HeaterStepConfiguration} :
    ∀ {done : List HeaterStepConfiguration}, (∀ step ∈ steps, step.stepIndex ≤ 9) →
      ((done ++ steps).map (·.stepIndex)).Nodup →
      steps.foldlM TelemetryStore.insertHeaterStep done = .ok (done ++ steps) := by
  induction steps with
  | nil =>
      intro done _ _
      rw [List.append_nil]
      rfl
  | cons step steps ih =>
      intro done hle hnd
      obtain ⟨hstep, hle⟩ := List.forall_mem_cons.mp hle
      have hnew : step.stepIndex ∉ done.map (·.stepIndex) := by
        intro hmem
        rw [List.map_append, List.nodup_append] at hnd
        exact hnd.2.2 _ hmem _ List.mem_cons_self rfl
      rw [List.foldlM_cons, TelemetryStore.insertHeaterStep,
        Outcome.failIf_neg (not_or.mpr ⟨UInt8.not_lt.mpr hstep, hnew⟩)]
      refine (ih hle (by simpa using hnd)).trans ?_
      rw [List.append_assoc]
      rfl

theorem insertDeviceConfigurationAt_eq (s : TelemetryStore) {configuration : DeviceConfiguration}
    (hcount : 1 ≤ configuration.expectedStepCount ∧ configuration.expectedStepCount ≤ 10)
    (hle : ∀ step ∈ configuration.heaterSteps, step.stepIndex ≤ 9)
    (hnd : (configuration.heaterSteps.map (·.stepIndex)).Nodup) (now : Nat)
    (packetId : Option Int) : ∃ record s',
      s.insertDeviceConfigurationAt configuration now packetId = .ok (record, s') ∧
        s'.packets = s.packets ∧ s'.scans = s.scans := by
  have hsteps := @insertHeaterSteps_eq configuration.heaterSteps [] hle hnd
  rw [TelemetryStore.insertDeviceConfigurationAt,
    Outcome.failIf_neg (not_or.mpr ⟨by omega, not_not.mpr hcount⟩), Outcome.ok_bind, hsteps]
  exact ⟨_, _, rfl, rfl, rfl⟩

end

/-! ### Archiving -/

/-- The row of a packet of version 2. -/
def packetOf (s : TelemetryStore) (payload : List UInt8) (now : Nat) (radio : RadioMetadata)
    (header : Protocol.Header) (kind : V2PacketKind) : PacketRow where
  id := nextRowId (s.packets.map (·.id))
  receivedAtUnixMs := now
  radio := radio
  protocolVersion := some Protocol.versionV2
  frameType := some header.frameType.toU8
  disposition := .protocolV2
  decodeError := none
  payload := payload
  decoded := some ⟨header.frameType.toU8, kind, kind.initialReassemblyStatus, header.common.nodeId,
    header.common.bootId, header.common.scanSequence, header.common.uptimeMs,
    header.common.configId, header.fragmentIndex, header.fragmentCount⟩

/-- The decode goes into the row of its packet. -/
theorem insertV2PacketDecodeAt_packetOf (s : TelemetryStore) {payload : List UInt8}
    {header : Protocol.Header} (hcount : header.fragmentCount ≠ 0) (now : Nat)
    (radio : RadioMetadata) (kind : V2PacketKind) :
    (pushed s
      { packetOf s payload now radio header kind with decoded := none }).insertV2PacketDecodeAt
        (nextRowId (s.packets.map (·.id))) header kind =
      .ok (pushed s (packetOf s payload now radio header kind)) :=
  insertV2PacketDecodeAt_eq hcount rfl kind

namespace Holds

variable {s : TelemetryStore} {A : ProfileKey → Account} (h : Holds I s A) {payload : List UInt8}
include h

/-- **A packet that does not decode.** -/
theorem archivePacket (hlen : payload.length ≤ 255) (hf : fragmentOf payload = none) (now : Nat)
    (radio : RadioMetadata) (disposition : PacketDisposition)
    (decodeError : Option DecodeErrorText) : ∃ record s',
      s.archivePacket now payload radio disposition decodeError = .ok (record, s') ∧
        Holds I s' A := by
  refine ⟨_, _, insertPacketAt_eq hlen now radio disposition _ _ decodeError, ?_⟩
  exact h.pushed rfl (fun d hd => by cases hd) (congrArg (Option.map _) hf)

/-- **A reading.** -/
theorem insertReceivedV1 {frame : Protocol.TelemetryV1}
    (hd : Protocol.decodeAny payload = .ok (.v1 frame)) (now : Nat) (radio : RadioMetadata) :
    ∃ row s', s.insertReceivedV1 now frame payload radio = .ok (row, s') ∧
      row.radioPacketId ≠ none ∧ Holds I s' A := by
  have hlen : payload.length = 48 := by
    rw [Protocol.decodeAny_v1.mp hd, Protocol.TelemetryV1.length_encode]
    rfl
  have hf : fragmentOf payload = none := fragmentOf_of_decodeAny fun _ he => by
    rw [hd] at he
    cases Except.ok.inj he
  have hpushed := h.pushed (p := ⟨nextRowId (s.packets.map (·.id)), now, radio,
    some Protocol.version, none, .legacyV1, none, payload, none⟩) rfl (fun d hd => by cases hd)
    (congrArg (Option.map _) hf)
  have hpacket := insertPacketAt_eq (s := s) (by omega : payload.length ≤ 255) now radio .legacyV1
    (some Protocol.version) none none
  rw [TelemetryStore.insertReceivedV1, hpacket, Outcome.ok_bind]
  dsimp only
  rw [TelemetryStore.insertReadingAt, Outcome.failIf_neg (by omega), Outcome.ok_bind]
  exact ⟨_, _, rfl, fun he => (by cases he), hpushed.of_tables rfl rfl⟩

/-- A packet of version 2 that is no fragment. -/
theorem pushedRecord {header : Protocol.Header} {kind : V2PacketKind}
    (hf : fragmentOf payload = none)
    (hkind : kind ≠ .profileFragment) (now : Nat) (radio : RadioMetadata) :
    Holds I (Ledger.pushed s (packetOf s payload now radio header kind)) A := by
  have hnone : arrivalOf (packetOf s payload now radio header kind) = none :=
    congrArg (Option.map _) hf
  refine h.pushed rfl (fun d hd => ?_) hnone
  obtain rfl := Option.some.inj hd
  rw [hnone]
  cases kind with
  | profileFragment => exact absurd rfl hkind
  | deviceConfig => exact ⟨hkind, rfl⟩
  | deviceHealth => exact ⟨hkind, rfl⟩

/-- **A configuration.** -/
theorem insertReceivedDeviceConfiguration {header : Protocol.Header}
    {config : Protocol.DeviceConfig}
    (hd : Protocol.decode payload = .ok (.deviceConfig header config)) (now : Nat)
    (radio : RadioMetadata) : ∃ configuration,
      (deviceConfiguration header config : Outcome AppError DeviceConfiguration) =
        .ok configuration ∧
      ∃ ids s', s.insertReceivedDeviceConfiguration now payload radio header configuration =
        .ok (ids, s') ∧ Holds I s' A := by
  have hlen := Protocol.length_le_of_decode hd
  obtain ⟨-, hvalid, -, -, -, -, -, hconfig, -⟩ := Protocol.decode_config.mp hd
  have hf : fragmentOf payload = none := fragmentOf_eq_none fun view he => by
    rw [hd] at he
    cases Except.ok.inj he
  obtain ⟨configuration, hok, hvalidate, hcount, hsteps⟩ :=
    @Receiver.validate_deviceConfiguration header config AppError hconfig
  have hbounds := Protocol.validateConfig_count hconfig
  have hle := Protocol.validateConfig_toNat_le hconfig
  have hpushed : Holds I (Ledger.pushed s (packetOf s payload now radio header .deviceConfig)) A :=
    h.pushedRecord hf (fun he => by cases he) now radio
  -- the steps of a record are numbered by their positions
  have hindices : configuration.heaterSteps.map (·.stepIndex) =
      (List.range config.expectedStepCount.toNat).map UInt8.ofNat := by
    rw [hsteps, List.map_map, ← Protocol.length_usedSteps hle, List.range_eq_range',
      ← List.zipIdx_map_snd, List.map_map]
    rfl
  have hnat : ∀ i < 10, (UInt8.ofNat i).toNat = i := fun i hi =>
    UInt8.toNat_ofNat_of_lt' (hi.trans (by decide))
  obtain ⟨record, s', hinserted, hpackets, hscans⟩ := insertDeviceConfigurationAt_eq
    (Ledger.pushed s (packetOf s payload now radio header .deviceConfig)) (hcount ▸ hbounds)
    (fun step hstep => by
      have hmem := List.mem_map_of_mem (f := (·.stepIndex)) hstep
      rw [hindices] at hmem
      obtain ⟨i, hi, hi'⟩ := List.mem_map.mp hmem
      have hlt := List.mem_range.mp hi
      rw [← hi', UInt8.le_iff_toNat_le, hnat i (by omega)]
      exact Nat.le_of_lt_succ (hlt.trans_le hle))
    (by
      rw [hindices]
      refine List.nodup_range.map_on fun i hi j hj he => ?_
      have hi := List.mem_range.mp hi
      have hj := List.mem_range.mp hj
      have heq := congrArg UInt8.toNat he
      rwa [hnat i (by omega), hnat j (by omega)] at heq)
    now (some (nextRowId (s.packets.map (·.id))))
  refine ⟨configuration, hok, (⟨nextRowId (s.packets.map (·.id)), now⟩, record), s', ?_,
    hpushed.of_tables hpackets hscans⟩
  rw [TelemetryStore.insertReceivedDeviceConfiguration, hvalidate, Outcome.mapErr_ok,
    Outcome.ok_bind, insertPacketAt_eq (by omega), Outcome.ok_bind]
  refine (Outcome.bind_of_eq_ok
    (insertV2PacketDecodeAt_packetOf s hvalid.count now radio _)).trans ?_
  exact Outcome.bind_of_eq_ok hinserted

/-- **A health record.** -/
theorem insertReceivedDeviceHealth {header : Protocol.Header} {health : Protocol.DeviceHealth}
    (hd : Protocol.decode payload = .ok (.deviceHealth header health)) (now : Nat)
    (radio : RadioMetadata) : ∃ ids s', s.insertReceivedDeviceHealth now payload radio header
        (deviceHealth header health) = .ok (ids, s') ∧ Holds I s' A := by
  have hlen := Protocol.length_le_of_decode hd
  obtain ⟨-, hvalid, -⟩ := Protocol.decode_health.mp hd
  have hf : fragmentOf payload = none := fragmentOf_eq_none fun view he => by
    rw [hd] at he
    cases Except.ok.inj he
  have hpushed : Holds I (Ledger.pushed s (packetOf s payload now radio header .deviceHealth)) A :=
    h.pushedRecord hf (fun he => by cases he) now radio
  rw [TelemetryStore.insertReceivedDeviceHealth, insertPacketAt_eq (by omega), Outcome.ok_bind]
  exact ⟨_, _, Outcome.bind_of_eq_ok (insertV2PacketDecodeAt_packetOf s hvalid.count now radio _),
    hpushed.of_tables rfl rfl⟩

/-- **A fragment.** -/
theorem archiveV2ProfileFragment [Account.Growing I] {view : Protocol.ProfileFragmentView}
    (hd : Protocol.decode payload = .ok (.profileFragment view)) (now : Nat)
    (radio : RadioMetadata) : ∃ p a stored s',
      s.archiveV2ProfileFragment now payload radio view.header = .ok (stored, s') ∧
      s' = Ledger.pushed s p ∧ p.payload = payload ∧ arrivalOf p = some a ∧
      OwnedFragment.fromView view = .ok a.fragment ∧ ProfileKey.ofHeader view.header = a.key ∧
      a.source = ⟨stored.id, view.header.fragmentIndex, stored.receivedAtUnixMs, radio⟩ ∧
      Holds I s' (Function.update A a.key ((A a.key).receive a)) := by
  have hlen := Protocol.length_le_of_decode hd
  obtain ⟨-, hvalid, -⟩ := Protocol.decode_fragment.mp hd
  obtain ⟨steps, -, hf⟩ := Receiver.fromView_eq hd
  have hframe : fragmentOf payload = some _ := fragmentOf_eq_some.mpr ⟨view, hd, hf⟩
  have ha : arrivalOf (packetOf s payload now radio view.header .profileFragment) = some _ :=
    congrArg (Option.map _) hframe
  rw [TelemetryStore.archiveV2ProfileFragment, insertPacketAt_eq (by omega), Outcome.ok_bind]
  refine ⟨_, _, _, _,
    Outcome.bind_of_eq_ok (insertV2PacketDecodeAt_packetOf s hvalid.count now radio _), rfl, rfl,
    ha, hf, rfl, rfl, ?_⟩
  refine h.receive rfl (fun d hd' => ?_) (entryOf_eq_some.mpr ⟨ha, rfl⟩)
  obtain rfl := Option.some.inj hd'
  rw [ha]
  exact ⟨rfl, rfl, .pending, rfl⟩

end Holds

end Vesta.Ledger
