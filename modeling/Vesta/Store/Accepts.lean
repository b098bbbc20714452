import Vesta.Receiver.Device
import Vesta.Receiver.Storable
import Vesta.Store.Archive
import Vesta.Store.Scans

/-!
# Store — Accepts

Records that come from the decoder are never rejected as records.  Storing one may fail because the
schema rejects a statement or because a packet is not there; the structural checks, which the
database makes again on every record, always pass.
-/

namespace Vesta.Store

open Outcome (Ends failIf)
open Receiver (ReassembledProfile Storable DeviceConfiguration RadioMetadata)

/-- The error rejects the record: it fails a structural check, or has no source. -/
def RejectsRecord : StorageError → Prop
  | .invalidRecord _ | .profileWithoutFragments => True
  | _ => False

namespace TelemetryStore

/-- An insertion that may fail, but not because of the record. -/
abbrev AcceptsRecord {α : Type} (x : Outcome StorageError α) : Prop :=
  Ends (fun _ => True) (fun e => ¬ RejectsRecord e) x

theorem accepts_failIf {c : Prop} [Decidable c] {e : StorageError} (h : ¬ RejectsRecord e) :
    AcceptsRecord (failIf c e) :=
  Ends.mono (Ends.failIf (E := fun e => ¬ RejectsRecord e) fun _ => h) (fun _ _ => trivial)
    fun _ => id

theorem accepts_insertPacketAt (s : TelemetryStore) (payload : List UInt8) (radio : RadioMetadata)
    (receivedAt : Int) (disposition : PacketDisposition) (protocolVersion frameType : Option UInt8)
    (decodeError : Option DecodeErrorText) :
    AcceptsRecord (s.insertPacketAt payload radio receivedAt disposition protocolVersion frameType
      decodeError) :=
  (accepts_failIf id).bind fun _ _ => trivial

theorem accepts_insertV2PacketDecodeAt (s : TelemetryStore) (packetId : Int)
    (header : Protocol.Header) (kind : V2PacketKind) :
    AcceptsRecord (s.insertV2PacketDecodeAt packetId header kind) :=
  (accepts_failIf id).bind fun _ _ => trivial

theorem accepts_markFragmentStatus (s : TelemetryStore) (packetId : Int)
    (status : FragmentStorageStatus) : AcceptsRecord (s.markFragmentStatus packetId status) :=
  (accepts_failIf id).bind fun _ _ => trivial

theorem accepts_insertDeviceConfigurationAt (s : TelemetryStore)
    (configuration : DeviceConfiguration) (receivedAt : Int) (sourcePacketId : Option Int) :
    AcceptsRecord (s.insertDeviceConfigurationAt configuration receivedAt sourcePacketId) := by
  refine (accepts_failIf id).bind fun _ _ => Ends.bind (Q := fun _ => True) ?_ fun _ _ => trivial
  exact Ends.foldlM trivial fun _ _ _ _ => (accepts_failIf id).bind fun _ _ => trivial

/-- Storing a profile that can be stored. -/
theorem accepts_insertProfileScanInner (s : TelemetryStore) {profile : ReassembledProfile}
    {complete : Bool} (h : Storable profile complete)
    (integrityPacket : Option (Int × FragmentStorageStatus)) :
    AcceptsRecord (s.insertProfileScanInner profile integrityPacket) := by
  have hmap : profile.fragments.map (·.receivedAtUnixMs) ≠ [] := by simpa using h.sources
  obtain ⟨first, hfirst⟩ : ∃ first, profile.firstReceivedAtUnixMs = some first :=
    Option.ne_none_iff_exists'.mp fun hn => hmap (List.min?_eq_none_iff.mp hn)
  obtain ⟨last, hlast⟩ : ∃ last, profile.lastReceivedAtUnixMs = some last :=
    Option.ne_none_iff_exists'.mp fun hn => hmap (List.max?_eq_none_iff.mp hn)
  obtain ⟨missing, hmissing, -⟩ := Outcome.bind_eq_ok.mp (h.transport StorageError)
  rw [insertProfileScanInner, h.valid]
  simp only [Outcome.mapErr_ok, Outcome.ok_bind, hfirst, hlast, hmissing, h.transport]
  -- from here on only the schema can object
  refine (accepts_failIf id).bind fun _ _ => ?_
  refine Ends.bind (Q := fun _ => True) ?_ fun row _ => ?_
  · exact Ends.foldlM trivial fun _ _ _ _ => (accepts_failIf id).bind fun _ _ => trivial
  refine Ends.bind (Q := fun _ => True) ?_ fun entry _ => ?_
  · refine Ends.foldlM trivial fun _ _ _ _ => Ends.bind (Q := fun _ => True) ?_ fun _ _ => trivial
    exact (accepts_failIf id).bind fun _ _ => trivial
  cases integrityPacket with
  | none => exact trivial
  | some link =>
      exact (accepts_markFragmentStatus _ link.1 link.2).bind fun _ _ => trivial

/-- Storing a valid configuration with its packet. -/
theorem accepts_insertReceivedDeviceConfiguration (s : TelemetryStore) (now : Nat)
    (payload : List UInt8) (radio : RadioMetadata) (header : Protocol.Header)
    {configuration : DeviceConfiguration} (h : configuration.validate = .ok ()) :
    AcceptsRecord (s.insertReceivedDeviceConfiguration now payload radio header configuration) := by
  rw [insertReceivedDeviceConfiguration, h, Outcome.mapErr_ok, Outcome.ok_bind]
  refine (accepts_insertPacketAt _ _ _ _ _ _ _ _).bind fun packet _ => ?_
  refine (accepts_insertV2PacketDecodeAt _ _ _ _).bind fun _ _ => ?_
  exact (accepts_insertDeviceConfigurationAt _ _ _ _).bind fun _ _ => trivial

end TelemetryStore

open Receiver (Op ProfileReassembler completedBy partialsBy deviceConfiguration) in
/-- **What was decoded is never rejected as a record.**  After any calls on a fresh reassembler,
every profile handed out is valid and has a source; those of complete scans are transport-complete
and the others, evicted, expired, drained or snapshots, are not; and every decoded configuration is
converted to a valid record.  So no store refuses one of these records for what it says. -/
theorem decoded_records_accepted :
    (∀ (maxActive : Nat) (hpos : 0 < maxActive) (ops : List Op),
      ∀ entry ∈ ((⟨∅, [], maxActive, hpos⟩ : ProfileReassembler).run ops).1,
        (∀ p ∈ completedBy entry.2, Storable p true) ∧
        (∀ p ∈ partialsBy entry.2, Storable p false) ∧
        ∀ p ∈ completedBy entry.2 ++ partialsBy entry.2, ∀ (s : TelemetryStore) (packetId : Int)
            (status : FragmentStorageStatus) (e : StorageError),
          (s.insertProfileScan p = .error (.error e) → ¬ RejectsRecord e) ∧
            (s.insertProfileIntegritySnapshot p packetId status = .error (.error e) →
              ¬ RejectsRecord e)) ∧
    ∀ (bytes : List UInt8) (header : Protocol.Header) (config : Protocol.DeviceConfig),
      Protocol.decode bytes = .ok (.deviceConfig header config) →
      ∃ configuration,
        (deviceConfiguration header config : Outcome Empty DeviceConfiguration) =
          .ok configuration ∧
        configuration.validate = .ok () ∧
        ∀ (s : TelemetryStore) (now : Nat) (radio : RadioMetadata) (e : StorageError),
          s.insertReceivedDeviceConfiguration now bytes radio header configuration =
            .error (.error e) → ¬ RejectsRecord e := by
  refine ⟨fun maxActive hpos ops entry hentry => ?_, fun bytes header config hdecode => ?_⟩
  · obtain ⟨hcompleted, hpartials⟩ := ProfileReassembler.Sound.storable_run
      (ProfileReassembler.sound_fresh maxActive hpos) entry hentry
    refine ⟨hcompleted, hpartials, fun p hp s packetId status e => ?_⟩
    obtain ⟨complete, hstorable⟩ : ∃ complete, Storable p complete := by
      rcases List.mem_append.mp hp with hp | hp
      · exact ⟨true, hcompleted p hp⟩
      · exact ⟨false, hpartials p hp⟩
    exact ⟨(s.accepts_insertProfileScanInner hstorable none).of_error,
      (s.accepts_insertProfileScanInner hstorable (some (packetId, status))).of_error⟩
  · obtain ⟨-, -, -, -, -, -, -, hconfig, -⟩ := Protocol.decode_config.mp hdecode
    obtain ⟨configuration, hok, hvalid, -⟩ :=
      @Receiver.validate_deviceConfiguration header config Empty hconfig
    exact ⟨configuration, hok, hvalid, fun s now radio e =>
      (s.accepts_insertReceivedDeviceConfiguration now bytes radio header hvalid).of_error⟩

end Vesta.Store
