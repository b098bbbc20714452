import Vesta.Output.Render
import Vesta.Receiver.Device

/-!
# Output — Exact

No measurement is lost in what is printed.
-/

namespace Vesta.Output

open Json (Value Serialize value record effective)
open Protocol (DecodedFrame DecodedTelemetry TelemetryV1 ProfileFragmentView Header DeviceConfig)
open Receiver

/-! ### Identifiers in records -/

def exactConfigurationColumns : List (String × (DeviceConfiguration → Value)) :=
  configurationColumns ++ [("identity", fun c => identityJson c.identity)] ++
    [("firmware_build_id", fun c => value (hexU64 c.firmwareBuildId))] ++
    [("calibration_hash", fun c => value (hexU64 c.calibrationHash))]

def exactHealthColumns : List (String × (DeviceHealth → Value)) :=
  healthColumns ++ [("identity", fun h => identityJson h.identity)]

def exactScanColumns : List (String × (ProfileScan → Value)) :=
  scanColumns ++ [("identity", fun s => identityJson s.identity)]

theorem exactConfiguration_injective : Function.Injective (record exactConfigurationColumns) := by
  intro a b h
  have hcolumns := Json.eq_of_mem_effective h
  cases a
  cases b
  simp [exactConfigurationColumns, configurationColumns, effective, identityJson_injective.eq_iff,
    hexU64_injective.eq_iff] at hcolumns
  simp [hcolumns]

theorem exactHealth_injective : Function.Injective (record exactHealthColumns) := by
  intro a b h
  have hcolumns := Json.eq_of_mem_effective h
  cases a
  cases b
  simp [exactHealthColumns, healthColumns, effective, identityJson_injective.eq_iff] at hcolumns
  simp [hcolumns]

theorem exactScan_injective : Function.Injective (record exactScanColumns) := by
  intro a b h
  have hcolumns := Json.eq_of_mem_effective h
  cases a
  cases b
  simp [exactScanColumns, scanColumns, effective, identityJson_injective.eq_iff] at hcolumns
  simp [hcolumns]

theorem envelope_injective : Function.Injective (record envelopeColumns) := by
  rintro ⟨t, v, r⟩ ⟨t', v', r'⟩ h
  have hcolumns := Json.eq_of_mem_effective h
  simpa [envelopeColumns, effective] using hcolumns

/-! ### Version 2 -/

section
variable {header header' : Header} {radio radio' : Option RadioMetadata}

theorem configurationJson_eq {config : DeviceConfig} {c : DeviceConfiguration}
    (h : (deviceConfiguration header config : Outcome V2RenderError _) = .ok c) :
    configurationJson header config radio = .ok
      (record envelopeColumns ("device_config", record exactConfigurationColumns c, radio)) := by
  rw [configurationJson, h, Outcome.ok_bind, exactifyIdentity]
  rw [show value c = record configurationColumns c from rfl,
    setField_record _ _ fun c : DeviceConfiguration => identityJson c.identity]
  rw [Outcome.ok_bind, setField_record _ _ fun c : DeviceConfiguration =>
    value (hexU64 c.firmwareBuildId)]
  rw [Outcome.ok_bind, setField_record _ _ fun c : DeviceConfiguration =>
    value (hexU64 c.calibrationHash)]
  rfl

theorem healthJson_eq {health : Protocol.DeviceHealth} : healthJson header health radio =
    .ok (record envelopeColumns
      ("device_health", record exactHealthColumns (deviceHealth header health), radio)) := by
  rw [healthJson, exactifyIdentity, show value (deviceHealth header health) =
    record healthColumns (deviceHealth header health) from rfl,
    setField_record _ _ fun h : DeviceHealth => identityJson h.identity]
  rfl

theorem fragmentJson_eq {fragment : ProfileFragmentView} {steps : List ProfileStep}
    (h : fragmentSteps fragment = .ok steps) :
    fragmentJson fragment radio = .ok (record fragmentColumns (fragment, steps, radio)) := by
  rw [fragmentJson, h]
  rfl

/-- The `frame_type` of a frame. -/
def frameName : DecodedFrame → String
  | .deviceConfig .. => "device_config"
  | .profileFragment .. => "profile_fragment"
  | .deviceHealth .. => "device_health"

/-- What a frame is printed as, and what of it is in that. -/
inductive Prints (radio : Option RadioMetadata) : DecodedFrame → Value → Prop where
  | deviceConfig {header : Header} {config : DeviceConfig} {c : DeviceConfiguration}
      (hc : (deviceConfiguration header config : Outcome V2RenderError _) = .ok c) :
      Prints radio (.deviceConfig header config)
        (record envelopeColumns ("device_config", record exactConfigurationColumns c, radio))
  | profileFragment {view : ProfileFragmentView} {steps : List ProfileStep}
      (hs : fragmentSteps view = .ok steps) :
      Prints radio (.profileFragment view) (record fragmentColumns (view, steps, radio))
  | deviceHealth {header : Header} {health : Protocol.DeviceHealth} :
      Prints radio (.deviceHealth header health) (record envelopeColumns
        ("device_health", record exactHealthColumns (deviceHealth header health), radio))

theorem prints_of_frameJson {f : DecodedFrame} {v : Value} (h : frameJson radio f = .ok v) :
    Prints radio f v := by
  cases f with
  | deviceConfig header config =>
      obtain ⟨c, hc, -⟩ := Outcome.bind_eq_ok.mp h
      cases (configurationJson_eq hc).symm.trans h
      exact .deviceConfig hc
  | profileFragment view =>
      obtain ⟨steps, hs, -⟩ := Outcome.bind_eq_ok.mp h
      have hs := Outcome.mapErr_eq_ok.mp hs
      cases (fragmentJson_eq hs).symm.trans h
      exact .profileFragment hs
  | deviceHealth header health =>
      cases healthJson_eq.symm.trans h
      exact .deviceHealth

/-- A decoded frame is printed. -/
theorem frameJson_returns (radio : Option RadioMetadata) {a : List UInt8} {f : DecodedFrame}
    (h : Protocol.decode a = .ok f) :
    ∃ v, frameJson radio f = .ok v := by
  cases f with
  | deviceConfig header config =>
      obtain ⟨-, -, -, -, -, -, -, hvalid, -⟩ := Protocol.decode_config.mp h
      obtain ⟨c, hc, -⟩ := validate_deviceConfiguration hvalid
      exact ⟨_, configurationJson_eq hc⟩
  | profileFragment view =>
      obtain ⟨steps, hs, -⟩ := fromView_eq h
      exact ⟨_, fragmentJson_eq (fragmentSteps_eq hs)⟩
  | deviceHealth header health => exact ⟨_, healthJson_eq⟩

theorem Prints.mem_frameName {f : DecodedFrame} {v : Value} (h : Prints radio f v) :
    ("frame_type", value (frameName f)) ∈ v.fields := by
  cases h with
  | deviceConfig =>
      exact Json.mem_record.mpr
        ⟨("frame_type", fun r => value r.1), by simp [envelopeColumns, effective], rfl⟩
  | profileFragment =>
      exact Json.mem_record.mpr ⟨("frame_type", fun _ => value "profile_fragment"),
        by simp [fragmentColumns, effective], rfl⟩
  | deviceHealth =>
      exact Json.mem_record.mpr
        ⟨("frame_type", fun r => value r.1), by simp [envelopeColumns, effective], rfl⟩

theorem Prints.ascending {f : DecodedFrame} {v : Value} (h : Prints radio f v) :
    Json.Ascending v.fields := by
  cases h <;> exact Json.ascending_record _ _

/-- Two fragments with the same fields and the same steps are the same to the receiver. -/
theorem fromView_of_fragmentColumns {view view' : ProfileFragmentView}
    {steps steps' : List ProfileStep}
    (hs : fragmentSteps view = .ok steps) (hs' : fragmentSteps view' = .ok steps')
    (h : record fragmentColumns (view, steps, radio) =
      record fragmentColumns (view', steps', radio')) :
    OwnedFragment.fromView view = OwnedFragment.fromView view' ∧ radio = radio' := by
  have hcolumns := Json.eq_of_mem_effective h
  simp [fragmentColumns, effective, identityJson_injective.eq_iff] at hcolumns
  have hkey : ProfileKey.ofHeader view.header = .ofHeader view'.header := by
    rw [← ProfileKey.ofIdentity_recordIdentity, hcolumns.1, ProfileKey.ofIdentity_recordIdentity]
  rw [OwnedFragment.fromView, OwnedFragment.fromView, hs, hs']
  simp [ProfileMetadata.ofView, hcolumns, hkey]

/-- A frame and the radio are determined by what is printed. -/
theorem Prints.determines {a b : List UInt8} {f g : DecodedFrame} {v w : Value}
    (ha : Protocol.decode a = .ok f) (hb : Protocol.decode b = .ok g) (hf : Prints radio f v)
    (hg : Prints radio' g w) (h : v = w) : a = b ∧ radio = radio' := by
  have htype : frameName f = frameName g :=
    Json.value_inj.mp (hf.ascending.unique hf.mem_frameName (h ▸ hg.mem_frameName))
  cases hf with
  | deviceConfig hc =>
      cases hg with
      | deviceConfig hc' =>
          obtain ⟨hrecord, hradio⟩ := Prod.mk.inj (Prod.mk.inj (envelope_injective h)).2
          obtain rfl := exactConfiguration_injective hrecord
          exact ⟨(deviceConfiguration_determines ha hb).mp (hc.trans hc'.symm), hradio⟩
      | profileFragment | deviceHealth => simp [frameName] at htype
  | profileFragment hs =>
      cases hg with
      | profileFragment hs' =>
          obtain ⟨hview, hradio⟩ := fromView_of_fragmentColumns hs hs' h
          exact ⟨(fromView_determines ha hb).mp hview, hradio⟩
      | deviceConfig | deviceHealth => simp [frameName] at htype
  | deviceHealth =>
      cases hg with
      | deviceHealth =>
          obtain ⟨hrecord, hradio⟩ := Prod.mk.inj (Prod.mk.inj (envelope_injective h)).2
          exact ⟨(deviceHealth_determines ha hb).mp (exactHealth_injective hrecord), hradio⟩
      | deviceConfig | profileFragment => simp [frameName] at htype

end

/-! ### Version 1 -/

theorem jsonFrameFields_injective : Function.Injective jsonFrameFields := by
  rintro ⟨⟨s⟩, node, seq, ⟨⟨t⟩, ⟨p⟩, ⟨h⟩, ⟨g⟩⟩, ⟨ta, pa, ha, ga, r, gi, mi, hr, hc, gw⟩⟩
    ⟨⟨s'⟩, node', seq', ⟨⟨t'⟩, ⟨p'⟩, ⟨h'⟩, ⟨g'⟩⟩,
      ⟨ta', pa', ha', ga', r', gi', mi', hr', hc', gw'⟩⟩ he
  simp [jsonFrameFields, hexU64_injective.eq_iff] at he
  simp [he]

/-- The radio of a v1 frame that was received. -/
theorem radio_injective {radio radio' : RadioMetadata}
    (h : radioColumns.map (fun column => (column.1, column.2 radio)) =
      radioColumns.map fun column => (column.1, column.2 radio')) : radio = radio' := by
  cases radio
  cases radio'
  simpa [radioColumns] using h

/-- The value of a v1 frame, with the radio when it was received. -/
def telemetryJson (frame : TelemetryV1) : Option RadioMetadata → Value
  | none => jsonFrame frame
  | some radio => jsonReceivedFrame frame radio

theorem telemetryJson_injective {f g : TelemetryV1} {radio radio' : Option RadioMetadata}
    (h : telemetryJson f radio = telemetryJson g radio') : f = g ∧ radio = radio' := by
  have hlength (f : TelemetryV1) : (jsonFrameFields f).length = 6 := rfl
  match radio, radio' with
  | none, none => exact ⟨jsonFrameFields_injective (Value.object.inj h), rfl⟩
  | none, some r | some r, none =>
      have hfields := congrArg List.length (Value.object.inj h)
      simp [hlength] at hfields
  | some r, some r' =>
      obtain ⟨hframe, hradio⟩ := List.append_inj (Value.object.inj h)
        ((hlength f).trans (hlength g).symm)
      simp only [List.cons.injEq, Prod.mk.injEq, Value.object.injEq, true_and, and_true] at hradio
      exact ⟨jsonFrameFields_injective hframe, congrArg some (radio_injective hradio)⟩

/-- A v1 frame has no `frame_type` and no `receiver_event`. -/
theorem telemetryJson_fields (frame : TelemetryV1) (radio : Option RadioMetadata) :
    ∀ field ∈ (telemetryJson frame radio).fields,
      field.1 ≠ "frame_type" ∧ field.1 ≠ "receiver_event" := by
  cases radio <;> simp [telemetryJson, jsonFrame, jsonReceivedFrame, jsonFrameFields, Value.fields]

/-! ### Profiles -/

/-- The value of a reassembled profile. -/
def profileJson (profile : ReassembledProfile) : Value :=
  record profileColumns (record exactScanColumns profile.scan, profile.fragments)

theorem profileJson_injective : Function.Injective profileJson := by
  rintro ⟨scan, fragments⟩ ⟨scan', fragments'⟩ h
  have hcolumns := Json.eq_of_mem_effective h
  simp [profileColumns, effective, exactScan_injective.eq_iff] at hcolumns
  simp [hcolumns]

theorem renderReassembledProfile_eq {ε : Type} (p : Presentation) (profile : ReassembledProfile)
    (format : OutputFormat) : (renderReassembledProfile p profile format : Outcome ε _) =
      .ok (p.write format (profileJson profile)) := by
  rw [renderReassembledProfile, exactifyIdentity, show value profile.scan =
    record scanColumns profile.scan from rfl,
    setField_record _ _ fun s : ProfileScan => identityJson s.identity]
  rfl

theorem integrity_injective : Function.Injective (record integrityColumns) := by
  rintro ⟨⟨⟩, i, k⟩ ⟨⟨⟩, i', k'⟩ h
  have hcolumns := Json.eq_of_mem_effective h
  simp [integrityColumns, effective, hexU64_injective.eq_iff, repr_injective.eq_iff,
    UInt64.toNat_inj] at hcolumns
  simp [hcolumns]

theorem telemetryJson_ne_integrity {frame : TelemetryV1} {radio : Option RadioMetadata}
    {update : ProfileKey × Int × UInt8} :
    telemetryJson frame radio ≠ record integrityColumns update := by
  intro h
  have hevent : ("receiver_event", value "profile_integrity_update") ∈
      (record integrityColumns update).fields :=
    Json.mem_record.mpr ⟨("receiver_event", fun _ => value "profile_integrity_update"),
      by simp [integrityColumns, effective], rfl⟩
  rw [← h] at hevent
  exact (telemetryJson_fields frame radio _ hevent).2 rfl

theorem frameName_ne_profile (f : DecodedFrame) : frameName f ≠ "profile_scan" := by
  cases f <;> simp [frameName]

/-! ### Lines -/

/-- What a line reports. -/
inductive Report where
  /-- a packet, with the radio when it was received -/
  | packet (payload : List UInt8) (frame : DecodedTelemetry)
      (decoded : Protocol.decodeAny payload = .ok frame) (radio : Option RadioMetadata)
  | profile (profile : ReassembledProfile)
  | integrity (key : ProfileKey) (packetId : Int) (fragmentIndex : UInt8)

/-- The `frame_type` of a report. -/
def Report.frameType : Report → Option String
  | .packet _ (.v1 _) _ _ | .integrity _ _ _ => none
  | .packet _ (.v2 f) _ _ => some (frameName f)
  | .profile _ => some "profile_scan"

/-- The value of a report. -/
inductive Reported : Report → Value → Prop where
  | telemetry {payload : List UInt8} {f : TelemetryV1}
      (h : Protocol.decodeAny payload = .ok (.v1 f)) (radio : Option RadioMetadata) :
      Reported (.packet payload (.v1 f) h radio) (telemetryJson f radio)
  | frame {payload : List UInt8} {f : DecodedFrame} {radio : Option RadioMetadata} {v : Value}
      (h : Protocol.decodeAny payload = .ok (.v2 f)) (hv : Prints radio f v) :
      Reported (.packet payload (.v2 f) h radio) v
  | profile (q : ReassembledProfile) : Reported (.profile q) (profileJson q)
  | integrity (key : ProfileKey) (packetId : Int) (fragmentIndex : UInt8) :
      Reported (.integrity key packetId fragmentIndex)
        (record integrityColumns (key, packetId, fragmentIndex))

namespace Reported

variable {r r' : Report} {v : Value}

theorem frameType (h : Reported r v) (s : String) :
    ("frame_type", value s) ∈ v.fields ↔ r.frameType = some s := by
  cases h with
  | telemetry hd radio =>
      refine ⟨fun hf => ?_, nofun⟩
      exact absurd rfl (telemetryJson_fields _ radio _ hf).1
  | frame hd hv =>
      refine ⟨fun hf => ?_, ?_⟩
      · exact congrArg some (Json.value_inj.mp (hv.ascending.unique hv.mem_frameName hf))
      · rintro ⟨⟩
        exact hv.mem_frameName
  | profile q =>
      rw [profileJson, Json.mem_record]
      simp [profileColumns, effective, Report.frameType]
  | integrity key packetId fragmentIndex =>
      rw [Json.mem_record]
      simp [integrityColumns, effective, Report.frameType]

/-- A report is determined by its value. -/
theorem determines {w : Value} (h : Reported r v) (h' : Reported r' w) (hvw : v = w) : r = r' := by
  have htype : r.frameType = r'.frameType :=
    Option.ext fun s => (h.frameType s).symm.trans (hvw ▸ h'.frameType s)
  cases h with
  | telemetry hd radio =>
      cases h' with
      | telemetry hd' radio' =>
          obtain ⟨rfl, rfl⟩ := telemetryJson_injective hvw
          obtain rfl := (Protocol.decodeAny_v1.mp hd).trans (Protocol.decodeAny_v1.mp hd').symm
          rfl
      | integrity => exact absurd hvw telemetryJson_ne_integrity
      | frame | profile => cases htype
  | frame hd hp =>
      cases h' with
      | frame hd' hp' =>
          obtain ⟨rfl, rfl⟩ := hp.determines (Protocol.decodeAny_v2.mp hd)
            (Protocol.decodeAny_v2.mp hd') hp' hvw
          cases hd.symm.trans hd'
          rfl
      | profile => exact absurd (Option.some.inj htype) (frameName_ne_profile _)
      | telemetry | integrity => cases htype
  | profile q =>
      cases h' with
      | profile q' =>
          obtain rfl := profileJson_injective hvw
          rfl
      | frame => exact absurd (Option.some.inj htype).symm (frameName_ne_profile _)
      | telemetry | integrity => cases htype
  | integrity key packetId fragmentIndex =>
      cases h' with
      | integrity =>
          obtain ⟨rfl, rfl, rfl⟩ := by simpa using integrity_injective hvw
          rfl
      | telemetry => exact absurd hvw.symm telemetryJson_ne_integrity
      | frame | profile => cases htype

end Reported

section
variable (p : Presentation)

/-- The line of a report. -/
def Report.line : Report → Outcome V2RenderError (List Char)
  | .packet _ frame _ radio => rendered p .jsonLines radio frame
  | .profile q => renderReassembledProfile p q .jsonLines
  | .integrity key packetId fragmentIndex =>
      .ok (integrityUpdate p key packetId fragmentIndex .jsonLines)

/-- The lines of reports, each with its line break. -/
def transcript (reports : List Report) : Outcome V2RenderError (List Char) := do
  return (← reports.mapM (Report.line p)).flatMap fun line => line ++ ['\n']

theorem line_eq (r : Report) : ∃ v, Reported r v ∧ r.line p = .ok (p.toString v) := by
  match r with
  | .packet payload (.v1 f) hd radio =>
      refine ⟨_, .telemetry hd radio, ?_⟩
      cases radio <;> rfl
  | .packet payload (.v2 f) hd radio =>
      obtain ⟨v, hv⟩ := frameJson_returns radio (Protocol.decodeAny_v2.mp hd)
      refine ⟨v, .frame hd (prints_of_frameJson hv), ?_⟩
      rw [Report.line, rendered, renderV2, hv]
      rfl
  | .profile q => exact ⟨_, .profile q, renderReassembledProfile_eq p q .jsonLines⟩
  | .integrity key packetId fragmentIndex => exact ⟨_, .integrity key packetId fragmentIndex, rfl⟩

/-- The characters of a report's line. -/
def Report.chars (r : Report) : List Char := (r.line p).toOption.getD []

theorem line_chars (r : Report) : r.line p = .ok (r.chars p) := by
  obtain ⟨v, -, hv⟩ := line_eq p r
  rw [Report.chars, hv]
  rfl

theorem chars_injective : Function.Injective (Report.chars p) := by
  intro r r' h
  obtain ⟨v, hr, hv⟩ := line_eq p r
  obtain ⟨v', hr', hv'⟩ := line_eq p r'
  rw [line_chars] at hv hv'
  have htext : p.toString v = p.toString v' := by rw [← Except.ok.inj hv, ← Except.ok.inj hv', h]
  exact hr.determines hr' (p.toString_injective htext)

theorem newline_not_mem_chars (r : Report) : '\n' ∉ r.chars p := by
  obtain ⟨v, -, hv⟩ := line_eq p r
  rw [line_chars] at hv
  rw [Except.ok.inj hv]
  exact p.newline_not_mem_toString v

theorem transcript_eq (reports : List Report) :
    transcript p reports = .ok (reports.flatMap fun r => r.chars p ++ ['\n']) := by
  rw [transcript, Outcome.mapM_eq_map fun r _ => line_chars p r, Outcome.ok_bind, List.flatMap_map]
  rfl

/-- **A transcript determines its reports.**  Whatever was received and put together, it is printed,
and nothing else is printed as the same lines: they give the bytes of each packet with its radio,
each profile with its fragments, and each integrity update, in their order. -/
theorem transcript_determines (reports reports' : List Report) :
    ∃ lines lines', transcript p reports = .ok lines ∧ transcript p reports' = .ok lines' ∧
      (lines = lines' ↔ reports = reports') :=
  ⟨_, _, transcript_eq p reports, transcript_eq p reports',
    (Json.joined_injective (chars_injective p) (newline_not_mem_chars p)).eq_iff⟩

end

end Vesta.Output
