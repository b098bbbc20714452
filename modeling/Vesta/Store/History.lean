import Vesta.Ledger.Packets
import Vesta.Store.Recovery

/-!
# Store — History

What a database keeps for good.  An archived packet keeps its identity, its time, its measurements
and its bytes (`Heard`); a stored record stays as it is; a complete scan stays, and nothing but its
counters changes, which only grow.  `Extends s heard s'` says that `s'` continues `s` in this way,
with the packets `heard` archived in between, each together with the record that it carries.

Every operation of the database continues what it finds, whatever that is.
-/

namespace Vesta.Store

open Outcome (failIf bind_eq_ok unit_bind_eq_ok failIf_eq_ok foldlM_keeps)
open Receiver (RadioMetadata DeviceConfiguration DeviceHealth HeaterStepConfiguration ProfileKey
  ReassembledProfile SourceFragment deviceConfiguration deviceHealth)

/-! ### Packets and what they carry -/

/-- A packet as it was received. -/
structure Heard where
  id : Int
  receivedAtUnixMs : Int
  radio : RadioMetadata
  payload : List UInt8
deriving DecidableEq

def PacketRow.heard (p : PacketRow) : Heard := ⟨p.id, p.receivedAtUnixMs, p.radio, p.payload⟩

/-- The tables for the records that packets carry. -/
inductive RecordTable where
  | readings
  | configurations
  | health
deriving DecidableEq

/-- The table for the record of a payload, if it carries one. -/
def tableOf (payload : List UInt8) : Option RecordTable :=
  match Protocol.decodeAny payload with
  | .ok (.v1 _) => some .readings
  | .ok (.v2 (.deviceConfig _ _)) => some .configurations
  | .ok (.v2 (.deviceHealth _ _)) => some .health
  | _ => none

/-- The packets with a record for the table. -/
def carrying (table : RecordTable) (heard : List Heard) : List Heard :=
  heard.filter fun p => tableOf p.payload = some table

/-- The row is the reading that the packet carries. -/
structure ReadingRow.Of (row : ReadingRow) (p : Heard) : Prop where
  decoded : Protocol.decodeAny p.payload = .ok (.v1 row.frame)
  receivedAtUnixMs : row.receivedAtUnixMs = p.receivedAtUnixMs
  radio : row.radio = p.radio
  payload : row.payload = p.payload
  radioPacketId : row.radioPacketId = some p.id

/-- The row is the configuration that the packet carries. -/
structure ConfigurationRow.Of (row : ConfigurationRow) (p : Heard) : Prop where
  decoded : ∃ header config,
    Protocol.decodeAny p.payload = .ok (.v2 (.deviceConfig header config)) ∧
    (deviceConfiguration header config : Outcome AppError _) = .ok row.recordJson
  receivedAtUnixMs : row.receivedAtUnixMs = p.receivedAtUnixMs
  sourcePacketId : row.sourcePacketId = some p.id
  steps : row.steps = row.recordJson.heaterSteps

/-- The row is the health record that the packet carries. -/
structure HealthRow.Of (row : HealthRow) (p : Heard) : Prop where
  decoded : ∃ header health,
    Protocol.decodeAny p.payload = .ok (.v2 (.deviceHealth header health)) ∧
    row.recordJson = deviceHealth header health
  receivedAtUnixMs : row.receivedAtUnixMs = p.receivedAtUnixMs
  sourcePacketId : row.sourcePacketId = some p.id

/-! ### Scans that count -/

namespace ScanRow

/-- The row without its integrity counters. -/
def uncounted (row : ScanRow) : ScanRow :=
  { row with
    scan := { row.scan with duplicateFragmentCount := 0, conflictingFragmentCount := 0 }
    recordJson := { row.recordJson with
      duplicateFragmentCount := 0, conflictingFragmentCount := 0 } }

/-- Nothing but the counters has changed, and they have not become smaller. -/
structure CountsOn (row row' : ScanRow) : Prop where
  uncounted : row'.uncounted = row.uncounted
  duplicates : min row.scan.duplicateFragmentCount 65535 ≤ row'.scan.duplicateFragmentCount
  conflicts : min row.scan.conflictingFragmentCount 65535 ≤ row'.scan.conflictingFragmentCount

namespace CountsOn

instance : Std.Refl CountsOn := ⟨fun _ => ⟨rfl, Nat.min_le_left _ _, Nat.min_le_left _ _⟩⟩

instance : IsTrans ScanRow CountsOn where
  trans a b c h h' := by
    obtain ⟨hsame, hdup, hconf⟩ := h
    obtain ⟨hsame', hdup', hconf'⟩ := h'
    exact ⟨hsame'.trans hsame, by omega, by omega⟩

theorem transportComplete {row row' : ScanRow} (h : CountsOn row row') :
    row'.transportComplete = row.transportComplete := by
  have hsame := congrArg ScanRow.transportComplete h.uncounted
  exact hsame

theorem addCounts (row : ScanRow) (duplicates conflicts : Nat) :
    CountsOn row (row.addCounts duplicates conflicts) := by
  refine ⟨rfl, ?_, ?_⟩
  · show _ ≤ min _ 65535
    omega
  · show _ ≤ min _ 65535
    omega

theorem countMatch (row : ScanRow) (c : PersistedFragmentMatch) :
    CountsOn row (row.countMatch c) := by
  cases c with
  | duplicate =>
      refine ⟨rfl, ?_, Nat.min_le_left _ _⟩
      show _ ≤ min _ 65535
      omega
  | conflict =>
      refine ⟨rfl, Nat.min_le_left _ _, ?_⟩
      show _ ≤ min _ 65535
      omega

end CountsOn

end ScanRow

open ScanRow (CountsOn)

/-! ### Continuations -/

section
variable {α β : Type} {R : α → β → Prop} {as as' as'' : List α} {bs cs : List β}

/-- A list was extended by one entry for each of `bs`. -/
def Adds (R : α → β → Prop) (as as' : List α) (bs : List β) : Prop :=
  ∃ new, as' = as ++ new ∧ List.Forall₂ R new bs

theorem Adds.refl : Adds R as as [] := ⟨[], (List.append_nil as).symm, .nil⟩

theorem Adds.one {a : α} {b : β} (h : R a b) : Adds R as (as ++ [a]) [b] :=
  ⟨[a], rfl, .cons h .nil⟩

theorem Adds.trans (h : Adds R as as' bs) (h' : Adds R as' as'' cs) :
    Adds R as as'' (bs ++ cs) := by
  obtain ⟨new, rfl, hnew⟩ := h
  obtain ⟨more, rfl, hmore⟩ := h'
  exact ⟨new ++ more, List.append_assoc .., List.rel_append hnew hmore⟩

end

namespace TelemetryStore

/-- The packets as they were received. -/
def heard (s : TelemetryStore) : List Heard := s.packets.map (·.heard)

/-- The complete scans. -/
def completeScans (s : TelemetryStore) : List ScanRow := s.scans.filter (·.transportComplete)

/-- The packets are numbered in the order of their arrival. -/
def Ascending (s : TelemetryStore) : Prop := (s.packets.map (·.id)).Pairwise (· < ·)

end TelemetryStore

/-- The database `s'` continues `s`, and the packets `heard` were archived in between. -/
structure Extends (s : TelemetryStore) (heard : List Heard) (s' : TelemetryStore) : Prop where
  packets : s'.heard = s.heard ++ heard
  ascending : s.Ascending → s'.Ascending
  readings : Adds ReadingRow.Of s.readings s'.readings (carrying .readings heard)
  configurations :
    Adds ConfigurationRow.Of s.configurations s'.configurations (carrying .configurations heard)
  health : Adds HealthRow.Of s.health s'.health (carrying .health heard)
  scans : List.SublistForall₂ CountsOn s.completeScans s'.completeScans

namespace Extends

variable {s s' s'' : TelemetryStore} {ps qs : List Heard}

theorem refl (s : TelemetryStore) : Extends s [] s where
  packets := (List.append_nil _).symm
  ascending := id
  readings := .refl
  configurations := .refl
  health := .refl
  scans := List.SublistForall₂.is_refl.refl _

theorem trans (h : Extends s ps s') (h' : Extends s' qs s'') : Extends s (ps ++ qs) s'' where
  packets := by rw [h'.packets, h.packets, List.append_assoc]
  ascending ha := h'.ascending (h.ascending ha)
  readings := by
    rw [carrying, List.filter_append]
    exact h.readings.trans h'.readings
  configurations := by
    rw [carrying, List.filter_append]
    exact h.configurations.trans h'.configurations
  health := by
    rw [carrying, List.filter_append]
    exact h.health.trans h'.health
  scans := List.SublistForall₂.is_trans.trans _ _ _ h.scans h'.scans

theorem payloads (h : Extends s ps s') :
    s'.packets.map (·.payload) = s.packets.map (·.payload) ++ ps.map (·.payload) := by
  have hpackets := congrArg (List.map Heard.payload) h.packets
  rw [List.map_append, TelemetryStore.heard, TelemetryStore.heard, List.map_map, List.map_map]
    at hpackets
  exact hpackets

/-- Nothing more was archived. -/
theorem still (h : Extends s ps s') (h' : Extends s' [] s'') : Extends s ps s'' := by
  have ht := h.trans h'
  rwa [List.append_nil] at ht

/-- A statement on one packet that does not change what was received. -/
theorem updatePacket {f : PacketRow → PacketRow} (hf : ∀ p, (f p).heard = p.heard)
    (packetId : Int) :
    Extends s [] (s.updatePacket packetId f) := by
  have hheard : (s.updatePacket packetId f).heard = s.heard := by
    rw [TelemetryStore.heard, TelemetryStore.updatePacket, List.map_map]
    refine List.map_congr_left fun p _ => ?_
    rw [Function.comp_apply]
    split
    · exact hf p
    · rfl
  refine ⟨?_, fun ha => ?_, .refl, .refl, .refl, List.SublistForall₂.is_refl.refl _⟩
  · rw [hheard, List.append_nil]
  · have hids : (s.updatePacket packetId f).packets.map (·.id) = s.packets.map (·.id) := by
      have hmap := congrArg (List.map Heard.id) hheard
      simpa only [TelemetryStore.heard, List.map_map, Function.comp_def, PacketRow.heard] using hmap
    rw [TelemetryStore.Ascending, hids]
    exact ha

theorem setStatus (packetId : Int) (status : FragmentStorageStatus) :
    Extends s [] (s.setStatus packetId status) :=
  updatePacket (f := (·.withStatus status)) (fun _ => rfl) packetId

theorem quarantined (packetId : Int) (error : DecodeErrorText) :
    Extends s [] (s.updatePacket packetId (·.quarantined error)) :=
  updatePacket (f := (·.quarantined error)) (fun _ => rfl) packetId

/-- A statement on the scans that loses no complete one. -/
theorem of_scans {scans : List ScanRow}
    (h : List.SublistForall₂ CountsOn s.completeScans (scans.filter (·.transportComplete))) :
    Extends s [] { s with scans } :=
  ⟨(List.append_nil _).symm, id, .refl, .refl, .refl, h⟩

theorem updateScan {f : ScanRow → ScanRow} (hf : ∀ row, CountsOn row (f row)) (scanId : Int) :
    Extends s [] (s.updateScan scanId f) := by
  have hcounts : ∀ row : ScanRow, CountsOn row (if row.id = scanId then f row else row) := by
    intro row
    split
    · exact hf row
    · exact Std.Refl.refl row
  refine of_scans (List.sublistForall₂_iff.mpr ⟨_, ?_, List.Sublist.refl _⟩)
  rw [List.filter_map]
  have hfilter : s.scans.filter ((·.transportComplete) ∘
      fun row : ScanRow => if row.id = scanId then f row else row) = s.completeScans :=
    List.filter_congr fun row _ => (hcounts row).transportComplete
  rw [hfilter, List.forall₂_map_right_iff]
  exact List.forall₂_same.mpr fun row _ => hcounts row

/-- Deletions of incomplete scans. -/
theorem filterScans {keep : ScanRow → Bool} (hkeep : ∀ row, row.transportComplete → keep row) :
    Extends s [] { s with scans := s.scans.filter keep } := by
  refine of_scans (List.Sublist.sublistForall₂ ?_)
  have hsame : (s.scans.filter keep).filter (·.transportComplete) = s.completeScans := by
    rw [List.filter_filter]
    refine List.filter_congr fun row _ => ?_
    cases hc : row.transportComplete with
    | true => rw [hkeep row hc, Bool.and_true]
    | false => rfl
  rw [hsame]

theorem deleteIncomplete (key : ProfileKey) : Extends s [] (s.deleteIncomplete key) :=
  filterScans fun row hc => by simp [hc]

theorem insertScan (row : ScanRow) : Extends s [] { s with scans := s.scans ++ [row] } := by
  refine of_scans (List.Sublist.sublistForall₂ ?_)
  rw [List.filter_append]
  exact List.sublist_append_left _ _

theorem foldl {α : Type} {f : TelemetryStore → α → TelemetryStore}
    (hf : ∀ s a, Extends s [] (f s a)) (as : List α) : Extends s [] (as.foldl f s) := by
  induction as generalizing s with
  | nil => exact refl s
  | cons a as ih => exact (hf s a).still ih

end Extends

/-! ### Operations -/

namespace TelemetryStore

variable {s s' : TelemetryStore}

/-- Counting on some scans. -/
theorem extends_updateScans {α : Type} (ids : List α) (scanId : α → Int) {f : ScanRow → ScanRow}
    (hf : ∀ row, CountsOn row (f row)) :
    Extends s [] (ids.foldl (fun s id => s.updateScan (scanId id) f) s) :=
  Extends.foldl (fun _ id => .updateScan hf (scanId id)) ids

theorem extends_markFragmentStatus {packetId : Int} {status : FragmentStorageStatus}
    (h : s.markFragmentStatus packetId status = .ok s') : Extends s [] s' := by
  obtain ⟨-, h⟩ := unit_bind_eq_ok.mp h
  exact Except.ok.inj h ▸ .setStatus packetId status

theorem extends_reconcilePersistedProfileFragment {key : ProfileKey} {packetId : Int}
    {fragmentIndex : UInt8} {payload : List UInt8} {r : Option PersistedFragmentMatch}
    (h : s.reconcilePersistedProfileFragment key packetId fragmentIndex payload = .ok (r, s')) :
    Extends s [] s' := by
  unfold reconcilePersistedProfileFragment at h
  dsimp only at h
  split at h
  · obtain ⟨-, rfl⟩ := Prod.mk.inj (Except.ok.inj h)
    exact .refl s
  · obtain ⟨-, rfl⟩ := Prod.mk.inj (Except.ok.inj h)
    refine Extends.still ?_ (.setStatus packetId _)
    exact extends_updateScans _ Prod.fst fun row => .countMatch row _

/-- Linking fragments to a scan marks their packets. -/
theorem extends_linkFragments {row row' : ScanRow} {status : FragmentStorageStatus}
    {fragments : List SourceFragment}
    (h : fragments.foldlM (fun (row, s) fragment => do
      let row ← row.insertFragment s fragment
      return (row, s.setStatus fragment.packetId status)) (row, s) = .ok (row', s')) :
    Extends s [] s' := by
  refine foldlM_keeps (R := fun r => Extends s [] r.2) (fun r fragment r' hr hstep => ?_)
    (.refl s) h
  obtain ⟨linked, -, hstep⟩ := bind_eq_ok.mp hstep
  obtain rfl := Except.ok.inj hstep
  exact hr.still (.setStatus _ status)

/-- **Storing a profile** replaces incomplete scans only. -/
theorem extends_insertProfileScanInner {profile : ReassembledProfile}
    {integrityPacket : Option (Int × FragmentStorageStatus)} {record : StoredRecord}
    (h : s.insertProfileScanInner profile integrityPacket = .ok (record, s')) :
      Extends s [] s' := by
  unfold insertProfileScanInner at h
  obtain ⟨-, h⟩ := unit_bind_eq_ok.mp h
  split at h
  · split at h
    · obtain ⟨missing, -, h⟩ := bind_eq_ok.mp h
      obtain ⟨complete, -, h⟩ := bind_eq_ok.mp h
      obtain ⟨-, h⟩ := unit_bind_eq_ok.mp h
      obtain ⟨row, -, h⟩ := bind_eq_ok.mp h
      obtain ⟨⟨linked, t⟩, hlinks, h⟩ := bind_eq_ok.mp h
      have ht : Extends s [] t := (Extends.deleteIncomplete _).still (extends_linkFragments hlinks)
      cases integrityPacket with
      | none =>
          obtain ⟨-, rfl⟩ := Prod.mk.inj (Except.ok.inj h)
          exact ht.still (.insertScan linked)
      | some mark =>
          obtain ⟨u, hmark, h⟩ := bind_eq_ok.mp h
          obtain ⟨-, rfl⟩ := Prod.mk.inj (Except.ok.inj h)
          exact (ht.still (extends_markFragmentStatus hmark)).still (.insertScan linked)
    · cases h
  · cases h

/-- **Merging** counts on the complete scans and deletes the incomplete one. -/
theorem extends_coalesceIncompleteProfileIntoCompleted {profile : PersistedIncompleteProfile}
    {r : Option (List PersistedFragmentClassification)}
    (h : s.coalesceIncompleteProfileIntoCompleted profile = .ok (r, s')) : Extends s [] s' := by
  unfold coalesceIncompleteProfileIntoCompleted at h
  dsimp only at h
  split at h
  · obtain ⟨-, rfl⟩ := Prod.mk.inj (Except.ok.inj h)
    exact .refl s
  · obtain ⟨⟨classifications, t⟩, hloop, h⟩ := bind_eq_ok.mp h
    obtain ⟨-, h⟩ := unit_bind_eq_ok.mp h
    obtain ⟨-, rfl⟩ := Prod.mk.inj (Except.ok.inj h)
    have ht : Extends s [] t := by
      refine foldlM_keeps (R := fun r => Extends s [] r.2) (fun r fragment r' hr hstep => ?_)
        (extends_updateScans _ id fun row => .addCounts row _ _) hloop
      obtain ⟨⟨classification, u⟩, hone, he⟩ := bind_eq_ok.mp hstep
      obtain rfl := Except.ok.inj he
      obtain ⟨-, hone⟩ := unit_bind_eq_ok.mp hone
      obtain ⟨v, hmark, he⟩ := bind_eq_ok.mp hone
      obtain ⟨-, rfl⟩ := Prod.mk.inj (Except.ok.inj he)
      refine hr.still (Extends.still ?_ (extends_markFragmentStatus hmark))
      exact extends_updateScans _ id fun row => .countMatch row _
    exact ht.still (.filterScans fun row hc => by simp [hc])

theorem extends_quarantinePendingProfileFragment {packetId : Int} {error : DecodeErrorText}
    (h : s.quarantinePendingProfileFragment packetId error = .ok s') : Extends s [] s' := by
  obtain ⟨-, h⟩ := unit_bind_eq_ok.mp h
  exact Except.ok.inj h ▸ .quarantined packetId error

/-- **Quarantining** dismantles incomplete scans only, and keeps the bytes. -/
theorem extends_quarantineIncompleteProfileFragment {scanId packetId : Int} {key : ProfileKey}
    {error : DecodeErrorText}
    (h : s.quarantineIncompleteProfileFragment scanId key packetId error = .ok s') :
    Extends s [] s' := by
  unfold quarantineIncompleteProfileFragment at h
  obtain ⟨-, h⟩ := unit_bind_eq_ok.mp h
  obtain ⟨-, h⟩ := unit_bind_eq_ok.mp h
  obtain ⟨-, h⟩ := unit_bind_eq_ok.mp h
  obtain rfl := Except.ok.inj h
  refine (Extends.still ?_ (.quarantined packetId error)).still (.deleteIncomplete key)
  refine Extends.foldl (fun t candidate => ?_) _
  split
  · exact .setStatus candidate.id .pending
  · exact .quarantined candidate.id .sameKeyReplay

/-! ### Archiving -/

/-- The packet that is archived next. -/
def nextHeard (s : TelemetryStore) (now : Nat) (payload : List UInt8) (radio : RadioMetadata) :
    Heard :=
  ⟨nextRowId (s.packets.map (·.id)), now, radio, payload⟩

section
variable {now : Nat} {payload : List UInt8} {radio : RadioMetadata}

/-- A packet was added, and perhaps its record in another table. -/
theorem extends_archived {row : PacketRow} (hrow : row.heard = s.nextHeard now payload radio)
    {readings : List ReadingRow} {configurations : List ConfigurationRow} {health : List HealthRow}
    (hreadings : Adds ReadingRow.Of s.readings readings
      (carrying .readings [s.nextHeard now payload radio]))
    (hconfigurations : Adds ConfigurationRow.Of s.configurations configurations
      (carrying .configurations [s.nextHeard now payload radio]))
    (hhealth : Adds HealthRow.Of s.health health
      (carrying .health [s.nextHeard now payload radio])) :
    Extends s [s.nextHeard now payload radio]
      ⟨s.packets ++ [row], readings, configurations, s.scans, health⟩ where
  packets := by
    rw [heard, List.map_append, List.map_singleton, hrow]
    rfl
  ascending ha := by
    have hid : row.id = nextRowId (s.packets.map (·.id)) := congrArg Heard.id hrow
    rw [Ascending, List.map_append, List.map_singleton, hid]
    refine List.pairwise_append.mpr ⟨ha, List.pairwise_singleton _ _, fun id hmem next hnext => ?_⟩
    rw [List.mem_singleton.mp hnext]
    exact Ledger.lt_nextRowId hmem
  readings := hreadings
  configurations := hconfigurations
  health := hhealth
  scans := List.SublistForall₂.is_refl.refl _

/-- Nothing but the packet was added. -/
theorem extends_packet {row : PacketRow} (hrow : row.heard = s.nextHeard now payload radio)
    (hplain : tableOf payload = none) :
    Extends s [s.nextHeard now payload radio] { s with packets := s.packets ++ [row] } := by
  have hnone : ∀ table, carrying table [s.nextHeard now payload radio] = [] := by
    intro table
    refine List.filter_eq_nil_iff.mpr fun p hp => ?_
    rw [List.mem_singleton.mp hp]
    simp [nextHeard, hplain]
  refine extends_archived hrow ?_ ?_ ?_
  all_goals
    rw [hnone]
    exact .refl

/-- The packet is the only one that carries a record. -/
theorem carrying_one {table : RecordTable} (h : tableOf payload = some table)
    (other : RecordTable) :
    carrying other [s.nextHeard now payload radio] =
      if other = table then [s.nextHeard now payload radio] else [] := by
  have hone : (decide (tableOf (s.nextHeard now payload radio).payload = some other)) =
      decide (other = table) := by
    rw [show (s.nextHeard now payload radio).payload = payload from rfl, h]
    simp [eq_comm]
  rw [carrying, List.filter_singleton, hone]
  simp

/-- The table of another record is as it was. -/
theorem adds_nothing {α : Type} {R : α → Heard → Prop} {rows : List α} {table other : RecordTable}
    (h : tableOf payload = some table) (hne : other ≠ table) :
    Adds R rows rows (carrying other [s.nextHeard now payload radio]) := by
  rw [carrying_one h, if_neg hne]
  exact .refl

/-- The table of the record has one more row. -/
theorem adds_record {α : Type} {R : α → Heard → Prop} {rows : List α} {row : α}
    {table : RecordTable}
    (h : tableOf payload = some table) (hrow : R row (s.nextHeard now payload radio)) :
    Adds R rows (rows ++ [row]) (carrying table [s.nextHeard now payload radio]) := by
  rw [carrying_one h, if_pos rfl]
  exact .one hrow

theorem insertPacketAt_returns {disposition : PacketDisposition}
    {protocolVersion frameType : Option UInt8} {decodeError : Option DecodeErrorText}
    {record : StoredRecord} (h : s.insertPacketAt payload radio now disposition protocolVersion
      frameType decodeError = .ok (record, s')) :
    ∃ row, row.heard = s.nextHeard now payload radio ∧ record.id = row.id ∧
      s' = Ledger.pushed s row := by
  obtain ⟨-, h⟩ := unit_bind_eq_ok.mp h
  obtain ⟨rfl, rfl⟩ := Prod.mk.inj (Except.ok.inj h)
  exact ⟨_, rfl, rfl, rfl⟩

/-- The decode goes into the row of its packet. -/
theorem insertV2PacketDecodeAt_returns {row : PacketRow} {header : Protocol.Header}
    {kind : V2PacketKind} (hrow : row.heard = s.nextHeard now payload radio)
    (h : (Ledger.pushed s row).insertV2PacketDecodeAt row.id header kind = .ok s') :
    ∃ row', row'.heard = s.nextHeard now payload radio ∧ s' = Ledger.pushed s row' := by
  obtain ⟨-, h⟩ := unit_bind_eq_ok.mp h
  obtain rfl := Except.ok.inj h
  have hid : row.id = nextRowId (s.packets.map (·.id)) := congrArg Heard.id hrow
  refine ⟨_, ?_, Ledger.updatePacket_pushed hid _⟩
  exact hrow

/-- The steps are inserted as they are. -/
theorem insertHeaterSteps_returns {steps done rows : List HeaterStepConfiguration}
    (h : steps.foldlM insertHeaterStep done = .ok rows) : rows = done ++ steps := by
  induction steps generalizing done with
  | nil =>
      obtain rfl := Except.ok.inj h
      exact (List.append_nil _).symm
  | cons step steps ih =>
      rw [List.foldlM_cons] at h
      obtain ⟨next, hnext, h⟩ := bind_eq_ok.mp h
      obtain ⟨-, hnext⟩ := unit_bind_eq_ok.mp hnext
      obtain rfl := Except.ok.inj hnext
      rw [ih h, List.append_assoc]
      rfl

/-- **Archiving** a packet that carries no record. -/
theorem extends_archivePacket (hplain : tableOf payload = none) {disposition : PacketDisposition}
    {decodeError : Option DecodeErrorText} {record : StoredRecord}
    (h : s.archivePacket now payload radio disposition decodeError = .ok (record, s')) :
    Extends s [s.nextHeard now payload radio] s' := by
  obtain ⟨row, hrow, -, rfl⟩ := insertPacketAt_returns h
  exact extends_packet hrow hplain

/-- **Archiving** a fragment. -/
theorem extends_archiveV2ProfileFragment (hplain : tableOf payload = none)
    {header : Protocol.Header} {record : StoredRecord}
    (h : s.archiveV2ProfileFragment now payload radio header = .ok (record, s')) :
    Extends s [s.nextHeard now payload radio] s' := by
  obtain ⟨⟨packet, t⟩, hpacket, h⟩ := bind_eq_ok.mp h
  obtain ⟨row, hrow, hid, rfl⟩ := insertPacketAt_returns hpacket
  obtain ⟨u, hdecode, h⟩ := bind_eq_ok.mp h
  obtain ⟨-, rfl⟩ := Prod.mk.inj (Except.ok.inj h)
  rw [hid] at hdecode
  obtain ⟨row', hrow', rfl⟩ := insertV2PacketDecodeAt_returns hrow hdecode
  exact extends_packet hrow' hplain

/-- **Archiving** a reading. -/
theorem extends_insertReceivedV1 {frame : Protocol.TelemetryV1}
    (hd : Protocol.decodeAny payload = .ok (.v1 frame)) {reading : ReadingRow}
    (h : s.insertReceivedV1 now frame payload radio = .ok (reading, s')) :
    Extends s [s.nextHeard now payload radio] s' := by
  have htable : tableOf payload = some .readings := by rw [tableOf, hd]
  obtain ⟨⟨packet, t⟩, hpacket, h⟩ := bind_eq_ok.mp h
  obtain ⟨row, hrow, hid, rfl⟩ := insertPacketAt_returns hpacket
  obtain ⟨-, h⟩ := unit_bind_eq_ok.mp h
  obtain ⟨-, rfl⟩ := Prod.mk.inj (Except.ok.inj h)
  refine extends_archived hrow (adds_record htable ⟨hd, rfl, rfl, rfl, ?_⟩)
    (adds_nothing htable (by simp)) (adds_nothing htable (by simp))
  exact congrArg some (hid.trans (congrArg Heard.id hrow))

/-- **Archiving** a configuration. -/
theorem extends_insertReceivedDeviceConfiguration {header : Protocol.Header}
    {config : Protocol.DeviceConfig} {configuration : DeviceConfiguration}
    (hd : Protocol.decodeAny payload = .ok (.v2 (.deviceConfig header config)))
    (hrecord : (deviceConfiguration header config : Outcome AppError _) = .ok configuration)
    {records : StoredRecord × StoredRecord}
    (h : s.insertReceivedDeviceConfiguration now payload radio header configuration =
      .ok (records, s')) : Extends s [s.nextHeard now payload radio] s' := by
  have htable : tableOf payload = some .configurations := by rw [tableOf, hd]
  obtain ⟨-, h⟩ := unit_bind_eq_ok.mp h
  obtain ⟨⟨packet, t⟩, hpacket, h⟩ := bind_eq_ok.mp h
  obtain ⟨row, hrow, hid, rfl⟩ := insertPacketAt_returns hpacket
  obtain ⟨u, hdecode, h⟩ := bind_eq_ok.mp h
  rw [hid] at hdecode
  obtain ⟨row', hrow', rfl⟩ := insertV2PacketDecodeAt_returns hrow hdecode
  obtain ⟨⟨record, v⟩, hinsert, h⟩ := bind_eq_ok.mp h
  obtain ⟨-, rfl⟩ := Prod.mk.inj (Except.ok.inj h)
  obtain ⟨-, hinsert⟩ := unit_bind_eq_ok.mp hinsert
  obtain ⟨steps, hsteps, hinsert⟩ := bind_eq_ok.mp hinsert
  obtain ⟨-, rfl⟩ := Prod.mk.inj (Except.ok.inj hinsert)
  refine extends_archived hrow' (adds_nothing htable (by simp))
    (adds_record htable ⟨⟨header, config, hd, hrecord⟩, rfl, ?_, insertHeaterSteps_returns hsteps⟩)
    (adds_nothing htable (by simp))
  exact congrArg some (hid.trans (congrArg Heard.id hrow))

/-- **Archiving** a health record. -/
theorem extends_insertReceivedDeviceHealth {header : Protocol.Header}
    {health : Protocol.DeviceHealth}
    (hd : Protocol.decodeAny payload = .ok (.v2 (.deviceHealth header health)))
    {records : StoredRecord × StoredRecord}
    (h : s.insertReceivedDeviceHealth now payload radio header (deviceHealth header health) =
      .ok (records, s')) : Extends s [s.nextHeard now payload radio] s' := by
  have htable : tableOf payload = some .health := by rw [tableOf, hd]
  obtain ⟨⟨packet, t⟩, hpacket, h⟩ := bind_eq_ok.mp h
  obtain ⟨row, hrow, hid, rfl⟩ := insertPacketAt_returns hpacket
  obtain ⟨u, hdecode, h⟩ := bind_eq_ok.mp h
  rw [hid] at hdecode
  obtain ⟨row', hrow', rfl⟩ := insertV2PacketDecodeAt_returns hrow hdecode
  obtain ⟨-, rfl⟩ := Prod.mk.inj (Except.ok.inj h)
  refine extends_archived hrow' (adds_nothing htable (by simp)) (adds_nothing htable (by simp))
    (adds_record htable ⟨⟨header, health, hd, rfl⟩, rfl, ?_⟩)
  exact congrArg some (hid.trans (congrArg Heard.id hrow))

end

end TelemetryStore

end Vesta.Store
