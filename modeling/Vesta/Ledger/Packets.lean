import Vesta.Ledger.Exact
import Vesta.Store.Archive
import Vesta.Store.Schema

/-!
# Ledger — Packets

What the archived packets say of a key: the fragments received, in order (`archiveOf`), and how
each is filed (`entriesOf`).  Every statement of the store on packets is followed here in these
terms.
-/

namespace Vesta.Ledger

open FirstWins (Rule Tally Verdict)
open Receiver (Arrival ScanTally ProfileKey OwnedFragment IsFrame SourceFragment RadioMetadata)
open Store (FragmentStorageStatus PacketRow PacketDecode ScanRow TelemetryStore V2PacketKind
  ReassemblyStatus DecodeErrorText PacketDisposition StorageError StoredRecord nextRowId
  PendingProfileFragment)

/-! ### One packet -/

/-- The fragment that a payload is a frame of. -/
def fragmentOf (payload : List UInt8) : Option OwnedFragment :=
  match Protocol.decode payload with
  | .ok (.profileFragment view) => (OwnedFragment.fromView view).toOption
  | _ => none

theorem fragmentOf_eq_some {payload : List UInt8} {f : OwnedFragment} :
    fragmentOf payload = some f ↔ IsFrame payload f := by
  constructor
  · intro h
    rw [fragmentOf] at h
    split at h
    · next view hview =>
        refine ⟨view, hview, ?_⟩
        cases hf : OwnedFragment.fromView view with
        | ok f' =>
            rw [hf] at h
            exact congrArg Except.ok (Option.some.inj h)
        | error e =>
            rw [hf] at h
            cases h
    · cases h
  · rintro ⟨view, hview, hf⟩
    rw [fragmentOf, hview]
    dsimp only
    rw [hf]
    rfl

/-- The fragment of a packet with its provenance. -/
def arrivalOf (p : PacketRow) : Option Arrival :=
  (fragmentOf p.payload).map fun f => ⟨f, ⟨p.id, f.fragmentIndex, p.receivedAtUnixMs, p.radio⟩⟩

/-- The status under which a fragment is filed. -/
def filedAs (p : PacketRow) : Option FragmentStorageStatus :=
  p.decoded.bind fun d =>
    match d.reassemblyStatus with
    | .fragment status => some status
    | .notApplicable => none

def entryOf (p : PacketRow) : Option Entry :=
  (arrivalOf p).bind fun a => (filedAs p).map fun status => (a, status)

/-- The decode of a packet agrees with its payload. -/
def Filed (p : PacketRow) : Prop := ∀ d ∈ p.decoded,
  match arrivalOf p with
  | some a => d.recordKind = .profileFragment ∧
      d.fragmentIndex = a.fragment.fragmentIndex ∧ ∃ status, d.reassemblyStatus = .fragment status
  | none => d.recordKind ≠ .profileFragment ∧ d.reassemblyStatus = .notApplicable

section
variable {p : PacketRow} {a : Arrival} {status : FragmentStorageStatus}

theorem isFrame_of_arrivalOf (h : arrivalOf p = some a) : IsFrame p.payload a.fragment := by
  obtain ⟨f, hf, rfl⟩ := Option.map_eq_some_iff.mp h
  exact fragmentOf_eq_some.mp hf

theorem source_of_arrivalOf (h : arrivalOf p = some a) :
    a.source = ⟨p.id, a.fragment.fragmentIndex, p.receivedAtUnixMs, p.radio⟩ := by
  obtain ⟨f, hf, rfl⟩ := Option.map_eq_some_iff.mp h
  rfl

theorem packetId_of_arrivalOf (h : arrivalOf p = some a) : a.source.packetId = p.id :=
  congrArg SourceFragment.packetId (source_of_arrivalOf h)

theorem proper_of_arrivalOf (h : arrivalOf p = some a) : a.Proper :=
  ⟨(isFrame_of_arrivalOf h).wellFormed,
    congrArg SourceFragment.fragmentIndex (source_of_arrivalOf h)⟩

theorem entryOf_eq_some :
    entryOf p = some (a, status) ↔ arrivalOf p = some a ∧ filedAs p = some status := by
  rw [entryOf, Option.bind_eq_some_iff]
  constructor
  · rintro ⟨b, hb, h⟩
    obtain ⟨status', hs, he⟩ := Option.map_eq_some_iff.mp h
    obtain ⟨rfl, rfl⟩ := Prod.mk.inj he
    exact ⟨hb, hs⟩
  · rintro ⟨ha, hs⟩
    refine ⟨a, ha, ?_⟩
    rw [hs]
    rfl

@[simp] theorem arrivalOf_withStatus (p : PacketRow) (status : FragmentStorageStatus) :
    arrivalOf (p.withStatus status) = arrivalOf p := rfl

@[simp] theorem arrivalOf_quarantined (p : PacketRow) (error : DecodeErrorText) :
    arrivalOf (p.quarantined error) = arrivalOf p := rfl

/-- A fragment that is filed is filed under the new status; nothing else becomes one. -/
theorem filedAs_withStatus (hp : Filed p) (ha : arrivalOf p = some a) :
    filedAs (p.withStatus status) = (filedAs p).map fun _ => status := by
  unfold filedAs PacketRow.withStatus
  cases hd : p.decoded with
  | none => rfl
  | some d =>
      have hf := hp d hd
      rw [ha] at hf
      obtain ⟨-, -, status', hs⟩ := hf
      simp only [Option.map_some, Option.bind_some, hs]

theorem filed_withStatus (hp : Filed p) (ha : arrivalOf p = some a) :
    Filed (p.withStatus status) := by
  intro d hd
  obtain ⟨d', hd', rfl⟩ := Option.map_eq_some_iff.mp hd
  have hf := hp d' hd'
  rw [ha] at hf
  rw [arrivalOf_withStatus, ha]
  exact ⟨hf.1, hf.2.1, status, rfl⟩

theorem filed_quarantined (p : PacketRow) (error : DecodeErrorText) : Filed (p.quarantined error) :=
  nofun

theorem hasStatus_iff (hp : Filed p) :
    p.hasStatus status ↔ ∃ a, entryOf p = some (a, status) := by
  unfold PacketRow.hasStatus
  constructor
  · intro h
    obtain ⟨d, hd, h⟩ := (Option.any_eq_true _ _).mp h
    obtain ⟨hkind, hstatus⟩ := of_decide_eq_true h
    have hf := hp d hd
    cases ha : arrivalOf p with
    | none =>
        rw [ha] at hf
        exact absurd hkind hf.1
    | some a =>
        refine ⟨a, entryOf_eq_some.mpr ⟨ha, ?_⟩⟩
        rw [filedAs, hd]
        simp only [Option.bind_some, hstatus]
  · rintro ⟨a, h⟩
    obtain ⟨ha, hs⟩ := entryOf_eq_some.mp h
    obtain ⟨d, hd, hs⟩ := Option.bind_eq_some_iff.mp hs
    have hf := hp d hd
    rw [ha] at hf
    obtain ⟨hkind, -, status', hstatus⟩ := hf
    rw [hstatus] at hs
    obtain rfl := Option.some.inj hs
    rw [hd]
    exact decide_eq_true ⟨hkind, hstatus⟩

theorem isFragment_iff (hp : Filed p) :
    p.isFragment ↔ ∃ a status, entryOf p = some (a, status) := by
  unfold PacketRow.isFragment
  constructor
  · intro h
    obtain ⟨d, hd, h⟩ := (Option.any_eq_true _ _).mp h
    have hkind := of_decide_eq_true h
    have hf := hp d hd
    cases ha : arrivalOf p with
    | none =>
        rw [ha] at hf
        exact absurd hkind hf.1
    | some a =>
        rw [ha] at hf
        obtain ⟨-, -, status, hstatus⟩ := hf
        refine ⟨a, status, entryOf_eq_some.mpr ⟨ha, ?_⟩⟩
        rw [filedAs, hd]
        simp only [Option.bind_some, hstatus]
  · rintro ⟨a, status, h⟩
    obtain ⟨ha, hs⟩ := entryOf_eq_some.mp h
    obtain ⟨d, hd, hs⟩ := Option.bind_eq_some_iff.mp hs
    have hf := hp d hd
    rw [ha] at hf
    rw [hd]
    exact decide_eq_true hf.1

end

/-! ### All packets -/

/-- The fragments of a key, in the order in which they were archived. -/
def archiveOf (s : TelemetryStore) (key : ProfileKey) : List Arrival :=
  (s.packets.filterMap arrivalOf).filter fun a => a.key = key

/-- How the fragments of a key are filed. -/
def entriesOf (s : TelemetryStore) (key : ProfileKey) : List Entry :=
  (s.packets.filterMap entryOf).filter fun e => e.1.key = key

/-- The packets and the scans stand in the order of their ids, and the decodes agree with the
payloads. -/
structure Orderly (s : TelemetryStore) : Prop where
  packets : s.packets.Pairwise fun p q => p.id < q.id
  filed : ∀ p ∈ s.packets, Filed p
  scans : s.scans.Pairwise fun r r' => r.id < r'.id

theorem orderly_fresh : Orderly .fresh where
  packets := List.Pairwise.nil
  filed _ hp := absurd hp List.not_mem_nil
  scans := List.Pairwise.nil

section
variable {s : TelemetryStore} {key : ProfileKey} {a : Arrival} {status : FragmentStorageStatus}

theorem mem_archiveOf :
    a ∈ archiveOf s key ↔ (∃ p ∈ s.packets, arrivalOf p = some a) ∧ a.key = key := by
  rw [archiveOf, List.mem_filter, List.mem_filterMap, decide_eq_true_eq]

theorem mem_entriesOf :
    (a, status) ∈ entriesOf s key ↔
      (∃ p ∈ s.packets, entryOf p = some (a, status)) ∧ a.key = key := by
  rw [entriesOf, List.mem_filter, List.mem_filterMap, decide_eq_true_eq]

end

namespace Orderly

variable {s : TelemetryStore} (h : Orderly s) {key : ProfileKey} {a : Arrival}
include h

theorem keyed : s.Keyed where
  packets := List.pairwise_map.mpr (h.packets.imp ne_of_lt)
  scans := List.pairwise_map.mpr (h.scans.imp ne_of_lt)

theorem ordered_archiveOf :
    (archiveOf s key).Pairwise fun a b => a.source.packetId < b.source.packetId := by
  refine List.Pairwise.filter _ (List.pairwise_filterMap.mpr (h.packets.imp ?_))
  intro p q hlt a ha b hb
  rw [packetId_of_arrivalOf ha, packetId_of_arrivalOf hb]
  exact hlt

end Orderly

/-! ### Statements -/

section
variable {s : TelemetryStore} {key : ProfileKey} {a : Arrival}

/-- A statement that leaves the fragments as they are leaves the archive as it is. -/
theorem archiveOf_updatePacket {id : Int} {f : PacketRow → PacketRow}
    (hf : ∀ p, arrivalOf (f p) = arrivalOf p) :
    archiveOf (s.updatePacket id f) key = archiveOf s key := by
  have hmap : (s.updatePacket id f).packets.filterMap arrivalOf =
      s.packets.filterMap arrivalOf := by
    rw [TelemetryStore.updatePacket, List.filterMap_map]
    refine List.filterMap_congr fun p _ => ?_
    show arrivalOf (if p.id = id then f p else p) = _
    split
    · exact hf p
    · rfl
  rw [archiveOf, hmap, archiveOf]

/-- A statement on the packet of a filed fragment changes its entry. -/
theorem entriesOf_updatePacket (h : Orderly s) {p : PacketRow} (hp : p ∈ s.packets)
    (ha : arrivalOf p = some a) {f : PacketRow → PacketRow} {g : Entry → Option Entry}
    (hself : entryOf (f p) = (entryOf p).bind g) (hother : ∀ e : Entry, e.1 ≠ a → g e = some e)
    (hkey : ∀ e e', g e = some e' → e'.1 = e.1) :
    entriesOf (s.updatePacket p.id f) key = (entriesOf s key).filterMap g := by
  have hmap : (s.updatePacket p.id f).packets.filterMap entryOf =
      (s.packets.filterMap entryOf).filterMap g := by
    rw [TelemetryStore.updatePacket, List.filterMap_map, List.filterMap_filterMap]
    refine List.filterMap_congr fun q hq => ?_
    show entryOf (if q.id = p.id then f q else q) = _
    split
    · next he =>
        rw [h.keyed.eq_of_id hq hp he]
        exact hself
    · next he =>
        cases hq' : entryOf q with
        | none => rfl
        | some e =>
            obtain ⟨b, status⟩ := e
            have hb := (entryOf_eq_some.mp hq').1
            have hne : b ≠ a := by
              rintro rfl
              exact he ((packetId_of_arrivalOf hb).symm.trans (packetId_of_arrivalOf ha))
            rw [Option.bind_some, hother _ hne]
  rw [entriesOf, hmap, entriesOf, List.filter_filterMap, List.filterMap_filter]
  refine List.filterMap_congr fun e _ => ?_
  cases hg : g e with
  | none => simp
  | some e' => simp [Option.filter, hkey e e' hg]

theorem refile_eq_filterMap (entries : List Entry) (arrivals : List Arrival)
    (status : FragmentStorageStatus) : refile entries arrivals status =
      entries.filterMap fun e => some (if e.1 ∈ arrivals then (e.1, status) else e) := by
  rw [refile, List.filterMap_eq_map']

/-- Setting the status of a fragment's packet files it again. -/
theorem entriesOf_setStatus (h : Orderly s) {p : PacketRow} (hp : p ∈ s.packets)
    (ha : arrivalOf p = some a) (status : FragmentStorageStatus) :
    entriesOf (s.setStatus p.id status) key = refile (entriesOf s key) [a] status := by
  rw [refile_eq_filterMap]
  refine entriesOf_updatePacket h hp ha ?_ (fun e he => ?_) fun e e' he => ?_
  · rw [entryOf, arrivalOf_withStatus, ha, Option.bind_some, filedAs_withStatus (h.filed p hp) ha,
      entryOf, ha, Option.bind_some]
    cases filedAs p <;> simp
  · rw [if_neg (by simpa using he)]
  · obtain rfl := Option.some.inj he
    split <;> rfl

theorem archiveOf_setStatus (id : Int) (status : FragmentStorageStatus) :
    archiveOf (s.setStatus id status) key = archiveOf s key :=
  archiveOf_updatePacket fun _ => rfl

theorem Orderly.updatePacket (h : Orderly s) {p : PacketRow} (hp : p ∈ s.packets)
    {f : PacketRow → PacketRow} (hid : ∀ q, (f q).id = q.id) (hf : Filed (f p)) :
    Orderly (s.updatePacket p.id f) where
  packets := by
    refine List.pairwise_map.mpr (h.packets.imp ?_)
    intro q q' hlt
    have hsame : ∀ q : PacketRow, (if q.id = p.id then f q else q).id = q.id := by
      intro q
      split
      · exact hid q
      · rfl
    rw [hsame, hsame]
    exact hlt
  filed q hq := by
    obtain ⟨q', hq', rfl⟩ := List.mem_map.mp hq
    split
    · next he => exact h.keyed.eq_of_id hq' hp he ▸ hf
    · exact h.filed q' hq'
  scans := h.scans

theorem Orderly.setStatus (h : Orderly s) {p : PacketRow} (hp : p ∈ s.packets)
    (ha : arrivalOf p = some a) (status : FragmentStorageStatus) :
    Orderly (s.setStatus p.id status) :=
  h.updatePacket hp (fun _ => rfl) (filed_withStatus (h.filed p hp) ha)

/-- Giving up the packet of a fragment removes its entry. -/
theorem entriesOf_quarantined (h : Orderly s) {p : PacketRow} (hp : p ∈ s.packets)
    (ha : arrivalOf p = some a) (error : DecodeErrorText) :
    entriesOf (s.updatePacket p.id (·.quarantined error)) key =
      (entriesOf s key).filter fun e => e.1 ≠ a := by
  rw [entriesOf_updatePacket (g := fun e => if e.1 ≠ a then some e else none) h hp ha ?_
    (fun e he => if_pos he) fun e e' he => ?_]
  · rw [← List.filterMap_eq_filter]
    refine List.filterMap_congr fun e _ => ?_
    rw [Option.guard]
    simp
  · rw [entryOf, arrivalOf_quarantined, ha, Option.bind_some, entryOf, ha, Option.bind_some]
    cases filedAs p <;> simp [filedAs, PacketRow.quarantined]
  · by_cases hc : e.1 ≠ a
    · rw [if_pos hc] at he
      rw [Option.some.inj he]
    · rw [if_neg hc] at he
      cases he

end

/-! ### Insertions -/

/-- The store with another packet. -/
def pushed (s : TelemetryStore) (p : PacketRow) : TelemetryStore :=
  { s with packets := s.packets ++ [p] }

/-- A new row id is larger than all in use. -/
theorem lt_nextRowId {ids : List Int} {id : Int} (h : id ∈ ids) : id < nextRowId ids := by
  rw [nextRowId]
  cases hm : ids.max? with
  | none =>
      rw [List.max?_eq_none_iff.mp hm] at h
      cases h
  | some top =>
      have hle := (List.max?_eq_some_iff.mp hm).2 id h
      dsimp only
      omega

section
variable {s : TelemetryStore} {key : ProfileKey} {p : PacketRow}

theorem lt_packetId {q : PacketRow} (hq : q ∈ s.packets) :
    q.id < nextRowId (s.packets.map (·.id)) :=
  lt_nextRowId (List.mem_map_of_mem hq)

theorem archiveOf_pushed :
    archiveOf (pushed s p) key =
      archiveOf s key ++ (arrivalOf p).toList.filter fun a => a.key = key := by
  rw [archiveOf, pushed, List.filterMap_append, List.filter_append, archiveOf]
  cases ha : arrivalOf p <;> simp [ha]

theorem entriesOf_pushed :
    entriesOf (pushed s p) key =
      entriesOf s key ++ (entryOf p).toList.filter fun e => e.1.key = key := by
  rw [entriesOf, pushed, List.filterMap_append, List.filter_append, entriesOf]
  cases ha : entryOf p <;> simp [ha]

theorem Orderly.pushed (h : Orderly s) (hid : p.id = nextRowId (s.packets.map (·.id)))
    (hp : Filed p) : Orderly (pushed s p) where
  packets := by
    refine List.pairwise_append.mpr ⟨h.packets, List.pairwise_singleton _ _, fun q hq p' hp' => ?_⟩
    rw [List.mem_singleton.mp hp', hid]
    exact lt_packetId hq
  filed q hq := by
    rcases List.mem_append.mp hq with hq | hq
    · exact h.filed q hq
    · exact List.mem_singleton.mp hq ▸ hp
  scans := h.scans

/-- A packet just inserted is the only one that a statement on its id changes. -/
theorem updatePacket_pushed (hid : p.id = nextRowId (s.packets.map (·.id)))
    (f : PacketRow → PacketRow) : (pushed s p).updatePacket p.id f = pushed s (f p) := by
  have hold : s.packets.map (fun q => if q.id = p.id then f q else q) = s.packets := by
    refine (List.map_congr_left fun q hq => ?_).trans (List.map_id _)
    exact if_neg (hid ▸ (lt_packetId hq).ne)
  rw [TelemetryStore.updatePacket, pushed]
  dsimp only
  rw [List.map_append, hold, List.map_singleton, if_pos rfl]
  rfl

theorem insertPacketAt_eq {payload : List UInt8} (hlen : payload.length ≤ 255) (now : Nat)
    (radio : RadioMetadata) (disposition : PacketDisposition)
    (protocolVersion frameType : Option UInt8) (decodeError : Option DecodeErrorText) :
    s.insertPacketAt payload radio now disposition protocolVersion frameType decodeError =
      .ok (⟨nextRowId (s.packets.map (·.id)), now⟩, pushed s
        ⟨nextRowId (s.packets.map (·.id)), now, radio, protocolVersion, frameType, disposition,
          decodeError, payload, none⟩) := by
  rw [TelemetryStore.insertPacketAt, Outcome.failIf_neg (by omega)]
  rfl

theorem insertV2PacketDecodeAt_eq {header : Protocol.Header} (hcount : header.fragmentCount ≠ 0)
    (hid : p.id = nextRowId (s.packets.map (·.id))) (kind : V2PacketKind) :
    (pushed s p).insertV2PacketDecodeAt p.id header kind =
      .ok (pushed s { p with decoded := some ⟨header.frameType.toU8, kind,
        kind.initialReassemblyStatus, header.common.nodeId, header.common.bootId,
        header.common.scanSequence, header.common.uptimeMs, header.common.configId,
        header.fragmentIndex, header.fragmentCount⟩ }) := by
  rw [TelemetryStore.insertV2PacketDecodeAt, Outcome.failIf_neg hcount, Outcome.ok_bind]
  exact congrArg Except.ok (updatePacket_pushed hid _)

end

end Vesta.Ledger
