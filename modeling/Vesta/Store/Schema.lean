import Vesta.Store.Recovery

/-!
# Store — Schema

What the constraints of the schema promise of every database, and what the statements make of one
whose rows are told apart by their ids: a statement on an id changes the row with that id, and a
sequence of statements on different ids is one pass over the table.
-/

namespace Vesta.Store

namespace TelemetryStore

/-- The primary keys of the packets and of the scans. -/
structure Keyed (s : TelemetryStore) : Prop where
  packets : (s.packets.map (·.id)).Nodup
  scans : (s.scans.map (·.id)).Nodup

/-- The primary keys, the uniqueness of the links of a scan and of a packet, and the reference of
a link to its packet. -/
structure Schema (s : TelemetryStore) : Prop extends Keyed s where
  indices : ∀ row ∈ s.scans, (row.fragments.map (·.fragmentIndex)).Nodup
  links : ((s.scans.flatMap (·.fragments)).map (·.packetId)).Nodup
  sources : ∀ row ∈ s.scans, ∀ source ∈ row.fragments, source.packetId ∈ s.packets.map (·.id)

namespace Keyed

variable {s : TelemetryStore} (h : Keyed s)
include h

theorem eq_of_id {p q : PacketRow} (hp : p ∈ s.packets) (hq : q ∈ s.packets) (he : p.id = q.id) :
    p = q :=
  List.inj_on_of_nodup_map h.packets hp hq he

theorem eq_of_scanId {r r' : ScanRow} (hr : r ∈ s.scans) (hr' : r' ∈ s.scans) (he : r.id = r'.id) :
    r = r' :=
  List.inj_on_of_nodup_map h.scans hr hr' he

/-- The packet found under an id. -/
theorem find_eq {p : PacketRow} (hp : p ∈ s.packets) :
    s.packets.find? (fun q => q.id = p.id) = some p := by
  cases hf : s.packets.find? fun q => q.id = p.id with
  | none => simpa using List.find?_eq_none.mp hf p hp
  | some q =>
      have hq := List.find?_some hf
      rw [h.eq_of_id (List.mem_of_find?_eq_some hf) hp (by simpa using hq)]

theorem payloadOf_eq {p : PacketRow} (hp : p ∈ s.packets) : s.payloadOf p.id = some p.payload := by
  rw [payloadOf, h.find_eq hp]
  rfl

/-- The packets with an id that pass a test. -/
theorem filter_id {p : PacketRow} (hp : p ∈ s.packets) (c : PacketRow → Bool) (hc : c p = true) :
    (s.packets.filter fun q => q.id = p.id ∧ c q) = [p] := by
  have hnd : s.packets.Nodup := List.Nodup.of_map _ h.packets
  have hsub : (s.packets.filter fun q => q.id = p.id ∧ c q).Nodup := hnd.filter _
  refine List.perm_singleton.mp ((List.perm_ext_iff_of_nodup hsub (List.nodup_singleton p)).mpr ?_)
  intro q
  rw [List.mem_filter, List.mem_singleton, decide_eq_true_eq]
  constructor
  · rintro ⟨hq, he, -⟩
    exact h.eq_of_id hq hp he
  · rintro rfl
    exact ⟨hp, rfl, hc⟩

/-- No two scans have an id, so a test passes for one at most. -/
theorem length_filter_scanId_le (id : Int) (c : ScanRow → Bool) :
    (s.scans.filter fun row => row.id = id ∧ c row).length ≤ 1 := by
  have hnd : (s.scans.filter fun row => row.id = id ∧ c row).Nodup :=
    (List.Nodup.of_map _ h.scans).filter _
  have hone : ∀ r ∈ s.scans.filter (fun row => row.id = id ∧ c row), r ∈ s.scans ∧ r.id = id := by
    intro r hr
    obtain ⟨hr, he⟩ := List.mem_filter.mp hr
    exact ⟨hr, (of_decide_eq_true he).1⟩
  rcases hl : s.scans.filter fun row => row.id = id ∧ c row with _ | ⟨r, _ | ⟨r', rest⟩⟩
  · rw [hl]
    exact Nat.zero_le _
  · rw [hl]
    exact le_rfl
  · rw [hl] at hnd hone
    obtain ⟨hr, he⟩ := hone r (by simp)
    obtain ⟨hr', he'⟩ := hone r' (by simp)
    obtain rfl := h.eq_of_scanId hr hr' (he.trans he'.symm)
    simp at hnd

end Keyed

/-! ### Statements on one id -/

variable {s : TelemetryStore}

/-- The packets are told apart as before. -/
theorem map_id_packets {f : PacketRow → PacketRow} (hf : ∀ p, (f p).id = p.id)
    (packets : List PacketRow) : (packets.map f).map (·.id) = packets.map (·.id) := by
  rw [List.map_map]
  exact List.map_congr_left fun p _ => hf p

theorem map_id_scans {f : ScanRow → ScanRow} (hf : ∀ row, (f row).id = row.id)
    (scans : List ScanRow) : (scans.map f).map (·.id) = scans.map (·.id) := by
  rw [List.map_map]
  exact List.map_congr_left fun row _ => hf row

/-- Statements on different scans are one pass over the scans. -/
theorem foldl_updateScan {f : ScanRow → ScanRow} (hf : ∀ row, (f row).id = row.id) {ids : List Int}
    (hids : ids.Nodup) :
    ids.foldl (fun s id => s.updateScan id f) s =
      { s with scans := s.scans.map fun row => if row.id ∈ ids then f row else row } := by
  induction ids generalizing s with
  | nil => simp
  | cons id ids ih =>
      obtain ⟨hnew, hids⟩ := List.nodup_cons.mp hids
      rw [List.foldl_cons, ih hids, updateScan]
      dsimp only
      rw [List.map_map]
      congr 1
      refine List.map_congr_left fun row _ => ?_
      by_cases he : row.id = id
      · -- the row of this statement is not one of the later ones
        have hout : (f row).id ∉ ids := by
          rw [hf, he]
          exact hnew
        simp [he, hout]
      · simp [he]

/-- Statements on different packets are one pass over the packets. -/
theorem foldl_updatePacket {f : PacketRow → PacketRow → PacketRow} (hf : ∀ c p, (f c p).id = p.id)
    {cs : List PacketRow} (hids : (cs.map (·.id)).Nodup) :
    cs.foldl (fun s c => s.updatePacket c.id (f c)) s =
      { s with packets := s.packets.map fun p =>
          match cs.find? fun c => c.id = p.id with
          | some c => f c p
          | none => p } := by
  induction cs generalizing s with
  | nil => simp
  | cons c cs ih =>
      obtain ⟨hnew, hids⟩ := List.nodup_cons.mp hids
      rw [List.foldl_cons, ih hids, updatePacket]
      dsimp only
      rw [List.map_map]
      congr 1
      refine List.map_congr_left fun p _ => ?_
      by_cases he : c.id = p.id
      · -- the packet of this statement is not one of the later ones
        have hout : (cs.find? fun d => d.id = (f c p).id) = none := by
          refine List.find?_eq_none.mpr fun d hd hdp => hnew ?_
          exact List.mem_map.mpr ⟨d, hd, (of_decide_eq_true hdp).trans ((hf c p).trans he.symm)⟩
        simp [he, hout]
      · simp [he, Ne.symm he]

/-- Statements on the scans leave the packets as they are. -/
theorem packets_foldl_updateScan (ids : List Int) (f : ScanRow → ScanRow) :
    (ids.foldl (fun s id => s.updateScan id f) s).packets = s.packets := by
  induction ids generalizing s with
  | nil => rfl
  | cons id ids ih => exact ih

/-- A payload does not change with the rest of its row. -/
theorem payloadOf_map {f : PacketRow → PacketRow} (hid : ∀ p, (f p).id = p.id)
    (hpayload : ∀ p, (f p).payload = p.payload) (packetId : Int) :
    ({ s with packets := s.packets.map f } : TelemetryStore).payloadOf packetId =
      s.payloadOf packetId := by
  have hsame : (fun p => decide (p.id = packetId)) ∘ f =
      fun p : PacketRow => decide (p.id = packetId) := by
    funext p
    exact congrArg (fun id => decide (id = packetId)) (hid p)
  rw [payloadOf, payloadOf, List.find?_map, hsame, Option.map_map]
  congr 1
  funext p
  exact hpayload p

end TelemetryStore

end Vesta.Store
