import Vesta.Ledger.Rows

/-!
# Ledger — Books

The tables as accounts: `Books s key c` says that the tables hold of a key what its account says,
and `Holds s A` that they do so for every key.  Archiving a packet and storing a profile are
followed here from the accounts before to the accounts after.
-/

namespace Vesta.Ledger

open FirstWins (Rule Tally Verdict)
open Receiver (Arrival ScanTally ScanOf Full ProfileKey ProfileMetadata SourceFragment scanRule
  profileOf)
open Store (FragmentStorageStatus PacketRow ScanRow TelemetryStore StorageError StoredRecord
  nextRowId)

/-- What the tables hold of a key is what its account says, which satisfies the invariant. -/
structure Books (I : ProfileKey → Account → Prop) (s : TelemetryStore) (key : ProfileKey)
    (c : Account) : Prop where
  archive : archiveOf s key = c.archive
  entries : entriesOf s key = c.entries
  rows : List.Forall₂ Shows (s.rows key) (c.whole.toList ++ c.part.toList)
  sound : c.Sound key
  exact : StrayFree c.archive → c.Exact
  invariant : I key c

/-- The tables hold what the accounts say. -/
structure Holds (I : ProfileKey → Account → Prop) (s : TelemetryStore)
    (A : ProfileKey → Account) : Prop where
  orderly : Orderly s
  books : ∀ key, Books I s key (A key)

/-- Two stores agree on a key. -/
structure Agree (s s' : TelemetryStore) (key : ProfileKey) : Prop where
  archive : archiveOf s' key = archiveOf s key
  entries : entriesOf s' key = entriesOf s key
  rows : s'.rows key = s.rows key

variable {I : ProfileKey → Account → Prop}

theorem Books.agree {s s' : TelemetryStore} {key : ProfileKey} {c : Account} (h : Books I s key c)
    (ha : Agree s s' key) : Books I s' key c where
  archive := ha.archive.trans h.archive
  entries := ha.entries.trans h.entries
  rows := by
    rw [ha.rows]
    exact h.rows
  sound := h.sound
  exact := h.exact
  invariant := h.invariant

theorem holds_fresh (hI : ∀ key, I key .empty) : Holds I .fresh fun _ => .empty where
  orderly := orderly_fresh
  books key :=
    { archive := rfl
      entries := rfl
      rows := .nil
      sound := Account.sound_empty key
      exact := fun _ => Account.exact_empty
      invariant := hI key }

namespace Holds

variable {s s' : TelemetryStore} {A : ProfileKey → Account} (h : Holds I s A) {key : ProfileKey}
include h

/-- A statement that concerns one key. -/
theorem update (ho : Orderly s') {c : Account} (hself : Books I s' key c)
    (hother : ∀ k, k ≠ key → Agree s s' k) : Holds I s' (Function.update A key c) where
  orderly := ho
  books k := by
    by_cases hk : k = key
    · subst hk
      rw [Function.update_self]
      exact hself
    · rw [Function.update_of_ne hk]
      exact (h.books k).agree (hother k hk)

/-- What only the memory knows of a key changes. -/
theorem memory {c : Account} (hc : c.archive = (A key).archive) (he : c.entries = (A key).entries)
    (hw : c.whole = (A key).whole) (hp : c.part = (A key).part) (hs : c.Sound key)
    (hx : StrayFree c.archive → c.Exact) (hi : I key c) :
    Holds I s (Function.update A key c) := by
  have hb := h.books key
  refine h.update h.orderly ⟨hb.archive.trans hc.symm, hb.entries.trans he.symm, ?_, hs, hx, hi⟩
    fun k _ => ⟨rfl, rfl, rfl⟩
  rw [hw, hp]
  exact hb.rows

/-- Accounts that satisfy another invariant. -/
theorem satisfy {J : ProfileKey → Account → Prop} (hj : ∀ key, J key (A key)) : Holds J s A where
  orderly := h.orderly
  books key := { h.books key with invariant := hj key }

/-- The memory is lost. -/
theorem forget [Account.Stable I] : Holds I s fun key => (A key).forget where
  orderly := h.orderly
  books key := by
    have hb := h.books key
    exact ⟨hb.archive, hb.entries, hb.rows, hb.sound.forget, fun hf => (hb.exact hf).forget,
      Account.Stable.moves hb.sound .forget hb.invariant⟩

theorem mem_archive {a : Arrival} (ha : a ∈ (A key).archive) :
    (∃ p ∈ s.packets, arrivalOf p = some a) ∧ a.key = key := by
  rw [← (h.books key).archive] at ha
  exact mem_archiveOf.mp ha

/-- A packet is archived that is no fragment. -/
theorem pushed {p : PacketRow} (hid : p.id = nextRowId (s.packets.map (·.id))) (hp : Filed p)
    (ha : arrivalOf p = none) : Holds I (pushed s p) A where
  orderly := h.orderly.pushed hid hp
  books k := by
    refine (h.books k).agree ⟨?_, ?_, rfl⟩
    · rw [archiveOf_pushed, ha]
      exact List.append_nil _
    · have he : entryOf p = none := by
        rw [entryOf, ha]
        rfl
      rw [entriesOf_pushed, he]
      exact List.append_nil _

/-- A fragment is archived. -/
theorem receive [Account.Growing I] {p : PacketRow} {a : Arrival}
    (hid : p.id = nextRowId (s.packets.map (·.id)))
    (hp : Filed p) (he : entryOf p = some (a, .pending)) :
    Holds I (Ledger.pushed s p) (Function.update A a.key ((A a.key).receive a)) := by
  have ha := (entryOf_eq_some.mp he).1
  have hb := h.books a.key
  have hnew : ∀ b ∈ (A a.key).archive, b.source.packetId < a.source.packetId := by
    intro b hmem
    obtain ⟨⟨q, hq, hqb⟩, -⟩ := h.mem_archive hmem
    rw [packetId_of_arrivalOf hqb, packetId_of_arrivalOf ha, hid]
    exact lt_packetId hq
  refine h.update (h.orderly.pushed hid hp) ⟨?_, ?_, hb.rows,
    hb.sound.receive (proper_of_arrivalOf ha) rfl hnew,
    fun hf => (hb.exact hf.of_append).receive hb.sound hnew,
    Account.Growing.receive hb.sound hnew hb.invariant⟩ fun k hk => ⟨?_, ?_, rfl⟩
  · rw [archiveOf_pushed, ha, hb.archive]
    simp [Account.receive]
  · rw [entriesOf_pushed, he, hb.entries]
    simp [Account.receive]
  · rw [archiveOf_pushed, ha]
    simp [Ne.symm hk]
  · rw [entriesOf_pushed, he]
    simp [Ne.symm hk]

end Holds

/-! ### Filing -/

section
variable {entries : List Entry} {arrivals : List Arrival} {status : FragmentStorageStatus}

theorem refile_of_not_mem (h : ∀ e ∈ entries, e.1 ∉ arrivals) :
    refile entries arrivals status = entries :=
  (List.map_congr_left fun e he => if_neg (h e he)).trans (List.map_id _)

/-- Filing one fragment and then others under the same status. -/
theorem refile_refile (a : Arrival) :
    refile (refile entries [a] status) arrivals status = refile entries (a :: arrivals) status := by
  rw [refile, refile, refile, List.map_map]
  refine List.map_congr_left fun e _ => ?_
  show (if _ ∈ arrivals then _ else _) = _
  by_cases hone : e.1 = a
  · simp [hone]
  · simp [hone]

end

/-- Setting the status of the packets of fragments files them again. -/
theorem Orderly.fileAll {s : TelemetryStore} (h : Orderly s) {arrivals : List Arrival}
    (hp : ∀ a ∈ arrivals, ∃ p ∈ s.packets, arrivalOf p = some a) (status : FragmentStorageStatus) :
    Orderly (fileAll s (arrivals.map (·.source)) status) ∧
      ∀ key, archiveOf (fileAll s (arrivals.map (·.source)) status) key = archiveOf s key ∧
        entriesOf (fileAll s (arrivals.map (·.source)) status) key =
          refile (entriesOf s key) arrivals status := by
  induction arrivals generalizing s with
  | nil =>
      refine ⟨h, fun key => ⟨rfl, ?_⟩⟩
      exact (refile_of_not_mem fun _ _ => List.not_mem_nil).symm
  | cons a arrivals ih =>
      obtain ⟨⟨p, hps, hpa⟩, hrest⟩ := List.forall_mem_cons.mp hp
      have hkeep : ∀ b ∈ arrivals,
          ∃ q ∈ (s.setStatus p.id status).packets, arrivalOf q = some b := by
        intro b hb
        have hmem : b ∈ archiveOf s b.key := mem_archiveOf.mpr ⟨hrest b hb, rfl⟩
        rw [← archiveOf_setStatus p.id status] at hmem
        exact (mem_archiveOf.mp hmem).1
      obtain ⟨ho, hfiled⟩ := ih (h.setStatus hps hpa status) hkeep
      rw [List.map_cons, fileAll_cons, packetId_of_arrivalOf hpa]
      refine ⟨ho, fun key => ⟨(hfiled key).1.trans (archiveOf_setStatus _ _), ?_⟩⟩
      rw [(hfiled key).2, entriesOf_setStatus h hps hpa, refile_refile]

end Vesta.Ledger
