import Vesta.Ledger.Archiving
import Vesta.Listen.Ingesting
import Vesta.Protocol.Total

/-!
# Listen — Receiving

What a running receiver does between two packets: it stores one, gives up the scans that have
become too old, or stores what is left before it stops.  Each keeps the accounts, and storing a
packet fails only for a fragment of a key with a stray.
-/

namespace Vesta.Listen

open Journal (Prog wp wp_pure wp_bind wp_lift)
open Journal.Prog (forEach lift)
open Receiver (Arrival ScanTally ProfileKey ProfileReassembler HashOrder deviceConfiguration
  deviceHealth ReassembledProfile)
open Store (TelemetryStore StorageError AppError ScanRow)
open Ledger

variable {I : ProfileKey → Account → Prop}

/-! ### What a packet does -/

/-- The receiver refuses a payload: it is a fragment, no row of its key links one of its index, and
either its scan is still in the completed queue, or it is in neither queue while the key has both a
complete row and an incomplete one. -/
def Refused (w : World) (payload : List UInt8) : Prop :=
  ∃ f, fragmentOf payload = some f ∧
    (∀ row ∈ w.store.rows f.metadata.key, row.sourcesAt f.fragmentIndex = []) ∧
    ((∃ c ∈ w.reassembler.completed, c.key = f.metadata.key) ∨
      w.reassembler.active.lookup f.metadata.key = none ∧
      w.store.completeRows f.metadata.key ≠ [] ∧
      ((w.store.rows f.metadata.key).filter fun row => !row.transportComplete) ≠ [])

/-- What becomes of the accounts when a payload was received. -/
def Received (A : ProfileKey → Account) (payload : List UInt8) (A' : ProfileKey → Account) : Prop :=
  match fragmentOf payload with
  | none => A' = A
  | some f => ∃ a : Arrival, a.fragment = f ∧ Took ((A a.key).receive a) a (A' a.key)

/-- A fragment misses the stored scans when no row links its index. -/
theorem misses_iff {s : TelemetryStore} {A : ProfileKey → Account} (h : Holds I s A) (a : Arrival) :
    Misses (A a.key) a ↔ ∀ row ∈ s.rows a.key, row.sourcesAt a.fragment.fragmentIndex = [] := by
  constructor
  · intro hmiss row hr
    obtain ⟨t, ht, hs⟩ := exists_shows (h.books a.key).rows hr
    refine hs.sourcesAt_eq_nil fun b hb he => hmiss t ht ⟨b, hb, ?_⟩
    exact congrArg UInt8.toNat he
  · rintro hrows t ht ⟨b, hb, hi⟩
    obtain ⟨row, hr, hs⟩ := exists_shows_of_tally (h.books a.key).rows ht
    have hsource := hs.mem_sourcesAt.mpr ⟨b, hb, rfl, UInt8.toNat_inj.mp hi⟩
    rw [hrows row hr] at hsource
    cases hsource

theorem ne_nil_iff {rows : List ScanRow} {t : Option ScanTally}
    (h : List.Forall₂ Shows rows t.toList) : rows ≠ [] ↔ t ≠ none := by
  cases t with
  | none =>
      rw [List.forall₂_nil_right_iff.mp h]
      exact ⟨fun hne => absurd rfl hne, fun hne => absurd rfl hne⟩
  | some t =>
      obtain ⟨row, rest, -, -, rfl⟩ := List.forall₂_cons_right_iff.mp h
      exact ⟨fun _ he => (by cases he), fun _ he => (by cases he)⟩

/-- The rows and the queues tell whether a fragment that was archived is refused. -/
theorem refuses_iff {w : World} {A : ProfileKey → Account} (h : Kept I w [] A)
    {payload : List UInt8} {a : Arrival} (hf : fragmentOf payload = some a.fragment) :
    Refuses w.reassembler ((A a.key).receive a) a ↔ Refused w payload := by
  have hb := h.holds.books a.key
  have hlive : (A a.key).live = none ↔ w.reassembler.active.lookup a.key = none := by
    rw [h.memory.live_eq, liveAt, Option.map_eq_none_iff]
  have hmiss : Misses ((A a.key).receive a) a ↔ Misses (A a.key) a := Iff.rfl
  rw [Refuses, hmiss, misses_iff h.holds]
  constructor
  · rintro ⟨hrows, hqueue⟩
    refine ⟨a.fragment, hf, hrows, ?_⟩
    rcases hqueue with hclosed | ⟨hidle, hwhole, hpart⟩
    · exact .inl hclosed
    · exact .inr ⟨hlive.mp hidle, (ne_nil_iff hb.completeRows).mpr hwhole,
        (ne_nil_iff hb.incompleteRows).mpr hpart⟩
  · rintro ⟨f, hf', hrows, hqueue⟩
    obtain rfl := Option.some.inj (hf'.symm.trans hf)
    refine ⟨hrows, ?_⟩
    rcases hqueue with hclosed | ⟨hidle, hwhole, hpart⟩
    · exact .inl hclosed
    · exact .inr ⟨hlive.mpr hidle, (ne_nil_iff hb.completeRows).mp hwhole,
        (ne_nil_iff hb.incompleteRows).mp hpart⟩

section
variable {E : Fault AppError → World → Prop} {w : World} {A : ProfileKey → Account}

/-! ### Packets -/

/-- **Storing a packet.** -/
theorem wp_storePacket [Account.Stable I] [Account.Growing I] (h : Kept I w [] A)
    {packet : RadioPacket} (hlen : packet.payload.length ≤ 255) (now observedAt : Nat)
    {Q : PacketOutcome → World → Prop}
    (hQ : ¬ Refused w packet.payload → ∀ outcome w' A', Kept I w' [] A' →
      Received A packet.payload A' → Q outcome w')
    (hE : Refused w packet.payload → ∀ w' A' a e, Kept I w' [a] A' →
      w'.store.scans = w.store.scans → ¬ StrayFree (A' a.key).archive → StrayError e →
      E (.error e) w') :
    wp (Disk I) Q E (storePacket now observedAt packet) w := by
  -- a packet that is no fragment is not refused
  have hplain : fragmentOf packet.payload = none → ∀ outcome w', Kept I w' [] A → Q outcome w' := by
    intro hf outcome w' hk
    refine hQ ?_ outcome w' A hk ?_
    · rintro ⟨f, hsome, -⟩
      cases hf.symm.trans hsome
    · rw [Received, hf]
  rw [storePacket]
  cases hd : Protocol.decodeAny packet.payload with
  | error fault =>
      have hf : fragmentOf packet.payload = none := fragmentOf_of_decodeAny fun _ he => by
        rw [hd] at he
        cases he
      cases fault with
      | panicked => exact absurd hd (Protocol.decodeAny_returns packet.payload).ne_panicked
      | error error =>
          obtain ⟨record, s, hok, hh⟩ := h.holds.archivePacket hlen hf now packet.metadata
            (dispositionOf error) (some (.protocol error))
          exact wp_bind (wp_database hok ⟨A, hh⟩ (wp_pure (hplain hf _ _ ⟨hh, h.memory⟩)))
  | ok frame =>
      cases frame with
      | v1 frame =>
          have hf : fragmentOf packet.payload = none := fragmentOf_of_decodeAny fun _ he => by
            rw [hd] at he
            cases he
          obtain ⟨row, s, hok, hlinked, hh⟩ := h.holds.insertReceivedV1 hd now packet.metadata
          obtain ⟨id, hid⟩ := Option.ne_none_iff_exists'.mp hlinked
          refine wp_bind (wp_database hok ⟨A, hh⟩ ?_)
          rw [hid]
          exact wp_pure (hplain hf _ _ ⟨hh, h.memory⟩)
      | v2 frame =>
          have hd := Protocol.decodeAny_v2.mp hd
          cases frame with
          | deviceConfig header config =>
              have hf : fragmentOf packet.payload = none := fragmentOf_eq_none fun _ he => by
                rw [hd] at he
                cases he
              obtain ⟨configuration, hconfiguration, ids, s, hok, hh⟩ :=
                h.holds.insertReceivedDeviceConfiguration hd now packet.metadata
              refine wp_bind (wp_lift (fun c hc => ?_) fun e he => ?_)
              · obtain rfl := Except.ok.inj (hconfiguration.symm.trans hc)
                exact wp_bind (wp_database hok ⟨A, hh⟩ (wp_pure (hplain hf _ _ ⟨hh, h.memory⟩)))
              · cases hconfiguration.symm.trans he
          | deviceHealth header health =>
              have hf : fragmentOf packet.payload = none := fragmentOf_eq_none fun _ he => by
                rw [hd] at he
                cases he
              obtain ⟨ids, s, hok, hh⟩ :=
                h.holds.insertReceivedDeviceHealth hd now packet.metadata
              exact wp_bind (wp_database hok ⟨A, hh⟩ (wp_pure (hplain hf _ _ ⟨hh, h.memory⟩)))
          | profileFragment view =>
              obtain ⟨p, a, stored, s, hok, rfl, hpayload, ha, hview, hkey, hsource, hh⟩ :=
                h.holds.archiveV2ProfileFragment hd now packet.metadata
              have hf : fragmentOf packet.payload = some a.fragment :=
                fragmentOf_eq_some.mpr ⟨view, hd, hview⟩
              refine wp_bind (wp_database hok ⟨_, hh⟩ ?_)
              rw [← hsource, ← hpayload]
              have hp : p ∈ (pushed w.store p).packets :=
                List.mem_append_right _ (List.mem_singleton_self _)
              refine wp_bind (wp_ingestArchivedProfileFragment (w := { w with
                store := pushed w.store p }) ⟨hh, h.memory.receive a⟩ hp ha hview hkey observedAt
                (fun htaken w' A' hk htook => wp_pure ?_) fun hrefuses w' A' e hk hs
                  hstray he => ?_)
              · rw [Function.update_self] at htaken htook
                refine hQ (fun hr => htaken ((refuses_iff h hf).mpr hr)) _ _ A' hk ?_
                rw [Received, hf]
                exact ⟨a, rfl, htook⟩
              · rw [Function.update_self] at hrefuses
                exact hE ((refuses_iff h hf).mp hrefuses) w' A' a e hk (by rw [hs]; rfl) hstray he

/-! ### Giving scans up -/

/-- What the reassembler gives up is stored. -/
theorem wp_persistGiven [Account.Stable I] (h : Kept I w [] A) {f : HashOrder → ProfileReassembler →
      List ReassembledProfile × ProfileReassembler}
    (hf : ∀ order, ∃ flying, (f order w.reassembler).1 = profiles flying ∧
      Gives w.reassembler (f order w.reassembler).2 flying)
    {Q : Unit → World → Prop} (hQ : ∀ w' A', Kept I w' [] A' →
      w'.reassembler = (f (w.orders 0) w.reassembler).2 → Q () w') :
    wp (Disk I) Q E (do
      let given ← reassembly fun order r => return f order r
      forEach persistProfile given) w := by
  obtain ⟨flying, hfst, hg⟩ := hf (w.orders 0)
  refine wp_bind (wp_reassembly rfl ?_)
  rw [hfst]
  have hm := h.memory.give hg
  rw [← List.append_nil flying] at hm
  exact wp_persistProfiles h.holds hm (fun _ _ => rfl) fun s hh hm' => hQ _ _ ⟨hh, hm'⟩ rfl

theorem wp_persistExpiredProfiles [Account.Stable I] (h : Kept I w [] A) (now : Nat)
    {Q : Unit → World → Prop} (hQ : ∀ w' A', Kept I w' [] A' → Q () w') :
    wp (Disk I) Q E (persistExpiredProfiles now) w :=
  wp_persistGiven h (fun order => Gives.expireOlderThan h.memory.sound order now _)
    fun w' A' hk _ =>
    hQ w' A' hk

/-- Nothing is left in memory. -/
theorem wp_persistRemaining [Account.Stable I] (h : Kept I w [] A) {Q : Unit → World → Prop}
    (hQ : ∀ w' A', Kept I w' [] A' → (∀ key, (A' key).live = none) → Q () w') :
    wp (Disk I) Q E persistRemaining w := by
  refine wp_persistGiven h (f := fun order r => r.drainIncomplete order) (fun order =>
    Gives.takeActive h.memory.sound _) fun w' A' hk hr => hQ w' A' hk fun key => ?_
  rw [hk.memory.live_eq, hr, liveAt, ProfileReassembler.drainIncomplete,
    ProfileReassembler.takeActive_snd, ProfileReassembler.lookup_foldl_remove]
  split
  · rfl
  · next hnot =>
      rw [((w.orders 0).perm _).mem_iff] at hnot
      rw [AList.lookup_eq_none.mpr hnot]
      rfl

end

end Vesta.Listen
