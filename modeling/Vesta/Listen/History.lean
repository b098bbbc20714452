import Vesta.Foundations.Tracing
import Vesta.Listen.System
import Vesta.Store.History

/-!
# Listen — History

The receiver never loses what it has stored.  Whatever happens to it, packets, expiries, crashes and
starts in any order, each database continues the ones before it (`steps_keep_history`), and the
tables of readings, configurations and health records are what the archived packets carry, row for
row (`records_mirror_archive`).  None of this depends on the invariants of the accounts.
-/

namespace Vesta.Listen

open Journal (Prog Leaves wp wp_pure wp_bind wp_lift)
open Journal.Prog (get lift update transact forEach)
open Receiver (ProfileKey SourceFragment ReassembledProfile ProfileReassembler
  IngestResult HashOrder
  ReassemblyError deviceConfiguration deviceHealth)
open Store
open Tracing (Recording Does)

variable {α β : Type}

/-- Which packets were archived. -/
def archiving : Recording TelemetryStore World Heard where
  After w ps w' := Extends w.store ps w'.store
  Saw w ps d := Extends w.store ps d
  refl w := .refl w.store
  trans := .trans
  saw := .trans

/-! ### Programs that archive nothing -/

/-- The program archives nothing, from any world, and keeps everything. -/
def Silent (x : Program α) : Prop :=
  ∀ w, Does archiving (fun _ ps => ps = []) (fun _ ps => ps = []) (· = []) x w

namespace Silent

theorem pure (a : α) : Silent (pure a) := fun _ => Does.pure rfl

theorem bind {y : Program β} {f : β → Program α} (hy : Silent y) (hf : ∀ b, Silent (f b)) :
    Silent (y >>= f) := by
  intro w
  refine Does.bind (hy w) (fun b ps w' _ hps => ?_) (fun _ _ => id) fun _ => id
  subst hps
  exact hf b w'

theorem lift (r : Outcome AppError α) : Silent (lift r) := fun _ =>
  Does.lift (fun _ _ => rfl) fun _ _ => rfl

theorem get : Silent get := fun _ => Does.get rfl

theorem orElse {x : Program α} {handle : Fault AppError → Program α} (hx : Silent x)
    (hhandle : ∀ e, Silent (handle e)) : Silent (x.orElse handle) := by
  intro w
  refine Does.orElse (hx w) (fun _ _ => id) (fun e ps w' _ hps => ?_) fun _ => id
  subst hps
  exact hhandle e w'

theorem forEach {f : β → Program Unit} (hf : ∀ b, Silent (f b)) : ∀ bs, Silent (forEach f bs)
  | [] => pure ()
  | b :: bs => bind (hf b) fun _ => forEach hf bs

theorem ite {c : Prop} [Decidable c] {x y : Program α} (hx : Silent x) (hy : Silent y) :
    Silent (if c then x else y) := by
  split
  · exact hx
  · exact hy

/-- A transaction that archives nothing. -/
theorem database {f : TelemetryStore → Outcome StorageError (α × TelemetryStore)}
    (hf : ∀ {s a s'}, f s = .ok (a, s') → Extends s [] s') : Silent (database f) := by
  refine fun w => Does.transact (fun a w' he => ?_) fun _ _ => rfl
  obtain ⟨⟨b, s'⟩, hb, he⟩ := Outcome.bind_eq_ok.mp he
  obtain ⟨rfl, rfl⟩ := Prod.mk.inj (Except.ok.inj he)
  have hext := hf (Outcome.mapErr_eq_ok.mp hb)
  exact ⟨[], hext, hext, rfl, rfl⟩

theorem databaseUnit {f : TelemetryStore → Outcome StorageError TelemetryStore}
    (hf : ∀ {s s'}, f s = .ok s' → Extends s [] s') : Silent (databaseUnit f) := by
  refine database fun he => ?_
  obtain ⟨t, ht, he⟩ := Outcome.bind_eq_ok.mp he
  obtain ⟨-, rfl⟩ := Prod.mk.inj (Except.ok.inj he)
  exact hf ht

theorem query (f : TelemetryStore → Outcome StorageError α) : Silent (query f) :=
  bind get fun _ => lift _

theorem reassembly
    (f : HashOrder → ProfileReassembler → Outcome ReassemblyError (α × ProfileReassembler)) :
    Silent (reassembly f) := by
  refine fun w => Does.update (fun a w' he => ?_) fun _ _ => rfl
  obtain ⟨⟨b, r⟩, -, he⟩ := Outcome.bind_eq_ok.mp he
  obtain ⟨rfl, rfl⟩ := Prod.mk.inj (Except.ok.inj he)
  exact ⟨[], .refl w.store, rfl⟩

/-! ### Results -/

theorem containsActive (key : ProfileKey) : Silent (containsActive key) := bind get fun _ => pure _

theorem persistProfile (profile : ReassembledProfile) : Silent (persistProfile profile) :=
  bind (database TelemetryStore.extends_insertProfileScanInner) fun _ => pure _

theorem persistIntegrity (snapshot : Option ReassembledProfile) (packetId : Int)
    (status : FragmentStorageStatus) : Silent (persistIntegrity snapshot packetId status) := by
  cases snapshot with
  | none => exact lift _
  | some snapshot =>
      exact bind (database TelemetryStore.extends_insertProfileScanInner) fun _ => pure _

theorem handleProfileFragmentResult (result : IngestResult) (packetId : Int) :
    Silent (handleProfileFragmentResult result packetId) := by
  refine bind (forEach persistProfile _) fun _ => ?_
  cases result.event with
  | pending progress => exact pure _
  | complete profile => exact persistProfile profile
  | duplicate key index => exact persistIntegrity _ _ _
  | conflict key index => exact persistIntegrity _ _ _

/-! ### Restoring -/

theorem quarantineIncompleteReplay (profile : PersistedIncompleteProfile) (packetId : Int)
    (fault : ReplayFault) : Silent (quarantineIncompleteReplay profile packetId fault) :=
  bind (databaseUnit TelemetryStore.extends_quarantineIncompleteProfileFragment) fun _ =>
    reassembly _

theorem restoreReceiverCounts (key : ProfileKey) (duplicates conflicts : Nat) :
    Silent (restoreReceiverCounts key duplicates conflicts) := reassembly _

theorem restoreCountsOnce (profile : PersistedIncompleteProfile) (countsRestored : Bool) :
    Silent (restoreCountsOnce profile countsRestored) :=
  bind (containsActive _) fun _ =>
    ite (bind (restoreReceiverCounts _ _ _) fun _ => pure _) (pure _)

theorem restoreFragments (profile : PersistedIncompleteProfile) (replayStarted : Nat)
    (fragments : List PendingProfileFragment) (countsRestored : Bool) (ordinal : Nat) :
    Silent (restoreFragments profile replayStarted fragments countsRestored ordinal) := by
  induction fragments generalizing countsRestored ordinal with
  | nil => exact pure _
  | cons archived rest ih =>
      have hquarantine : ∀ fault, Silent (do
          Listen.quarantineIncompleteReplay profile archived.packetId fault
          return ((none : Option Bool), ordinal)) := fun fault =>
        bind (quarantineIncompleteReplay profile archived.packetId fault) fun _ => pure _
      unfold Listen.restoreFragments
      split
      · exact lift _
      · exact hquarantine _
      · refine ite (hquarantine _) (bind (restoreCountsOnce _ _) fun _ => ?_)
        refine bind (reassembly _) fun result => bind (restoreCountsOnce _ _) fun restored => ?_
        exact bind (handleProfileFragmentResult _ _) fun _ => ih restored _
      · exact hquarantine _

theorem restoreIncompleteProfiles (replayStarted : Nat) (profiles : List PersistedIncompleteProfile)
    (quarantinedKeys : List ProfileKey) (ordinal : Nat) :
    Silent (restoreIncompleteProfiles replayStarted profiles quarantinedKeys ordinal) := by
  induction profiles generalizing quarantinedKeys ordinal with
  | nil => exact pure _
  | cons profile rest ih =>
      unfold Listen.restoreIncompleteProfiles
      refine ite (ih _ _) (bind (database
        TelemetryStore.extends_coalesceIncompleteProfileIntoCompleted) fun classifications => ?_)
      cases classifications with
      | some classifications => exact ih _ _
      | none =>
          refine bind (restoreFragments _ _ _ _ _) fun restored => ?_
          obtain ⟨_ | _ | _, ordinal⟩ := restored
          · exact ih _ _
          · exact lift _
          · exact ih _ _

/-! ### Fragments and startup -/

theorem ingestArchivedProfileFragment (fragment : Protocol.ProfileFragmentView)
    (source : SourceFragment) (payload : List UInt8) (observedAt : Nat) :
    Silent (ingestArchivedProfileFragment fragment source payload observedAt) := by
  refine bind (database TelemetryStore.extends_reconcilePersistedProfileFragment)
    fun classification => ?_
  cases classification with
  | some classification =>
      exact bind (containsActive _) fun _ => ite (restoreReceiverCounts _ _ _) (pure _)
  | none =>
      refine bind (containsActive _) fun _ => ?_
      have hingest : Silent (do
          let result ← ingestAt fragment source observedAt
          Listen.handleProfileFragmentResult result source.packetId) :=
        bind (reassembly _) fun result => handleProfileFragmentResult _ _
      exact ite (bind (query _) fun incomplete => bind (restoreIncompleteProfiles _ _ _ _)
        fun _ => hingest) hingest

theorem quarantinePendingReplay (packetId : Int) (error : DecodeErrorText) :
    Silent (quarantinePendingReplay packetId error) :=
  databaseUnit TelemetryStore.extends_quarantinePendingProfileFragment

theorem quarantineSemantic (packetId : Int) (e : Fault AppError) :
    Silent (quarantineSemantic packetId e) := by
  unfold Listen.quarantineSemantic
  split
  · exact quarantinePendingReplay _ _
  · exact quarantinePendingReplay _ _
  · exact lift _

theorem replayPending (replayStarted : Nat) (fragments : List PendingProfileFragment)
    (ordinal : Nat) : Silent (replayPending replayStarted fragments ordinal) := by
  induction fragments generalizing ordinal with
  | nil => exact pure ()
  | cons archived rest ih =>
      unfold Listen.replayPending
      split
      · exact lift _
      · exact bind (quarantinePendingReplay _ _) fun _ => ih _
      · refine ite (bind (quarantinePendingReplay _ _) fun _ => ih _) (bind ?_ fun _ => ih _)
        exact orElse (ingestArchivedProfileFragment _ _ _ _) (quarantineSemantic _)
      · exact bind (quarantinePendingReplay _ _) fun _ => ih _

theorem reconcilePendingProfiles (replayStarted : Nat) :
    Silent (reconcilePendingProfiles replayStarted) :=
  bind (query _) fun _ => bind (restoreIncompleteProfiles _ _ _ _) fun ordinal =>
    bind (query _) fun pending => replayPending _ pending ordinal

/-! ### Between packets -/

theorem persistExpiredProfiles (now : Nat) : Silent (persistExpiredProfiles now) :=
  bind (reassembly _) fun _ => forEach persistProfile _

theorem persistRemaining : Silent persistRemaining :=
  bind (reassembly _) fun _ => forEach persistProfile _

/-! ### What it leaves -/

variable {x : Program α} (h : Silent x) {w w' : World}
include h

theorem returns {a : α} (hr : Returns x w a w') : Extends w.store [] w'.store := by
  obtain ⟨_, hafter, rfl⟩ := (h w).of_ok hr.1
  exact hr.2 ▸ hafter

theorem leaves {d : TelemetryStore} (hl : Leaves World.store x w d) : Extends w.store [] d := by
  rcases hl with rfl | hd
  · exact .refl w.store
  · obtain ⟨_, hsaw, rfl⟩ := (h w).of_commit hd
    exact hsaw

end Silent

/-! ### Packets -/

/-- The packet, as it was received then. -/
structure HeardAs (p : Heard) (now : Nat) (packet : RadioPacket) : Prop where
  receivedAtUnixMs : p.receivedAtUnixMs = now
  radio : p.radio = packet.metadata
  payload : p.payload = packet.payload

/-- The packet was archived, once. -/
def Archived (now : Nat) (packet : RadioPacket) (ps : List Heard) : Prop :=
  ∃ p, ps = [p] ∧ HeardAs p now packet

/-- What a payload counts as. -/
def outcomeOf (payload : List UInt8) : PacketOutcome :=
  match Protocol.decodeAny payload with
  | .ok (.v1 _) => .validV1
  | .ok (.v2 _) => .validV2
  | .error (.error error) => if dispositionOf error = .unsupported then .unsupported else .invalid
  | .error .panicked => .invalid

/-- The program archives the packet first, and then nothing.  When it fails, the packet may not have
been archived. -/
abbrev Archives (now : Nat) (packet : RadioPacket) (P : α → Prop) (x : Program α) (w : World) :
    Prop :=
  Does archiving (fun a ps => P a ∧ Archived now packet ps)
    (fun _ ps => ps = [] ∨ Archived now packet ps) (Archived now packet) x w

namespace Archives

variable {now : Nat} {packet : RadioPacket} {P : α → Prop} {w : World}

/-- A program that fails before it has archived anything. -/
theorem lift_error (e : Fault AppError) (f : β → Program α) :
    Archives now packet P (lift (.error e) >>= f) w := by
  refine Does.bind (P := fun _ _ => False) (E := fun _ ps => ps = []) (K := fun _ => False)
    (Does.lift (fun _ he => by cases he) fun _ _ => rfl) (fun _ _ _ _ hf => hf.elim)
    (fun _ _ => .inl) fun _ => False.elim

/-- A transaction that archives the packet, and a program that archives nothing. -/
theorem database {f : TelemetryStore → Outcome StorageError (β × TelemetryStore)}
    (hf : ∀ {b s'}, f w.store = .ok (b, s') →
      Extends w.store [w.store.nextHeard now packet.payload packet.metadata] s')
    {g : β → Program α} (hg : ∀ b, Silent (g b))
    (hP : ∀ b w', wp (fun _ => True) (fun a _ => P a) (fun _ _ => True) (g b) w') :
    Archives now packet P (database f >>= g) w := by
  have harchived : Archived now packet [w.store.nextHeard now packet.payload packet.metadata] :=
    ⟨_, rfl, rfl, rfl, rfl⟩
  refine Does.bind (P := fun _ => Archived now packet) (E := fun _ ps => ps = [])
    (K := Archived now packet) (Does.transact (fun b w' he => ?_) fun _ _ => rfl)
    (fun b ps w' _ hps => ?_) (fun _ _ => .inl) fun _ => id
  · obtain ⟨⟨c, s'⟩, hc, he⟩ := Outcome.bind_eq_ok.mp he
    obtain ⟨rfl, rfl⟩ := Prod.mk.inj (Except.ok.inj he)
    have hext := hf (Outcome.mapErr_eq_ok.mp hc)
    exact ⟨_, hext, hext, harchived, harchived⟩
  · have hsilent := hg b w'
    have hnil : Archived now packet (ps ++ []) := by rwa [List.append_nil]
    refine ⟨fun d hd => ?_, fun a ha => ?_, fun e he => ?_⟩
    · obtain ⟨_, hsaw, rfl⟩ := hsilent.of_commit hd
      exact ⟨[], hsaw, hnil⟩
    · obtain ⟨_, hafter, rfl⟩ := hsilent.of_ok ha
      exact ⟨[], hafter, (hP b w').ok a ha, hnil⟩
    · obtain ⟨_, hafter, rfl⟩ := hsilent.of_error he
      exact ⟨[], hafter, .inr hnil⟩

end Archives

/-- **Storing a packet** archives it, once, and counts it as what its payload is. -/
theorem storePacket_archives (now observedAt : Nat) (packet : RadioPacket) (w : World) :
    Archives now packet (· = outcomeOf packet.payload) (storePacket now observedAt packet) w := by
  unfold storePacket outcomeOf
  cases hd : Protocol.decodeAny packet.payload with
  | error fault =>
      -- the archive takes it, whatever it is
      have htable : tableOf packet.payload = none := by rw [tableOf, hd]
      cases fault with
      | panicked => exact absurd hd (Protocol.decodeAny_returns packet.payload).ne_panicked
      | error error =>
          exact .database (TelemetryStore.extends_archivePacket htable) (fun _ => Silent.pure _)
            fun _ _ => wp_pure rfl
  | ok frame =>
      cases frame with
      | v1 frame =>
          refine .database (TelemetryStore.extends_insertReceivedV1 hd) (fun row => ?_)
            fun row w' => ?_
          -- the row of a reading may lack its packet id: the host counts on it
          · cases row.radioPacketId with
            | none => exact Silent.lift _
            | some id => exact Silent.pure _
          · cases row.radioPacketId with
            | none => exact wp_lift (fun _ he => by cases he) fun _ _ => trivial
            | some id => exact wp_pure rfl
      | v2 frame =>
          cases frame with
          | deviceConfig header config =>
              show Archives now packet (· = PacketOutcome.validV2)
                (lift (deviceConfiguration header config) >>= _) w
              cases hrecord : (deviceConfiguration header config : Outcome AppError _) with
              -- a record that does not convert is not archived
              | error e => exact .lift_error e _
              | ok configuration =>
                  exact .database (TelemetryStore.extends_insertReceivedDeviceConfiguration
                    hd hrecord)
                    (fun _ => Silent.pure _) fun _ _ => wp_pure rfl
          | deviceHealth header health =>
              exact .database (TelemetryStore.extends_insertReceivedDeviceHealth hd)
                (fun _ => Silent.pure _) fun _ _ => wp_pure rfl
          | profileFragment fragment =>
              have htable : tableOf packet.payload = none := by rw [tableOf, hd]
              -- what follows the archive stores no packet
              refine .database (TelemetryStore.extends_archiveV2ProfileFragment htable)
                (fun stored => Silent.bind (Silent.ingestArchivedProfileFragment _ _ _ _)
                  fun _ => Silent.pure _) fun stored w' => wp_bind ?_
              exact ⟨fun _ _ => trivial, fun _ _ => wp_pure rfl, fun _ _ => trivial⟩

/-! ### Runs -/

section
variable {n n' : Node} {packet : RadioPacket} {w w' : World}

theorem extends_storePacket {now observedAt : Nat} {outcome : PacketOutcome}
    (h : Returns (storePacket now observedAt packet) w outcome w') :
    ∃ p, HeardAs p now packet ∧ Extends w.store [p] w'.store := by
  obtain ⟨_, hafter, -, p, rfl, hp⟩ := (storePacket_archives now observedAt packet w).of_ok h.1
  exact ⟨p, hp, h.2 ▸ hafter⟩

/-- One step of the receiver continues its database. -/
theorem Step.extends (h : Step n n') : ∃ ps, Extends n.store ps n'.store := by
  cases h with
  | start hr => exact ⟨[], (Silent.reconcilePendingProfiles _).returns hr⟩
  | lostAtStart hl => exact ⟨[], (Silent.reconcilePendingProfiles _).leaves hl⟩
  | receive hlen hr =>
      obtain ⟨p, -, hext⟩ := extends_storePacket hr
      exact ⟨[p], hext⟩
  | lostInPacket hlen hl =>
      rcases hl with rfl | hd
      · exact ⟨[], .refl _⟩
      · obtain ⟨ps, hsaw, -⟩ := (storePacket_archives _ _ _ _).of_commit hd
        exact ⟨ps, hsaw⟩
  | expire hr => exact ⟨[], (Silent.persistExpiredProfiles _).returns hr⟩
  | lostInExpiry hl => exact ⟨[], (Silent.persistExpiredProfiles _).leaves hl⟩
  | stop hr => exact ⟨[], Silent.persistRemaining.returns hr⟩
  | lostInStop hl => exact ⟨[], Silent.persistRemaining.leaves hl⟩

/-- **Nothing is lost.**  Over any number of steps, from any database: the archive only grows, at
its end; records stay as they are; and no complete scan is deleted or altered, except that its
counters grow. -/
theorem steps_keep_history (h : Relation.ReflTransGen Step n n') :
    ∃ ps, Extends n.store ps n'.store := by
  induction h with
  | refl => exact ⟨[], .refl n.store⟩
  | tail _ hs ih =>
      obtain ⟨ps, hps⟩ := ih
      obtain ⟨qs, hqs⟩ := hs.extends
      exact ⟨ps ++ qs, hps.trans hqs⟩

/-- A reading of a node. -/
def readingPacket : RadioPacket where
  payload := Protocol.TelemetryV1.encode ⟨⟨0⟩, 7, 1, ⟨⟨2150⟩, ⟨101325⟩, ⟨45000⟩, ⟨12000⟩⟩,
    ⟨1, 2, 3, 4, 5, 6, 7, 8, 9, 10⟩⟩
  metadata := ⟨-9000, -8900, 700⟩

theorem step_readingPacket : Step (.up booted) (.up (booted.after readingPacket)) := by
  have hr : (storePacket 0 0 readingPacket booted).result = .ok .validV1 := by decide +kernel
  rw [World.after]
  exact .receive (by decide +kernel) ⟨hr, rfl⟩

theorem extends_readingPacket : ∃ ps, Extends booted.store ps (booted.after readingPacket).store :=
  steps_keep_history (.single step_readingPacket)

theorem Reach.steps (h : Reach n) : Relation.ReflTransGen Step (.down .fresh) n := by
  induction h with
  | fresh => exact .refl
  | step _ hs ih => exact ih.tail hs

/-- **The records mirror the archive.**  In every state that the receiver reaches, its packets are
numbered in the order of their arrival, and the tables of readings, configurations and health
records hold what the archived packets carry: one row for each packet that decodes to such a record,
in their order, with the record, the time and the link of that packet, and no other row. -/
theorem records_mirror_archive (h : Reach n) : n.store.Ascending ∧
    List.Forall₂ ReadingRow.Of n.store.readings (carrying .readings n.store.heard) ∧
    List.Forall₂ ConfigurationRow.Of n.store.configurations
      (carrying .configurations n.store.heard) ∧
    List.Forall₂ HealthRow.Of n.store.health (carrying .health n.store.heard) := by
  obtain ⟨ps, hext⟩ := steps_keep_history h.steps
  obtain rfl : n.store.heard = ps := hext.packets
  obtain ⟨readings, hreadings, hr⟩ := hext.readings
  obtain ⟨configurations, hconfigurations, hc⟩ := hext.configurations
  obtain ⟨health, hhealth, hh⟩ := hext.health
  rw [hreadings, hconfigurations, hhealth]
  exact ⟨hext.ascending List.Pairwise.nil, hr, hc, hh⟩

theorem mirrors_readingPacket :
    (booted.after readingPacket).store.heard.map (·.payload) = [readingPacket.payload] ∧
      List.Forall₂ ReadingRow.Of (booted.after readingPacket).store.readings
        (carrying .readings (booted.after readingPacket).store.heard) :=
  ⟨by decide +kernel, (records_mirror_archive (reach_booted.step step_readingPacket)).2.1⟩

end

end Vesta.Listen
