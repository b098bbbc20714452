import Vesta.Listen.History
import Vesta.Listen.Loop
import Vesta.Radio.Session

/-!
# Listen — Running

What a run of `listen` archives is what it has read from the radio: every payload that came in over
the bus is in the archive, byte for byte and in order, and the counters count them
(`listen_archives`).  A run that fails may have lost the payload it read last, and no other.
-/

namespace Vesta.Listen

open Journal (Prog wp)
open Journal.Prog (lift turns)
open Outcome (failIf)
open Radio (Sx1262Hat Driver ReceiveEvent Drives PollTouches OfCommands actions
  transfers transfersOf
  framed pollReceive openHat dropHat)
open Store
open Tracing (Recording Does)
open Tracing.Recording (firsts seconds firsts_append seconds_append firsts_map_inl seconds_map_inl)

variable {H α : Type}

/-! ### What is read -/

/-- The payloads that the driver has read from the buffer. -/
def payloadsRead (hat : Sx1262Hat H) : List (List UInt8) := Radio.payloadsRead (transfersOf hat.log)

/-- Which payloads are read. -/
def reading : Recording Empty (Sx1262Hat H) (List UInt8) where
  After hat payloads hat' := payloadsRead hat' = payloadsRead hat ++ payloads
  Saw _ _ d := d.elim
  refl hat := (List.append_nil _).symm
  trans h h' := by rw [h', h, List.append_assoc]
  saw := fun {_ _ d _ _} _ _ => d.elim

/-- What a program of the driver reads is among what it puts on the bus. -/
theorem reads_of_actions {ok : α → List Radio.Action → Prop} {err : List Radio.Action → Prop}
    {x : Driver H α} {hat : Sx1262Hat H} (h : Drives actions ok err x hat) :
    Does reading (fun a ps => ∃ es, ps = Radio.payloadsRead (transfersOf es) ∧ ok a es)
      (fun e ps => ∃ es, ps = Radio.payloadsRead (transfersOf es) ∧ e ≠ .panicked ∧ err es)
      (fun _ => True) x hat := by
  refine Does.mono (Does.view (S := reading) (fun es => Radio.payloadsRead (transfersOf es))
    (fun {hat es hat'} hafter => ?_) (fun {_ _ d} _ => d.elim) h) (fun _ _ => id) (fun _ _ => id)
    fun _ _ => trivial
  show Radio.payloadsRead (transfersOf hat'.log) = _
  rw [hafter.1, Radio.transfersOf_append, Radio.payloadsRead_append]
  rfl

theorem reads_of_transfers {ok : α → List Radio.Transfer → Prop} {err : List Radio.Transfer → Prop}
    {x : Driver H α} {hat : Sx1262Hat H} (h : Drives transfers ok err x hat) :
    Does reading (fun a ps => ∃ ts, ps = Radio.payloadsRead ts ∧ ok a ts)
      (fun e ps => ∃ ts, ps = Radio.payloadsRead ts ∧ e ≠ .panicked ∧ err ts)
      (fun _ => True) x hat := by
  refine Does.mono (reads_of_actions h.toActions) (fun a ps hps => ?_) (fun e ps hps => ?_)
    fun _ _ => trivial
  · obtain ⟨_, rfl, ts, rfl, hts⟩ := hps
    exact ⟨ts, by rw [Radio.transfersOf_framed], hts⟩
  · obtain ⟨_, rfl, hne, ts, rfl, hts⟩ := hps
    exact ⟨ts, by rw [Radio.transfersOf_framed], hne, hts⟩

section
variable {board : Radio.Board H} {hat : Sx1262Hat H}

/-- Opening the radio reads nothing. -/
theorem reads_openHat : Does reading (fun _ ps => ps = []) (fun e ps => e ≠ .panicked ∧ ps = [])
    (fun _ => True) (openHat board) hat := by
  have hnone : ∀ ts, OfCommands Radio.openOpcodes ts → Radio.payloadsRead ts = [] := fun ts hops =>
    hops.payloadsRead (by decide +kernel)
  refine Does.mono (reads_of_actions Radio.drives_openHat) (fun _ ps hps => ?_) (fun e ps hps => ?_)
    fun _ => id
  · obtain ⟨_, rfl, ts, rfl, -, hops⟩ := hps
    rw [Radio.transfersOf_append, Radio.transfersOf_append, Radio.transfersOf_framed]
    exact hnone ts hops
  · obtain ⟨es, rfl, hne, hprefix | ⟨ts, rfl, hops⟩⟩ := hps
    · exact ⟨hne, by rw [Radio.transfersOf_claim hprefix]; rfl⟩
    · rw [Radio.transfersOf_append, Radio.transfersOf_append, Radio.transfersOf_append,
        Radio.transfersOf_framed]
      refine ⟨hne, ?_⟩
      show Radio.payloadsRead (ts ++ []) = []
      rw [List.append_nil]
      exact hnone ts hops

/-- Letting the radio go reads nothing. -/
theorem reads_dropHat : Does reading (fun _ ps => ps = []) (fun _ ps => ps = []) (fun _ => True)
    (dropHat board) hat := by
  refine Does.mono (reads_of_actions Radio.drives_dropHat) (fun _ ps hps => ?_) (fun e ps hps => ?_)
    fun _ => id
  · obtain ⟨_, rfl, ts, rfl, hts⟩ := hps
    rw [Radio.transfersOf_append, Radio.transfersOf_framed]
    obtain rfl | ⟨incoming, rfl⟩ := hts
    · rfl
    · rfl
  · obtain ⟨-, -, -, hf⟩ := hps
    exact hf.elim

/-- A poll reads the payload of its event.  When it fails, it may have read one. -/
theorem reads_pollReceive (timeout : Nat) : Does reading
    (fun r ps => ps = r.elim [] ReceiveEvent.payloads ∧
      ∀ packet, r = some (.packet packet) → packet.payload.length ≤ maxPayloadLen)
    (fun e ps => e ≠ .panicked ∧ ps.length ≤ 1) (fun _ => True)
    (pollReceive board timeout) hat := by
  refine Does.mono (reads_of_transfers (Radio.drives_pollReceive timeout)) (fun r ps hps => ?_)
    (fun e ps hps => ?_) fun _ => id
  · obtain ⟨ts, rfl, -, hr⟩ := hps
    cases r with
    | none =>
        obtain rfl : ts = [] := hr
        exact ⟨rfl, nofun⟩
    | some event =>
        have hpolled : Radio.Polled event ts := hr
        refine ⟨hpolled.payloadsRead, fun packet he => ?_⟩
        obtain rfl := Option.some.inj he
        exact hpolled.length_le
  · obtain ⟨ts, rfl, hne, htouches⟩ := hps
    exact ⟨hne, htouches.once⟩

end

/-! ### What is read and what is archived -/

/-- Which payloads are read, and which packets are archived. -/
abbrev listening : Recording TelemetryStore (Machine H) (List UInt8 ⊕ Heard) :=
    reading.prod archiving

/-- Every payload that was read was archived, in this order. -/
def Stored (es : List (List UInt8 ⊕ Heard)) : Prop := firsts es = (seconds es).map (·.payload)

/-- The same, but for the last payload. -/
def StoredButLast (es : List (List UInt8 ⊕ Heard)) : Prop :=
  ∃ last, firsts es = (seconds es).map (·.payload) ++ last ∧ last.length ≤ 1

/-- The payloads that are counted as one of these. -/
def countOf (outcomes : List PacketOutcome) (payloads : List (List UInt8)) : Nat :=
  payloads.countP fun payload => outcomeOf payload ∈ outcomes

/-- The counters count the payloads. -/
structure Tallies (c : Counters) (payloads : List (List UInt8)) : Prop where
  validFrames : c.validFrames = countOf [.validV1, .validV2] payloads
  unsupportedPackets : c.unsupportedPackets = countOf [.unsupported] payloads
  protocolErrors : c.protocolErrors = countOf [.invalid] payloads

theorem Tallies.zero : Tallies .zero [] := ⟨rfl, rfl, rfl⟩

theorem Tallies.countPacket {c : Counters} {payloads : List (List UInt8)} (h : Tallies c payloads)
    (payload : List UInt8) : Tallies (c.countPacket (outcomeOf payload))
    (payloads ++ [payload]) := by
  obtain ⟨hvalid, hunsupported, hinvalid⟩ := h
  refine ⟨?_, ?_, ?_⟩
  all_goals
    rw [countOf, List.countP_append, List.countP_singleton]
    cases outcomeOf payload <;> simp_all [Counters.countPacket, countOf]

section
variable {m : Machine H}

theorem does_radio {ok : α → List (List UInt8) → Prop}
    {err : Fault Radio.RadioError → List (List UInt8) → Prop} {x : Driver H α}
    (h : Does reading ok err (fun _ => True) x m.1) :
    Does listening (fun a es => ∃ ps, es = ps.map .inl ∧ ok a ps)
      (fun _ es => ∃ e ps, es = ps.map .inl ∧ err e ps) (fun _ => False) (radio x) m := by
  refine Does.mono (Does.first (C := fun _ => False) (f := faultMap ListenError.radio) h)
    (fun _ _ => id) (fun _ es hes => ?_) fun _ => id
  obtain ⟨e, ps, -, hps⟩ := hes
  exact ⟨e, ps, hps⟩

/-- A question to the host. -/
theorem does_ask (f : H → α × H) : Does listening (fun _ es => es = []) (fun _ _ => False)
    (fun _ => False) (ask f) m := by
  have hread : Does reading (fun _ ps => ps = []) (fun _ _ => False) (fun _ => True)
      (Radio.outside f) m.1 := by
    refine Does.mono (reads_of_actions (Radio.drives_outside f)) (fun _ ps hps => ?_)
      (fun _ ps hps => ?_) fun _ => id
    · obtain ⟨_, rfl, rfl⟩ := hps
      rfl
    · obtain ⟨-, -, -, hf⟩ := hps
      exact hf
  refine Does.mono (does_radio hread) (fun _ es hes => ?_) (fun _ es hes => ?_) fun _ => id
  · obtain ⟨_, rfl, rfl⟩ := hes
    rfl
  · obtain ⟨-, -, -, hf⟩ := hes
    exact hf

/-- A program of the receiver that archives nothing. -/
theorem does_silent {x : Program α} (h : Silent x) : Does listening (fun _ es => es = [])
    (fun _ es => es = []) (· = []) (storing x) m := by
  refine Does.mono (Does.second (f := faultMap ListenError.storing) (h m.2)) (fun _ es hes => ?_)
    (fun _ es hes => ?_) fun es hes => ?_
  · obtain ⟨_, rfl, rfl⟩ := hes
    rfl
  · obtain ⟨-, _, -, rfl, rfl⟩ := hes
    rfl
  · obtain ⟨_, rfl, rfl⟩ := hes
    rfl

/-- What the host answers concerns neither the radio nor the database. -/
theorem does_ask_bind {β : Type} {f : H → α × H} {g : α → Listener H β}
    {ok : β → List (List UInt8 ⊕ Heard) → Prop}
    {err : Fault ListenError → List (List UInt8 ⊕ Heard) → Prop}
    {cut : List (List UInt8 ⊕ Heard) → Prop}
    (h : ∀ a m', Does listening ok err cut (g a) m') :
      Does listening ok err cut (ask f >>= g) m := by
  refine Does.bind (does_ask f) (fun a es m' _ hes => ?_) (fun _ _ => False.elim)
    fun _ => False.elim
  subst hes
  exact h a m'

theorem does_pollTime (host : Host H) (deadline : Option Nat) : Does listening
    (fun _ es => es = []) (fun _ _ => False) (fun _ => False) (pollTime host deadline) m := by
  cases deadline with
  | none => exact Does.pure rfl
  | some deadline => exact does_ask_bind fun _ _ => Does.pure rfl

/-- What handling an event comes to. -/
inductive Handled (c : Counters) : ReceiveEvent → Counters → List (List UInt8 ⊕ Heard) → Prop where
  | packet {packet : RadioPacket} {p : Heard} (hp : p.payload = packet.payload) :
      Handled c (.packet packet) (c.countPacket (outcomeOf packet.payload)) [.inr p]
  | other {event : ReceiveEvent} {c' : Counters} (hnone : event.payloads = [])
      (hvalid : c'.validFrames = c.validFrames)
      (hunsupported : c'.unsupportedPackets = c.unsupportedPackets)
      (hinvalid : c'.protocolErrors = c.protocolErrors) : Handled c event c' []

/-- The packet of an event was archived. -/
def ArchivedOf (event : ReceiveEvent) (es : List (List UInt8 ⊕ Heard)) : Prop :=
  ∃ p : Heard, es = [.inr p] ∧ event.payloads = [p.payload]

theorem does_handleEvent (host : Host H) (c : Counters) (event : ReceiveEvent) : Does listening
    (Handled c event) (fun _ es => es = [] ∨ ArchivedOf event es) (ArchivedOf event)
    (handleEvent host c event) m := by
  cases event with
  | packet packet =>
      have harchived : ∀ p : Heard, p.payload = packet.payload →
          ArchivedOf (.packet packet) [.inr p] :=
        fun p hp => ⟨p, rfl, congrArg (fun q => [q]) hp.symm⟩
      refine does_ask_bind fun now m₁ => does_ask_bind fun observedAt m₂ => ?_
      refine Does.bind (Does.second (f := faultMap ListenError.storing)
        (storePacket_archives now observedAt packet m₂.2)) (fun outcome es m₃ _ hes => ?_)
        (fun e es hes => ?_) fun es hes => ?_
      · obtain ⟨_, rfl, rfl, p, rfl, hp⟩ := hes
        exact Does.pure (.packet hp.payload)
      · obtain ⟨e', _, -, rfl, rfl | ⟨p, rfl, hp⟩⟩ := hes
        · exact .inl rfl
        · exact .inr (harchived p hp.payload)
      · obtain ⟨_, rfl, p, rfl, hp⟩ := hes
        exact harchived p hp.payload
  | headerError irq => exact Does.pure (.other rfl rfl rfl rfl)
  | crcError irq => exact Does.pure (.other rfl rfl rfl rfl)
  | radioTimeout irq => exact Does.pure (.other rfl rfl rfl rfl)
  | otherIrq irq => exact Does.pure (.other rfl rfl rfl rfl)

end

/-- What a run has come to between two turns. -/
structure Listened (count : Option Nat) (c : Counters) (es : List (List UInt8 ⊕ Heard)) : Prop where
  stored : Stored es
  tallies : Tallies c (firsts es)
  within : ∀ n ∈ count, c.validFrames ≤ n

theorem Stored.butLast {es : List (List UInt8 ⊕ Heard)} (h : Stored es) : StoredButLast es :=
  ⟨[], by rw [List.append_nil]; exact h, Nat.zero_le 1⟩

namespace Listened

variable {count : Option Nat} {c c' : Counters} {us es : List (List UInt8 ⊕ Heard)}

/-- Payloads that were read and are not stored yet. -/
theorem read (h : Listened count c us) {ps : List (List UInt8)} (hps : ps.length ≤ 1) :
    StoredButLast (us ++ ps.map .inl) := by
  refine ⟨ps, ?_, hps⟩
  rw [firsts_append, seconds_append, firsts_map_inl, seconds_map_inl, List.append_nil, h.stored]

/-- A payload that was read and archived. -/
theorem archived (h : Listened count c us) {event : ReceiveEvent} (he : ArchivedOf event es) :
    Stored (us ++ (event.payloads.map .inl ++ es)) := by
  obtain ⟨p, rfl, hp⟩ := he
  rw [Stored, firsts_append, seconds_append, h.stored, hp, List.map_append]
  rfl

theorem handled (h : Listened count c us) (hlt : ∀ n ∈ count, c.validFrames < n)
    {event : ReceiveEvent} (he : Handled c event c' es) :
    Listened count c' (us ++ (event.payloads.map .inl ++ es)) := by
  cases he with
  | @packet packet p hp =>
      refine ⟨h.archived ⟨p, rfl, congrArg (fun q => [q]) hp.symm⟩, ?_, fun n hn => ?_⟩
      · rw [firsts_append]
        exact h.tallies.countPacket packet.payload
      · have hn := hlt n hn
        cases outcomeOf packet.payload with
        | validV1 => exact hn
        | validV2 => exact hn
        | unsupported => exact hn.le
        | invalid => exact hn.le
  | other hnone hvalid hunsupported hinvalid =>
      rw [hnone, List.map_nil, List.append_nil, List.append_nil]
      refine ⟨h.stored, ⟨?_, ?_, ?_⟩, fun n hn => ?_⟩
      · exact hvalid.trans h.tallies.validFrames
      · exact hunsupported.trans h.tallies.unsupportedPackets
      · exact hinvalid.trans h.tallies.protocolErrors
      · exact hvalid ▸ h.within n hn

end Listened

section
variable {m : Machine H} (host : Host H) {count : Option Nat} {c : Counters}
  {us : List (List UInt8 ⊕ Heard)}

/-- The rest of a turn, after the events `us`. -/
abbrev Turns (count : Option Nat) (us : List (List UInt8 ⊕ Heard))
    (x : Listener H (Counters ⊕ Counters)) (m : Machine H) : Prop :=
  Does listening (fun r es => Listened count (r.elim id id) (us ++ es))
    (fun _ es => StoredButLast (us ++ es)) (fun es => StoredButLast (us ++ es)) x m

/-- The turn ends here. -/
theorem turns_pure {r : Counters ⊕ Counters} (h : Listened count (r.elim id id) us) :
    Turns count us (pure r) m :=
  Does.pure (by rwa [List.append_nil])

theorem turns_expire (h : Listened count c us) : Turns count us (do
    storing (persistExpiredProfiles (← ask host.now))
    return .inl c) m := by
  have hbut : StoredButLast (us ++ []) := by
    rw [List.append_nil]
    exact h.stored.butLast
  refine does_ask_bind fun now m₁ => Does.bind (does_silent (Silent.persistExpiredProfiles now))
    (fun _ es m₂ _ hes => ?_) (fun _ es hes => ?_) fun es hes => ?_
  · subst hes
    exact turns_pure h
  · exact hes ▸ hbut
  · exact hes ▸ hbut

theorem turns_handleEvent (h : Listened count c us) (hlt : ∀ n ∈ count, c.validFrames < n)
    (event : ReceiveEvent) : Turns count (us ++ event.payloads.map .inl) (do
      let c ← handleEvent host c event
      storing (persistExpiredProfiles (← ask host.now))
      return .inl c) m := by
  refine Does.bind (does_handleEvent host c event) (fun c' es m₁ _ hes => ?_) (fun _ es hes => ?_)
    fun es hes => ?_
  · have hc' := h.handled hlt hes
    rw [← List.append_assoc] at hc'
    simpa only [Turns, List.append_assoc] using turns_expire (m := m₁) host hc'
  · rcases hes with rfl | hes
    · rw [List.append_nil]
      exact h.read event.length_payloads
    · rw [List.append_assoc]
      exact (h.archived hes).butLast
  · rw [List.append_assoc]
    exact (h.archived hes).butLast

/-- **One turn.** -/
theorem turns_listenTurn (h : Listened count c us) (deadline : Option Nat) :
    Turns count us (listenTurn host count deadline c) m := by
  refine does_ask_bind fun stop m₁ => ?_
  split
  · exact turns_pure h
  · next hgo =>
      -- the turn goes on only below the limit of frames
      have hlt : ∀ n ∈ count, c.validFrames < n := by
        intro n hn
        rw [Bool.or_eq_true, not_or] at hgo
        have hreached := hgo.2
        rw [Counters.reached, Option.mem_def.mp hn] at hreached
        simpa using hreached
      refine Does.bind (does_pollTime host deadline) (fun timeout es m₂ _ hes => ?_)
        (fun _ _ => False.elim) fun _ => False.elim
      subst hes
      cases timeout with
      | none => exact turns_pure h
      | some timeout =>
          refine Does.bind (does_radio (reads_pollReceive timeout)) (fun r es m₃ _ hes => ?_)
            (fun e es hes => ?_) fun _ => False.elim
          · obtain ⟨_, rfl, rfl, -⟩ := hes
            cases r with
            | none => exact turns_expire host h
            | some event =>
                simpa only [Turns, List.append_assoc, List.nil_append, Option.elim_some] using
                  turns_handleEvent (m := m₃) host h hlt event
          · obtain ⟨-, ps, rfl, -, hps⟩ := hes
            exact h.read hps

/-- The part of `listen` after the radio was opened. -/
theorem does_listenOpened (limits : Limits) (fuel : Nat) : Does listening
    (fun r es => r.elim (Stored es) fun c => Listened limits.count c es)
    (fun _ es => StoredButLast es) StoredButLast (listenOpened host limits fuel) m := by
  have hzero : Listened limits.count .zero [] := ⟨rfl, .zero, fun n _ => Nat.zero_le n⟩
  refine does_ask_bind fun started m₁ => ?_
  have hturns := Does.turns (R := listening) (J := Listened limits.count)
    (P := fun r es => r.elim (Stored es) fun c => Listened limits.count c es)
    (E := fun _ es => StoredButLast es) (K := StoredButLast)
    (f := listenTurn host limits.count
      (limits.duration.map fun seconds => started + seconds * 10 ^ 9))
    (fun c us m' h => Does.mono (turns_listenTurn host h _) (fun r es hr => ?_) (fun _ _ => id)
      fun _ => id) (fun c us h => h.stored) fuel hzero m₁
  -- the scans left in memory are persisted after the last turn
  · refine Does.bind hturns (fun r es m₂ _ hes => ?_) (fun _ _ => id) fun _ => id
    cases r with
    | none => exact Does.pure (by rwa [List.append_nil])
    | some c =>
        have hc : Listened limits.count c es := hes
        refine Does.bind (does_silent Silent.persistRemaining) (fun _ us m₃ _ hus => ?_)
          (fun _ us hus => ?_) fun us hus => ?_
        · subst hus
          exact Does.pure (by simpa using hc)
        · subst hus
          simpa using hc.stored.butLast
        · subst hus
          simpa using hc.stored.butLast
  · cases r with
    | inl c' => exact hr
    | inr c' => exact hr

/-- **A run of `listen`.** -/
theorem does_listen (limits : Limits) (fuel : Nat) : Does listening
    (fun r es => r.elim (Stored es) fun c => Listened limits.count c es)
    (fun _ es => StoredButLast es) StoredButLast (listen host limits fuel) m := by
  have hnil : StoredButLast [] := Stored.butLast rfl
  refine does_ask_bind fun registered m₁ => ?_
  refine Does.bind (P := fun _ es => es = []) (E := fun _ es => es = []) (K := fun _ => False)
    (Does.lift (fun _ _ => rfl) fun _ _ => rfl) (fun _ es m₂ _ hes => ?_)
    (fun _ es hes => ?_) fun _ => False.elim
  case refine_2 => subst hes; exact hnil
  subst hes
  refine does_ask_bind fun replayStarted m₃ => ?_
  refine Does.bind (does_silent (Silent.reconcilePendingProfiles replayStarted))
    (fun _ es m₄ _ hes => ?_) (fun _ es hes => ?_) fun es hes => ?_
  case refine_2 => subst hes; exact hnil
  case refine_3 => subst hes; exact hnil
  subst hes
  refine Does.bind (does_radio reads_openHat) (fun _ es m₅ _ hes => ?_) (fun _ es hes => ?_)
    fun _ => False.elim
  · obtain ⟨_, rfl, rfl⟩ := hes
    -- letting the radio go reads nothing, so what was said before still holds
    have hdrop : ∀ {Q : List (List UInt8 ⊕ Heard) → Prop} {ts m'}, Q ts →
        Does listening (fun _ us => Q (ts ++ us)) (fun _ us => Q (ts ++ us))
          (fun us => StoredButLast (ts ++ us)) (radio (dropHat host.toBoard)) m' := by
      intro Q ts m' hQ
      refine Does.mono (does_radio reads_dropHat) (fun _ us hus => ?_) (fun _ us hus => ?_)
        fun _ => False.elim
      · obtain ⟨_, rfl, rfl⟩ := hus
        simpa using hQ
      · obtain ⟨-, _, rfl, rfl⟩ := hus
        simpa using hQ
    refine Does.ensuring (does_listenOpened host limits fuel) (fun es hes => hes)
      (fun c es m' _ hes => hdrop (Q := Listened limits.count c) hes)
      (fun _ es m' _ hes => hdrop hes) fun _ => id
  · obtain ⟨-, _, rfl, -, rfl⟩ := hes
    exact hnil

end

/-! ### Runs -/

section
variable {host : Host H} {limits : Limits} {fuel : Nat} {h : H} {s : TelemetryStore}
  {orders : Nat → Receiver.HashOrder}

/-- **What is read is archived.**  A run of `listen` that ends archives the payloads that it has
read from the radio, byte for byte and in order, and nothing else; and its counters count them.
With `--count`, the valid frames are no more than asked for. -/
theorem listen_archives {c : Counters}
    (hr : (listen host limits fuel (starting h s orders)).result = .ok (some c)) :
    ∃ ps, Extends s ps (listen host limits fuel (starting h s orders)).state.2.store ∧
      ps.map (·.payload) = payloadsRead (listen host limits fuel (starting h s orders)).state.1 ∧
      Tallies c (ps.map (·.payload)) ∧ ∀ n ∈ limits.count, c.validFrames ≤ n := by
  obtain ⟨es, ⟨hread, hext⟩, hes⟩ := (does_listen host limits fuel).of_ok hr
  have hc : Listened limits.count c es := hes
  have hstored : firsts es = (seconds es).map (·.payload) := hc.stored
  refine ⟨seconds es, hext, ?_, hstored ▸ hc.tallies, hc.within⟩
  rw [← hstored]
  exact hread.symm

/-- A radio that delivers payloads, by the clock, and a host that starts at zero and moves its clock
on by a second when it is asked. -/
def hosting (payload : Nat → List UInt8) : Host Nat where
  toBoard := { Radio.answering with
    transfer := fun outgoing h => ((.ok outgoing.length, fun i =>
      match outgoing, i with
      | 0x13 :: _, 2 => .ofNat (payload h).length
      | 0x1e :: _, i + 3 => (payload h).getD i 0
      | _, _ => Radio.answer outgoing i), h) }
  terminationFlag h := (.ok (), h)
  stopping h := (false, h)
  now h := (h, h + 10 ^ 9)
  currentUnixMs h := (h / 10 ^ 6, h)

/-- `--count 2` -/
def twoFrames : Limits := ⟨none, some 2, nofun, by simp⟩

/-- A run on a fresh database that receives the two fragments of a blank scan. -/
abbrev blankRun : Journal.Trace TelemetryStore (Machine Nat) (Fault ListenError)
    (Option Counters) :=
  listen (hosting fun h => (blankPacket 4 (h / (3 * 10 ^ 9))).payload) twoFrames 3
    (starting 0 .fresh fun _ => .stored)

theorem listen_archives_blank : ∃ ps, Extends .fresh ps blankRun.state.2.store ∧
    ps.map (·.payload) = payloadsRead blankRun.state.1 ∧
      Tallies ⟨2, 0, 0, 0, 0⟩ (ps.map (·.payload)) := by
  have hr : blankRun.result = .ok (some ⟨2, 0, 0, 0, 0⟩) := by decide +kernel
  obtain ⟨ps, hext, hpayloads, htallies, -⟩ := listen_archives hr
  exact ⟨ps, hext, hpayloads, htallies⟩

end

end Vesta.Listen
