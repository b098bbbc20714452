import Vesta.Radio.Transactions

/-!
# Radio — Polling

What one poll puts on the bus, and what the event that it returns has to do with it.  A poll that
finds an interrupt reads the IRQ bitmap, reads a packet when the bitmap reports one and no error,
clears the IRQs and enters continuous receive again; that it does also when reading the packet
failed.
-/

namespace Vesta.Radio

open Listen (RadioPacket)

/-! ### What the transfers say -/

/-- `GetIrqStatus`. -/
def irqQuery (incoming : List UInt8) : Transfer := ⟨opGetIrqStatus :: List.replicate 3 0, incoming⟩

/-- The transfers that bring a packet in. -/
inductive ReadsPacket : RadioPacket → List Transfer → Prop where
  | intro {length offset raw₀ raw₁ raw₂ : UInt8}
    {payload bufferStatus buffer packetStatus : List UInt8}
      (hstatus : bufferStatus.drop 2 = [length, offset]) (hbuffer : buffer.drop 3 = payload)
      (hlength : payload.length = length.toNat) (hraw : packetStatus.drop 2 = [raw₀, raw₁, raw₂]) :
      ReadsPacket ⟨payload, decodePacketStatus raw₀ raw₁ raw₂⟩
        [⟨opGetRxBufferStatus :: List.replicate 3 0, bufferStatus⟩,
          ⟨opReadBuffer :: offset :: List.replicate (length.toNat + 1) 0, buffer⟩,
          ⟨opGetPacketStatus :: List.replicate 4 0, packetStatus⟩]

/-- The transfers by which the radio receives again. -/
inductive Rearms : List Transfer → Prop where
  | intro (cleared entered : List UInt8) :
      Rearms [⟨[opClearIrqStatus, 0xff, 0xff], cleared⟩, ⟨opSetRx :: rxContinuous, entered⟩]

/-- The event that an IRQ bitmap stands for, and the transfers that it takes. -/
inductive Reports (irq : UInt16) : ReceiveEvent → List Transfer → Prop where
  | packet {p : RadioPacket} {ts : List Transfer} (hirq : classifyIrq irq = .packet)
      (h : ReadsPacket p ts) : Reports irq (.packet p) ts
  | headerError (hirq : classifyIrq irq = .headerError) : Reports irq (.headerError irq) []
  | crcError (hirq : classifyIrq irq = .crcError) : Reports irq (.crcError irq) []
  | radioTimeout (hirq : classifyIrq irq = .timeout) : Reports irq (.radioTimeout irq) []
  | otherIrq (hirq : classifyIrq irq = .other) : Reports irq (.otherIrq irq) []

/-- The transfers of a poll that returned an event. -/
inductive Polled : ReceiveEvent → List Transfer → Prop where
  | intro {event : ReceiveEvent} {incoming : List UInt8} {read rearm : List Transfer}
      (hread : Reports (irqQuery incoming).irq event read) (hrearm : Rearms rearm) :
      Polled event (irqQuery incoming :: (read ++ rearm))

/-- A packet is as long as the radio said, which it says in one byte. -/
theorem ReadsPacket.length_le {p : RadioPacket} {ts : List Transfer} (h : ReadsPacket p ts) :
    p.payload.length ≤ 255 := by
  obtain ⟨-, -, hlength, -⟩ := h
  rw [hlength]
  exact Nat.le_of_lt_succ (UInt8.toNat_lt _)

theorem Polled.length_le {p : RadioPacket} {ts : List Transfer} (h : Polled (.packet p) ts) :
    p.payload.length ≤ 255 := by
  obtain ⟨hread, -⟩ := h
  obtain ⟨-, hpacket⟩ := hread
  exact hpacket.length_le

/-- The payloads that were read from the buffer. -/
def payloadsRead (ts : List Transfer) : List (List UInt8) :=
  ts.filterMap fun t => if t.opcode = some opReadBuffer then some (t.incoming.drop 3) else none

@[simp] theorem payloadsRead_append (ts us : List Transfer) :
    payloadsRead (ts ++ us) = payloadsRead ts ++ payloadsRead us := List.filterMap_append

theorem OfCommands.payloadsRead {ops : List UInt8} {ts : List Transfer} (h : OfCommands ops ts)
    (hops : opReadBuffer ∉ ops) : payloadsRead ts = [] := by
  refine List.filterMap_eq_nil_iff.mpr fun t ht => ?_
  obtain ⟨op, hmem, he⟩ := h t ht
  rw [he, if_neg]
  rintro hop
  exact hops (Option.some.inj hop ▸ hmem)

theorem ReadsPacket.payloadsRead {p : RadioPacket} {ts : List Transfer} (h : ReadsPacket p ts) :
    payloadsRead ts = [p.payload] := by
  obtain ⟨-, hbuffer, -, -⟩ := h
  rw [← hbuffer]
  rfl

/-! ### Reading -/

def packetOpcodes : List UInt8 := [opGetRxBufferStatus, opReadBuffer, opGetPacketStatus]

def restartOpcodes : List UInt8 := [opClearIrqStatus, opSetRx]

section
variable {H : Type} {board : Board H} {hat : Sx1262Hat H}

theorem within_getIrqStatus {ops : List UInt8} (hmem : opGetIrqStatus ∈ ops) : Within ops
    (fun irq ts => ∃ incoming, ts = [irqQuery incoming] ∧ irq = (irqQuery incoming).irq)
    (getIrqStatus board) hat := by
  refine Within.bind (Within.readCommand hmem 2) fun bytes ts hat' hb => ?_
  obtain ⟨incoming, rfl, hbytes, hlen⟩ := hb
  obtain ⟨b₀, b₁, rfl⟩ := List.length_eq_two.mp hlen
  refine Within.lift_ok rfl (Within.lift_ok rfl (Within.pure ⟨incoming, rfl, ?_⟩))
  rw [Transfer.irq, irqQuery, ← hbytes]

/-- A packet is read in three transfers.  Whatever fails, the buffer is read once at most. -/
theorem drives_readPacket : Drives transfers ReadsPacket
    (fun ts => OfCommands packetOpcodes ts ∧ (payloadsRead ts).length ≤ 1)
    (readPacket board) hat := by
  have hstatus : Within [opGetRxBufferStatus] _ (readCommand board opGetRxBufferStatus 2) hat :=
    Within.readCommand (by decide) 2
  refine Drives.bind hstatus (fun status ts hat₁ hb => ?_) fun ts he => ?_
  · obtain ⟨⟨bufferStatus, rfl, hstatus, hlen⟩, -⟩ := hb
    obtain ⟨length, offset, rfl⟩ := List.length_eq_two.mp hlen
    refine Drives.lift_ok rfl (Drives.lift_ok rfl ?_)
    refine Drives.bind (drives_readBuffer offset length.toNat) (fun payload ts hat₂ hb => ?_)
      fun ts he => ?_
    · obtain ⟨buffer, rfl, hbuffer, hlength⟩ := hb
      have hraw : Within [opGetPacketStatus] _ (readCommand board opGetPacketStatus 3) hat₂ :=
        Within.readCommand (by decide) 3
      refine Drives.bind hraw (fun raw ts hat₃ hb => ?_) fun ts he => ?_
      · obtain ⟨⟨packetStatus, rfl, hraw, hlen⟩, -⟩ := hb
        obtain ⟨raw₀, raw₁, raw₂, rfl⟩ := List.length_eq_three.mp hlen
        refine Drives.lift_ok rfl (Drives.lift_ok rfl (Drives.lift_ok rfl (Drives.pure ?_)))
        exact .intro hstatus.symm hbuffer.symm hlength hraw.symm
      -- the status and the buffer were read, the packet status failed
      · refine ⟨?_, ?_⟩
        · refine List.forall_mem_cons.mpr ⟨⟨_, by decide, rfl⟩, List.forall_mem_cons.mpr ?_⟩
          exact ⟨⟨_, by decide, rfl⟩, he.mono (by decide)⟩
        · rw [payloadsRead_append, payloadsRead_append, he.payloadsRead (by decide)]
          exact le_rfl
    · obtain rfl | ⟨incoming, rfl⟩ := he
      · exact ⟨.singleton (by decide) rfl, Nat.zero_le 1⟩
      · refine ⟨List.forall_mem_cons.mpr ⟨⟨_, by decide, rfl⟩,
          OfCommands.singleton (by decide) rfl⟩, ?_⟩
        exact le_rfl
  · rw [he.payloadsRead (by decide)]
    exact ⟨he.mono (by decide), Nat.zero_le 1⟩

theorem within_restartReceive {ops : List UInt8} (hops : restartOpcodes ⊆ ops) :
    Within ops (fun _ ts => Rearms ts) (restartReceive board) hat := by
  refine Within.bind (Within.command rfl (hops (by decide))) fun _ ts hat' hb => ?_
  obtain ⟨cleared, rfl⟩ := hb
  refine Within.mono (Within.command rfl (hops (by decide))) (List.Subset.refl _) fun _ ts hts => ?_
  obtain ⟨entered, rfl⟩ := hts
  exact .intro cleared entered

theorem within_interrupted {ops : List UInt8} (timeout : Nat) :
    Within ops (fun _ ts => ts = []) (interrupted board timeout) hat := by
  refine Within.bind (Within.ask _) fun level ts hat' hb => ?_
  subst hb
  split
  · exact Within.pure rfl
  · refine Within.bind (Within.ask _) fun x ts hat'' hb => ?_
    subst hb
    exact Within.gpio x

end

theorem ReadsPacket.ofCommands {p : RadioPacket} {ts : List Transfer} (h : ReadsPacket p ts) :
    OfCommands packetOpcodes ts := by
  obtain ⟨-, -, -, -⟩ := h
  refine List.forall_mem_cons.mpr ⟨⟨_, by decide, rfl⟩, List.forall_mem_cons.mpr ?_⟩
  exact ⟨⟨_, by decide, rfl⟩, OfCommands.singleton (by decide) rfl⟩

/-! ### Polling -/

/-- The IRQ bitmap that the last `GetIrqStatus` brought in. -/
def lastIrq (ts : List Transfer) : Option UInt16 :=
  (ts.reverse.find? fun t => t.opcode = some opGetIrqStatus).map Transfer.irq

/-- The buffer is read only after the radio has reported a packet and no error. -/
def Guarded (ts : List Transfer) : Prop :=
  ∀ us t vs, ts = us ++ t :: vs → t.opcode = some opReadBuffer →
    ∃ irq, lastIrq us = some irq ∧ classifyIrq irq = .packet

def pollOpcodes : List UInt8 := opGetIrqStatus :: (packetOpcodes ++ restartOpcodes)

/-- What reading a packet may have put on the bus, whether it failed or not. -/
structure Touches (irq : UInt16) (ts : List Transfer) : Prop where
  ofCommands : OfCommands packetOpcodes ts
  guarded : classifyIrq irq ≠ .packet → ts = []
  once : (payloadsRead ts).length ≤ 1

/-- Nothing was read. -/
theorem Touches.nil (irq : UInt16) : Touches irq [] := ⟨.nil, fun _ => rfl, Nat.zero_le 1⟩

/-- What a poll may have put on the bus, whether it failed or not. -/
inductive PollTouches : List Transfer → Prop where
  | unanswered {ts : List Transfer} (h : OfCommands [opGetIrqStatus] ts) : PollTouches ts
  | asked {incoming : List UInt8} {read rearm : List Transfer}
      (hread : Touches (irqQuery incoming).irq read) (hrearm : OfCommands restartOpcodes rearm) :
      PollTouches (irqQuery incoming :: (read ++ rearm))

section
variable {ts us : List Transfer}

theorem lastIrq_append {irq : UInt16} (h : lastIrq us = some irq) :
    lastIrq (ts ++ us) = some irq := by
  obtain ⟨t, ht, rfl⟩ := Option.map_eq_some_iff.mp h
  rw [lastIrq, List.reverse_append, List.find?_append, ht]
  rfl

theorem lastIrq_query {ops : List UInt8} (incoming : List UInt8) (h : OfCommands ops us)
    (hops : opGetIrqStatus ∉ ops) :
    lastIrq (irqQuery incoming :: us) = some (irqQuery incoming).irq := by
  have hnone : us.reverse.find? (fun t => t.opcode = some opGetIrqStatus) = none := by
    refine List.find?_eq_none.mpr fun t ht hop => ?_
    obtain ⟨op, hmem, he⟩ := h t (List.mem_reverse.mp ht)
    rw [of_decide_eq_true hop] at he
    exact hops (Option.some.inj he ▸ hmem)
  rw [lastIrq, List.reverse_cons, List.find?_append, hnone]
  rfl

theorem Guarded.append (h : Guarded ts) (h' : Guarded us) : Guarded (ts ++ us) := by
  intro as t bs heq hop
  rcases List.append_eq_append_iff.mp heq with ⟨cs, rfl, hus⟩ | ⟨cs, rfl, hts⟩
  · obtain ⟨irq, hlast, hirq⟩ := h' cs t bs hus hop
    exact ⟨irq, lastIrq_append hlast, hirq⟩
  · cases cs with
    | nil =>
        obtain ⟨irq, hlast, -⟩ := h' [] t bs hts.symm hop
        cases hlast
    | cons c cs =>
        obtain ⟨rfl, -⟩ := List.cons.inj hts
        exact h as t cs rfl hop

/-- Without `ReadBuffer` there is nothing to guard. -/
theorem OfCommands.guarded {ops : List UInt8} (h : OfCommands ops ts) (hops : opReadBuffer ∉ ops) :
    Guarded ts := by
  rintro as t bs rfl hop
  obtain ⟨op, hmem, he⟩ := h t (by simp)
  rw [hop] at he
  exact absurd (Option.some.inj he ▸ hmem) hops

theorem PollTouches.ofCommands (h : PollTouches ts) : OfCommands pollOpcodes ts := by
  cases h with
  | unanswered h => exact h.mono (by decide)
  | asked hread hrearm =>
      refine List.forall_mem_cons.mpr ⟨⟨opGetIrqStatus, by decide, rfl⟩, ?_⟩
      exact OfCommands.append.mpr ⟨hread.ofCommands.mono (by decide), hrearm.mono (by decide)⟩

theorem PollTouches.guarded (h : PollTouches ts) : Guarded ts := by
  cases h with
  | unanswered h => exact h.guarded (by decide)
  | @asked incoming read rearm hread hrearm =>
      intro as t bs heq hop
      have hafter : OfCommands (packetOpcodes ++ restartOpcodes) (read ++ rearm) :=
        OfCommands.append.mpr ⟨hread.ofCommands.mono (by decide), hrearm.mono (by decide)⟩
      cases as with
      | nil =>
          -- the query itself does not read the buffer
          obtain ⟨rfl, -⟩ := List.cons.inj heq
          cases hop
      | cons q as =>
          obtain ⟨rfl, hrest⟩ := List.cons.inj heq
          have has : OfCommands (packetOpcodes ++ restartOpcodes) as := by
            rw [hrest] at hafter
            exact (OfCommands.append.mp hafter).1
          refine ⟨_, lastIrq_query incoming has (by decide), ?_⟩
          by_contra hirq
          rw [hread.guarded hirq, List.nil_append] at hrest
          have hmem : t ∈ rearm := hrest ▸ List.mem_append_right _ List.mem_cons_self
          obtain ⟨op, hmem, he⟩ := hrearm t hmem
          rw [hop] at he
          have hbuffer : opReadBuffer ∈ restartOpcodes := Option.some.inj he ▸ hmem
          revert hbuffer
          decide

end

/-- A poll reads the buffer once at most. -/
theorem PollTouches.once (h : PollTouches ts) : (payloadsRead ts).length ≤ 1 := by
  cases h with
  | unanswered h =>
      rw [h.payloadsRead (by decide)]
      exact Nat.zero_le 1
  | @asked incoming read rearm hread hrearm =>
      have hquery : payloadsRead [irqQuery incoming] = [] := rfl
      rw [← List.singleton_append, payloadsRead_append, payloadsRead_append, hquery,
        hrearm.payloadsRead (by decide), List.nil_append, List.append_nil]
      exact hread.once

/-- The payload of an event, if it has one. -/
def ReceiveEvent.payloads : ReceiveEvent → List (List UInt8)
  | .packet p => [p.payload]
  | .headerError _ | .crcError _ | .radioTimeout _ | .otherIrq _ => []

theorem ReceiveEvent.length_payloads (event : ReceiveEvent) : event.payloads.length ≤ 1 := by
  cases event <;> simp [payloads]

/-- A poll that returned an event has read the payload of it, and no other. -/
theorem Polled.payloadsRead {event : ReceiveEvent} {us : List Transfer} (h : Polled event us) :
    payloadsRead us = event.payloads := by
  cases h with
  | @intro incoming read rearm hread hrearm =>
      have hquery : Radio.payloadsRead [irqQuery incoming] = [] := rfl
      obtain ⟨cleared, entered⟩ := hrearm
      have hrearmed : Radio.payloadsRead [⟨[opClearIrqStatus, 0xff, 0xff], cleared⟩,
          ⟨opSetRx :: rxContinuous, entered⟩] = [] := rfl
      rw [← List.singleton_append, payloadsRead_append, payloadsRead_append, hquery, hrearmed,
        List.nil_append, List.append_nil]
      cases hread with
      | packet hirq hpacket => exact hpacket.payloadsRead
      | headerError hirq => rfl
      | crcError hirq => rfl
      | radioTimeout hirq => rfl
      | otherIrq hirq => rfl

section
variable {H : Type} {board : Board H} {hat : Sx1262Hat H}

theorem drives_eventOf (irq : UInt16) :
    Drives transfers (fun event ts => Reports irq event ts ∧ Touches irq ts) (Touches irq)
      (eventOf board irq) hat := by
  rw [eventOf]
  split
  · next h => exact Drives.pure ⟨.headerError h, .nil irq⟩
  · next h => exact Drives.pure ⟨.crcError h, .nil irq⟩
  · next h =>
      have hpacket : ∀ ts, OfCommands packetOpcodes ts → (payloadsRead ts).length ≤ 1 →
          Touches irq ts :=
        fun ts hops honce => ⟨hops, fun hne => absurd h hne, honce⟩
      refine Drives.bind drives_readPacket (fun p ts hat' hp => Drives.pure ?_)
        fun ts he => hpacket ts he.1 he.2
      rw [List.append_nil]
      refine ⟨.packet h hp, hpacket ts hp.ofCommands ?_⟩
      rw [hp.payloadsRead]
      exact le_rfl
  · next h => exact Drives.pure ⟨.radioTimeout h, .nil irq⟩
  · next h => exact Drives.pure ⟨.otherIrq h, .nil irq⟩

/-- **One poll.**  Without an interrupt it does nothing; with an event it did exactly what the event
takes, and the radio receives again. -/
theorem drives_pollReceive (timeout : Nat) : Drives transfers
    (fun r ts => PollTouches ts ∧ match r with
      | none => ts = []
      | some event => Polled event ts)
    PollTouches (pollReceive board timeout) hat := by
  have hinterrupted : Within [] _ (interrupted board timeout) hat := within_interrupted timeout
  refine Drives.bind hinterrupted (fun b ts hat₁ hb => ?_) fun ts he => ?_
  · obtain ⟨rfl, -⟩ := hb
    cases b with
    | false => exact Drives.pure ⟨.unanswered .nil, rfl⟩
    | true =>
        refine Drives.bind (within_getIrqStatus List.mem_cons_self) (fun irq ts hat₂ hb => ?_)
          fun ts he => .unanswered he
        obtain ⟨⟨incoming, rfl, rfl⟩, -⟩ := hb
        refine Drives.bind (P := fun r ts => Touches (irqQuery incoming).irq ts ∧
            ∀ event, r = .ok event → Reports (irqQuery incoming).irq event ts)
          (E := fun _ => False) (Drives.attempt (Drives.mono (drives_eventOf _)
            (fun event ts h => ⟨h.2, fun event' he => Except.ok.inj he ▸ h.1⟩)
            fun ts h _ => ⟨h, nofun⟩)) (fun eventResult read hat₃ hb => ?_) fun _ => False.elim
        obtain ⟨htouches, hreports⟩ := hb
        refine Drives.bind (P := fun r ts => OfCommands restartOpcodes ts ∧
            ∀ u : Unit, r = .ok u → Rearms ts)
          (E := fun _ => False) (Drives.attempt (Drives.mono
            (within_restartReceive (List.Subset.refl _)) (fun u ts h => ⟨h.2, fun _ _ => h.1⟩)
            fun ts h _ => ⟨h, nofun⟩)) (fun restartResult rearm hat₄ hb => ?_) fun _ => False.elim
        obtain ⟨hrestart, hrearms⟩ := hb
        have hall : PollTouches (irqQuery incoming :: (read ++ rearm)) := .asked htouches hrestart
        -- an error of the event comes before one of the restart
        cases eventResult with
        | error e => exact Drives.raise_error (by simpa using hall)
        | ok event =>
            refine Drives.lift_ok rfl ?_
            cases restartResult with
            | error e => exact Drives.raise_error (by simpa using hall)
            | ok u =>
                refine Drives.lift_ok rfl (Drives.pure ?_)
                simp only [List.append_nil, List.singleton_append]
                exact ⟨hall, .intro (hreports event rfl) (hrearms u rfl)⟩
  · exact .unanswered (he.mono (List.nil_subset _))

end

end Vesta.Radio
