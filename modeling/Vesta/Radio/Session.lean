import Vesta.Radio.Opening

/-!
# Radio — Session

The life of a controller: it is opened, polled any number of times with any result, and dropped,
while the board does what it likes.  Whatever happens, the radio is only ever made to receive
(`Session.receive_only`), the buffer is read only after the radio reported a packet without an error
(`Session.reads_guarded`), and as long as every poll succeeds the radio keeps receiving
(`Session.keeps_receiving`).
-/

namespace Vesta.Radio

open Listen (RadioPacket)

/-! ### Logs -/

/-- The transfers in a log. -/
def transfersOf (log : List Action) : List Transfer :=
  log.filterMap fun
    | .drive _ _ => none
    | .exchange t => some t

/-- The levels of the lines that the driver sets, where it has set them. -/
structure Lines where
  rfRx : Option Level
  reset : Option Level
  nss : Option Level
deriving DecidableEq

namespace Lines

def unset : Lines := ⟨none, none, none⟩

/-- Receiving, and no chip selected. -/
def resting : Lines := ⟨some .high, some .high, some .high⟩

/-- Receiving, and the radio selected. -/
def selected : Lines := ⟨some .high, some .high, some .low⟩

def after (lines : Lines) : Action → Lines
  | .drive .rfRx level => { lines with rfRx := some level }
  | .drive .reset level => { lines with reset := some level }
  | .drive .nss level => { lines with nss := some level }
  | .exchange _ => lines

end Lines

/-- The lines after what was logged. -/
def linesAfter (log : List Action) : Lines := log.foldl Lines.after .unset

/-- Every transfer was made while the radio was selected. -/
def Selects (log : List Action) : Prop :=
  ∀ es t fs, log = es ++ .exchange t :: fs → linesAfter es = .selected

/-! ### Sessions -/

inductive Phase where
  | unclaimed
  /-- Open, and whether every poll succeeded. -/
  | live (healthy : Bool)
  | closed
deriving DecidableEq

variable {H : Type}

/-- The controllers of a board, and how they come about. -/
inductive Session (board : Board H) : Phase → Sx1262Hat H → Prop where
  | start (h : H) : Session board .unclaimed (.unclaimed h)
  | elapsed {p : Phase} {hat : Sx1262Hat H} (h : Session board p hat) (outside : H) :
      Session board p { hat with outside }
  | opened {hat : Sx1262Hat H} (h : Session board .unclaimed hat)
      (hr : (openHat board hat).result = .ok ()) :
        Session board (.live true) (openHat board hat).state
  | refused {hat : Sx1262Hat H} {e : Fault RadioError} (h : Session board .unclaimed hat)
      (hr : (openHat board hat).result = .error e) : Session board .closed (openHat board hat).state
  | polled {hat : Sx1262Hat H} {healthy : Bool} {timeout : Nat} {event : Option ReceiveEvent}
      (h : Session board (.live healthy) hat)
      (hr : (pollReceive board timeout hat).result = .ok event) :
      Session board (.live healthy) (pollReceive board timeout hat).state
  | failed {hat : Sx1262Hat H} {healthy : Bool} {timeout : Nat} {e : Fault RadioError}
      (h : Session board (.live healthy) hat)
      (hr : (pollReceive board timeout hat).result = .error e) :
      Session board (.live false) (pollReceive board timeout hat).state
  | dropped {hat : Sx1262Hat H} {healthy : Bool} (h : Session board (.live healthy) hat) :
      Session board .closed (dropHat board hat).state

def sessionOpcodes : List UInt8 := openOpcodes ++ pollOpcodes

/-- The radio was made to receive last. -/
def Armed (ts : List Transfer) : Prop := ∃ us rearm, ts = us ++ rearm ∧ Rearms rearm

/-- The transfers of an open controller. -/
structure Transfers (healthy : Bool) (ts : List Transfer) : Prop where
  ofCommands : OfCommands sessionOpcodes ts
  guarded : Guarded ts
  armed : healthy = true → Armed ts

/-- What a session logs. -/
inductive SessionLog : Phase → List Action → Prop where
  | unclaimed : SessionLog .unclaimed []
  | live {healthy : Bool} {ts : List Transfer} (h : Transfers healthy ts) :
      SessionLog (.live healthy) (claimActions ++ (resetActions ++ framed ts))
  | refused {es : List Action} (h : es <+: claimActions) : SessionLog .closed es
  | closed {ts : List Transfer} (h : Transfers false ts) :
      SessionLog .closed (claimActions ++ (resetActions ++ (framed ts ++ closeActions)))

/-! ### What a session logs -/

theorem Polled.armed {event : ReceiveEvent} {ts : List Transfer} (h : Polled event ts) :
    Armed ts := by
  obtain ⟨-, hrearm⟩ := h
  exact ⟨_, _, (List.cons_append ..).symm, hrearm⟩

theorem Opened.armed {ts : List Transfer} (h : Opened ts) : Armed ts := by
  cases h with
  | @intro status configure readback rearm hstatus hconfigure hreadback hrearm =>
      refine ⟨⟨[opGetStatus, 0x00], status⟩ :: (configure ++ readback), rearm, ?_, hrearm⟩
      rw [List.cons_append, List.append_assoc]

theorem Armed.append {ts us : List Transfer} (h : Armed us) : Armed (ts ++ us) := by
  obtain ⟨vs, rearm, rfl, hrearm⟩ := h
  exact ⟨ts ++ vs, rearm, (List.append_assoc ..).symm, hrearm⟩

namespace Transfers

variable {healthy : Bool} {ts us : List Transfer}

theorem unhealthy (h : Transfers healthy ts) : Transfers false ts :=
  ⟨h.ofCommands, h.guarded, nofun⟩

theorem of_open (hops : OfCommands openOpcodes ts) (h : healthy = true → Armed ts) :
    Transfers healthy ts :=
  ⟨hops.mono (List.subset_append_left _ _), hops.guarded (by decide), h⟩

/-- A poll, whatever came of it. -/
theorem poll (h : Transfers healthy ts) (hp : PollTouches us)
    (harmed : healthy = true → Armed (ts ++ us)) : Transfers healthy (ts ++ us) where
  ofCommands := OfCommands.append.mpr ⟨h.ofCommands,
    hp.ofCommands.mono (List.subset_append_right _ _)⟩
  guarded := h.guarded.append hp.guarded
  armed := harmed

theorem standby (h : Transfers healthy ts)
    (hus : us = [] ∨ ∃ incoming, us = [Radio.standby incoming]) :
    Transfers false (ts ++ us) := by
  have hops : OfCommands openOpcodes us := by
    obtain rfl | ⟨incoming, rfl⟩ := hus
    · exact .nil
    · exact .singleton (c := opSetStandby) (by decide) rfl
  exact ⟨OfCommands.append.mpr ⟨h.ofCommands, hops.mono (List.subset_append_left _ _)⟩,
    h.guarded.append (hops.guarded (by decide)), nofun⟩

end Transfers

section
variable {board : Board H} {p : Phase} {hat : Sx1262Hat H}

theorem dropHat_ok : (dropHat board hat).result = .ok () := by
  cases hr : (dropHat board hat).result with
  | ok u => rfl
  | error e =>
      obtain ⟨es, -, -, hf⟩ := drives_dropHat.of_error hr
      exact hf.elim

theorem dropHat_log : ∃ ts, (dropHat board hat).state.log = hat.log ++ (framed ts ++ closeActions) ∧
    (ts = [] ∨ ∃ incoming, ts = [standby incoming]) := by
  obtain ⟨_, ⟨hlog, -⟩, ts, rfl, hts⟩ := drives_dropHat.of_ok (@dropHat_ok H board hat)
  exact ⟨ts, hlog, hts⟩

theorem Session.log (h : Session board p hat) : SessionLog p hat.log := by
  induction h with
  | start h => exact .unclaimed
  | elapsed h outside ih => exact ih
  | opened h hr ih =>
      obtain ⟨es, ⟨hlog, -⟩, ts, rfl, hopened, hops⟩ := drives_openHat.of_ok hr
      generalize hs : Sx1262Hat.log _ = log at ih hlog
      -- the log of an unclaimed radio is empty
      cases ih
      rw [hlog]
      exact .live (.of_open hops fun _ => hopened.armed)
  | refused h hr ih =>
      obtain ⟨es, ⟨hlog, -⟩, -, hes⟩ := drives_openHat.of_error hr
      generalize hs : Sx1262Hat.log _ = log at ih hlog
      cases ih
      rw [hlog]
      rcases hes with hprefix | ⟨ts, rfl, hops⟩
      · exact .refused hprefix
      · exact .closed (.of_open hops nofun)
  | @polled hat healthy timeout event h hr ih =>
      obtain ⟨us, ⟨hlog, -⟩, htouches, hevent⟩ := (drives_pollReceive timeout).of_ok hr
      generalize hs : hat.log = log at ih hlog
      cases ih with
      | @live _ ts ht =>
          have hshape : (pollReceive board timeout hat).state.log =
              claimActions ++ (resetActions ++ framed (ts ++ us)) := by
            rw [hlog, framed_append]
            simp only [List.append_assoc]
            rfl
          rw [hshape]
          -- a poll without an event leaves the radio armed as it was
          refine .live (ht.poll htouches fun hh => ?_)
          cases event with
          | none =>
              obtain rfl : us = [] := hevent
              rw [List.append_nil]
              exact ht.armed hh
          | some event => exact (Polled.armed hevent).append
  | @failed hat healthy timeout e h hr ih =>
      obtain ⟨us, ⟨hlog, -⟩, -, htouches⟩ := (drives_pollReceive timeout).of_error hr
      generalize hs : hat.log = log at ih hlog
      cases ih with
      | @live _ ts ht =>
          have hshape : (pollReceive board timeout hat).state.log =
              claimActions ++ (resetActions ++ framed (ts ++ us)) := by
            rw [hlog, framed_append]
            simp only [List.append_assoc]
            rfl
          rw [hshape]
          -- a failed poll promises nothing about the next
          exact .live (ht.unhealthy.poll htouches nofun)
  | @dropped hat healthy h ih =>
      obtain ⟨us, hlog, hus⟩ := @dropHat_log H board hat
      generalize hs : hat.log = log at ih hlog
      cases ih with
      | @live _ ts ht =>
          have hshape : (dropHat board hat).state.log =
              claimActions ++ (resetActions ++ (framed (ts ++ us) ++ closeActions)) := by
            rw [hlog, framed_append]
            simp only [List.append_assoc]
          rw [hshape]
          exact .closed (ht.standby hus)

theorem Session.initialized {healthy : Bool} (h : Session board (.live healthy) hat) :
    hat.initialized = true := by
  generalize hp : Phase.live healthy = p at h
  induction h generalizing healthy with
  | start h => cases hp
  | elapsed h outside ih => exact ih hp
  | opened h hr ih => exact openHat_initialized hr
  | refused h hr ih => cases hp
  | @polled hat _ timeout event h hr ih =>
      obtain ⟨us, ⟨-, hinit⟩, -⟩ := (drives_pollReceive timeout).of_ok hr
      exact hinit (ih rfl)
  | @failed hat _ timeout e h hr ih =>
      obtain ⟨us, ⟨-, hinit⟩, -⟩ := (drives_pollReceive timeout).of_error hr
      exact hinit (ih rfl)
  | dropped h ih => cases hp

end

/-! ### Transfers and lines of a log -/

section
variable {es fs : List Action} {ts : List Transfer} {lines : Lines}

theorem transfersOf_append : transfersOf (es ++ fs) = transfersOf es ++ transfersOf fs :=
  List.filterMap_append

theorem transfersOf_framed (ts : List Transfer) : transfersOf (framed ts) = ts := by
  induction ts with
  | nil => rfl
  | cons t ts ih =>
      rw [framed_cons, transfersOf_append, ih]
      rfl

/-- Claiming the lines transfers nothing. -/
theorem transfersOf_claim (h : es <+: claimActions) : transfersOf es = [] := by
  obtain ⟨rest, he⟩ := h
  have hclaim : transfersOf claimActions = [] := rfl
  rw [← he, transfersOf_append] at hclaim
  exact (List.append_eq_nil_iff.mp hclaim).1

theorem mem_transfersOf {t : Transfer} : t ∈ transfersOf es ↔ .exchange t ∈ es := by
  rw [transfersOf, List.mem_filterMap]
  constructor
  · rintro ⟨a, ha, he⟩
    cases a with
    | drive pin level => cases he
    | exchange u =>
        obtain rfl := Option.some.inj he
        exact ha
  · intro h
    exact ⟨_, h, rfl⟩

/-- Transfers come and go between resting lines. -/
theorem foldl_framed (ts : List Transfer) :
    (framed ts).foldl Lines.after .resting = .resting := by
  induction ts with
  | nil => rfl
  | cons t ts ih =>
      rw [framed_cons, List.foldl_append]
      exact ih

theorem linesAfter_closed (ts : List Transfer) :
    linesAfter (claimActions ++ (resetActions ++ (framed ts ++ closeActions))) = .resting := by
  rw [linesAfter, List.foldl_append, List.foldl_append, List.foldl_append]
  show closeActions.foldl Lines.after ((framed ts).foldl Lines.after .resting) = .resting
  rw [foldl_framed]
  rfl

/-- From some lines on, every transfer is made while the radio is selected. -/
def SelectsFrom (lines : Lines) (es : List Action) : Prop :=
  ∀ as t bs, es = as ++ .exchange t :: bs → as.foldl Lines.after lines = .selected

theorem SelectsFrom.append (h : SelectsFrom lines es)
    (h' : SelectsFrom (es.foldl Lines.after lines) fs) : SelectsFrom lines (es ++ fs) := by
  intro as t bs heq
  rcases List.append_eq_append_iff.mp heq with ⟨cs, rfl, hfs⟩ | ⟨cs, rfl, hes⟩
  · rw [List.foldl_append]
    exact h' cs t bs hfs
  · cases cs with
    | nil =>
        rw [List.append_nil] at h'
        exact h' [] t bs hes.symm
    | cons c cs =>
        obtain ⟨rfl, -⟩ := List.cons.inj hes
        exact h as t cs rfl

theorem selectsFrom_of_transfersOf (h : transfersOf es = []) : SelectsFrom lines es := by
  rintro as t bs rfl
  have hmem : t ∈ transfersOf (as ++ .exchange t :: bs) :=
    mem_transfersOf.mpr (List.mem_append_right _ List.mem_cons_self)
  rw [h] at hmem
  cases hmem

theorem selectsFrom_framed (ts : List Transfer) : SelectsFrom .resting (framed ts) := by
  induction ts with
  | nil => exact selectsFrom_of_transfersOf rfl
  | cons t ts ih =>
      rw [framed_cons]
      refine SelectsFrom.append ?_ ih
      intro as u bs heq
      match as, heq with
      | [a], heq =>
          obtain ⟨rfl, -⟩ := List.cons.inj heq
          rfl
      | [], heq => cases heq
      | [_, _], heq => cases heq
      | _ :: _ :: _ :: _, heq =>
          simp [framed, Transfer.framed] at heq

end

/-! ### A radio that answers -/

/-- The bytes that come in from a radio that has just received three bytes. -/
def answer : List UInt8 → Nat → UInt8
  | 0x11 :: _, 2 => 0x01
  | 0x12 :: _, 3 => 0x02
  | 0x13 :: _, 2 => 0x03
  | 0x14 :: _, 2 => 0x50
  | 0x14 :: _, 3 => 0x28
  | 0x14 :: _, 4 => 0x52
  | 0x1d :: 0x07 :: 0x40 :: _, 4 => 0x14
  | 0x1d :: 0x07 :: 0x40 :: _, 5 => 0x24
  | 0x1e :: _, 3 => 0x56
  | 0x1e :: _, 4 => 0x53
  | _, 1 => 0x22
  | _, _ => 0x00

/-- A board with such a radio.  Its state is its clock. -/
def answering : Board Nat where
  instant := id
  sleep d h := h + d
  openGpio h := (.ok (), h)
  claimOutput _ h := (.ok (), h)
  claimInputs h := (.ok (), h)
  openSpi h := (.ok (), h)
  setPin _ _ h := h
  readBusy h := (.low, h)
  readDio1 h := (.high, h)
  pollInterrupt _ _ h := (.ok true, h)
  setInterrupt h := (.ok (), h)
  transfer outgoing h := ((.ok outgoing.length, answer outgoing), h)
  instant_readBusy _ := le_rfl
  instant_sleep _ _ := le_rfl

/-- The controller of that board, opened. -/
def answeringOpened : Sx1262Hat Nat := (openHat answering (.unclaimed 0)).state

/-- The controller of that board, opened and polled once. -/
def answeringPolled : Sx1262Hat Nat := (pollReceive answering 0 answeringOpened).state

/-- The payload of the packet that a poll returned. -/
def payloadOf : Except (Fault RadioError) (Option ReceiveEvent) → Option (List UInt8)
  | .ok (some (.packet packet)) => some packet.payload
  | _ => none

theorem exists_of_payloadOf {r : Except (Fault RadioError) (Option ReceiveEvent)}
    {payload : List UInt8}
    (h : payloadOf r = some payload) : ∃ packet, r = .ok (some (.packet packet)) := by
  unfold payloadOf at h
  split at h
  · exact ⟨_, rfl⟩
  · cases h

/-- Opening succeeds, the poll gives a packet and reads the buffer as the twenty-fifth transfer, and
BUSY is low afterwards. -/
theorem answering_runs : (openHat answering (.unclaimed 0)).result = .ok () ∧
    payloadOf (pollReceive answering 0 answeringOpened).result = some [0x56, 0x53, 0x00] ∧
    ((transfersOf answeringPolled.log)[24]?.bind fun t => t.opcode) = some opReadBuffer ∧
    (waitBusyLow answering answeringPolled).result = .ok () := by decide +kernel

theorem session_answeringOpened : Session answering (.live true) answeringOpened :=
  .opened (.start 0) answering_runs.1

theorem session_answeringPolled : Session answering (.live true) answeringPolled := by
  obtain ⟨packet, hr⟩ := exists_of_payloadOf answering_runs.2.1
  exact .polled session_answeringOpened hr

/-! ### What holds of every session -/

/-- `SetTx`, `SetTxContinuousWave`, `SetTxInfinitePreamble`, `WriteBuffer`, `SetTxParams` and
`SetPaConfig` of the radio. -/
def transmitOpcodes : List UInt8 := [0x83, 0xd1, 0xd2, 0x0e, 0x8e, 0x95]

section
variable {board : Board H} {p : Phase} {hat : Sx1262Hat H}

theorem SessionLog.transfers {log : List Action} (h : SessionLog p log) :
    OfCommands sessionOpcodes (transfersOf log) ∧ Guarded (transfersOf log) := by
  have hnone : OfCommands sessionOpcodes [] ∧ Guarded [] :=
    ⟨.nil, (OfCommands.nil : OfCommands [] []).guarded List.not_mem_nil⟩
  cases h with
  | unclaimed => exact hnone
  | @live healthy ts ht =>
      rw [transfersOf_append, transfersOf_append, transfersOf_framed]
      exact ⟨ht.ofCommands, ht.guarded⟩
  | refused hes =>
      rw [transfersOf_claim hes]
      exact hnone
  | @closed ts ht =>
      rw [transfersOf_append, transfersOf_append, transfersOf_append, transfersOf_framed]
      show OfCommands sessionOpcodes (ts ++ []) ∧ Guarded (ts ++ [])
      rw [List.append_nil]
      exact ⟨ht.ofCommands, ht.guarded⟩

theorem SessionLog.selects {log : List Action} (h : SessionLog p log) : Selects log := by
  -- nothing is transferred before the lines rest, or after
  have hstart : SelectsFrom .unset (claimActions ++ resetActions) := selectsFrom_of_transfersOf rfl
  have hclose : SelectsFrom .resting closeActions := selectsFrom_of_transfersOf rfl
  cases h with
  | unclaimed => exact selectsFrom_of_transfersOf rfl
  | @live healthy ts ht =>
      rw [← List.append_assoc]
      exact hstart.append (selectsFrom_framed ts)
  | refused hes =>
      rintro as t bs rfl
      have hmem : Action.exchange t ∈ claimActions :=
        hes.subset (List.mem_append_right _ List.mem_cons_self)
      revert hmem
      simp [claimActions]
  | @closed ts ht =>
      rw [← List.append_assoc]
      refine hstart.append ((selectsFrom_framed ts).append ?_)
      show SelectsFrom ((framed ts).foldl Lines.after .resting) closeActions
      rw [foldl_framed]
      exact hclose

theorem SessionLog.rfRx_high {log : List Action} (h : SessionLog p log) :
    .drive .rfRx .low ∉ log := by
  have hframed : ∀ ts : List Transfer, Action.drive .rfRx .low ∉ framed ts := by
    intro ts hmem
    obtain ⟨t, -, ht⟩ := List.mem_flatMap.mp hmem
    simp [Transfer.framed] at ht
  cases h with
  | unclaimed => exact List.not_mem_nil
  | @live healthy ts ht => simp [claimActions, resetActions, hframed]
  | refused hes => exact fun hmem => absurd (hes.subset hmem) (by decide)
  | @closed ts ht => simp [claimActions, resetActions, closeActions, hframed]

theorem SessionLog.lines {log : List Action} (h : SessionLog .closed log) :
    (linesAfter log).rfRx ≠ some .low ∧ (linesAfter log).reset ≠ some .low ∧
      (linesAfter log).nss ≠ some .low := by
  cases h with
  | refused hes =>
      obtain rfl | rfl | rfl | rfl : log = [] ∨ log = claimActions.take 1 ∨
          log = claimActions.take 2 ∨ log = claimActions := by
        have hinits := (List.mem_inits _ _).mpr hes
        simpa [claimActions, List.inits] using hinits
      all_goals decide
  | @closed ts ht =>
      rw [linesAfter_closed]
      decide

/-- **Receive only.**  Whatever the board does, in every session: no transfer is of a transmit
command, and each is made with the radio selected, out of reset and switched to receive.  The switch
is never driven low, and a controller that is gone has left no line low. -/
theorem Session.receive_only (h : Session board p hat) :
    (∀ t, .exchange t ∈ hat.log →
        ∃ op ∈ sessionOpcodes, t.opcode = some op ∧ op ∉ transmitOpcodes) ∧
      Selects hat.log ∧ .drive .rfRx .low ∉ hat.log ∧
      (p = .closed → (linesAfter hat.log).rfRx ≠ some .low ∧
        (linesAfter hat.log).reset ≠ some .low ∧ (linesAfter hat.log).nss ≠ some .low) := by
  refine ⟨fun t ht => ?_, h.log.selects, h.log.rfRx_high, ?_⟩
  · obtain ⟨op, hop, he⟩ := h.log.transfers.1 t (mem_transfersOf.mpr ht)
    have hdisjoint : sessionOpcodes.all (· ∉ transmitOpcodes) := by decide
    exact ⟨op, hop, he, of_decide_eq_true (List.all_eq_true.mp hdisjoint op hop)⟩
  · rintro rfl
    exact h.log.lines

theorem receive_only_answering :
    (∀ t, .exchange t ∈ answeringPolled.log → ∃ op ∈ sessionOpcodes, t.opcode = some op ∧
        op ∉ transmitOpcodes) ∧
      Selects answeringPolled.log ∧ .drive .rfRx .low ∉ answeringPolled.log := by
  obtain ⟨htransfers, hselects, hswitch, -⟩ := session_answeringPolled.receive_only
  exact ⟨htransfers, hselects, hswitch⟩

/-- The flags of a bitmap that reports a packet. -/
theorem classifyIrq_packet {irq : UInt16} (h : classifyIrq irq = .packet) :
    irq &&& irqHeaderError = 0 ∧ irq &&& irqCrcError = 0 ∧ irq &&& irqRxDone ≠ 0 := by
  unfold classifyIrq at h
  split at h
  · cases h
  · split at h
    · cases h
    · split at h
      · next hheader hcrc hdone => exact ⟨not_not.mp hheader, not_not.mp hcrc, hdone⟩
      · split at h
        · cases h
        · cases h

/-- **Corrupt bytes are never read.**  In every session, whenever the buffer is read, the IRQ bitmap
that was read last reports a packet, and neither a header error nor a CRC error. -/
theorem Session.reads_guarded (h : Session board p hat) {us vs : List Transfer} {t : Transfer}
    (heq : transfersOf hat.log = us ++ t :: vs) (hop : t.opcode = some opReadBuffer) :
    ∃ irq, lastIrq us = some irq ∧ irq &&& irqHeaderError = 0 ∧ irq &&& irqCrcError = 0 ∧
      irq &&& irqRxDone ≠ 0 := by
  obtain ⟨irq, hlast, hirq⟩ := h.log.transfers.2 us t vs heq hop
  exact ⟨irq, hlast, classifyIrq_packet hirq⟩

/-- The poll of the answering radio reads the buffer as its twenty-fifth transfer. -/
theorem reads_guarded_answering : ∃ irq,
    lastIrq ((transfersOf answeringPolled.log).take 24) = some irq ∧ irq &&& irqHeaderError = 0 ∧
      irq &&& irqCrcError = 0 ∧ irq &&& irqRxDone ≠ 0 := by
  obtain ⟨t, ht, hop⟩ := Option.bind_eq_some_iff.mp answering_runs.2.2.1
  obtain ⟨hlt, rfl⟩ := List.getElem?_eq_some_iff.mp ht
  have heq : transfersOf answeringPolled.log = (transfersOf answeringPolled.log).take 24 ++
      (transfersOf answeringPolled.log)[24] :: (transfersOf answeringPolled.log).drop 25 := by
    rw [List.getElem_cons_drop, List.take_append_drop]
  exact session_answeringPolled.reads_guarded heq hop

/-- **The radio keeps receiving.**  After it was opened, and as long as every poll succeeds, the
last that the radio was told is to clear its IRQs and to receive continuously. -/
theorem Session.keeps_receiving (h : Session board (.live true) hat) :
    ∃ us cleared entered, transfersOf hat.log = us ++
      [⟨[opClearIrqStatus, 0xff, 0xff], cleared⟩, ⟨opSetRx :: rxContinuous, entered⟩] := by
  have hlog := h.log
  generalize hat.log = log at hlog
  cases hlog with
  | @live _ ts ht =>
      obtain ⟨us, rearm, rfl, hrearm⟩ := ht.armed rfl
      obtain ⟨cleared, entered⟩ := hrearm
      refine ⟨us, cleared, entered, ?_⟩
      rw [transfersOf_append, transfersOf_append, transfersOf_framed]
      rfl

theorem keeps_receiving_answering : ∃ us cleared entered, transfersOf answeringPolled.log = us ++
    [⟨[opClearIrqStatus, 0xff, 0xff], cleared⟩, ⟨opSetRx :: rxContinuous, entered⟩] :=
  session_answeringPolled.keeps_receiving

end

/-! ### One packet -/

/-- A product that fits its type is exact. -/
theorem toInt_mul_of_fits {a b : Int16} {x y : Int} (ha : a.toInt = x) (hb : b.toInt = y)
    (hlow : -2 ^ 15 ≤ x * y) (hhigh : x * y < 2 ^ 15) : (a * b).toInt = x * y := by
  rw [Int16.toInt_mul, ha, hb]
  exact Int.bmod_eq_of_le (by simpa using hlow) (by simpa using hhigh)

/-- Half a decibel for each unit below zero. -/
theorem toInt_rssi (raw : UInt8) : (-Int16.ofNat raw.toNat * 50).toInt = -raw.toNat * 50 := by
  have hlt := raw.toNat_lt
  have hneg : (-Int16.ofNat raw.toNat).toInt = -raw.toNat := by
    rw [Int16.toInt_neg, Int16.toInt_ofNat_of_lt (by omega)]
    exact Int.bmod_eq_of_le (by omega) (by omega)
  exact toInt_mul_of_fits hneg rfl (by omega) (by omega)

/-- A quarter of a decibel for each unit. -/
theorem toInt_snr (raw : UInt8) :
    (Int16.ofInt raw.toInt8.toInt * 25).toInt = raw.toInt8.toInt * 25 := by
  have hlow := raw.toInt8.le_toInt
  have hhigh := raw.toInt8.toInt_lt
  exact toInt_mul_of_fits (Int16.toInt_ofInt_of_le (by omega) (by omega)) rfl (by omega) (by omega)

section
variable {board : Board H} {hat : Sx1262Hat H}

theorem transfersOf_of_after {ts : List Transfer} {hat' : Sx1262Hat H}
    (h : (transfers (H := H)).After hat ts hat') :
    transfersOf hat'.log = transfersOf hat.log ++ ts := by
  rw [h.1, transfersOf_append]
  exact congrArg _ (transfersOf_framed ts)

/-- **One packet.**  A poll that returns a packet made six transfers.  The IRQ bitmap reports a
packet and no error; the payload is what the buffer gave, as long as the radio said, which is at
most 255 bytes; the measurements are exact; and the radio receives again. -/
theorem pollReceive_packet {timeout : Nat} {packet : RadioPacket}
    (h : (pollReceive board timeout hat).result = .ok (some (.packet packet))) :
    ∃ (irq bufferStatus buffer packetStatus cleared entered : List UInt8)
      (length offset raw₀ raw₁ raw₂ : UInt8),
      transfersOf (pollReceive board timeout hat).state.log = transfersOf hat.log ++
        [⟨opGetIrqStatus :: List.replicate 3 0, irq⟩,
          ⟨opGetRxBufferStatus :: List.replicate 3 0, bufferStatus⟩,
          ⟨opReadBuffer :: offset :: List.replicate (length.toNat + 1) 0, buffer⟩,
          ⟨opGetPacketStatus :: List.replicate 4 0, packetStatus⟩,
          ⟨[opClearIrqStatus, 0xff, 0xff], cleared⟩, ⟨opSetRx :: rxContinuous, entered⟩] ∧
      classifyIrq (u16OfBe (irq.drop 2)) = .packet ∧ bufferStatus.drop 2 = [length, offset] ∧
      packet.payload = buffer.drop 3 ∧ packet.payload.length = length.toNat ∧
      packet.payload.length ≤ 255 ∧ packetStatus.drop 2 = [raw₀, raw₁, raw₂] ∧
      packet.metadata.packetRssiCentiDbm.toInt = -raw₀.toNat * 50 ∧
      packet.metadata.snrCentiDb.toInt = raw₁.toInt8.toInt * 25 ∧
      packet.metadata.signalRssiCentiDbm.toInt = -raw₂.toNat * 50 := by
  obtain ⟨ts, hafter, -, hpolled⟩ := (drives_pollReceive timeout).of_ok h
  have hts := transfersOf_of_after hafter
  have hle := Polled.length_le hpolled
  cases hpolled with
  | @intro irq read rearm hread hrearm =>
      cases hread with
      | packet hirq hpacket =>
          obtain ⟨hstatus, hbuffer, hlength, hraw⟩ := hpacket
          obtain ⟨cleared, entered⟩ := hrearm
          refine ⟨irq, _, _, _, cleared, entered, _, _, _, _, _, hts, hirq, hstatus, hbuffer.symm,
            hlength, hle, hraw, ?_, ?_, ?_⟩
          · exact toInt_rssi _
          · exact toInt_snr _
          · exact toInt_rssi _

theorem pollReceive_packet_answering : ∃ packet : RadioPacket,
    (pollReceive answering 0 answeringOpened).result = .ok (some (.packet packet)) ∧
      packet.payload.length ≤ 255 := by
  obtain ⟨packet, hr⟩ := exists_of_payloadOf answering_runs.2.1
  obtain ⟨-, -, -, -, -, -, -, -, -, -, -, -, -, -, -, -, hle, -⟩ := pollReceive_packet hr
  exact ⟨packet, hr, hle⟩

/-- **Opened.**  A controller that opens has been reset into standby, and configured exactly so; the
radio reported that it is in LoRa mode with the private sync word, and no error; and it receives. -/
theorem openHat_opened (h : (openHat board hat).result = .ok ()) :
    ∃ ts, transfersOf (openHat board hat).state.log = transfersOf hat.log ++ ts ∧ Opened ts := by
  obtain ⟨_, ⟨hlog, -⟩, ts, rfl, hopened, -⟩ := drives_openHat.of_ok h
  refine ⟨ts, ?_, hopened⟩
  rw [hlog, transfersOf_append, transfersOf_append, transfersOf_append, transfersOf_framed]
  rfl

theorem openHat_opened_answering : ∃ ts, transfersOf answeringOpened.log =
    transfersOf (Sx1262Hat.unclaimed 0).log ++ ts ∧ Opened ts :=
  openHat_opened answering_runs.1

end

/-- **No panic.**  Whatever the board answers, opening, polling and letting go do not panic, and
letting go does not fail. -/
theorem driver_never_panics (board : Board H) (hat : Sx1262Hat H) (timeout : Nat) :
    (openHat board hat).result ≠ .error .panicked ∧
      (pollReceive board timeout hat).result ≠ .error .panicked ∧
      (dropHat board hat).result = .ok () := by
  refine ⟨fun hr => ?_, fun hr => ?_, dropHat_ok⟩
  · obtain ⟨-, -, hne, -⟩ := drives_openHat.of_error hr
    exact hne rfl
  · obtain ⟨-, -, hne, -⟩ := (drives_pollReceive timeout).of_error hr
    exact hne rfl

end Vesta.Radio
