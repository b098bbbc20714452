import Vesta.Foundations.Tracing
import Vesta.Radio.Sx1262

/-!
# Radio — Transactions

What the operations of the driver put on the bus.  A transfer is framed by the chip select
(`Transfer.framed`), so the log is told by its transfers.  `Drives R ok err x hat` says what `x`
logs from `hat`: something of `ok` when it returns, something of `err` when it fails; it never
panics.
-/

namespace Vesta.Radio

open Journal (Prog wp wp_update)
open Tracing (Recording Does does_grouped)
open Outcome (failIf)

/-- A transfer between the edges of the chip select. -/
def Transfer.framed (t : Transfer) : List Action :=
  [.drive .nss .low, .exchange t, .drive .nss .high]

/-- Transfers, as they stand in the log. -/
def framed (ts : List Transfer) : List Action := ts.flatMap Transfer.framed

theorem framed_append (ts us : List Transfer) : framed (ts ++ us) = framed ts ++ framed us :=
  List.flatMap_append

theorem framed_cons (t : Transfer) (ts : List Transfer) :
    framed (t :: ts) = framed [t] ++ framed ts :=
  framed_append [t] ts

section
variable {H : Type}

/-- What the log adds.  A controller that is initialized stays so. -/
def actions : Recording Empty (Sx1262Hat H) Action where
  After hat es hat' := hat'.log = hat.log ++ es ∧ (hat.initialized = true → hat'.initialized = true)
  Saw _ _ d := d.elim
  refl hat := ⟨(List.append_nil _).symm, id⟩
  trans h h' := ⟨by rw [h'.1, h.1, List.append_assoc], fun hi => h'.2 (h.2 hi)⟩
  saw := fun {_ _ d _ _} _ _ => d.elim

/-- The same, told by transfers. -/
abbrev transfers : Recording Empty (Sx1262Hat H) Transfer := actions.grouped Transfer.framed

variable {τ α β : Type}

/-- What `x` logs from `hat`.  It does not panic. -/
abbrev Drives (R : Recording Empty (Sx1262Hat H) τ) (ok : α → List τ → Prop) (err : List τ → Prop)
    (x : Driver H α) (hat : Sx1262Hat H) : Prop :=
  Does R ok (fun e ts => e ≠ .panicked ∧ err ts) (fun _ => True) x hat

namespace Drives

variable {R : Recording Empty (Sx1262Hat H) τ} {ok ok' : α → List τ → Prop}
    {err err' : List τ → Prop}
  {x : Driver H α} {hat : Sx1262Hat H}

theorem mono (h : Drives R ok err x hat) (hok : ∀ a ts, ok a ts → ok' a ts)
    (herr : ∀ ts, err ts → err' ts) : Drives R ok' err' x hat :=
  Does.mono h hok (fun _ ts he => ⟨he.1, herr ts he.2⟩) fun _ => id

/-- What lies between commits does not matter where there are none. -/
theorem any_cut {ok : α → List τ → Prop} {err : Fault RadioError → List τ → Prop}
    {K L : List τ → Prop} (h : Does R ok err K x hat) : Does R ok err L x hat :=
  ⟨fun d _ => d.elim, h.ok, h.error⟩

theorem pure {a : α} (h : ok a []) : Drives R ok err (pure a) hat := Does.pure h

theorem bind {y : Driver H β} {f : β → Driver H α} {P : β → List τ → Prop} {E : List τ → Prop}
    (hy : Drives R P E y hat)
    (hf : ∀ b ts hat', P b ts →
      Drives R (fun a us => ok a (ts ++ us)) (fun us => err (ts ++ us)) (f b) hat')
    (herr : ∀ ts, E ts → err ts) : Drives R ok err (y >>= f) hat :=
  Does.bind hy (fun b ts hat' _ hb => hf b ts hat' hb) (fun _ ts he => ⟨he.1, herr ts he.2⟩)
    fun _ _ => trivial

theorem lift {r : Outcome RadioError α} (h : r.Ends (fun a => ok a []) fun _ => err []) :
    Drives R ok err (Prog.lift r) hat := by
  refine Does.lift (fun _ ha => h.of_ok ha) fun e he => ?_
  subst he
  cases e with
  | error e => exact ⟨nofun, h⟩
  | panicked => exact h.elim

/-- A pure step that returns its value. -/
theorem lift_ok {f : β → Driver H α} {r : Outcome RadioError β} {b : β} (hr : r = .ok b)
    (h : Drives R ok err (f b) hat) : Drives R ok err (Prog.lift r >>= f) hat := by
  rw [hr, Journal.lift_ok_bind]
  exact h

/-- A pure check. -/
theorem check {f : Unit → Driver H α} {c : Prop} [Decidable c] {e : RadioError} (herr : err [])
    (h : ¬ c → Drives R ok err (f ()) hat) :
    Drives R ok err (Prog.lift (failIf c e) >>= f) hat := by
  by_cases hc : c
  · rw [Outcome.failIf_pos hc]
    exact Does.bind (P := fun _ _ => False) (E := fun e us => e ≠ .panicked ∧ us = [])
      (K := fun _ => True) (Does.lift nofun fun _ he => Except.error.inj he ▸ ⟨nofun, rfl⟩)
      (fun _ _ _ _ hf => hf.elim) (fun _ us he => ⟨he.1, he.2 ▸ herr⟩) fun _ => id
  · rw [Outcome.failIf_neg hc, Journal.lift_ok_bind]
    exact h hc

/-- An error that was kept is raised. -/
theorem raise_error {f : β → Driver H α} {e : RadioError} (h : err []) :
    Drives R ok err (Prog.lift ((.error e : Except RadioError β).mapError .error) >>= f) hat :=
  bind (P := fun _ _ => False) (E := (· = []))
    (lift (show Outcome.Ends _ _ (.error (.error e)) from rfl)) (fun _ _ _ hf => hf.elim)
    fun _ he => he ▸ h

theorem attempt {ok : Except RadioError α → List τ → Prop}
    (h : Drives R (fun a => ok (.ok a)) (fun ts => ∀ e, ok (.error e) ts) x hat) :
    Drives R ok err (attempt x) hat := by
  obtain ⟨-, hok, herror⟩ := h
  refine ⟨fun d _ => d.elim, ?_, ?_⟩
  · intro r hr
    rw [Radio.attempt] at hr ⊢
    cases hx : x hat with
    | mk result hat' commits =>
        rw [hx] at hok herror hr
        rcases result with (e | -) | a
        · obtain rfl := Except.ok.inj hr
          obtain ⟨ts, hafter, -, he⟩ := herror _ rfl
          exact ⟨ts, hafter, he e⟩
        · cases hr
        · obtain rfl := Except.ok.inj hr
          exact hok a rfl
  · intro e he
    rw [Radio.attempt] at he
    cases hx : x hat with
    | mk result hat' commits =>
        rw [hx] at herror he
        rcases result with (e' | -) | a
        · cases he
        · exact absurd rfl (herror _ rfl).choose_spec.2.1
        · cases he

end Drives

/-! ### The board -/

section
variable {ok : α → List τ → Prop} {err : List τ → Prop} {R : Recording Empty (Sx1262Hat H) τ}
  {board : Board H} {hat : Sx1262Hat H}

theorem drives_outside (f : H → α × H) :
    Drives actions (fun _ es => es = []) (fun _ => False) (outside f) hat := by
  refine Does.update (fun a hat' he => ?_) fun e he => by cases he
  obtain ⟨-, rfl⟩ := Prod.mk.inj (Except.ok.inj he)
  exact ⟨[], ⟨(List.append_nil _).symm, id⟩, rfl⟩

theorem drives_drive (pin : Pin) (level : Level) :
    Drives actions (fun _ es => es = [.drive pin level]) (fun _ => False) (drive board pin level)
      hat := by
  refine Does.update (fun a hat' he => ?_) fun e he => by cases he
  obtain ⟨-, rfl⟩ := Prod.mk.inj (Except.ok.inj he)
  exact ⟨_, ⟨rfl, id⟩, rfl⟩

theorem drives_spiTransfer (outgoing : List UInt8) :
    Drives actions (fun r es => es = [.exchange ⟨outgoing, r.2⟩] ∧ r.2.length = outgoing.length)
      (fun _ => False) (spiTransfer board outgoing) hat := by
  refine Does.update (fun a hat' he => ?_) fun e he => by cases he
  obtain ⟨rfl, rfl⟩ := Prod.mk.inj (Except.ok.inj he)
  exact ⟨_, ⟨rfl, id⟩, rfl, by simp⟩

theorem drives_gpio {E : List τ → Prop} (x : Except String α) (herr : E []) :
    Drives R (fun _ ts => ts = []) E (gpio x) hat := by
  refine Drives.lift ?_
  cases x with
  | ok a => exact rfl
  | error e => exact herr

theorem drives_spi {E : List τ → Prop} (x : Except String α) (herr : E []) :
    Drives R (fun _ ts => ts = []) E (spi x) hat := by
  refine Drives.lift ?_
  cases x with
  | ok a => exact rfl
  | error e => exact herr

/-- Waiting for BUSY to fall ends, well or with the timeout. -/
theorem awaitLow_ends (board : Board H) (deadline : Nat) (h : H) :
    Outcome.Ends (fun _ => True) (· = .busyTimeout) (awaitLow board deadline h).1 := by
  fun_induction awaitLow board deadline h with
  | case1 h h' hr => exact trivial
  | case2 h h' hr hd => exact rfl
  | case3 h h' hr hd ih => exact ih

theorem drives_awaitLowUntil (deadline : Nat) :
    Drives actions (fun _ es => es = []) (· = []) (awaitLowUntil board deadline) hat := by
  have hends := awaitLow_ends board deadline hat.outside
  refine ⟨fun d _ => d.elim, fun a _ => ?_, fun e he => ?_⟩
  · exact ⟨[], ⟨(List.append_nil _).symm, id⟩, rfl⟩
  · refine ⟨[], ⟨(List.append_nil _).symm, id⟩, fun hp => ?_, rfl⟩
    exact hends.ne_panicked (hp ▸ he)

theorem drives_waitBusyLow :
    Drives actions (fun _ es => es = []) (· = []) (waitBusyLow board) hat := by
  have heq : waitBusyLow board hat =
      awaitLowUntil board (board.instant hat.outside + busyTimeout) hat := rfl
  rw [Drives, Does, Journal.wp, heq]
  exact drives_awaitLowUntil _

end

/-! ### Transactions -/

/-- A transfer was tried: it took place, or BUSY stayed high before it. -/
def Tried (outgoing : List UInt8) (ts : List Transfer) : Prop :=
  ts = [] ∨ ∃ incoming, ts = [⟨outgoing, incoming⟩]

section
variable {board : Board H} {hat : Sx1262Hat H}

/-- The edges of the chip select frame the transfer, whatever the bus and BUSY do. -/
theorem drives_exchange (outgoing : List UInt8) :
    Drives transfers
      (fun incoming ts => ts = [⟨outgoing, incoming⟩] ∧ incoming.length = outgoing.length)
      (fun ts => ∃ incoming, ts = [⟨outgoing, incoming⟩]) (exchange board outgoing) hat := by
  have hactions : Drives actions (fun incoming es => es = (⟨outgoing, incoming⟩ : Transfer).framed ∧
        incoming.length = outgoing.length)
      (fun es => ∃ incoming, es = (⟨outgoing, incoming⟩ : Transfer).framed)
      (exchange board outgoing) hat := by
    refine Drives.bind (drives_drive _ _) (fun _ es _ he => ?_) fun _ => False.elim
    subst he
    refine Drives.bind (drives_outside _) (fun _ es _ he => ?_) fun _ => False.elim
    subst he
    refine Drives.bind (drives_spiTransfer _) (fun r es _ he => ?_) fun _ => False.elim
    -- the select line rises again whether or not the bus answered
    obtain ⟨result, incoming⟩ := r
    obtain ⟨rfl, hlen⟩ := he
    refine Drives.bind (drives_outside _) (fun _ es _ he => ?_) fun _ => False.elim
    subst he
    refine Drives.bind (drives_drive _ _) (fun _ es _ he => ?_) fun _ => False.elim
    subst he
    refine Drives.bind (drives_spi (E := (· = [])) _ rfl) (fun transferred es _ he => ?_)
      fun es he => ⟨incoming, by rw [he]; rfl⟩
    subst he
    refine Drives.check ⟨incoming, rfl⟩ fun _ => ?_
    refine Drives.bind drives_waitBusyLow (fun _ es _ he => ?_) fun es he =>
      ⟨incoming, by rw [he]; rfl⟩
    subst he
    exact Drives.pure ⟨rfl, hlen⟩
  refine does_grouped.mpr (Drives.any_cut (K := fun _ => True)
    (Does.mono hactions ?_ ?_ fun _ => id))
  · rintro incoming es ⟨rfl, hlen⟩
    exact ⟨[⟨outgoing, incoming⟩], (List.append_nil _).symm, rfl, hlen⟩
  · rintro e es ⟨hne, incoming, rfl⟩
    exact ⟨[⟨outgoing, incoming⟩], (List.append_nil _).symm, hne, incoming, rfl⟩

theorem drives_waitBusyLow_transfers :
    Drives transfers (fun _ ts => ts = []) (· = []) (waitBusyLow board) hat := by
  refine does_grouped.mpr (Drives.any_cut (K := fun _ => True) (Does.mono drives_waitBusyLow
    (fun _ es he => ?_) (fun _ es he => ?_) fun _ => id))
  · exact ⟨[], he, rfl⟩
  · exact ⟨[], he.2, he.1, rfl⟩

theorem drives_transaction (outgoing : List UInt8) :
    Drives transfers
      (fun incoming ts => ts = [⟨outgoing, incoming⟩] ∧ incoming.length = outgoing.length)
      (Tried outgoing) (transaction board outgoing) hat := by
  refine Drives.bind drives_waitBusyLow_transfers (fun _ ts hat' hb => ?_) fun ts he => .inl he
  subst hb
  exact Drives.mono (drives_exchange outgoing) (fun _ _ h => h) fun ts h => .inr h

/-- When BUSY falls in time, the transfer takes place. -/
theorem drives_transaction_of_idle {outgoing : List UInt8}
    (h : (waitBusyLow board hat).result = .ok ()) : Drives transfers
      (fun incoming ts => ts = [⟨outgoing, incoming⟩] ∧ incoming.length = outgoing.length)
      (fun ts => ∃ incoming, ts = [⟨outgoing, incoming⟩]) (transaction board outgoing) hat := by
  have hwait : Drives transfers (fun _ ts => ts = []) (fun _ => False) (waitBusyLow board) hat :=
    ⟨fun d _ => d.elim, drives_waitBusyLow_transfers.ok, fun e he => by rw [h] at he; cases he⟩
  refine Drives.bind hwait (fun _ ts hat' hb => ?_) fun _ => False.elim
  subst hb
  exact drives_exchange outgoing

end

/-! ### Commands of a kind -/

/-- The first byte that goes out. -/
def Transfer.opcode (t : Transfer) : Option UInt8 := t.outgoing.head?

/-- The IRQ bitmap that `GetIrqStatus` brings in. -/
def Transfer.irq (t : Transfer) : UInt16 := u16OfBe (t.incoming.drop 2)

/-- Transfers of some commands only. -/
def OfCommands (ops : List UInt8) (ts : List Transfer) : Prop :=
  ∀ t ∈ ts, ∃ op ∈ ops, t.opcode = some op

namespace OfCommands

variable {ops ops' : List UInt8} {ts us : List Transfer}

@[simp] theorem nil : OfCommands ops [] := nofun

@[simp] theorem append : OfCommands ops (ts ++ us) ↔ OfCommands ops ts ∧ OfCommands ops us :=
  List.forall_mem_append

theorem singleton {c : UInt8} {t : Transfer} (hop : c ∈ ops) (ht : t.opcode = some c) :
    OfCommands ops [t] := List.forall_mem_singleton.mpr ⟨c, hop, ht⟩

theorem mono (h : OfCommands ops ts) (hops : ops ⊆ ops') : OfCommands ops' ts := fun t ht => by
  obtain ⟨op, hop, he⟩ := h t ht
  exact ⟨op, hops hop, he⟩

end OfCommands

/-- Whatever becomes of it, `x` puts only some commands on the bus; when it returns, `ok` holds of
what it did. -/
def Within (ops : List UInt8) (ok : α → List Transfer → Prop) (x : Driver H α)
    (hat : Sx1262Hat H) : Prop :=
  Drives transfers (fun a ts => ok a ts ∧ OfCommands ops ts) (OfCommands ops) x hat

namespace Within

variable {ops ops' : List UInt8} {ok ok' : α → List Transfer → Prop} {x : Driver H α}
  {hat : Sx1262Hat H} {board : Board H}

theorem mono (h : Within ops ok x hat) (hops : ops ⊆ ops') (hok : ∀ a ts, ok a ts → ok' a ts) :
    Within ops' ok' x hat :=
  Drives.mono h (fun a ts ha => ⟨hok a ts ha.1, ha.2.mono hops⟩) fun _ he => he.mono hops

theorem pure {a : α} (h : ok a []) : Within ops ok (pure a) hat := Drives.pure ⟨h, .nil⟩

theorem bind {y : Driver H β} {f : β → Driver H α} {P : β → List Transfer → Prop}
    (hy : Within ops P y hat)
    (hf : ∀ b ts hat', P b ts → Within ops (fun a us => ok a (ts ++ us)) (f b) hat') :
    Within ops ok (y >>= f) hat := by
  refine Drives.bind hy (fun b ts hat' hb => ?_) fun _ => id
  refine Drives.mono (hf b ts hat' hb.1) (fun a us ha => ?_) fun us he => ?_
  · exact ⟨ha.1, OfCommands.append.mpr ⟨hb.2, ha.2⟩⟩
  · exact OfCommands.append.mpr ⟨hb.2, he⟩

theorem lift_ok {f : β → Driver H α} {r : Outcome RadioError β} {b : β} (hr : r = .ok b)
    (h : Within ops ok (f b) hat) : Within ops ok (Prog.lift r >>= f) hat :=
  Drives.lift_ok hr h

/-- A pure step that may fail. -/
theorem lift {f : β → Driver H α} {r : Outcome RadioError β} (hr : r ≠ .error .panicked)
    (h : ∀ b, r = .ok b → Within ops ok (f b) hat) : Within ops ok (Prog.lift r >>= f) hat := by
  rcases r with (e | -) | b
  · exact Drives.bind (P := fun _ _ => False) (E := (· = []))
      (Drives.lift (show Outcome.Ends _ _ (.error (.error e)) from rfl)) (fun _ _ _ hf => hf.elim)
      fun _ he => he ▸ .nil
  · exact absurd rfl hr
  · exact lift_ok rfl (h b rfl)

theorem check {f : Unit → Driver H α} {c : Prop} [Decidable c] {e : RadioError}
    (h : ¬ c → Within ops ok (f ()) hat) : Within ops ok (Prog.lift (failIf c e) >>= f) hat :=
  Drives.check .nil h

theorem last_check {ok : Unit → List Transfer → Prop} {c : Prop} [Decidable c] {e : RadioError}
    (h : ¬ c → ok () []) : Within ops ok (Prog.lift (failIf c e)) hat :=
  Drives.lift ((Outcome.Ends.failIf fun _ => .nil).mono (fun _ hc => ⟨h hc, .nil⟩) fun _ => id)

/-- A question to the board. -/
theorem ask (f : H → α × H) : Within ops (fun _ ts => ts = []) (outside f) hat := by
  refine does_grouped.mpr (Drives.any_cut (K := fun _ => True) (Does.mono (drives_outside f)
    (fun _ es he => ?_) (fun _ _ he => he.2.elim) fun _ => id))
  exact ⟨[], he, rfl, .nil⟩

theorem gpio (x : Except String α) : Within ops (fun _ ts => ts = []) (gpio x) hat :=
  Drives.mono (drives_gpio (E := (· = [])) x rfl) (fun _ _ he => ⟨he, he ▸ .nil⟩)
    fun _ he => he ▸ .nil

theorem transaction {outgoing : List UInt8} {c : UInt8} (hop : outgoing.head? = some c)
    (hmem : c ∈ ops) : Within ops
      (fun incoming ts => ts = [⟨outgoing, incoming⟩] ∧ incoming.length = outgoing.length)
      (transaction board outgoing) hat := by
  refine Drives.mono (drives_transaction outgoing) (fun incoming ts ha => ⟨ha, ?_⟩) fun ts he => ?_
  · obtain ⟨rfl, -⟩ := ha
    exact .singleton hmem hop
  · obtain rfl | ⟨incoming, rfl⟩ := he
    · exact .nil
    · exact .singleton hmem hop

/-- One command, whatever comes in. -/
theorem command {outgoing : List UInt8} {op : UInt8} (hop : outgoing.head? = some op)
    (hmem : op ∈ ops) : Within ops (fun _ ts => ∃ incoming, ts = [⟨outgoing, incoming⟩])
      (command board outgoing) hat := by
  refine bind (transaction hop hmem) fun incoming ts hat' hb => pure ⟨incoming, ?_⟩
  rw [hb.1, List.append_nil]

end Within

theorem checkStatus_ne_panicked (opcode status : UInt8) :
    checkStatus opcode status ≠ .error .panicked := by
  refine (Outcome.Ends.bind (Q := fun _ => True) (R := fun _ => True) (E := fun _ => True) ?_
    fun _ _ => ?_).ne_panicked
  · exact (Outcome.Ends.failIf fun _ => trivial).mono (fun _ _ => trivial) fun _ => id
  · exact (Outcome.Ends.failIf fun _ => trivial).mono (fun _ _ => trivial) fun _ => id

/-- The buffer is read in one transfer. -/
theorem drives_readBuffer {board : Board H} {hat : Sx1262Hat H} (offset : UInt8) (length : Nat) :
    Drives transfers
      (fun bytes ts => ∃ incoming, ts = [⟨opReadBuffer :: offset :: List.replicate (length + 1) 0,
        incoming⟩] ∧ bytes = incoming.drop 3 ∧ bytes.length = length)
      (Tried (opReadBuffer :: offset :: List.replicate (length + 1) 0))
      (readBuffer board offset length) hat := by
  refine Drives.bind (drives_transaction _) (fun received ts hat' hb => ?_) fun _ => id
  obtain ⟨rfl, hlen⟩ := hb
  rw [List.length_cons, List.length_cons, List.length_replicate] at hlen
  refine Drives.lift (Outcome.Ends.of_eq_ok (sliceFrom_eq (by omega)) ⟨received, rfl, rfl, ?_⟩)
  rw [List.length_drop]
  omega

namespace Within

variable {ops : List UInt8} {hat : Sx1262Hat H} {board : Board H}

theorem readCommand {op : UInt8} (hmem : op ∈ ops) (length : Nat) : Within ops
    (fun bytes ts => ∃ incoming, ts = [⟨op :: List.replicate (length + 1) 0, incoming⟩] ∧
      bytes = incoming.drop 2 ∧ bytes.length = length) (readCommand board op length) hat := by
  refine bind (transaction (c := op) rfl hmem) fun received ts hat' hb => ?_
  obtain ⟨rfl, hlen⟩ := hb
  rw [List.length_cons, List.length_replicate] at hlen
  refine lift_ok (index_eq (by omega)) ?_
  refine lift (checkStatus_ne_panicked _ _) fun _ _ => ?_
  refine Drives.lift (Outcome.Ends.of_eq_ok (sliceFrom_eq (by omega))
    ⟨⟨received, rfl, rfl, ?_⟩, .nil⟩)
  rw [List.length_drop]
  omega

theorem writeRegister (hmem : opWriteRegister ∈ ops) (address : UInt16) (data : List UInt8) :
    Within ops (fun _ ts => ∃ incoming, ts = [⟨opWriteRegister :: Layout.u16.put address ++ data,
      incoming⟩]) (writeRegister board address data) hat :=
  command rfl hmem

theorem readRegister (hmem : opReadRegister ∈ ops) (address : UInt16) (length : Nat) : Within ops
    (fun bytes ts => ∃ incoming, ts = [⟨opReadRegister :: Layout.u16.put address ++
      List.replicate (length + 1) 0, incoming⟩] ∧ bytes = incoming.drop 4 ∧ bytes.length = length)
    (readRegister board address length) hat := by
  refine bind (transaction (c := opReadRegister) rfl hmem) fun received ts hat' hb => ?_
  obtain ⟨rfl, hlen⟩ := hb
  rw [List.length_append, List.length_cons, Layout.length_put, List.length_replicate,
    Layout.width_u16] at hlen
  refine Drives.lift (Outcome.Ends.of_eq_ok (sliceFrom_eq (by omega))
    ⟨⟨received, rfl, rfl, ?_⟩, .nil⟩)
  rw [List.length_drop]
  omega

theorem getStatus (hmem : opGetStatus ∈ ops) : Within ops
    (fun status ts => ∃ incoming, ts = [⟨[opGetStatus, 0x00], incoming⟩] ∧
      incoming[1]? = some status) (getStatus board) hat := by
  refine bind (transaction (c := opGetStatus) rfl hmem) fun received ts hat' hb => ?_
  obtain ⟨rfl, hlen⟩ := hb
  have hindex : 1 < received.length := by
    rw [hlen]
    decide
  refine lift_ok (index_eq hindex) ?_
  refine lift (checkStatus_ne_panicked _ _) fun _ _ => ?_
  exact pure ⟨received, rfl, List.getElem?_eq_getElem hindex⟩

end Within

end

end Vesta.Radio
