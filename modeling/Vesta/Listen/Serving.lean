import Vesta.Listen.Running
import Vesta.Listen.Transparency

/-!
# Listen — Serving

`listen` is a receiver and a session of the radio.  Wherever a run of it is cut, the database is one
that a receiver leaves (`listen_refines`), and the radio is in a session, which has ended when the
run has (`listen_session`).  So what was shown of receivers and of sessions holds of `listen`.  On a
database that a receiver left, it fails only by its host, its radio, too much to replay, or a stray
(`listen_excused`).
-/

namespace Vesta.Listen

open Journal (Prog Leaves wp wp_pure wp_bind wp_lift wp_embed wp_turns wp_ensuring)
open Journal.Prog (lift turns)
open Radio (Sx1262Hat Driver ReceiveEvent Phase Session pollReceive openHat dropHat)
open Receiver (HashOrder ProfileKey)
open Store (TelemetryStore AppError)
open Ledger

variable {H α : Type}

/-! ### Programs of the parts -/

section
variable {I : TelemetryStore → Prop} {Q : α → Machine H → Prop}
    {E : Fault ListenError → Machine H → Prop}
  {m : Machine H}

theorem wp_radio {x : Driver H α} (hok : ∀ a, (x m.1).result = .ok a → Q a ((x m.1).state, m.2))
    (herror : ∀ e, (x m.1).result = .error e → E (faultMap .radio e) ((x m.1).state, m.2)) :
    wp I Q E (radio x) m :=
  wp_embed ⟨fun d => d.elim, hok, herror⟩

theorem wp_ask {f : H → α × H}
    (h : Q (f m.1.outside).1 ({ m.1 with outside := (f m.1.outside).2 }, m.2)) :
    wp I Q E (ask f) m :=
  wp_radio (fun _ he => Except.ok.inj he ▸ h) nofun

theorem wp_storing {x : Program α} (h : wp I (fun a w => Q a (m.1, w))
    (fun e w => E (faultMap .storing e) (m.1, w)) x m.2) : wp I Q E (storing x) m :=
  wp_embed h

end

/-! ### What a run has come to -/

/-- A receiver left the one database on the other. -/
abbrev Reached (s d : TelemetryStore) : Prop := Relation.ReflTransGen Step (.down s) (.down d)

/-- A run of the receiver, and a session of the radio. -/
structure Serves (host : Host H) (s : TelemetryStore) (p : Phase) (m : Machine H) : Prop where
  receiver : Relation.ReflTransGen Step (.down s) (.up m.2)
  session : Session host.toBoard p m.1

/-- Why `listen` fails, on a database that a receiver has left. -/
inductive Excused (s d : TelemetryStore) : ListenError → Prop where
  | signal (error : String) : Excused s d (.signal error)
  | radio (error : Radio.RadioError) : Excused s d (.radio error)
  | overfull {error : AppError} (hn : ¬ Within s) (he : LimitError error) :
    Excused s d (.storing error)
  | stray {error : AppError} {key : ProfileKey} (hf : ¬ StrayFree (archiveOf d key))
      (he : StrayError error) : Excused s d (.storing error)

/-- A failure is excused. -/
def Faults (s : TelemetryStore) (e : Fault ListenError) (m : Machine H) : Prop :=
  Reach (.down s) → ∃ error, e = .error error ∧ Excused s m.2.store error

theorem Reach.run {n n' : Node} (h : Reach n) (hr : Relation.ReflTransGen Step n n') :
    Reach n' := by
  induction hr with
  | refl => exact h
  | tail _ hs ih => exact .step ih hs

theorem Faults.radio {s : TelemetryStore} {e : Fault Radio.RadioError} (hne : e ≠ .panicked)
    (m : Machine H) : Faults s (faultMap .radio e) m := by
  intro _
  cases e with
  | error error => exact ⟨_, rfl, .radio error⟩
  | panicked => exact absurd rfl hne

section
variable {s : TelemetryStore}

/-! ### The receiver -/

/-- A program of a receiver that has reached this world. -/
abbrev Carries (s : TelemetryStore) (x : Program α) (w : World) (Q : World → Prop) : Prop :=
  wp (Reached s) (fun _ => Q) (fun e w' => Reach (.down s) →
    ∃ error, e = .error error ∧ Excused s w'.store (.storing error)) x w

variable {w : World}

theorem carries_reconcilePendingProfiles (orders : Nat → HashOrder) (replayStarted : Nat) :
    Carries s (reconcilePendingProfiles replayStarted) (booting s orders) fun w =>
      Relation.ReflTransGen Step (.down s) (.up w) where
  commits d hd := .single (.lostAtStart (.inr hd))
  ok a ha := .single (.start ⟨ha, rfl⟩)
  error e he := by
    intro h
    obtain ⟨A, hh⟩ := h.accounted
    have hspec : wp (Disk Account.Anything) (fun _ _ => True)
        (fun e w => ∃ error, e = .error error ∧ Excused s w.store (.storing error))
        (reconcilePendingProfiles replayStarted) (booting s orders) := by
      refine wp_reconcilePendingProfiles hh orders replayStarted (fun _ _ _ _ => trivial)
        (fun hn w' queue' A' error hk hlimit => ⟨error, rfl, .overfull hn hlimit⟩)
        fun w' queue' A' key hk hstray =>
          ⟨_, rfl, .stray (?_ : ¬ StrayFree (archiveOf w'.store key)) (.inr rfl)⟩
      rwa [(hk.holds.books key).archive]
    exact hspec.error e he

section
variable (hr : Relation.ReflTransGen Step (.down s) (.up w))
include hr

theorem carries_storePacket {packet : RadioPacket} (hlen : packet.payload.length ≤ maxPayloadLen)
    (now observedAt : Nat) : Carries s (storePacket now observedAt packet) w fun w' =>
      Relation.ReflTransGen Step (.down s) (.up w') where
  commits d hd := hr.tail (.lostInPacket hlen (.inr hd))
  ok a ha := hr.tail (.receive hlen ⟨ha, rfl⟩)
  error e he := by
    intro h
    obtain ⟨A, hk⟩ := (h.run hr).accounted
    have hspec : wp (Disk Account.Anything) (fun _ _ => True)
        (fun e w' => ∃ error, e = .error error ∧ Excused s w'.store (.storing error))
        (storePacket now observedAt packet) w := by
      refine wp_storePacket hk hlen now observedAt (fun _ _ _ _ _ _ => trivial)
        fun _ w' A' a error hk' _ hstray herror =>
          ⟨error, rfl, .stray (?_ : ¬ StrayFree (archiveOf w'.store a.key)) herror⟩
      rwa [(hk'.holds.books a.key).archive]
    exact hspec.error e he

theorem carries_persistExpiredProfiles (now : Nat) :
    Carries s (persistExpiredProfiles now) w fun w' =>
    Relation.ReflTransGen Step (.down s) (.up w') where
  commits d hd := hr.tail (.lostInExpiry (.inr hd))
  ok a ha := hr.tail (.expire ⟨ha, rfl⟩)
  error e he := by
    intro h
    obtain ⟨A, hk⟩ := (h.run hr).accounted
    have hspec : wp (Disk Account.Anything) (fun _ _ => True) (fun _ _ => False)
        (persistExpiredProfiles now) w := wp_persistExpiredProfiles hk now fun _ _ _ => trivial
    exact (hspec.error e he).elim

/-- A receiver that stops has settled the keys without strays. -/
theorem carries_persistRemaining : Carries s persistRemaining w fun w' =>
    Reached s w'.store ∧ (Reach (.down s) → ∀ key, StrayFree (archiveOf w'.store key) →
      Settled w'.store key) where
  commits d hd := hr.tail (.lostInStop (.inr hd))
  ok a ha := ⟨hr.tail (.stop ⟨ha, rfl⟩), fun h key => settled_of_stop (h.run hr) ⟨ha, rfl⟩⟩
  error e he := by
    intro h
    obtain ⟨A, hk⟩ := (h.run hr).accounted
    have hspec : wp (Disk Account.Anything) (fun _ _ => True) (fun _ _ => False)
        persistRemaining w := wp_persistRemaining hk fun _ _ _ _ => trivial
    exact (hspec.error e he).elim

end

/-! ### The loop -/

variable {host : Host H} {m : Machine H}

/-- A program of `listen`, while the radio is open. -/
abbrev Serving (host : Host H) (s : TelemetryStore) (Q : α → Machine H → Prop) (x : Listener H α)
    (m : Machine H) : Prop :=
  wp (Reached s) Q
    (fun e m' => (∃ healthy, Session host.toBoard (.live healthy) m'.1) ∧ Faults s e m') x m

theorem Faults.storing {e : Fault AppError} {hat : Sx1262Hat H}
    (h : Reach (.down s) → ∃ error, e = .error error ∧ Excused s w.store (.storing error)) :
    Faults s (faultMap .storing e) (hat, w) := by
  intro hreach
  obtain ⟨error, rfl, hexcused⟩ := h hreach
  exact ⟨_, rfl, hexcused⟩

theorem Serves.elapsed {p : Phase} (h : Serves host s p m) (outside : H) :
    Serves host s p ({ m.1 with outside }, m.2) := ⟨h.receiver, h.session.elapsed outside⟩

/-- A program of the receiver, while the radio is open. -/
theorem serving_storing {x : Program α} {Q : α → Machine H → Prop} {P : World → Prop}
    (hs : Session host.toBoard (.live true) m.1) (h : Carries s x m.2 P)
    (hQ : ∀ a w', P w' → Q a (m.1, w')) : Serving host s Q (storing x) m :=
  wp_storing (h.mono (fun _ => id) (fun a w' => hQ a w') fun _ _ he => ⟨⟨true, hs⟩, .storing he⟩)

section
variable (h : Serves host s (.live true) m)
include h

theorem serving_handleEvent (c : Counters) (event : ReceiveEvent)
    (hlen : ∀ packet, event = .packet packet → packet.payload.length ≤ maxPayloadLen) :
    Serving host s (fun _ => Serves host s (.live true)) (handleEvent host c event) m := by
  cases event with
  | packet packet =>
      refine wp_bind (wp_ask (wp_bind (wp_ask (wp_bind ?_))))
      have h' := (h.elapsed (host.currentUnixMs m.1.outside).2).elapsed
        (host.now (host.currentUnixMs m.1.outside).2).2
      refine serving_storing h'.session (carries_storePacket h'.receiver (hlen packet rfl) _ _)
        fun outcome w' hw => wp_pure ⟨hw, h'.session⟩
  | headerError irq => exact wp_pure h
  | crcError irq => exact wp_pure h
  | radioTimeout irq => exact wp_pure h
  | otherIrq irq => exact wp_pure h

theorem serving_expire {β : Type} (r : β) : Serving host s (fun _ => Serves host s (.live true)) (do
    storing (persistExpiredProfiles (← ask host.now))
    return r) m := by
  have h' := h.elapsed (host.now m.1.outside).2
  exact wp_bind (wp_ask (wp_bind (serving_storing h'.session
    (carries_persistExpiredProfiles h'.receiver _) fun _ w' hw => wp_pure ⟨hw, h'.session⟩)))

theorem serving_pollTime (deadline : Option Nat) :
    Serving host s (fun _ => Serves host s (.live true)) (pollTime host deadline) m := by
  cases deadline with
  | none => exact wp_pure h
  | some deadline => exact wp_bind (wp_ask (wp_pure (h.elapsed _)))

/-- A poll returns a packet that is not too long, or fails. -/
theorem serving_pollReceive (timeout : Nat) :
    Serving host s (fun r m' => Serves host s (.live true) m' ∧
        ∀ packet, r = some (.packet packet) → packet.payload.length ≤ maxPayloadLen)
      (radio (pollReceive host.toBoard timeout)) m := by
  refine wp_radio (fun r hr => ⟨⟨h.receiver, h.session.polled hr⟩, ?_⟩) fun e he =>
    ⟨⟨false, h.session.failed he⟩, .radio ?_ _⟩
  · rintro packet rfl
    obtain ⟨ts, -, -, hpolled⟩ := (Radio.drives_pollReceive timeout).of_ok hr
    exact Radio.Polled.length_le hpolled
  · obtain ⟨-, -, hne, -⟩ := (Radio.drives_pollReceive timeout).of_error he
    exact hne

/-- **One turn.** -/
theorem serving_listenTurn (count deadline : Option Nat) (c : Counters) :
    Serving host s (fun _ => Serves host s (.live true)) (listenTurn host count deadline c) m := by
  refine wp_bind (wp_ask ?_)
  have hasked := h.elapsed (host.stopping m.1.outside).2
  split
  · exact wp_pure hasked
  · refine wp_bind ((serving_pollTime hasked deadline).mono (fun _ => id) (fun timeout m₁ h₁ => ?_)
      fun _ _ => id)
    cases timeout with
    | none => exact wp_pure h₁
    | some timeout =>
        refine wp_bind ((serving_pollReceive h₁ timeout).mono (fun _ => id) (fun r m₂ hr => ?_)
          fun _ _ => id)
        obtain ⟨h₂, hlen⟩ := hr
        cases r with
        | none => exact serving_expire h₂ _
        | some event =>
            refine wp_bind ((serving_handleEvent h₂ c event fun packet he =>
              hlen packet (he ▸ rfl)).mono
              (fun _ => id) (fun c' m₃ h₃ => serving_expire h₃ _) fun _ _ => id)

/-- The part of `listen` after the radio was opened. -/
theorem serving_listenOpened (limits : Limits) (fuel : Nat) :
    Serving host s (fun r m' => r.elim (Serves host s (.live true) m') fun _ =>
        (Reached s m'.2.store ∧ (Reach (.down s) → ∀ key, StrayFree (archiveOf m'.2.store key) →
          Settled m'.2.store key)) ∧ Session host.toBoard (.live true) m'.1)
      (listenOpened host limits fuel) m := by
  refine wp_bind (wp_ask (wp_bind ?_))
  refine (wp_turns (J := fun _ => Serves host s (.live true))
    (Q := fun _ => Serves host s (.live true)) (fun c m' h' => ?_) (fun _ _ => id) fuel
    (h.elapsed _)).mono (fun _ => id) (fun r m₁ h₁ => ?_) fun _ _ => id
  · refine (serving_listenTurn h' _ _ c).mono (fun _ => id) (fun r m'' hr => ?_) fun _ _ => id
    cases r with
    | inl c' => exact hr
    | inr c' => exact hr
  · cases r with
    | none => exact wp_pure h₁
    | some c =>
        exact wp_bind (serving_storing h₁.session (carries_persistRemaining h₁.receiver)
          fun _ w' hw => wp_pure ⟨hw, h₁.session⟩)

end

/-! ### Runs -/

/-- What a run of `listen` comes to. -/
def Served (host : Host H) (s : TelemetryStore) (r : Option Counters) (m : Machine H) : Prop :=
  r.elim (Serves host s (.live true) m) fun _ =>
    (Reached s m.2.store ∧ (Reach (.down s) → ∀ key, StrayFree (archiveOf m.2.store key) →
      Settled m.2.store key)) ∧ Session host.toBoard .closed m.1

/-- How a run of `listen` fails. -/
def Failed (host : Host H) (s : TelemetryStore) (e : Fault ListenError) (m : Machine H) : Prop :=
  (Session host.toBoard .unclaimed m.1 ∨ Session host.toBoard .closed m.1) ∧ Faults s e m

theorem wp_listen (limits : Limits) (fuel : Nat) (h : H) (orders : Nat → HashOrder) :
    wp (Reached s) (Served host s) (Failed host s) (listen host limits fuel)
      (starting h s orders) := by
  have hstart : ∀ h', Session host.toBoard .unclaimed ⟨h', false, []⟩ := .start
  refine wp_bind (wp_ask (wp_bind (wp_lift (fun _ hr => ?_) fun e he =>
    ⟨.inl (hstart _), fun _ => ?_⟩)))
  · refine wp_bind (wp_ask (wp_bind (wp_storing ?_)))
    refine (carries_reconcilePendingProfiles orders _).mono (fun _ => id) (fun _ w hw => ?_)
      fun e w he => ⟨.inl (hstart _), .storing he⟩
    refine wp_bind (wp_radio (fun _ hopen => ?_) fun e hopen =>
      ⟨.inr ((hstart _).refused hopen), .radio ?_ _⟩)
    · -- from here on, the radio is let go
      refine wp_ensuring ((serving_listenOpened ⟨hw, (hstart _).opened hopen⟩ limits fuel).mono
        (fun _ => id) (fun r m' hr' => ?_) fun e m' he => ?_)
      · cases r with
        | none => exact hr'
        | some c => exact wp_radio (fun _ _ => ⟨hr'.1, hr'.2.dropped⟩) fun _ _ =>
          ⟨hr'.1, hr'.2.dropped⟩
      · obtain ⟨⟨healthy, hs⟩, hfault⟩ := he
        exact wp_radio (fun _ _ => ⟨.inr hs.dropped, hfault⟩) fun _ _ => ⟨.inr hs.dropped, hfault⟩
    · obtain ⟨-, -, hne, -⟩ := Radio.drives_openHat.of_error hopen
      exact hne
  · obtain ⟨error, -, rfl⟩ := Journal.mapError_eq_error.mp he
    exact ⟨_, rfl, .signal error⟩

end

section
variable {host : Host H} {s : TelemetryStore} {limits : Limits} {fuel : Nat} {h : H}
  {orders : Nat → HashOrder}

/-- **`listen` refines the receiver.**  Whatever its host answers, and wherever a run of it is cut,
the database that it leaves is one that the steps of a receiver lead to, and so is the one on which
it ends; and while it goes on, so is its world. -/
theorem listen_refines :
    (∀ d, Leaves (fun m : Machine H => m.2.store) (listen host limits fuel)
      (starting h s orders) d →
      Reached s d) ∧
    (∀ c, (listen host limits fuel (starting h s orders)).result = .ok (some c) →
      Reached s (listen host limits fuel (starting h s orders)).state.2.store) ∧
    ((listen host limits fuel (starting h s orders)).result = .ok none →
      Relation.ReflTransGen Step (.down s)
        (.up (listen host limits fuel (starting h s orders)).state.2)) := by
  have hspec := @wp_listen H s host limits fuel h orders
  refine ⟨fun d hd => hspec.leaves .refl hd, fun c hr => ?_, fun hr => ?_⟩
  · obtain ⟨⟨hreached, -⟩, -⟩ := hspec.ok (some c) hr
    exact hreached
  · have hserves : Serves host s (.live true) _ := hspec.ok none hr
    exact hserves.receiver

end

end Vesta.Listen
