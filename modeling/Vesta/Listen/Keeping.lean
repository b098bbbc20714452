import Vesta.Ledger.Memory
import Vesta.Ledger.Readings
import Vesta.Listen.Live

/-!
# Listen — Keeping

The programs of `main.rs` keep the accounts.  `Disk` is what every commit leaves, `Holds` and
`Remembers` what the database and the memory hold between two packets.  The rules here say of each
building block what has to hold before it, so that a program is followed statement by statement.
-/

namespace Vesta.Listen

open FirstWins (Rule Tally Verdict)
open Journal (Prog wp wp_pure wp_bind wp_get wp_lift wp_update wp_transact)
open Journal.Prog (get lift update transact forEach)
open Receiver (Arrival ScanTally ScanOf Full ProfileKey ProfileMetadata OwnedFragment
  ProfileReassembler ActiveProfile ReassembledProfile IngestResult ReassemblyError HashOrder
  scanRule profileOf)
open Store (TelemetryStore StorageError AppError FragmentStorageStatus)
open Ledger

/-- A database that some accounts describe, which satisfy the invariant. -/
def Disk (I : ProfileKey → Account → Prop) (s : TelemetryStore) : Prop := ∃ A, Holds I s A

/-- Between two packets, the accounts describe the database and the memory. -/
structure Kept (I : ProfileKey → Account → Prop) (w : World) (queue : List Arrival)
    (A : ProfileKey → Account) : Prop where
  holds : Holds I w.store A
  memory : Remembers w.reassembler queue [] A

/-! ### Building blocks -/

section
variable {I : ProfileKey → Account → Prop} {α : Type} {Q : α → World → Prop}
    {E : Fault AppError → World → Prop} {w : World}

theorem wp_database {f : TelemetryStore → Outcome StorageError (α × TelemetryStore)} {a : α}
    {s : TelemetryStore} (hf : f w.store = .ok (a, s)) (hs : Disk I s)
    (hQ : Q a { w with store := s }) : wp (Disk I) Q E (database f) w := by
  refine wp_transact (fun a' w' he => ?_) fun e he => ?_
  · rw [hf] at he
    obtain ⟨rfl, rfl⟩ := Prod.mk.inj (Except.ok.inj he)
    exact ⟨hQ, hs⟩
  · rw [hf] at he
    cases he

theorem wp_database_error {f : TelemetryStore → Outcome StorageError (α × TelemetryStore)}
    {e : StorageError} (hf : f w.store = Outcome.fail e) (hE : E (.error (.database e)) w) :
    wp (Disk I) Q E (database f) w := by
  refine wp_transact (fun a' w' he => ?_) fun e he => ?_
  · rw [hf] at he
    cases he
  · rw [hf] at he
    obtain rfl := Except.error.inj he
    exact hE

theorem wp_databaseUnit {f : TelemetryStore → Outcome StorageError TelemetryStore}
    {Q : Unit → World → Prop} {s : TelemetryStore} (hf : f w.store = .ok s) (hs : Disk I s)
    (hQ : Q () { w with store := s }) : wp (Disk I) Q E (databaseUnit f) w :=
  wp_database (Outcome.bind_of_eq_ok hf) hs hQ

theorem wp_query {f : TelemetryStore → Outcome StorageError α} {a : α} (hf : f w.store = .ok a)
    (hQ : Q a w) : wp (Disk I) Q E (query f) w := by
  refine wp_bind (wp_get (wp_lift (fun a' he => ?_) fun e he => ?_))
  · rw [hf] at he
    obtain rfl := Except.ok.inj he
    exact hQ
  · rw [hf] at he
    cases he

theorem wp_query_error {f : TelemetryStore → Outcome StorageError α} {e : StorageError}
    (hf : f w.store = Outcome.fail e) (hE : E (.error (.database e)) w) :
    wp (Disk I) Q E (query f) w := by
  refine wp_bind (wp_get (wp_lift (fun a' he => ?_) fun e he => ?_))
  · rw [hf] at he
    cases he
  · rw [hf] at he
    obtain rfl := Except.error.inj he
    exact hE

theorem wp_reassembly
    {f : HashOrder → ProfileReassembler → Outcome ReassemblyError (α × ProfileReassembler)} {a : α}
    {r : ProfileReassembler} (hf : f (w.orders 0) w.reassembler = .ok (a, r))
    (hQ : Q a { w with reassembler := r, orders := fun n => w.orders (n + 1) }) :
    wp (Disk I) Q E (reassembly f) w := by
  refine wp_update (fun a' w' he => ?_) fun e he => ?_
  · rw [hf] at he
    obtain ⟨rfl, rfl⟩ := Prod.mk.inj (Except.ok.inj he)
    exact hQ
  · rw [hf] at he
    cases he

theorem wp_fail {e : AppError} (hE : E (.error e) w) :
    wp (Disk I) Q E (lift (Outcome.fail e) : Program α) w :=
  wp_lift (fun _ he => by cases he) fun _ he => Except.error.inj he ▸ hE

end

section
variable {I : ProfileKey → Account → Prop} {E : Fault AppError → World → Prop} {w : World}

theorem wp_containsActive {key : ProfileKey} {Q : Bool → World → Prop}
    (hQ : Q (liveAt w.reassembler key).isSome w) : wp (Disk I) Q E (containsActive key) w := by
  refine wp_bind (wp_get (wp_pure ?_))
  rwa [liveAt, Option.isSome_map] at hQ

theorem wp_restoreReceiverCounts {key : ProfileKey} {duplicates conflicts : Nat}
    {r : ProfileReassembler} {Q : Unit → World → Prop}
    (hr : w.reassembler.restoreReceiverCounts key duplicates conflicts = .ok r)
    (hQ : Q () { w with reassembler := r, orders := fun n => w.orders (n + 1) }) :
    wp (Disk I) Q E (restoreReceiverCounts key duplicates conflicts) w :=
  wp_reassembly (Outcome.bind_of_eq_ok hr) hQ

theorem wp_ingestAt {fragment : Protocol.ProfileFragmentView} {a : Arrival} {observedAt : Nat}
    (hs : w.reassembler.Sound) (hf : OwnedFragment.fromView fragment = .ok a.fragment)
    (ha : a.Proper) {Q : IngestResult → World → Prop}
    (hQ : ∀ result r, w.reassembler.Ingests (w.orders 0) a observedAt result r →
      Q result { w with reassembler := r, orders := fun n => w.orders (n + 1) }) :
    wp (Disk I) Q E (ingestAt fragment a.source observedAt) w := by
  obtain ⟨result, r, hok, hi⟩ := ProfileReassembler.ingestOwned_cases hs (w.orders 0) ha observedAt
  refine wp_reassembly ?_ (hQ result r hi)
  rw [ProfileReassembler.ingestAt, hf, Outcome.mapErr_ok, Outcome.ok_bind]
  exact hok

end

/-! ### Storing what was given up -/

theorem stow_mind (c : Account) (m : ProfileMetadata) (t : ScanTally) :
    (c.stow m t).live = none ∧ (c.stow m t).cached = c.cached ∧
      (c.stow m t).waiting = c.waiting := by
  rw [Account.stow]
  split
  · exact ⟨rfl, rfl, rfl⟩
  · exact ⟨rfl, rfl, rfl⟩

/-- The accounts after the scans in flight were stored. -/
def landed (flying : List Flight) (A : ProfileKey → Account) : ProfileKey → Account :=
  flying.foldl (fun A f => Function.update A f.1.key ((A f.1.key).stow f.1 f.2)) A

theorem landed_of_not_mem {flying : List Flight} {A : ProfileKey → Account} {key : ProfileKey}
    (h : ∀ f ∈ flying, f.1.key ≠ key) : landed flying A key = A key := by
  induction flying generalizing A with
  | nil => rfl
  | cons f flying ih =>
      obtain ⟨hf, h⟩ := List.forall_mem_cons.mp h
      exact (ih h).trans (Function.update_of_ne hf.symm _ _)

/-- Storing a scan files what was pending under another status. -/
theorem pending_stow (c : Account) (m : ProfileMetadata) (t : ScanTally) :
    (c.stow m t).pending ⊆ c.pending := by
  have hsub : ∀ status, status ≠ .pending →
      ((refile c.entries t.accepted status).filter fun e => e.2 = .pending).map (·.1) ⊆
        c.pending := by
    intro status hs
    rw [Account.pending_refile hs]
    exact List.filter_subset_self _
  rw [Account.stow]
  split
  · exact hsub .assembled fun he => by cases he
  · exact hsub .incomplete fun he => by cases he

theorem pending_landed (flying : List Flight) (A : ProfileKey → Account) (key : ProfileKey) :
    (landed flying A key).pending ⊆ (A key).pending := by
  induction flying generalizing A with
  | nil => exact List.Subset.refl _
  | cons f flying ih =>
      refine List.Subset.trans (ih _) ?_
      dsimp only
      by_cases hk : key = f.1.key
      · subst hk
        rw [Function.update_self]
        exact pending_stow _ _ _
      · rw [Function.update_of_ne hk]
        exact List.Subset.refl _

theorem landed_update {flying : List Flight} {A : ProfileKey → Account} {key : ProfileKey}
    (h : ∀ f ∈ flying, f.1.key ≠ key) (c : Account) :
    landed flying (Function.update A key c) = Function.update (landed flying A) key c := by
  induction flying generalizing A with
  | nil => rfl
  | cons f flying ih =>
      obtain ⟨hf, h⟩ := List.forall_mem_cons.mp h
      rw [landed, List.foldl_cons, Function.update_of_ne hf, Function.update_comm hf.symm]
      exact ih h

section
variable {I : ProfileKey → Account → Prop} [Account.Stable I]
  {E : Fault AppError → World → Prop} {w : World} {A : ProfileKey → Account}

theorem wp_persistProfile (h : Holds I w.store A) {m : ProfileMetadata} {t : ScanTally}
    (hs : ScanOf m t) (hl : (A m.key).live = some t) {Q : Unit → World → Prop}
    (hQ : ∀ s, Holds I s (Function.update A m.key ((A m.key).stow m t)) →
      Q () { w with store := s }) :
    wp (Disk I) Q E (persistProfile (profileOf m t)) w := by
  obtain ⟨record, s, hok, hh⟩ := h.insertProfileScan hs hl
  exact wp_bind (wp_database hok ⟨_, hh⟩ (wp_pure (hQ s hh)))

/-- The scans in flight are stored one after the other.  Of a key that is not in flight the memory
may know more than the accounts. -/
theorem wp_persistProfiles {queue : List Arrival} {tail : List Flight} {B : ProfileKey → Account}
    {Q : Unit → World → Prop} {flying : List Flight} (h : Holds I w.store A)
    (hr : Remembers w.reassembler queue (flying ++ tail) B)
    (hAB : ∀ f ∈ flying, A f.1.key = B f.1.key)
    (hQ : ∀ s, Holds I s (landed flying A) → Remembers w.reassembler queue tail (landed flying B) →
      Q () { w with store := s }) :
    wp (Disk I) Q E (forEach persistProfile (profiles flying)) w := by
  induction flying generalizing w A B with
  | nil => exact wp_pure (hQ w.store h hr)
  | cons f flying ih =>
      obtain ⟨m, t⟩ := f
      obtain ⟨hself, hrest⟩ := List.forall_mem_cons.mp hAB
      have hl : (A m.key).live = some t := hself ▸ hr.live_of_flight rfl
      have hs := hr.scans (m, t) List.mem_cons_self
      have hnew := (List.nodup_cons.mp hr.distinct).1
      obtain ⟨hnone, hcached, hwaiting⟩ := stow_mind (B m.key) m t
      refine wp_bind (wp_persistProfile h hs hl fun s hh => ?_)
      refine ih (w := { w with store := s }) hh (hr.land rfl hnone hcached hwaiting)
        (fun f hf => ?_) hQ
      have hne : f.1.key ≠ m.key := fun he => hnew (List.mem_map.mpr
        ⟨f, List.mem_append_left _ hf, he⟩)
      rw [Function.update_of_ne hne, Function.update_of_ne hne]
      exact hrest f hf

end

end Vesta.Listen
