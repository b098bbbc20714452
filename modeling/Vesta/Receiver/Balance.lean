import Mathlib.Data.Multiset.Basic
import Vesta.Receiver.Refinement

/-!
# Receiver — Balance

The reassembler as a ledger.  A fragment whose ingestion is answered with progress or with a
completion enters; a profile that is handed out (completed, evicted, expired or drained) takes its
fragments with it.  Over any sequence of operations, what entered is what left and what is still
active (`run_balance`).

Each operation balances (`Op.balance`), and balances add up along a run.
-/

namespace Vesta.Receiver

open FirstWins (Rule Tally Verdict)

/-! ### Operations -/

/-- One call of the reassembler. -/
inductive Op where
  | ingest (order : HashOrder) (payload : List UInt8) (fragment : Protocol.ProfileFragmentView)
      (decoded : Protocol.decode payload = .ok (.profileFragment fragment))
      (source : SourceFragment) (observedAt : Nat)
  | expireBefore (order : HashOrder) (cutoff : Nat)
  | drainIncomplete (order : HashOrder)
  | restoreReceiverCounts (key : ProfileKey) (duplicates conflicts : Nat)

/-- What a call returns. -/
inductive Output where
  | ingested (result : Outcome ReassemblyError IngestResult)
  | profiles (profiles : List ReassembledProfile)
  | restored (result : Outcome ReassemblyError Unit)

/-- Make one call.  A call that fails leaves the state as it was. -/
def ProfileReassembler.apply (r : ProfileReassembler) : Op → Output × ProfileReassembler
  | .ingest order _ fragment _ source observedAt =>
      match r.ingestAt order fragment source observedAt with
      | .ok (result, r') => (.ingested (.ok result), r')
      | .error e => (.ingested (.error e), r)
  | .expireBefore order cutoff =>
      let (profiles, r') := r.expireBefore order cutoff
      (.profiles profiles, r')
  | .drainIncomplete order =>
      let (profiles, r') := r.drainIncomplete order
      (.profiles profiles, r')
  | .restoreReceiverCounts key duplicates conflicts =>
      match r.restoreReceiverCounts key duplicates conflicts with
      | .ok r' => (.restored (.ok ()), r')
      | .error e => (.restored (.error e), r)

/-- Make calls one after the other; each is logged with what it returned. -/
def ProfileReassembler.run (r : ProfileReassembler) :
    List Op → List (Op × Output) × ProfileReassembler
  | [] => ([], r)
  | op :: ops =>
      let (output, r₁) := r.apply op
      let (log, r') := r₁.run ops
      ((op, output) :: log, r')

/-- The fragment and the source of a call that accepted them. -/
def entered : Op × Output → Option Arrival
  | (.ingest _ _ fragment _ source _, .ingested (.ok ⟨.pending _, _, _⟩))
  | (.ingest _ _ fragment _ source _, .ingested (.ok ⟨.complete _, _, _⟩)) =>
      (OwnedFragment.fromView fragment).toOption.map (⟨·, source⟩)
  | _ => none

/-- The profiles that a call handed out. -/
def handedOut : Output → List ReassembledProfile
  | .ingested (.ok result) => result.evicted.toList ++ result.event.completed.toList
  | .profiles profiles => profiles
  | _ => []

/-- The fragments of the active scans. -/
def ProfileReassembler.live (r : ProfileReassembler) : List Arrival :=
  r.active.entries.flatMap (·.2.arrivals)

/-- The profile takes the fragments of one scan with it, no index twice, and all their steps. -/
structure Takes (profile : ReassembledProfile) (part : List Arrival) : Prop where
  fragments : profile.fragments = part.map (·.source)
  key : ∀ a ∈ part, a.key = .ofIdentity profile.scan.identity
  nodup : (part.map (·.index)).Nodup
  steps : profile.scan.steps.Perm (part.flatMap (·.fragment.steps))

theorem takes_profileOf {m : ProfileMetadata} {t : ScanTally} (h : ScanOf m t) :
    Takes (profileOf m t) t.accepted where
  fragments := rfl
  key a ha := by
    rw [Arrival.key, h.metadata a ha]
    exact h.wellFormed.key
  nodup := by
    have hnd := h.uniform.slots.map (f := UInt8.toNat) fun _ _ => UInt8.toNat_inj.mp
    rwa [List.map_map] at hnd
  steps := h.perm_steps

namespace ProfileReassembler

/-! ### The active scans -/

section
variable (r : ProfileReassembler) (key : ProfileKey)

theorem live_put (a : ActiveProfile) : (r.put key a).live = a.arrivals ++ (r.remove key).live := rfl

theorem live_complete (a : ActiveProfile) : (r.complete key a).live = (r.remove key).live := rfl

/-- The scan of a key apart from the others. -/
theorem live_perm : r.live.Perm ((r.tallyAt key).accepted ++ (r.remove key).live) := by
  cases hl : r.active.lookup key with
  | none =>
      have hnot : key ∉ r.active.entries.keys := AList.lookup_eq_none.mp hl
      have hkeep : (r.remove key).live = r.live :=
        congrArg (List.flatMap _) (List.kerase_of_notMem_keys hnot)
      rw [tallyAt_none hl, hkeep]
      rfl
  | some a =>
      have hmem : key ∈ r.active.entries.keys := AList.lookup_isSome.mp (by simp [hl])
      obtain ⟨b, l₁, l₂, hnot, hsplit, herase⟩ := List.exists_of_kerase hmem
      have hb : r.active.lookup key = some b := by
        refine (AList.mem_lookup_iff).mpr ?_
        rw [hsplit]
        simp
      obtain rfl : a = b := Option.some.inj (hl.symm.trans hb)
      rw [tallyAt_some hl]
      show (r.active.entries.flatMap _).Perm (a.arrivals ++ (List.kerase key _).flatMap _)
      rw [herase, hsplit, List.flatMap_append, List.flatMap_append, List.flatMap_cons]
      exact List.perm_append_comm_assoc ..

end

section
variable {r : ProfileReassembler}

theorem tallyAt_of_lookup {r' : ProfileReassembler} {key : ProfileKey}
    (h : r'.active.lookup key = r.active.lookup key) : r'.tallyAt key = r.tallyAt key := by
  rw [tallyAt, h, tallyAt]

/-- The profile of an active scan takes what was collected. -/
theorem Sound.takes (h : r.Sound) {key : ProfileKey} {a : ActiveProfile}
    (ha : r.active.lookup key = some a) : Takes a.finish (r.tallyAt key).accepted := by
  have hs := h.active key a ha
  rw [tallyAt_some ha, hs.picture, finish_of, ← hs.picture]
  exact takes_profileOf hs.scan

/-- An eviction takes the fragments of one scan. -/
theorem Sound.balance_evictFor (h : r.Sound) {order : HashOrder} {key : ProfileKey}
    {evicted : Option ReassembledProfile} {r₁ : ProfileReassembler}
    (hev : r.evictFor order key = (evicted, r₁)) :
    ∃ parts, List.Forall₂ Takes evicted.toList parts ∧ r.live.Perm (parts.flatten ++ r₁.live) := by
  rcases r.evictFor_cases order key with ⟨he, -⟩ | ⟨oldest, a, -, ha, -, -, he⟩
  · cases he.symm.trans hev
    exact ⟨[], .nil, .refl _⟩
  · cases he.symm.trans hev
    exact ⟨[(r.tallyAt oldest).accepted], .cons (h.takes ha) .nil, by
      simpa using r.live_perm oldest⟩

/-- Taking scans takes their fragments. -/
theorem Sound.balance_takeActive (h : r.Sound) (keys : List ProfileKey) :
    ∃ parts, List.Forall₂ Takes (r.takeActive keys).1 parts ∧
      r.live.Perm (parts.flatten ++ (r.takeActive keys).2.live) := by
  induction keys generalizing r with
  | nil => exact ⟨[], .nil, .refl _⟩
  | cons key keys ih =>
      obtain ⟨parts, hparts, hperm⟩ := ih (h.remove key)
      have hsplit := (r.live_perm key).trans (hperm.append_left _)
      rw [takeActive]
      cases hl : r.active.lookup key with
      | none =>
          rw [tallyAt_none hl] at hsplit
          exact ⟨parts, hparts, hsplit⟩
      | some a =>
          refine ⟨(r.tallyAt key).accepted :: parts, .cons (h.takes hl) hparts, ?_⟩
          rw [List.flatten_cons, List.append_assoc]
          exact hsplit

/-- Ingesting takes what it hands out and adds what it accepts. -/
theorem Ingests.balance (h : r.Sound) {order : HashOrder} {a : Arrival} (ha : a.Proper)
    {observedAt : Nat} {result : IngestResult} {r' : ProfileReassembler}
    (hi : r.Ingests order a observedAt result r') :
    ∃ parts, List.Forall₂ Takes (result.evicted.toList ++ result.event.completed.toList) parts ∧
      ((match result.event with
        | .pending _ | .complete _ => [a]
        | _ => []) ++ r.live).Perm (parts.flatten ++ r'.live) := by
  cases hi with
  | late c hc hk =>
      refine ⟨[], ?_, ?_⟩
      all_goals rcases c.classify_cases a.fragment with he | he
      all_goals rw [he]
      · exact .nil
      · exact .nil
      · exact .refl _
      · exact .refl _
  | counted b hc hb hv =>
      have hs := h.active _ b hb
      have hacc : (scanRule.step b.tally a).accepted = b.tally.accepted := by
        rcases Rule.step_accepted (R := scanRule) (t := b.tally) (a := a) with he | ⟨hf, -⟩
        · exact he
        · exact absurd hf hv
      have harr := congrArg Tally.accepted
        (ActiveProfile.tally_of (hs.scan.step ha fun he => absurd he hs.some) b.lastObservedAt)
      have hperm := r.live_perm a.key
      rw [tallyAt_some hb, ← hacc, ← harr] at hperm
      rw [eventOf]
      cases hv' : scanRule.verdict b.tally.accepted a.fragment with
      | fresh => exact absurd hv' hv
      | repeated => exact ⟨[], .nil, hperm⟩
      | clash => exact ⟨[], .nil, hperm⟩
  | accepted evicted r₁ last hc hev hv hs hf =>
      obtain ⟨parts, hparts, hperm⟩ := h.balance_evictFor hev
      have hstep := Rule.step_fresh (R := scanRule) (t := r.tallyAt a.key) hv
      have harr := congrArg Tally.accepted (ActiveProfile.tally_of hs last)
      have hperm₁ := r₁.live_perm a.key
      rw [tallyAt_of_lookup (lookup_evictFor hev).1] at hperm₁
      have hevent : eventOf (r.tallyAt a.key) a = .pending ⟨a.key,
          received (scanRule.step (r.tallyAt a.key) a).accepted,
          Bitmap.lowMask a.fragment.metadata.expectedFragmentCount.toNat &&&
            ~~~received (scanRule.step (r.tallyAt a.key) a).accepted⟩ := by
        rw [eventOf, hv]
        exact if_neg hf
      refine ⟨parts, ?_, ?_⟩
      · rw [hevent]
        simpa [FragmentEvent.completed] using hparts
      · rw [hevent, live_put, show (ActiveProfile.of _ _ last).arrivals = _ from harr, hstep]
        -- the fragment goes to the end of what its scan accepted
        calc ([a] ++ r.live).Perm ([a] ++ (parts.flatten ++ r₁.live)) := hperm.append_left _
          _ |>.Perm ([a] ++ (parts.flatten ++ ((r.tallyAt a.key).accepted ++
                (r₁.remove a.key).live))) := (hperm₁.append_left _).append_left _
          _ |>.Perm (parts.flatten ++ (((r.tallyAt a.key).accepted ++ [a]) ++
                (r₁.remove a.key).live)) := by
              refine (List.perm_append_comm_assoc ..).trans (List.Perm.append_left _ ?_)
              rw [List.append_assoc]
              exact List.perm_append_comm_assoc ..
  | completed evicted r₁ last hc hev hv hs hf =>
      obtain ⟨parts, hparts, hperm⟩ := h.balance_evictFor hev
      have hstep := Rule.step_fresh (R := scanRule) (t := r.tallyAt a.key) hv
      have hperm₁ := r₁.live_perm a.key
      rw [tallyAt_of_lookup (lookup_evictFor hev).1] at hperm₁
      have hevent : eventOf (r.tallyAt a.key) a =
          .complete (profileOf a.fragment.metadata (scanRule.step (r.tallyAt a.key) a)) := by
        rw [eventOf, hv]
        exact if_pos hf
      refine ⟨parts ++ [(r.tallyAt a.key).accepted ++ [a]], ?_, ?_⟩
      · rw [hevent]
        refine List.rel_append hparts (.cons ?_ .nil)
        have htakes := takes_profileOf hs
        rwa [hstep] at htakes ⊢
      · rw [hevent, live_complete, List.flatten_append, List.flatten_singleton]
        calc ([a] ++ r.live).Perm ([a] ++ (parts.flatten ++ r₁.live)) := hperm.append_left _
          _ |>.Perm ([a] ++ (parts.flatten ++ ((r.tallyAt a.key).accepted ++
                (r₁.remove a.key).live))) := (hperm₁.append_left _).append_left _
          _ |>.Perm (parts.flatten ++ ((r.tallyAt a.key).accepted ++ [a]) ++
                (r₁.remove a.key).live) := by
              refine (List.perm_append_comm_assoc ..).trans ?_
              rw [List.append_assoc]
              refine List.Perm.append_left _ ?_
              rw [List.append_assoc]
              exact List.perm_append_comm_assoc ..

end

/-- The sources of an active scan are those of its fragments. -/
theorem Sound.sources {r : ProfileReassembler} (h : r.Sound) :
    r.live.map (·.source) = r.active.entries.flatMap (·.2.sources) := by
  rw [live, List.map_flatMap, List.flatMap_def, List.flatMap_def]
  refine congrArg List.flatten (List.map_congr_left fun entry hmem => ?_)
  have hl : r.active.lookup entry.1 = some entry.2 :=
    AList.mem_lookup_iff.mpr (by simpa using hmem)
  exact (congrArg ActiveProfile.sources (h.active _ _ hl).picture).symm

/-- **Each call balances**, keeps the state sound and does not panic. -/
theorem Sound.apply {r : ProfileReassembler} (h : r.Sound) (op : Op) :
    (r.apply op).2.Sound ∧ (r.apply op).1 ≠ .ingested (.error .panicked) ∧
      ∃ parts, List.Forall₂ Takes (handedOut (r.apply op).1) parts ∧
        ((entered (op, (r.apply op).1)).toList ++ r.live).Perm
          (parts.flatten ++ (r.apply op).2.live) := by
  cases op with
  | ingest order payload fragment decoded source observedAt =>
      obtain ⟨f, hframe⟩ := isFrame_of_decode decoded
      obtain ⟨v, hd, hf⟩ := hframe
      obtain rfl : fragment = v := by
        cases decoded.symm.trans hd
        rfl
      have hat : r.ingestAt order fragment source observedAt =
          r.ingestOwned order f source observedAt := by
        rw [ingestAt, hf, Outcome.mapErr_ok, Outcome.ok_bind]
      by_cases hsource : source.fragmentIndex = f.fragmentIndex
      · have ha : (⟨f, source⟩ : Arrival).Proper := ⟨IsFrame.wellFormed ⟨_, decoded, hf⟩, hsource⟩
        obtain ⟨result, r', hok, hi⟩ := ingestOwned_cases h order ha observedAt
        -- only a fragment that is new or completes enters
        have happly : r.apply (.ingest order payload fragment decoded source observedAt) =
            (.ingested (.ok result), r') := by
          rw [ProfileReassembler.apply, hat,
            show r.ingestOwned order f source observedAt = _ from hok]
        obtain ⟨parts, hparts, hperm⟩ := hi.balance h ha
        rw [happly]
        refine ⟨hi.sound h ha, (fun he => by cases he), parts, hparts, ?_⟩
        obtain ⟨event, evicted, snapshot⟩ := result
        cases event with
        | pending _ | complete _ =>
            rw [entered, hf]
            exact hperm
        | duplicate _ _ | conflict _ _ => exact hperm
      -- a source of another index is refused before anything is looked at
      · have happly : r.apply (.ingest order payload fragment decoded source observedAt) =
            (.ingested (.error (.error (.sourceFragmentIndex source.fragmentIndex
              f.fragmentIndex))), r) := by
          rw [ProfileReassembler.apply, hat, ingestOwned, Outcome.failIf_pos hsource]
          rfl
        rw [happly]
        exact ⟨h, (fun he => by cases he), [], .nil, .refl _⟩
  | expireBefore order cutoff =>
      obtain ⟨parts, hparts, hperm⟩ := h.balance_takeActive
        ((order.arrange r.active.keys).filter fun key =>
          (r.active.lookup key).any fun scan => scan.lastObservedAt < cutoff)
      exact ⟨h.expireBefore order cutoff, (fun he => by cases he), parts, hparts, hperm⟩
  | drainIncomplete order =>
      obtain ⟨parts, hparts, hperm⟩ := h.balance_takeActive (order.arrange r.active.keys)
      exact ⟨h.drainIncomplete order, (fun he => by cases he), parts, hparts, hperm⟩
  | restoreReceiverCounts key duplicates conflicts =>
      cases hl : r.active.lookup key with
      | none =>
          have happly : r.apply (.restoreReceiverCounts key duplicates conflicts) =
              (.restored (.error (.error .internalState)), r) := by
            rw [ProfileReassembler.apply, restoreReceiverCounts, hl]
            rfl
          rw [happly]
          exact ⟨h, (fun he => by cases he), [], .nil, .refl _⟩
      | some a =>
          have happly := ProfileReassembler.apply.eq_4 r key duplicates conflicts
          rw [restoreReceiverCounts_eq h hl] at happly
          rw [happly]
          refine ⟨h.restore hl duplicates conflicts, (fun he => by cases he), [], .nil, ?_⟩
          -- the counts change, the fragments do not
          have harr := congrArg Tally.accepted (ActiveProfile.tally_of
            ((h.active key a hl).restored duplicates conflicts) a.lastObservedAt)
          have hperm := r.live_perm key
          rw [tallyAt_some hl] at hperm
          rw [live_put,
            show (ActiveProfile.of a.metadata _ a.lastObservedAt).arrivals = _ from harr]
          exact hperm

/-- Two balances, one after the other. -/
theorem balance_trans {entering entering' before middle after parted parted' : List Arrival}
    (h : (entering ++ before).Perm (parted ++ middle))
    (h' : (entering' ++ middle).Perm (parted' ++ after)) :
    (entering ++ entering' ++ before).Perm (parted ++ parted' ++ after) :=
  calc (entering ++ entering' ++ before).Perm (entering' ++ (entering ++ before)) := by
        rw [List.append_assoc]
        exact List.perm_append_comm_assoc ..
    _ |>.Perm (entering' ++ (parted ++ middle)) := h.append_left _
    _ |>.Perm (parted ++ (entering' ++ middle)) := List.perm_append_comm_assoc ..
    _ |>.Perm (parted ++ (parted' ++ after)) := h'.append_left _
    _ |>.Perm (parted ++ parted' ++ after) := by rw [List.append_assoc]

/-- Calls balance one after the other. -/
theorem Sound.run {ops : List Op} : ∀ {r : ProfileReassembler}, r.Sound →
    (r.run ops).2.Sound ∧ (∀ entry ∈ (r.run ops).1, entry.2 ≠ .ingested (.error .panicked)) ∧
      ∃ parts, List.Forall₂ Takes ((r.run ops).1.flatMap fun entry => handedOut entry.2) parts ∧
        ((r.run ops).1.filterMap entered ++ r.live).Perm
          (parts.flatten ++ (r.run ops).2.live) := by
  induction ops with
  | nil =>
      intro r h
      exact ⟨h, List.forall_mem_nil _, [], .nil, .refl r.live⟩
  | cons op ops ih =>
      intro r h
      obtain ⟨h₁, hpanic, parts, hparts, hperm⟩ := h.apply op
      obtain ⟨h', hpanics, parts', hparts', hperm'⟩ := ih h₁
      have hrun : r.run (op :: ops) =
          ((op, (r.apply op).1) :: ((r.apply op).2.run ops).1, ((r.apply op).2.run ops).2) := rfl
      rw [hrun]
      generalize (r.apply op).2.run ops = rest at h' hpanics hparts' hperm' ⊢
      refine ⟨h', List.forall_mem_cons.mpr ⟨hpanic, hpanics⟩, parts ++ parts',
        List.rel_append hparts hparts', ?_⟩
      have hcons : ((op, (r.apply op).1) :: rest.1).filterMap entered =
          (entered (op, (r.apply op).1)).toList ++ rest.1.filterMap entered := by
        cases he : entered (op, (r.apply op).1) with
        | none => rw [List.filterMap_cons_none he, Option.toList_none, List.nil_append]
        | some a => rw [List.filterMap_cons_some he, Option.toList_some, List.singleton_append]
      rw [hcons, List.flatten_append]
      exact balance_trans hperm hperm'

end ProfileReassembler

/-- **No accepted fragment is lost or duplicated.**  After any sequence of calls on a fresh
reassembler, the sources that entered are those of the profiles handed out together with those of
the scans still active.  What entered falls into parts, one for each profile handed out, and the
rest, which is active; a profile takes its part, of one key, with no index twice, and holds exactly
the steps of its fragments. -/
theorem run_balance {maxActive : Nat} (hpos : 0 < maxActive) (ops : List Op) :
    let log := ((⟨∅, [], maxActive, hpos⟩ : ProfileReassembler).run ops).1
    let r := ((⟨∅, [], maxActive, hpos⟩ : ProfileReassembler).run ops).2
    let profiles := log.flatMap fun entry => handedOut entry.2
    (((log.filterMap entered).map (·.source) : List SourceFragment) : Multiset SourceFragment) =
        ((profiles.flatMap (·.fragments) : List SourceFragment) : Multiset SourceFragment) +
          (r.active.entries.flatMap (·.2.sources) : List SourceFragment) ∧
      (∃ parts, List.Forall₂ Takes profiles parts ∧
        (log.filterMap entered).Perm (parts.flatten ++ r.live)) ∧
      ∀ entry ∈ log, entry.2 ≠ .ingested (.error .panicked) := by
  intro log r profiles
  obtain ⟨hr, hpanic, parts, hparts, hperm⟩ :=
    ProfileReassembler.Sound.run (ProfileReassembler.sound_fresh maxActive hpos)
  have hperm : (log.filterMap entered).Perm (parts.flatten ++ r.live) := by
    simpa [ProfileReassembler.live] using hperm
  refine ⟨?_, ⟨parts, hparts, hperm⟩, hpanic⟩
  have hfragments : profiles.flatMap (·.fragments) = parts.flatten.map (·.source) := by
    rw [List.map_flatten, List.flatMap_def]
    refine congrArg List.flatten ?_
    exact List.forall₂_eq_eq_eq ▸ (List.forall₂_map_left_iff.mpr (List.forall₂_map_right_iff.mpr
      (hparts.imp fun _ _ h => h.fragments)))
  rw [hfragments, ← hr.sources, Multiset.coe_add, Multiset.coe_eq_coe, ← List.map_append]
  exact hperm.map _

/-- The call that ingests a fragment of a blank scan. -/
def blankOp (k : Nat) (hk : k < 2) : Op :=
  .ingest .stored (blankIngest k hk).payload (blankIngest k hk).fragment
    (blankIngest k hk).decoded (blankIngest k hk).source k

theorem run_balance_blank :
    let ops := [blankOp 1 (by decide), .expireBefore .stored 2, blankOp 0 (by decide)]
    let log := ((⟨∅, [], 1, Nat.one_pos⟩ : ProfileReassembler).run ops).1
    let r := ((⟨∅, [], 1, Nat.one_pos⟩ : ProfileReassembler).run ops).2
    let profiles := log.flatMap fun entry => handedOut entry.2
    (((log.filterMap entered).map (·.source) : List SourceFragment) : Multiset SourceFragment) =
        ((profiles.flatMap (·.fragments) : List SourceFragment) : Multiset SourceFragment) +
          (r.active.entries.flatMap (·.2.sources) : List SourceFragment) :=
  (run_balance Nat.one_pos
    [blankOp 1 (by decide), .expireBefore .stored 2, blankOp 0 (by decide)]).1

end Vesta.Receiver
