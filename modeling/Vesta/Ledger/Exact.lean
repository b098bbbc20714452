import Vesta.Ledger.Account

/-!
# Ledger — Exact

Accounts from which the archive can be read off.  A fragment is a stray when its scan was complete
before it came and has no fragment at its index.  As long as no fragment of a key is a stray, the
receiver holds at most one scan of the key, and that scan together with what is pending gives what
collecting the whole archive would have given (`Account.Exact`): nothing is lost or counted twice,
whichever way a fragment was taken.
-/

namespace Vesta.Ledger

open FirstWins (Rule Tally Verdict)
open Receiver (Arrival ScanTally ScanOf Full ProfileKey scanRule scanOf_collect)
open Store (FragmentStorageStatus)

/-- No fragment comes after its scan was complete with an index that the scan does not have. -/
def StrayFree (archive : List Arrival) : Prop :=
  ∀ before a after, archive = before ++ a :: after → Whole (scanRule.collect .empty before) →
    ∃ b ∈ (scanRule.collect .empty before).accepted, b.index = a.index

theorem StrayFree.of_append {archive more : List Arrival} (h : StrayFree (archive ++ more)) :
    StrayFree archive := by
  rintro before a after rfl
  exact h before a (after ++ more) (by simp)

/-- Fragments that agree on their number are no strays. -/
theorem StrayFree.of_counts {archive : List Arrival} (hp : ∀ a ∈ archive, a.Proper)
    (hc : ∀ a ∈ archive, ∀ b ∈ archive,
      a.fragment.metadata.expectedFragmentCount = b.fragment.metadata.expectedFragmentCount) :
    StrayFree archive := by
  rintro before a after rfl ⟨m, hs, hf⟩
  have ha : a ∈ before ++ a :: after := by simp
  obtain ⟨b, hb, -⟩ := hf 0 hs.wellFormed.fragments_pos
  have hbefore : b ∈ before := (Rule.mem_of_mem_collect hb).resolve_left nofun
  refine hf a.index ?_
  rw [← hs.metadata b hb, hc b (List.mem_append_left _ hbefore) a ha]
  exact (hp a ha).wellFormed.index_lt

/-- The invariant that a key has no stray. -/
def Unstrayed (_ : ProfileKey) (c : Account) : Prop := StrayFree c.archive

instance : Account.Stable Unstrayed where
  moves := by
    intro key c c' _ hm hi
    cases hm <;> exact hi

namespace Account

/-- The stored scan, or an empty one. -/
def base (c : Account) : ScanTally := (c.whole.orElse fun _ => c.part).getD .empty

/-- The stored scan and the pending fragments stand for the archive. -/
structure Exact (c : Account) : Prop where
  single : c.whole = none ∨ c.part = none
  split : ∃ done, c.pending = done ++ c.waiting ∧ (∀ a ∈ done, a ∈ held c.live) ∧
    ∀ t, c.live = some t → t.Equiv (scanRule.collect c.base done)
  kept : c.entries.map (·.1) = c.archive
  collected : (scanRule.collect c.base c.pending).Equiv (scanRule.collect .empty c.archive)
  linked : ∀ a ∈ c.base.accepted, ∀ b ∈ c.pending, a.source.packetId < b.source.packetId
  duplicates : ∀ a, (a, .duplicate) ∈ c.entries →
    scanRule.verdict c.base.accepted a.fragment = .repeated
  conflicts : ∀ a, (a, .conflict) ∈ c.entries →
    scanRule.verdict c.base.accepted a.fragment = .clash ∧ 1 ≤ c.base.clashes

theorem exact_empty : empty.Exact where
  single := .inl rfl
  split := ⟨[], rfl, nofun, nofun⟩
  kept := rfl
  collected := .refl _
  linked := nofun
  duplicates := nofun
  conflicts := nofun

section
variable {c : Account} {t : ScanTally}

theorem base_of_whole (h : c.whole = some t) : c.base = t := by
  rw [base, h]
  rfl

theorem base_of_part (h : c.whole = none) (hp : c.part = some t) : c.base = t := by
  rw [base, h, hp]
  rfl

theorem base_of_none (h : c.whole = none) (hp : c.part = none) : c.base = .empty := by
  rw [base, h, hp]
  rfl

end

/-- What stays pending when fragments are filed under another status. -/
theorem pending_refile {entries : List Entry} {arrivals : List Arrival}
    {status : FragmentStorageStatus} (hs : status ≠ .pending) :
    ((refile entries arrivals status).filter fun e => e.2 = .pending).map (·.1) =
      ((entries.filter fun e => e.2 = .pending).map (·.1)).filter fun a => a ∉ arrivals := by
  induction entries with
  | nil => rfl
  | cons e entries ih =>
      obtain ⟨a, s⟩ := e
      have hcons : refile ((a, s) :: entries) arrivals status =
          (if a ∈ arrivals then (a, status) else (a, s)) :: refile entries arrivals status := rfl
      rw [hcons]
      by_cases ha : a ∈ arrivals <;> by_cases hp : s = .pending
      all_goals simp [ha, hp, hs, ih]

/-- A pending fragment goes from among the others. -/
theorem filter_pending {done rest : List Arrival} {a : Arrival} (hnd : (done ++ a :: rest).Nodup) :
    (done ++ a :: rest).filter (fun b => b ∉ [a]) = done ++ rest := by
  have hnot : a ∉ done ++ rest := (List.nodup_cons.mp (List.nodup_middle.mp hnd)).1
  rw [List.filter_append, List.filter_cons_of_neg (by simp), ← List.filter_append]
  exact List.filter_eq_self.mpr fun b hb => by simpa using ne_of_mem_of_not_mem hb hnot

/-- The scan bears out how duplicates and conflicts were filed, and counts a conflict if there is
one. -/
structure Judged (t : ScanTally) (entries : List Entry) : Prop where
  duplicates : ∀ a, (a, .duplicate) ∈ entries →
    scanRule.verdict t.accepted a.fragment = .repeated
  conflicts : ∀ a, (a, .conflict) ∈ entries →
    scanRule.verdict t.accepted a.fragment = .clash ∧ 1 ≤ t.clashes

namespace Judged

variable {t : ScanTally} {entries : List Entry} (h : Judged t entries)
include h

/-- So does a scan that has grown, for what was filed before. -/
theorem mono {t' : ScanTally} {entries' : List Entry} (hsub : t.accepted ⊆ t'.accepted)
    (hu : scanRule.Uniform t'.accepted) (hle : t.clashes ≤ t'.clashes)
    (hold : ∀ a s, s = .duplicate ∨ s = .conflict → (a, s) ∈ entries' → (a, s) ∈ entries) :
    Judged t' entries' where
  duplicates a ha := by
    have hv := h.duplicates a (hold a .duplicate (.inl rfl) ha)
    rw [hu.verdict_mono hsub (by rw [hv]; exact nofun), hv]
  conflicts a ha := by
    obtain ⟨hv, hone⟩ := h.conflicts a (hold a .conflict (.inr rfl) ha)
    rw [hu.verdict_mono hsub (by rw [hv]; exact nofun), hv]
    exact ⟨rfl, hone.trans hle⟩

/-- So does the scan that counts one more, for it as well. -/
theorem count (hb : scanRule.Bounded t) {a : Arrival} {v : Verdict}
    (hv : scanRule.verdict t.accepted a.fragment = v) (hne : v ≠ .fresh) :
    Judged (scanRule.count v t) (refile entries [a] (statusOf v)) where
  duplicates b hmem := by
    rw [Rule.count_accepted]
    rcases mem_refile.mp hmem with ⟨hba, hs, -⟩ | ⟨-, hmem⟩
    · rw [List.mem_singleton.mp hba]
      cases v with
      | fresh => exact absurd rfl hne
      | repeated => exact hv
      | clash => cases hs
    · exact h.duplicates b hmem
  conflicts b hmem := by
    rw [Rule.count_accepted]
    rcases mem_refile.mp hmem with ⟨hba, hs, -⟩ | ⟨-, hmem⟩
    · rw [List.mem_singleton.mp hba]
      cases v with
      | fresh => cases hs
      | repeated => cases hs
      | clash => exact ⟨hv, le_min (Nat.le_add_left 1 _) (by decide)⟩
    · obtain ⟨hclash, hone⟩ := h.conflicts b hmem
      exact ⟨hclash, hone.trans (Rule.clashes_le_count hb v)⟩

end Judged

theorem Exact.judged {c : Account} (he : c.Exact) : Judged c.base c.entries :=
  ⟨he.duplicates, he.conflicts⟩

theorem statusOf_ne_pending (v : Verdict) : statusOf v ≠ .pending := by
  cases v <;> exact nofun

namespace Sound

variable {key : ProfileKey} {c : Account} (h : c.Sound key)
include h

theorem proper_of_pending {a : Arrival} (ha : a ∈ c.pending) : a.Proper :=
  (h.proper a (h.mem_archive (mem_pending.mp ha))).1

/-- The stored scan is a collection. -/
theorem base_cases : c.base = .empty ∨ Started c.base := by
  cases hw : c.whole with
  | some t =>
      rw [base_of_whole hw]
      exact .inr (.of_whole (h.whole t hw))
  | none =>
      cases hp : c.part with
      | some t =>
          rw [base_of_part hw hp]
          exact .inr (.of_part (h.part t hp))
      | none => exact .inl (base_of_none hw hp)

theorem uniform_base : scanRule.Uniform c.base.accepted := by
  rcases h.base_cases with he | ⟨m, hs, -⟩
  · rw [he]
    exact .nil
  · exact hs.uniform

theorem bounded_base : scanRule.Bounded c.base := by
  rcases h.base_cases with he | ⟨m, hs, -⟩
  · rw [he]
    exact Rule.bounded_empty
  · exact hs.bounded

theorem mem_archive_of_base {a : Arrival} (ha : a ∈ c.base.accepted) : a ∈ c.archive := by
  cases hw : c.whole with
  | some t =>
      rw [base_of_whole hw] at ha
      exact h.mem_archive ((h.assembled a).mpr (by rwa [hw]))
  | none =>
      cases hp : c.part with
      | some t =>
          rw [base_of_part hw hp] at ha
          exact h.mem_archive ((h.incomplete a).mpr (by rwa [hp]))
      | none =>
          rw [base_of_none hw hp] at ha
          cases ha

theorem pairwise_pending :
    c.pending.Pairwise fun a b => a.source.packetId < b.source.packetId :=
  h.ordered.sublist (c.pending_sublist.trans h.filed)

theorem nodup_pending : c.pending.Nodup := h.nodup_entries.sublist c.pending_sublist

end Sound

/-- The scan in memory is stored and leaves the memory. -/
def stored (c : Account) (t : ScanTally) (status : FragmentStorageStatus)
    (whole part : Option ScanTally) : Account :=
  { c with
    entries := refile c.entries t.accepted status
    whole := whole
    part := part
    live := none }

namespace Exact

variable {key : ProfileKey} {c : Account} (he : c.Exact) (h : c.Sound key)
include he h

/-- The stored complete scan has the index of every pending fragment, unless one is a stray. -/
theorem index_of_pending (hf : StrayFree c.archive) {t : ScanTally} (hw : c.whole = some t)
    {a : Arrival} (ha : a ∈ c.pending) : ∃ b ∈ t.accepted, b.index = a.index := by
  obtain ⟨m, hs, hfull⟩ := h.whole t hw
  have hbase := base_of_whole hw
  obtain ⟨before, after, harchive⟩ := List.append_of_mem (h.mem_archive (mem_pending.mp ha))
  have hord := h.ordered
  rw [harchive] at hord
  have hacc : t.accepted.Perm (scanRule.collect .empty c.archive).accepted := by
    have hcol := he.collected.accepted
    rwa [hbase, hfull.collect hs fun b hb => h.proper_of_pending hb] at hcol
  -- the sources of the scan came before the pending fragment
  have hsub : ∀ b ∈ t.accepted, b ∈ (scanRule.collect .empty before).accepted := by
    intro b hb
    have hlt := he.linked b (hbase ▸ hb) a ha
    have hmem := hacc.mem_iff.mp hb
    rw [harchive, Rule.collect_append] at hmem
    refine (Rule.mem_of_mem_collect hmem).resolve_right fun hb' => ?_
    rcases List.mem_cons.mp hb' with rfl | hb'
    · exact lt_irrefl _ hlt
    · have hcons := List.rel_of_pairwise_cons (List.pairwise_append.mp hord).2.1 hb'
      exact lt_asymm hlt hcons
  -- so what came before was complete, and the pending fragment is no stray
  have hwhole : Whole (scanRule.collect .empty before) := by
    obtain ⟨b, hb, -⟩ := hfull 0 hs.wellFormed.fragments_pos
    have hne : before ≠ [] := by
      rintro rfl
      exact List.not_mem_nil (hsub b hb)
    have hproper : ∀ x ∈ before, x.Proper := fun x hx =>
      (h.proper x (harchive ▸ List.mem_append_left _ hx)).1
    obtain ⟨m', hs', -⟩ := scanOf_collect hproper hne
    obtain rfl : m = m' := (hs.metadata b hb).symm.trans (hs'.metadata b (hsub b hb))
    refine ⟨m, hs', fun i hi => ?_⟩
    obtain ⟨x, hx, hxi⟩ := hfull i hi
    exact ⟨x, hsub x hx, hxi⟩
  obtain ⟨b, hb, hbi⟩ := hf before a after harchive hwhole
  refine ⟨b, hacc.mem_iff.mpr ?_, hbi⟩
  rw [harchive, Rule.collect_append]
  exact Rule.accepted_prefix.subset hb

/-- With a stored complete scan, nothing is in memory. -/
theorem live_of_whole (hf : StrayFree c.archive) {t : ScanTally} (hw : c.whole = some t) :
    c.live = none := by
  cases hl : c.live with
  | none => rfl
  | some u =>
      obtain ⟨a, ha⟩ := List.exists_mem_of_ne_nil _ (h.live u hl).ne_nil
      have ha : a ∈ held c.live := by rwa [hl]
      have hp : (a, .pending) ∈ c.entries := by
        rcases h.sources a ha with hp | ⟨hp, -⟩
        · have hnone := he.single.resolve_left (by rw [hw]; exact nofun)
          rw [hnone] at hp
          cases hp
        · exact hp
      -- a pending fragment in memory has an index that the stored scan has too
      obtain ⟨b, hb, hbi⟩ := he.index_of_pending h hf hw (mem_pending.mpr hp)
      have hb : b ∈ held c.whole := by rwa [hw]
      exact absurd hbi (h.apartLive b hb a ha)

theorem whole_none_of_live (hf : StrayFree c.archive) {t : ScanTally} (hl : c.live = some t) :
    c.whole = none := by
  cases hw : c.whole with
  | none => rfl
  | some w => cases hl.symm.trans (he.live_of_whole h hf hw)

omit h in
theorem whole_none_of_part {t : ScanTally} (hp : c.part = some t) : c.whole = none :=
  he.single.resolve_right (by rw [hp]; exact nofun)

/-! ### What the receiver does to an account -/

theorem receive {a : Arrival} (hnew : ∀ b ∈ c.archive, b.source.packetId < a.source.packetId) :
    (c.receive a).Exact := by
  have hpending : (c.receive a).pending = c.pending ++ [a] := by
    simp [pending, Account.receive]
  obtain ⟨done, hsplit, hdone, hlive⟩ := he.split
  have hentry : ∀ b s, s ≠ .pending → ((b, s) ∈ (c.receive a).entries → (b, s) ∈ c.entries) := by
    intro b s hs hmem
    simpa [Account.receive, hs] using hmem
  exact
    { single := he.single
      split := by
        refine ⟨done, ?_, hdone, hlive⟩
        rw [hpending, hsplit, List.append_assoc]
        rfl
      kept := by
        show (c.entries ++ [(a, FragmentStorageStatus.pending)]).map (·.1) = c.archive ++ [a]
        rw [List.map_append, he.kept]
        rfl
      -- one more on either side
      collected := by
        show (scanRule.collect c.base _).Equiv (scanRule.collect .empty (c.archive ++ [a]))
        rw [hpending, Rule.collect_concat, Rule.collect_concat]
        exact Rule.step_equiv he.collected
      linked := by
        intro x hx b hb
        rw [hpending] at hb
        rcases List.mem_append.mp hb with hb | hb
        · exact he.linked x hx b hb
        · rw [List.mem_singleton.mp hb]
          exact hnew x (h.mem_archive_of_base hx)
      duplicates := fun b hb => he.duplicates b (hentry b .duplicate (by decide) hb)
      conflicts := fun b hb => he.conflicts b (hentry b .conflict (by decide) hb) }

omit h in
/-- The stored scan counts a fragment that meets one of its own. -/
theorem base_note {a : Arrival} {v : Verdict}
    (hhit : (∃ b ∈ held c.whole, b.index = a.index) ∨ ∃ b ∈ held c.part, b.index = a.index) :
    (c.note a v).base = scanRule.count v c.base := by
  cases hw : c.whole with
  | some t =>
      have hnone := he.single.resolve_left (by rw [hw]; exact nofun)
      rw [hw, hnone] at hhit
      have hex := hhit.resolve_right (fun ⟨b, hb, _⟩ => List.not_mem_nil hb)
      have hw' : (c.note a v).whole = some (scanRule.count v t) := by
        show countAt c.whole _ _ = _
        rw [hw]
        exact congrArg some (if_pos hex)
      rw [base_of_whole hw', base_of_whole hw]
  | none =>
      have hw' : (c.note a v).whole = none := by
        show countAt c.whole _ _ = _
        rw [hw]
        rfl
      rw [hw] at hhit
      have hex := hhit.resolve_left (fun ⟨b, hb, _⟩ => List.not_mem_nil hb)
      cases hp : c.part with
      | none =>
          rw [hp] at hex
          obtain ⟨b, hb, -⟩ := hex
          cases hb
      | some t =>
          rw [hp] at hex
          have hp' : (c.note a v).part = some (scanRule.count v t) := by
            show countAt c.part _ _ = _
            rw [hp]
            exact congrArg some (if_pos hex)
          rw [base_of_part hw' hp', base_of_part hw hp]

theorem note {a : Arrival} {rest : List Arrival} (hw : c.waiting = a :: rest) {v : Verdict}
    (hhit : (∃ b ∈ held c.whole, b.index = a.index) ∨ ∃ b ∈ held c.part, b.index = a.index)
    (hv : scanRule.verdict c.base.accepted a.fragment = v) (hne : v ≠ .fresh) :
    (c.note a v).Exact := by
  have hbase := he.base_note (v := v) hhit
  have hstep : scanRule.step c.base a = scanRule.count v c.base :=
    Rule.step_eq_count (R := scanRule) hv hne
  have hacc : (c.note a v).base.accepted = c.base.accepted := by
    rw [hbase, Rule.count_accepted]
  have hjudged : Judged (c.note a v).base (c.note a v).entries := by
    rw [hbase]
    exact he.judged.count h.bounded_base hv hne
  obtain ⟨done, hsplit, hdone, hlive⟩ := he.split
  have hnd := h.nodup_pending
  rw [hsplit, hw] at hnd
  have hpending : (c.note a v).pending = done ++ rest := by
    show ((refile _ _ _).filter _).map _ = _
    rw [pending_refile (statusOf_ne_pending v)]
    show c.pending.filter _ = _
    rw [hsplit, hw, filter_pending hnd]
  -- what stays pending was pending
  have hsub : ∀ b ∈ done ++ rest, b ∈ c.pending := by
    intro b hb
    rw [hsplit, hw]
    rcases List.mem_append.mp hb with hb | hb
    · exact List.mem_append_left _ hb
    · exact List.mem_append_right _ (List.mem_cons_of_mem _ hb)
  exact
    { single := by
        refine he.single.imp (fun hn => ?_) fun hn => ?_
        · show countAt c.whole _ _ = none
          rw [hn]
          rfl
        · show countAt c.part _ _ = none
          rw [hn]
          rfl
      split := by
        refine ⟨done, ?_, fun b hb => ?_, fun t ht => ?_⟩
        · rw [hpending, Account.note, hw, List.tail_cons]
        · have hb := hdone b hb
          show b ∈ held (c.live.map _)
          cases hl : c.live with
          | none =>
              rw [hl] at hb
              cases hb
          | some t =>
              rw [hl] at hb
              show b ∈ (scanRule.count v t).accepted
              rwa [Rule.count_accepted]
        · obtain ⟨t, hl, rfl⟩ := Option.map_eq_some_iff.mp ht
          rw [hbase, Rule.collect_count]
          exact Rule.count_equiv (hlive t hl) v
      kept := by
        show (refile _ _ _).map _ = _
        rw [map_fst_refile]
        exact he.kept
      collected := by
        -- the fragment is counted before what was pending ahead of it, instead of after
        have hcol := he.collected
        rw [hsplit, hw, Rule.collect_append, Rule.collect_cons,
          Rule.step_collect h.uniform_base (by rwa [← hv] at hne), hstep, ← hbase,
          ← Rule.collect_append, ← hpending] at hcol
        exact hcol
      linked := by
        intro x hx b hb
        rw [hacc] at hx
        rw [hpending] at hb
        exact he.linked x hx b (hsub b hb)
      duplicates := hjudged.duplicates
      conflicts := hjudged.conflicts }

theorem accept (hf : StrayFree c.archive) {a : Arrival} {rest : List Arrival}
    (hw : c.waiting = a :: rest) {cached : Bool} (hready : c.live ≠ none ∨ c.part = none)
    (hv : scanRule.verdict (held c.live) a.fragment = .fresh)
    (hfree : ∀ b ∈ held c.whole, b.index ≠ a.index) : (c.accept a cached).Exact := by
  obtain ⟨done, hsplit, hdone, hlive⟩ := he.split
  have ha : a ∈ c.pending := mem_pending.mpr (h.waiting a (hw ▸ List.mem_cons_self))
  refine { he with split := ⟨done ++ [a], ?_, fun b hb => ?_, fun t ht => ?_⟩ }
  · show c.pending = done ++ [a] ++ c.waiting.tail
    rw [hsplit, hw, List.append_assoc]
    rfl
  · show b ∈ (scanRule.step (c.live.getD .empty) a).accepted
    rw [accepted_step hv]
    rcases List.mem_append.mp hb with hb | hb
    · exact List.mem_append_left _ (hdone b hb)
    · exact List.mem_append_right _ hb
  · obtain rfl := Option.some.inj ht
    show (scanRule.step (c.live.getD .empty) a).Equiv (scanRule.collect c.base _)
    rw [Rule.collect_concat]
    refine Rule.step_equiv ?_
    cases hl : c.live with
    | some t => exact hlive t hl
    | none =>
        -- nothing was in memory, so nothing is stored and nothing else was taken
        have hnil : done = [] := by
          refine List.eq_nil_iff_forall_not_mem.mpr fun b hb => ?_
          have hb := hdone b hb
          rw [hl] at hb
          cases hb
        have hnone : c.whole = none := by
          cases hw' : c.whole with
          | none => rfl
          | some t =>
              obtain ⟨b, hb, hbi⟩ := he.index_of_pending h hf hw' ha
              exact absurd hbi (hfree b (by rwa [hw']))
        rw [hnil, base_of_none hnone (hready.resolve_left (not_not.mpr hl))]
        exact .refl _

/-- Storing the scan in memory, as complete or as incomplete. -/
theorem stored (hf : StrayFree c.archive) {t : ScanTally} (hl : c.live = some t)
    {status : FragmentStorageStatus} (hs : status = .assembled ∨ status = .incomplete)
    {whole part : Option ScanTally} (hone : whole = some t ∧ part = none ∨
      whole = none ∧ part = some t) :
    (c.stored t status whole part).Exact := by
  obtain ⟨done, hsplit, hdone, hlive⟩ := he.split
  have heq := hlive t hl
  have hheld : held c.live = t.accepted := by rw [hl, held_some]
  have hnone := he.whole_none_of_live h hf hl
  have hbase' : (c.stored t status whole part).base = t := by
    rcases hone with ⟨rfl, rfl⟩ | ⟨rfl, rfl⟩
    · exact base_of_whole rfl
    · exact base_of_part rfl rfl
  have hstatus : status ≠ .pending := by rcases hs with rfl | rfl <;> exact nofun
  have hpending : (c.stored t status whole part).pending = c.waiting := by
    show ((refile _ _ _).filter _).map _ = _
    rw [pending_refile hstatus]
    show c.pending.filter _ = _
    rw [hsplit, List.filter_append]
    have hl' : done.filter (fun a => a ∉ t.accepted) = [] :=
      List.filter_eq_nil_iff.mpr fun b hb => by simpa using hheld ▸ hdone b hb
    have hr' : c.waiting.filter (fun a => a ∉ t.accepted) = c.waiting :=
      List.filter_eq_self.mpr fun b hb => by
        simpa using fun hmem => h.not_waiting (hheld ▸ hmem) hb
    rw [hl', hr', List.nil_append]
  -- the scan in memory collected from the stored one
  have hbaseSub : c.base.accepted ⊆ t.accepted := by
    intro b hb
    refine heq.accepted.mem_iff.mpr ?_
    exact Rule.accepted_prefix.subset hb
  have huniform : scanRule.Uniform t.accepted := by
    obtain ⟨m, hm, -⟩ := h.live t hl
    exact hm.uniform
  have hle : c.base.clashes ≤ t.clashes := by
    rw [heq.clashes]
    exact Rule.clashes_le_collect h.bounded_base
  have hjudged :
      Judged (c.stored t status whole part).base (refile c.entries t.accepted status) := by
    rw [hbase']
    refine he.judged.mono hbaseSub huniform hle fun b s hds hb => ?_
    rcases mem_refile.mp hb with ⟨-, rfl, -⟩ | ⟨-, hb⟩
    · rcases hs with rfl | rfl <;> rcases hds with hds | hds <;> cases hds
    · exact hb
  exact
    { single := by
        rcases hone with ⟨-, rfl⟩ | ⟨rfl, -⟩
        · exact .inr rfl
        · exact .inl rfl
      split := ⟨[], by rw [hpending]; rfl, nofun, nofun⟩
      kept := by
        show (refile _ _ _).map _ = _
        rw [map_fst_refile]
        exact he.kept
      collected := by
        rw [hbase', hpending]
        have hcol := he.collected
        rw [hsplit, Rule.collect_append] at hcol
        exact (Rule.collect_equiv heq).trans hcol
      linked := by
        intro x hx b hb
        rw [hbase'] at hx
        rw [hpending] at hb
        have hbp : b ∈ c.pending := hsplit ▸ List.mem_append_right _ hb
        -- a source of the scan was stored before, or was pending ahead of what waits
        rcases h.entry_of_live (hheld ▸ hx : x ∈ held c.live) with hinc | ⟨hpend, hnw⟩
        · have hx := (h.incomplete x).mp hinc
          cases hp : c.part with
          | none =>
              rw [hp] at hx
              cases hx
          | some p =>
              rw [hp] at hx
              exact he.linked x (by rw [base_of_part hnone hp]; exact hx) b hbp
        · have hxd : x ∈ done := by
            have hxp := mem_pending.mpr hpend
            rw [hsplit] at hxp
            exact (List.mem_append.mp hxp).resolve_right hnw
          have hord := h.pairwise_pending
          rw [hsplit] at hord
          exact (List.pairwise_append.mp hord).2.2 x hxd b hb
      duplicates := hjudged.duplicates
      conflicts := hjudged.conflicts }

theorem persist (hf : StrayFree c.archive) {t : ScanTally} (hl : c.live = some t) :
    (c.persist t).Exact := by
  have hnone := he.whole_none_of_live h hf hl
  have hstored := he.stored h hf hl (.inr rfl) (.inr ⟨rfl, rfl⟩)
  rw [Account.persist, hnone]
  exact hstored

theorem complete (hf : StrayFree c.archive) {t : ScanTally} (hl : c.live = some t) :
    (c.complete t).Exact := he.stored h hf hl (.inl rfl) (.inl ⟨rfl, rfl⟩)

theorem snapshot (hf : StrayFree c.archive) {a : Arrival} {rest : List Arrival}
    (hw : c.waiting = a :: rest) {t : ScanTally} (hl : c.live = some t) (hp : Partial t)
    {v : Verdict} (hv : scanRule.verdict t.accepted a.fragment = v) (hne : v ≠ .fresh) :
    (c.snapshot a t v).Exact := by
  have he' := he.persist h hf hl
  have h' := h.persist hl hp
  have hnone := he.whole_none_of_live h hf hl
  have hbase : (c.persist t).base = t := base_of_part hnone rfl
  have hbase' : (c.snapshot a t v).base = scanRule.count v t := base_of_part hnone rfl
  have hstep : scanRule.step t a = scanRule.count v t :=
    Rule.step_eq_count (R := scanRule) hv hne
  have hacc : (scanRule.count v t).accepted = t.accepted := Rule.count_accepted v
  -- once the scan is stored, only what waits is pending
  have hpend : (c.persist t).pending = a :: rest := by
    obtain ⟨done, hsplit, hdone, -⟩ := he'.split
    rw [hsplit]
    show done ++ c.waiting = _
    rw [List.eq_nil_iff_forall_not_mem.mpr fun b hb => List.not_mem_nil (hdone b hb), hw]
    rfl
  have hpending : (c.snapshot a t v).pending = rest := by
    show ((refile (c.persist t).entries [a] (statusOf v)).filter _).map _ = _
    rw [pending_refile (statusOf_ne_pending v)]
    show (c.persist t).pending.filter _ = _
    have hnd := h'.nodup_pending
    rw [hpend] at hnd ⊢
    exact @filter_pending [] rest a hnd
  have hjudged : Judged (c.snapshot a t v).base (c.snapshot a t v).entries := by
    have hj := he'.judged
    rw [hbase] at hj
    rw [hbase']
    obtain ⟨m, hs, -⟩ := hp
    exact hj.count hs.bounded hv hne
  exact
    { single := .inl hnone
      split := by
        refine ⟨[], ?_, nofun, fun t' ht' => ?_⟩
        · rw [hpending]
          show rest = c.waiting.tail
          rw [hw]
          rfl
        · obtain rfl := Option.some.inj ht'
          rw [hbase']
          exact .refl _
      kept := by
        show (refile _ _ _).map _ = _
        rw [map_fst_refile]
        exact he'.kept
      collected := by
        have hcol := he'.collected
        rw [hbase, hpend, Rule.collect_cons, hstep, ← hbase'] at hcol
        rw [hpending]
        exact hcol
      linked := by
        intro x hx b hb
        rw [hbase', hacc] at hx
        rw [hpending] at hb
        refine he'.linked x (by rwa [hbase]) b ?_
        rw [hpend]
        exact List.mem_cons_of_mem _ hb
      duplicates := hjudged.duplicates
      conflicts := hjudged.conflicts }

omit h in
theorem restore {t p : ScanTally} (hl : c.live = none) (hp : c.part = some p) (ht : t.Equiv p) :
    (c.restore t).Exact := by
  obtain ⟨done, hsplit, hdone, -⟩ := he.split
  have hnil : done = [] := by
    refine List.eq_nil_iff_forall_not_mem.mpr fun b hb => ?_
    have hb := hdone b hb
    rw [hl] at hb
    cases hb
  subst hnil
  refine { he with split := ⟨[], hsplit, nofun, fun t' ht' => ?_⟩ }
  obtain rfl := Option.some.inj ht'
  have hbase : (c.restore t).base = p := base_of_part (he.whole_none_of_part hp) hp
  rw [hbase]
  exact ht

omit h in
theorem forget : c.forget.Exact :=
  { he with split := ⟨[], rfl, nofun, nofun⟩ }

end Exact

end Account

end Vesta.Ledger
