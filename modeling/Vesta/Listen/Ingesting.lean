import Vesta.Listen.Restoring

/-!
# Listen — Ingesting

One fragment, from the comparison with what is stored to what becomes of the scan in memory.  A
fragment is refused only if its key has a stray.
-/

namespace Vesta.Listen

open FirstWins (Rule Tally Verdict)
open Journal (Prog wp wp_pure wp_bind)
open Journal.Prog (forEach)
open Receiver (Arrival ScanTally ScanOf Full ProfileKey ProfileMetadata OwnedFragment
  ProfileReassembler ActiveProfile CompletedProfile IngestResult ReassembledProfile scanRule
  profileOf eventOf saturatingAdd)
open Store (TelemetryStore StorageError AppError FragmentStorageStatus PacketRow)
open Ledger

/-- The errors of a key with a stray. -/
def StrayError (e : AppError) : Prop :=
  e = .reassembly .internalState ∨ e = .database .corruptIncompleteProfile

/-- No stored scan of the account has a fragment at the index. -/
def Misses (c : Account) (a : Arrival) : Prop :=
  ∀ t ∈ c.whole.toList ++ c.part.toList, ¬ Hits a.index t

/-- The receiver refuses a fragment: no stored scan has its index, and either its scan is still in
the completed queue or the stored incomplete scan would be read back beside a complete one. -/
def Refuses (r : ProfileReassembler) (c : Account) (a : Arrival) : Prop :=
  Misses c a ∧ ((∃ d ∈ r.completed, d.key = a.key) ∨
    c.live = none ∧ c.whole ≠ none ∧ c.part ≠ none)

/-- What becomes of the account of a fragment that was ingested. -/
inductive Took (c : Account) (a : Arrival) : Account → Prop where
  | noted {t : ScanTally} {v : Verdict} (ht : t ∈ c.whole.toList ++ c.part.toList)
      (hhit : Hits a.index t) (hv : scanRule.verdict t.accepted a.fragment = v) :
      Took c a (c.note a v)
  | counted {c₀ : Account} {t : ScanTally} {v : Verdict} (hmiss : Misses c a)
      (hc : c₀ = c ∨ c.live = none ∧ c.whole = none ∧
        ∃ p t', c.part = some p ∧ t'.Equiv p ∧ c₀ = c.restore t')
      (hl : c₀.live = some t) (hv : scanRule.verdict t.accepted a.fragment = v)
      (hfresh : v ≠ .fresh) : Took c a (c₀.snapshot a t v)
  | joined {c' : Account} (hmiss : Misses c a)
      (hpart : ∀ b ∈ held c.part, b.fragment.metadata = a.fragment.metadata ∧ b.index ≠ a.index)
      (hstored : c.whole ≠ none → c'.whole = c.whole ∧ c'.part = c.part) : Took c a c'

/-- Reading the stored scan back is part of ingesting. -/
theorem Took.of_restore {c c' : Account} {a : Arrival} {p t' : ScanTally} (hl : c.live = none)
    (hw : c.whole = none) (hp : c.part = some p) (ht : t'.Equiv p) (hmiss : Misses c a)
    (h : Took (c.restore t') a c') : Took c a c' := by
  cases h with
  | noted ht hhit _ => exact absurd hhit (hmiss _ ht)
  | counted _ hc hlive hv hfresh =>
      rcases hc with rfl | ⟨hnone, -⟩
      · exact .counted hmiss (.inr ⟨hl, hw, p, t', hp, ht, rfl⟩) hlive hv hfresh
      · cases hnone
  | joined _ hpart hstored => exact .joined hmiss hpart hstored

section
variable {I : ProfileKey → Account → Prop} {E : Fault AppError → World → Prop}
  {Q : Unit → World → Prop} {w : World} {A : ProfileKey → Account} {a : Arrival}
  {rest : List Arrival}

/-! ### Results -/

/-- A fragment of a scan in the completed queue: the result lacks what would be stored. -/
theorem wp_handleLate (c : CompletedProfile) (f : OwnedFragment) (packetId : Int)
    (hE : E (.error (.reassembly .internalState)) w) :
    wp (Disk I) Q E (handleProfileFragmentResult ⟨c.classify f, none, none⟩ packetId) w := by
  rcases c.classify_cases f with hevent | hevent
  · rw [handleProfileFragmentResult, hevent]
    exact wp_bind (wp_pure (wp_fail hE))
  · rw [handleProfileFragmentResult, hevent]
    exact wp_bind (wp_pure (wp_fail hE))

/-- A fragment that the scan in memory counts: the scan is stored with its counts. -/
theorem wp_handleCounted [Account.Stable I] (h : Holds I w.store A) {m : ProfileMetadata}
    {t : ScanTally} (hs : ScanOf m t) (hl : (A m.key).live = some t) (hf : ¬ Full m t.accepted)
    {others : List Arrival} (hw : (A m.key).waiting = a :: others) {v : Verdict}
    (hv : scanRule.verdict t.accepted a.fragment = v) (hfresh : v ≠ .fresh)
    (hQ : ∀ s, Holds I s (Function.update A m.key ((A m.key).snapshot a t v)) →
      Q () { w with store := s }) :
    wp (Disk I) Q E (handleProfileFragmentResult
      ⟨eventOf t a, none, some (profileOf m (scanRule.step t a))⟩ a.source.packetId) w := by
  obtain ⟨record, s, hok, hh⟩ := h.insertProfileIntegritySnapshot hs hl hf hw hv hfresh
  have hstep : scanRule.step t a = scanRule.count v t :=
    Rule.step_eq_count (R := scanRule) hv hfresh
  rw [handleProfileFragmentResult, eventOf, hv, hstep]
  refine wp_bind (wp_pure ?_)
  cases v with
  | fresh => exact absurd rfl hfresh
  | repeated => exact wp_bind (wp_database hok ⟨_, hh⟩ (wp_pure (hQ s hh)))
  | clash => exact wp_bind (wp_database hok ⟨_, hh⟩ (wp_pure (hQ s hh)))

/-- A fragment that completes its scan: what made room for it is stored, and then the scan. -/
theorem wp_handleCompleted [Account.Stable I] (h : Holds I w.store A) {flying : List Flight}
    {m : ProfileMetadata} {t : ScanTally}
    (hm : Remembers w.reassembler rest (flying ++ [(m, t)]) A)
    {evicted : Option ReassembledProfile} (hev : evicted.toList = profiles flying) (packetId : Int)
    (hQ : ∀ s A', Holds I s A' → Remembers w.reassembler rest [] A' → Q () { w with store := s }) :
    wp (Disk I) Q E
      (handleProfileFragmentResult ⟨.complete (profileOf m t), evicted, none⟩ packetId) w := by
  rw [handleProfileFragmentResult]
  dsimp only
  rw [hev]
  refine wp_bind (wp_persistProfiles h hm (fun _ _ => rfl) fun s hh hm' => ?_)
  have hs := hm'.scans (m, t) (List.mem_singleton_self _)
  refine wp_persistProfile hh hs (hm'.live_of_flight rfl) fun s' hh' => ?_
  obtain ⟨hnone, hcached, hwaiting⟩ := stow_mind (landed flying A m.key) m t
  exact hQ s' _ hh' (hm'.land rfl hnone hcached hwaiting)

/-! ### Ingesting -/

/-- The reassembler has the key in its completed queue only while a stored complete scan is
there. -/
theorem Kept.whole_ne_none {queue : List Arrival} (h : Kept I w queue A) {c : CompletedProfile}
    (hc : c ∈ w.reassembler.completed) : (A c.key).whole ≠ none := by
  refine ((h.holds.books c.key).sound.cached (h.memory.cached c hc)).resolve_right ?_
  rintro ⟨t, hl, m, hs, hf⟩
  rw [h.memory.live_eq] at hl
  obtain ⟨b, hb, rfl⟩ := Option.map_eq_some_iff.mp hl
  have hbs := h.memory.sound.active _ b hb
  obtain ⟨x, hx⟩ := List.exists_mem_of_ne_nil _ hbs.some
  exact hbs.lacking ((hs.metadata x hx).symm.trans (hbs.scan.metadata x hx) ▸ hf)

/-- A waiting fragment with an index that the stored complete scan does not have is a stray. -/
theorem Kept.stray_of_miss (h : Kept I w (a :: rest) A) (hw : (A a.key).whole ≠ none)
    (hmiss : Misses (A a.key) a) : ¬ StrayFree (A a.key).archive := by
  intro hf
  obtain ⟨t, ht⟩ := Option.ne_none_iff_exists'.mp hw
  have hb := h.holds.books a.key
  have hwait : a ∈ (A a.key).waiting := h.memory.waiting_eq ▸ List.mem_cons_self
  have hpending := Account.mem_pending.mpr (hb.sound.waiting a hwait)
  refine hmiss t ?_ ((hb.exact hf).index_of_pending hb.sound hf ht hpending)
  rw [ht]
  exact List.mem_cons_self

/-- A fragment that is fresh in memory agrees with the stored incomplete scan. -/
theorem agree_of_fresh {key : ProfileKey} {c : Account} (hc : c.Sound key)
    (hready : c.live ≠ none ∨ c.part = none)
    (hv : scanRule.verdict (held c.live) a.fragment = .fresh) :
    ∀ b ∈ held c.part, b.fragment.metadata = a.fragment.metadata ∧ b.index ≠ a.index := by
  intro b hb
  rcases hready with hlive | hnone
  · obtain ⟨hindex, hmetadata⟩ := Rule.verdict_eq_fresh.mp hv b (hc.covers hlive hb)
    exact ⟨hmetadata, fun he => hindex (UInt8.toNat_inj.mp he)⟩
  · rw [hnone] at hb
    cases hb

/-- **A fragment that is not compared with a stored one.** -/
theorem wp_ingestNew [Account.Stable I] (h : Kept I w (a :: rest) A) (hmiss : Misses (A a.key) a)
    (hready : (A a.key).live ≠ none ∨ (A a.key).part = none)
    {view : Protocol.ProfileFragmentView} (hview : OwnedFragment.fromView view = .ok a.fragment)
    (ha : a.Proper) (observedAt : Nat)
    (hQ : (∀ c ∈ w.reassembler.completed, c.key ≠ a.key) → ∀ w' A', Kept I w' rest A' →
      Took (A a.key) a (A' a.key) → Q () w')
    (hE : (∃ c ∈ w.reassembler.completed, c.key = a.key) → ∀ w' A' e, Kept I w' (a :: rest) A' →
      w'.store = w.store → ¬ StrayFree (A' a.key).archive → StrayError e → E (.error e) w') :
    wp (Disk I) Q E (do
      let result ← ingestAt view a.source observedAt
      handleProfileFragmentResult result a.source.packetId) w := by
  have hb := h.holds.books a.key
  have hw := h.memory.waiting_eq
  have hfree : ∀ b ∈ held (A a.key).whole, b.index ≠ a.index := by
    intro b hb' hi
    cases hwhole : (A a.key).whole with
    | none =>
        rw [hwhole] at hb'
        cases hb'
    | some t =>
        rw [hwhole] at hb'
        exact hmiss t (by simp [hwhole]) ⟨b, hb', hi⟩
  refine wp_bind (wp_ingestAt h.memory.sound hview ha fun result r hi => ?_)
  have hsound := hi.sound h.memory.sound ha
  cases hi with
  | late c hc hk =>
      refine wp_handleLate c a.fragment a.source.packetId
        (hE ⟨c, hc, hk⟩ _ A _ ⟨h.holds, h.memory⟩ rfl ?_ (.inl rfl))
      exact h.stray_of_miss (hk ▸ h.whole_ne_none hc) hmiss
  | counted b hc hactive hv =>
      have hbs := h.memory.sound.active _ b hactive
      have hkey : b.metadata.key = a.key := hbs.key
      have hlive : (A a.key).live = some b.tally := by
        rw [h.memory.live_eq, liveAt, hactive]
        rfl
      have hl : (A b.metadata.key).live = some b.tally := hkey ▸ hlive
      have hm := h.memory.counted hsound hactive hc ha rfl hv
      refine wp_handleCounted (w := { w with
          reassembler := _, orders := fun n => w.orders (n + 1) }) h.holds hbs.scan hl hbs.lacking
        (hkey ▸ hw) rfl hv fun s hh => ?_
      rw [hkey] at hh
      refine hQ hc _ _ ⟨hh, hm⟩ ?_
      rw [Function.update_self]
      exact .counted hmiss (.inl rfl) hlive rfl hv
  | accepted evicted r₁ last hc hev hv hs hf =>
      obtain ⟨flying, hflying, hg, haway⟩ := Gives.evictFor h.memory.sound hev
      obtain ⟨progress, hevent⟩ := Receiver.eventOf_pending hv hf
      have hm := h.memory.accepted hg haway hs hsound hc
      rw [h.memory.tally_eq, ← held_eq] at hv
      have hh := h.holds.memory (c := (A a.key).accept a false) rfl rfl rfl rfl
        (hb.sound.accept hw hready hv hfree fun he => by cases he)
        (fun hx => (hb.exact hx).accept hb.sound hx hw hready hv hfree)
        (Account.Stable.moves hb.sound (.accept false hw hready hv) hb.invariant)
      rw [hevent]
      refine wp_handlePending (w := { w with
          reassembler := _, orders := fun n => w.orders (n + 1) }) hh hm (fun _ _ => rfl) hflying
        progress a.source.packetId fun s hh' hm' => hQ hc _ _ ⟨hh', hm'⟩ ?_
      rw [landed_of_not_mem haway, Function.update_self]
      exact .joined hmiss (agree_of_fresh hb.sound hready hv) fun _ => ⟨rfl, rfl⟩
  | completed evicted r₁ last hc hev hv hs hf =>
      obtain ⟨flying, hflying, hg, haway⟩ := Gives.evictFor h.memory.sound hev
      have hm := h.memory.completed hg haway rfl hs hsound hc
      rw [Receiver.eventOf_complete hv hf]
      rw [h.memory.tally_eq, ← held_eq] at hv
      have hwhole : Whole (scanRule.step ((A a.key).live.getD .empty) a) :=
        h.memory.tally_eq a.key ▸ ⟨_, hs, hf⟩
      have hsound' : ((A a.key).accept a true).Sound a.key :=
        hb.sound.accept hw hready hv hfree fun _ => .inr hwhole
      have hh := h.holds.memory (c := (A a.key).accept a true) rfl rfl rfl rfl hsound'
        (fun hx => (hb.exact hx).accept hb.sound hx hw hready hv hfree)
        (Account.Stable.moves hb.sound (.accept true hw hready hv) hb.invariant)
      -- a key with a stored complete scan completes no other one
      have hnone : (A a.key).whole = none := by
        cases hstored : (A a.key).whole with
        | none => rfl
        | some t =>
            refine absurd hwhole ((hb.sound.whole t hstored).not_whole fun x hx y hy => ?_)
            exact hsound'.apartLive x (show x ∈ held (A a.key).whole from hstored ▸ hx) y hy
      exact wp_handleCompleted (w := { w with
          reassembler := _, orders := fun n => w.orders (n + 1) }) hh hm hflying
        a.source.packetId fun s A' hh' hm' => hQ hc _ _ ⟨hh', hm'⟩
          (.joined hmiss (agree_of_fresh hb.sound hready hv) fun hne => absurd hnone hne)

/-- A match counts in the scan in memory as in the stored ones. -/
theorem count_matchOf {t : ScanTally} (ht : scanRule.Bounded t) {v : Verdict} (hv : v ≠ .fresh) :
    scanRule.count v t = ⟨t.accepted, saturatingAdd t.repeats (matchCounts (matchOf v)).1,
      saturatingAdd t.clashes (matchCounts (matchOf v)).2⟩ := by
  have hrepeats : saturatingAdd t.repeats 0 = t.repeats := min_eq_left ht.repeats
  have hclashes : saturatingAdd t.clashes 0 = t.clashes := min_eq_left ht.clashes
  cases v with
  | fresh => exact absurd rfl hv
  | repeated =>
      show _ = (⟨_, _, saturatingAdd t.clashes 0⟩ : ScanTally)
      rw [hclashes]
      rfl
  | clash =>
      show _ = (⟨_, saturatingAdd t.repeats 0, _⟩ : ScanTally)
      rw [hrepeats]
      rfl

/-- **One fragment.** -/
theorem wp_ingestArchivedProfileFragment [Account.Stable I] (h : Kept I w (a :: rest) A)
    {p : PacketRow}
    (hp : p ∈ w.store.packets) (ha : arrivalOf p = some a) {view : Protocol.ProfileFragmentView}
    (hview : OwnedFragment.fromView view = .ok a.fragment)
    (hkey : ProfileKey.ofHeader view.header = a.key) (observedAt : Nat)
    (hQ : ¬ Refuses w.reassembler (A a.key) a → ∀ w' A', Kept I w' rest A' →
      Took (A a.key) a (A' a.key) → Q () w')
    (hE : Refuses w.reassembler (A a.key) a → ∀ w' A' e, Kept I w' (a :: rest) A' →
      w'.store = w.store → ¬ StrayFree (A' a.key).archive → StrayError e → E (.error e) w') :
    wp (Disk I) Q E (ingestArchivedProfileFragment view a.source p.payload observedAt) w := by
  have hsource := source_of_arrivalOf ha
  have hw := h.memory.waiting_eq
  have hproper := proper_of_arrivalOf ha
  rw [ingestArchivedProfileFragment, hkey]
  by_cases hhit : ∃ t ∈ (A a.key).whole.toList ++ (A a.key).part.toList, Hits a.index t
  · obtain ⟨t, ht, hhit⟩ := hhit
    obtain ⟨v, hv⟩ : ∃ v, scanRule.verdict t.accepted a.fragment = v := ⟨_, rfl⟩
    obtain ⟨hfresh, s', hok, hh⟩ := h.holds.reconcile_hit hp ha hw ht hhit hv
    have hok : w.store.reconcilePersistedProfileFragment a.key a.source.packetId
        a.source.fragmentIndex p.payload = .ok (some (matchOf v), s') := by
      rw [hsource]
      exact hok
    have htaken : ¬ Refuses w.reassembler (A a.key) a := fun hr => hr.1 t ht hhit
    have htook : Took (A a.key) a (Function.update A a.key ((A a.key).note a v) a.key) := by
      rw [Function.update_self]
      exact .noted ht hhit hv
    refine wp_bind (wp_database hok ⟨_, hh⟩ (wp_bind (wp_containsActive ?_)))
    cases hl : w.reassembler.active.lookup a.key with
    | none =>
        have hidle : liveAt w.reassembler a.key = none := congrArg (Option.map _) hl
        rw [hidle]
        exact wp_pure (hQ htaken _ _ ⟨hh, h.memory.noted_idle hidle⟩ htook)
    | some b =>
        have hlive : liveAt w.reassembler a.key = some b.tally := congrArg (Option.map _) hl
        have hbounded := (h.memory.sound.active _ b hl).scan.bounded
        obtain ⟨r, hr, hm⟩ := h.memory.noted hl (count_matchOf hbounded hfresh)
        rw [hlive]
        exact wp_restoreReceiverCounts hr (hQ htaken _ _ ⟨hh, hm⟩ htook)
  · have hmiss : Misses (A a.key) a := fun t ht hh => hhit ⟨t, ht, hh⟩
    have hnone : w.store.reconcilePersistedProfileFragment a.key a.source.packetId
        a.source.fragmentIndex p.payload = .ok (none, w.store) := by
      rw [hsource]
      exact h.holds.reconcile_miss hmiss _ _
    refine wp_bind (wp_database hnone ⟨A, h.holds⟩ (wp_bind (wp_containsActive ?_)))
    cases hl : liveAt w.reassembler a.key with
    | some t =>
        have hlive : (A a.key).live ≠ none := by
          rw [h.memory.live_eq, hl]
          exact fun he => by cases he
        refine wp_ingestNew h hmiss (.inl hlive) hview hproper observedAt (fun hc => hQ ?_)
          fun hc => hE ⟨hmiss, .inl hc⟩
        rintro ⟨-, ⟨c, hmem, hk⟩ | ⟨hidle, -⟩⟩
        · exact hc c hmem hk
        · exact hlive hidle
    | none =>
        have hidle : (A a.key).live = none := (h.memory.live_eq _).trans hl
        have hlimit : 4 ≤ maxStartupPendingFragments := by decide
        obtain ⟨ps, hok, hps⟩ := h.holds.incompleteProfilesForKey a.key hlimit
        refine wp_bind (wp_query hok ?_)
        cases hpart : (A a.key).part with
        | none =>
            rw [hpart] at hps
            rw [List.forall₂_nil_right_iff.mp hps]
            refine wp_bind (wp_pure ?_)
            refine wp_ingestNew h hmiss (.inr hpart) hview hproper observedAt (fun hc => hQ ?_)
              fun hc => hE ⟨hmiss, .inl hc⟩
            rintro ⟨-, ⟨c, hmem, hk⟩ | ⟨-, -, hne⟩⟩
            · exact hc c hmem hk
            · exact hne hpart
        | some t =>
            rw [hpart] at hps
            obtain ⟨profile, rest', hreads, hnil, hps⟩ := List.forall₂_cons_right_iff.mp hps
            rw [hps, List.forall₂_nil_right_iff.mp hnil]
            have hpk := h.holds.key_of_reads hpart hreads
            refine wp_bind (wp_restoreProfile h hreads (hpk ▸ hpart) (hpk ▸ hidle)
              (fun hwhole hstray => ?_) fun hwhole ordinal w' A' hk hres => wp_pure ?_)
            · refine hE ⟨hmiss, .inr ⟨hidle, hpk ▸ hwhole, ?_⟩⟩ w A _ h rfl
                (hpk ▸ hstray) (.inr rfl)
              rw [hpart]
              exact fun he => by cases he
            · obtain ⟨t', ht', hself⟩ := hres.self
              rw [hpk] at hself hwhole
              -- no scan of the key is in the completed queue
              have hopen : ∀ {w : World} {queue : List Arrival} {A : ProfileKey → Account},
                  Kept I w queue A → (A a.key).whole = none →
                  ∀ c ∈ w.reassembler.completed, c.key ≠ a.key :=
                fun hkept hnone c hmem hk => hkept.whole_ne_none hmem (hk ▸ hnone)
              have htaken : ¬ Refuses w.reassembler (A a.key) a := by
                rintro ⟨-, ⟨c, hmem, hk⟩ | ⟨-, hne, -⟩⟩
                · exact hopen h hwhole c hmem hk
                · exact hne hwhole
              refine wp_ingestNew hk (hself ▸ hmiss) (.inl ?_) hview hproper observedAt
                (fun _ w'' A'' hk' htook => hQ htaken w'' A'' hk' ?_) fun ⟨c, hmem, hk'⟩ => ?_
              · rw [hself]
                exact fun he => by cases he
              · rw [hself] at htook
                exact htook.of_restore hidle hwhole hpart ht' hmiss
              · refine absurd hk' (hopen hk ?_ c hmem)
                rw [hself]
                exact hwhole

end

end Vesta.Listen
