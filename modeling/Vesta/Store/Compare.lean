import Vesta.Receiver.Balance
import Vesta.Receiver.Device
import Vesta.Store.Scans

/-!
# Store — Compare

A repeated fragment is judged twice: the reassembler compares the fragment that it keeps with the
one that arrives, the database compares the stored bytes with those that arrive.  Since no two
frames are converted to one record, the two judgments agree on every state that the reassembler
reaches.
-/

namespace Vesta.Store

open Receiver (ProfileKey ProfileReassembler OwnedFragment FragmentEvent SourceFragment HashOrder
  Arrival IsFrame ReassemblyError IngestResult scanRule eventOf)
open FirstWins (Verdict)

/-- The event of a fragment that the database classified. -/
def eventOfMatch (key : ProfileKey) (fragmentIndex : UInt8) : PersistedFragmentMatch → FragmentEvent
  | .duplicate => .duplicate key fragmentIndex
  | .conflict => .conflict key fragmentIndex

/-- The reassembler keeps the fragment `f` at an index of a key, in an active scan or in a
completed one. -/
def KeepsAt (r : ProfileReassembler) (key : ProfileKey) (fragmentIndex : UInt8)
    (f : OwnedFragment) : Prop :=
  (∃ scan, r.active.lookup key = some scan ∧
      scan.fragments[fragmentIndex.toNat]? = some (some f)) ∨
    ∃ entry ∈ r.completed, entry.key = key ∧
      entry.fragments[fragmentIndex.toNat]? = some (some f)

/-! ### The stored bytes -/

theorem classify_of_forall {stored : List (List UInt8)} {a b : List UInt8} (hne : stored ≠ [])
    (h : ∀ payload ∈ stored, payload = a) :
    TelemetryStore.classify stored b = if a = b then .duplicate else .conflict := by
  rw [TelemetryStore.classify]
  by_cases he : a = b
  · rw [if_pos he, if_pos]
    exact List.all_eq_true.mpr fun payload hp => decide_eq_true ((h payload hp).trans he)
  · rw [if_neg he, if_neg]
    intro hall
    obtain ⟨payload, hp⟩ := List.exists_mem_of_ne_nil _ hne
    exact he ((h payload hp).symm.trans (of_decide_eq_true (List.all_eq_true.mp hall payload hp)))

/-- The bytes stored for an index of a key. -/
def storedAt (s : TelemetryStore) (key : ProfileKey) (fragmentIndex : UInt8) : List (List UInt8) :=
  (s.rows key).flatMap fun row =>
    (row.sourcesAt fragmentIndex).filterMap fun source => s.payloadOf source.packetId

/-- Reconciling classifies by the bytes stored. -/
theorem reconcile_of_storedAt {s : TelemetryStore} {key : ProfileKey} {fragmentIndex : UInt8}
    (packetId : Int) (payload : List UInt8) (hne : storedAt s key fragmentIndex ≠ []) :
    ∃ s', s.reconcilePersistedProfileFragment key packetId fragmentIndex payload =
      .ok (some (TelemetryStore.classify (storedAt s key fragmentIndex) payload), s') := by
  have hmap : ((s.rows key).flatMap fun row =>
        (row.sourcesAt fragmentIndex).filterMap fun source =>
          (s.payloadOf source.packetId).map (row.id, ·)).map (·.2) =
      storedAt s key fragmentIndex := by
    rw [storedAt, List.map_flatMap]
    refine congrArg (fun f => (s.rows key).flatMap f) (funext fun row => ?_)
    rw [List.map_filterMap]
    refine congrArg (fun f => (row.sourcesAt fragmentIndex).filterMap f) (funext fun source => ?_)
    cases s.payloadOf source.packetId <;> rfl
  rw [TelemetryStore.reconcilePersistedProfileFragment]
  dsimp only
  rw [if_neg (by
    rw [List.isEmpty_iff]
    intro he
    rw [he] at hmap
    exact hne hmap.symm), hmap]
  exact ⟨_, rfl⟩

/-! ### The fragments kept -/

/-- An active scan that keeps a fragment at an index compares others with it. -/
theorem verdict_of_slot {key : ProfileKey} {scan : Receiver.ActiveProfile} (hs : scan.Sound key)
    {a : Arrival} {f : OwnedFragment}
    (hf : scan.fragments[a.fragment.fragmentIndex.toNat]? = some (some f)) :
    scanRule.verdict scan.tally.accepted a.fragment =
      if f = a.fragment then .repeated else .clash := by
  have hslots : scan.fragments = Receiver.slots scan.metadata scan.tally.accepted :=
    congrArg Receiver.ActiveProfile.fragments hs.picture
  rw [hslots] at hf
  have hlt : a.index < scan.metadata.expectedFragmentCount.toNat := by
    rw [← Receiver.length_slots scan.metadata scan.tally.accepted]
    exact (List.getElem?_eq_some_iff.mp hf).1
  obtain ⟨b, hb, rfl⟩ := Option.map_eq_some_iff.mp
    (Option.some.inj ((Receiver.getElem?_slots hlt).symm.trans hf))
  obtain ⟨hmem, hi⟩ := hs.scan.find_eq.mp hb
  exact Receiver.verdict_of_find hs.scan hmem hi

/-- What a sound reassembler answers to a fragment at an index that it keeps. -/
theorem ingestOwned_of_keepsAt {r : ProfileReassembler} (hr : r.Sound) (order : HashOrder)
    {a : Arrival} (ha : a.Proper) (observedAt : Nat) {f : OwnedFragment}
    (hk : KeepsAt r a.key a.fragment.fragmentIndex f) :
    ∃ result r', r.ingestOwned order a.fragment a.source observedAt = .ok (result, r') ∧
      result.event = eventOfMatch a.key a.fragment.fragmentIndex
        (if f = a.fragment then .duplicate else .conflict) := by
  obtain ⟨result, r', hok, hi⟩ :=
    Receiver.ProfileReassembler.ingestOwned_cases hr order ha observedAt
  refine ⟨result, r', hok, ?_⟩
  -- where the scan is not completed, it is active and has judged the fragment
  have hverdict : (∀ c ∈ r.completed, c.key ≠ a.key) →
      scanRule.verdict (r.tallyAt a.key).accepted a.fragment =
        if f = a.fragment then .repeated else .clash := by
    intro hc
    rcases hk with ⟨scan, hscan, hf⟩ | ⟨entry, hentry, hkey, -⟩
    · rw [Receiver.ProfileReassembler.tallyAt_some hscan]
      exact verdict_of_slot (hr.active _ scan hscan) hf
    · exact absurd hkey (hc entry hentry)
  have hnotFresh : ∀ {P : Prop}, (∀ c ∈ r.completed, c.key ≠ a.key) →
      scanRule.verdict (r.tallyAt a.key).accepted a.fragment = .fresh → P := by
    intro P hc hv
    rw [hverdict hc] at hv
    split at hv <;> cases hv
  cases hi with
  | late c hc hkey =>
      rcases hk with ⟨scan, hscan, -⟩ | ⟨entry, hentry, hkey', hf⟩
      · rw [← hkey, hr.apart c hc] at hscan
        cases hscan
      · obtain rfl : c = entry :=
          List.inj_on_of_nodup_map hr.nodup hc hentry (hkey.trans hkey'.symm)
        show c.classify a.fragment = _
        rw [Receiver.CompletedProfile.classify, hf]
        by_cases he : f = a.fragment
        · rw [if_pos he]
          exact if_pos he
        · rw [if_neg he]
          exact if_neg he
  | counted b hc hb hv =>
      have hjudged := hverdict hc
      rw [Receiver.ProfileReassembler.tallyAt_some hb] at hjudged
      show eventOf b.tally a = _
      rw [eventOf, hjudged]
      by_cases he : f = a.fragment
      · rw [if_pos he, if_pos he]
        rfl
      · rw [if_neg he, if_neg he]
        rfl
  | accepted evicted r₁ last hc hev hv hs hf => exact hnotFresh hc hv
  | completed evicted r₁ last hc hev hv hs hf => exact hnotFresh hc hv

/-- The reassembler after calls on a fresh one. -/
def reached (maxActive : Nat) (hpos : 0 < maxActive) (ops : List Receiver.Op) :
    ProfileReassembler :=
  ((⟨∅, [], maxActive, hpos⟩ : ProfileReassembler).run ops).2

/-- **Converted records determine the bytes of their frames.**  Two fragments, two configurations
or two health frames give equal records exactly when the frames are equal.  So when a reassembler,
after any calls, keeps at some index of a key the fragment of a frame `a`, and the database stores
the bytes of `a` there, both judge any frame `b` with that key and index alike. -/
theorem records_determine_frames :
    (∀ (a b : List UInt8) (v v' : Protocol.ProfileFragmentView),
      Protocol.decode a = .ok (.profileFragment v) →
      Protocol.decode b = .ok (.profileFragment v') →
      (OwnedFragment.fromView v = OwnedFragment.fromView v' ↔ a = b)) ∧
    (∀ (maxActive : Nat) (hpos : 0 < maxActive) (ops : List Receiver.Op) (s : TelemetryStore)
        (a b : List UInt8) (v v' : Protocol.ProfileFragmentView) (f : OwnedFragment)
        (order : HashOrder) (source : SourceFragment) (observedAt : Nat) (packetId : Int),
      Protocol.decode a = .ok (.profileFragment v) →
      Protocol.decode b = .ok (.profileFragment v') →
      OwnedFragment.fromView v = .ok f →
      KeepsAt (reached maxActive hpos ops) (.ofHeader v'.header) v'.header.fragmentIndex f →
      source.fragmentIndex = v'.header.fragmentIndex →
      storedAt s (.ofHeader v'.header) v'.header.fragmentIndex ≠ [] →
      (∀ payload ∈ storedAt s (.ofHeader v'.header) v'.header.fragmentIndex, payload = a) →
      ∃ result r' judged s',
        (reached maxActive hpos ops).ingestAt order v' source observedAt = .ok (result, r') ∧
        s.reconcilePersistedProfileFragment (.ofHeader v'.header) packetId
          v'.header.fragmentIndex b = .ok (some judged, s') ∧
        result.event = eventOfMatch (.ofHeader v'.header) v'.header.fragmentIndex judged) ∧
    (∀ (a b : List UInt8) (header header' : Protocol.Header)
      (config config' : Protocol.DeviceConfig),
      Protocol.decode a = .ok (.deviceConfig header config) →
      Protocol.decode b = .ok (.deviceConfig header' config') →
      ((Receiver.deviceConfiguration header config : Outcome Empty Receiver.DeviceConfiguration) =
        Receiver.deviceConfiguration header' config' ↔ a = b)) ∧
    ∀ (a b : List UInt8) (header header' : Protocol.Header)
      (health health' : Protocol.DeviceHealth),
      Protocol.decode a = .ok (.deviceHealth header health) →
      Protocol.decode b = .ok (.deviceHealth header' health') →
      (Receiver.deviceHealth header health = Receiver.deviceHealth header' health' ↔ a = b) := by
  refine ⟨fun a b v v' => Receiver.fromView_determines, ?_,
    fun a b header header' config config' => Receiver.deviceConfiguration_determines,
    fun a b header header' health health' => Receiver.deviceHealth_determines⟩
  intro maxActive hpos ops s a b v v' f order source observedAt packetId ha hb hf hkeeps hsource
    hne hstored
  have hr : (reached maxActive hpos ops).Sound :=
    (Receiver.ProfileReassembler.Sound.run
      (Receiver.ProfileReassembler.sound_fresh maxActive hpos)).1
  obtain ⟨steps, -, hview⟩ := Receiver.fromView_eq hb
  let arrival : Arrival := ⟨⟨.ofView v', v'.header.fragmentIndex,
    steps.map Receiver.profileStep⟩, source⟩
  have hproper : arrival.Proper := ⟨IsFrame.wellFormed ⟨v', hb, hview⟩, hsource⟩
  obtain ⟨result, r', hok, hevent⟩ := ingestOwned_of_keepsAt hr order hproper observedAt hkeeps
  obtain ⟨s', hreconcile⟩ := reconcile_of_storedAt packetId b hne
  refine ⟨result, r', _, s', ?_, hreconcile, ?_⟩
  · rw [ProfileReassembler.ingestAt, hview, Outcome.mapErr_ok, Outcome.ok_bind]
    exact hok
  · rw [hevent, classify_of_forall hne hstored]
    -- the fragments agree exactly when the bytes do
    have hiff : f = arrival.fragment ↔ a = b := by
      rw [← Receiver.fromView_determines ha hb, hf, hview]
      exact ⟨congrArg Except.ok, Except.ok.inj⟩
    by_cases he : a = b
    · rw [if_pos he, if_pos (hiff.mpr he)]
      rfl
    · rw [if_neg he, if_neg (mt hiff.mp he)]
      rfl

/-- A store with the first fragment of a blank scan, linked to an incomplete row. -/
def blankStore : TelemetryStore :=
  let i := Receiver.blankIngest 0 (by decide)
  let scan := (Receiver.profileOf (.ofView i.fragment) .empty).scan
  { TelemetryStore.fresh with
    packets := [⟨0, 0, i.source.radio, some 2, some 4, .protocolV2, none, i.payload, none⟩]
    scans := [⟨1, 0, 0, scan, 0, false, scan, [i.source]⟩] }

/-- Another fragment with the same key and index: its scan has five steps. -/
def contradicting : Protocol.ProfileFragmentView :=
  Protocol.fragmentView Receiver.blankCommon (Receiver.blankScan 5) 0

theorem decode_contradicting :
    Protocol.decode (Protocol.fragmentFrame contradicting) = .ok (.profileFragment contradicting) :=
  Protocol.decode_fragmentFrame (by decide +kernel) (by decide +kernel)
    ⟨by decide, by decide, by decide, by decide⟩ (by decide)

/-- Memory and database judge the fragment itself as a duplicate, and another as a conflict. -/
theorem records_determine_frames_blank :
    let i := Receiver.blankIngest 0 (by decide)
    let key := ProfileKey.ofHeader i.fragment.header
    let r := reached 1 Nat.one_pos [Receiver.blankOp 0 (by decide)]
    (∃ result r' s', r.ingestAt .stored i.fragment i.source 1 = .ok (result, r') ∧
      blankStore.reconcilePersistedProfileFragment key 7 0 i.payload = .ok (some .duplicate, s') ∧
      result.event = .duplicate key 0) ∧
    ∃ result r' s', r.ingestAt .stored contradicting i.source 1 = .ok (result, r') ∧
      blankStore.reconcilePersistedProfileFragment key 7 0 (Protocol.fragmentFrame contradicting) =
        .ok (some .conflict, s') ∧
      result.event = .conflict key 0 := by
  intro i key r
  have hslot : (r.active.lookup key).bind (fun scan => scan.fragments[0]?) =
      some (some i.arrival.fragment) := by decide +kernel
  obtain ⟨scan, hscan, hf⟩ := Option.bind_eq_some_iff.mp hslot
  have hstored : storedAt blankStore key 0 = [i.payload] := by decide +kernel
  have hne : storedAt blankStore key 0 ≠ [] := hstored ▸ List.cons_ne_nil _ _
  have hall : ∀ payload ∈ storedAt blankStore key 0, payload = i.payload := by
    rw [hstored]
    exact fun _ => List.mem_singleton.mp
  constructor
  · obtain ⟨result, r', judged, s', hrun, hreconcile, hevent⟩ := records_determine_frames.2.1 1
      Nat.one_pos [Receiver.blankOp 0 (by decide)] blankStore i.payload i.payload
        i.fragment i.fragment
      i.arrival.fragment .stored i.source 1 7 i.decoded i.decoded i.fromView_eq
      (.inl ⟨scan, hscan, hf⟩) rfl hne hall
    have hjudged : (blankStore.reconcilePersistedProfileFragment key 7 0 i.payload).map Prod.fst =
        .ok (some .duplicate) := by decide +kernel
    obtain rfl : judged = .duplicate :=
      Option.some.inj (Except.ok.inj
        ((congrArg (Except.map Prod.fst) hreconcile).symm.trans hjudged))
    exact ⟨result, r', s', hrun, hreconcile, hevent⟩
  · obtain ⟨result, r', judged, s', hrun, hreconcile, hevent⟩ := records_determine_frames.2.1 1
      Nat.one_pos [Receiver.blankOp 0 (by decide)] blankStore i.payload
      (Protocol.fragmentFrame contradicting) i.fragment contradicting i.arrival.fragment
        .stored i.source
      1 7 i.decoded decode_contradicting i.fromView_eq (.inl ⟨scan, hscan, hf⟩) rfl hne hall
    have hjudged : (blankStore.reconcilePersistedProfileFragment key 7 0
        (Protocol.fragmentFrame contradicting)).map Prod.fst = .ok (some .conflict) := by
      decide +kernel
    obtain rfl : judged = .conflict :=
      Option.some.inj (Except.ok.inj
        ((congrArg (Except.map Prod.fst) hreconcile).symm.trans hjudged))
    exact ⟨result, r', s', hrun, hreconcile, hevent⟩

end Vesta.Store
