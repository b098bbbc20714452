import Vesta.Protocol.RoundTrip

/-!
# Protocol — Total

The codec does not panic, whatever it is given.

A read moves the reader or fails with `bufferExhausted` (`Reader.Safe`): the cursors of the source
use checked additions and `get`.  The other operations that could panic are an index, a slice, a
shift or a subtraction, and each is safe by a check made before it, often in another function:
the length of a payload before `payload[53]`, the step count before the masks and the windows,
the recomputed fragment count before the slices of a window.  So every function here is followed
in its own order, carrying what its checks have established.

The encoders are followed with the errors they may return as well: none of them is one of the
writer's own accounting (`Error.Bookkeeping`), since each payload has the length announced for it
and fits a frame of 231 bytes.

Lengths and offsets are natural numbers.  On the machine they are at most the length of a slice,
which a `usize` holds, plus a few hundred.
-/

namespace Vesta.Protocol

open Outcome (failIf Ends)

/-- Returns or fails, with any error. -/
abbrev Returns {ε α : Type} (x : Outcome ε α) : Prop := Ends (fun _ => True) (fun _ => True) x

/-- The errors of the cursors and of the length of a frame. -/
def Error.Bookkeeping : Error → Prop
  | .bufferExhausted | .wrongLength _ _ | .frameTooLong _ => True
  | _ => False

/-- Returns a value of `Q`, or fails on what it was given. -/
abbrev Balances {α : Type} (Q : α → Prop) (x : Result α) : Prop :=
  Ends Q (fun e => ¬ e.Bookkeeping) x

theorem Returns.of_ends {ε α : Type} {Q : α → Prop} {E : ε → Prop} {x : Outcome ε α}
    (h : Ends Q E x) : Returns x :=
  h.mono (fun _ _ => trivial) fun _ _ => trivial

/-! ### Reading -/

namespace Reader

variable {α β : Type}

/-- Wherever the reader stands, the read returns or fails. -/
def Safe (m : Read α) : Prop := ∀ r, Returns (m r)

theorem safe_pure (a : α) : Safe (pure a : Read α) := fun _ => trivial

theorem Safe.bind {m : Read α} {k : α → Read β} (hm : Safe m) (hk : ∀ a, Safe (k a)) :
    Safe (m >>= k) := by
  intro r
  show Returns (m r >>= fun p => k p.1 p.2)
  exact (hm r).bind fun p _ => hk p.1 p.2

theorem safe_take (n : Nat) : Safe (take n) := by
  intro r
  unfold take
  split
  · exact trivial
  · exact trivial

theorem safe_field (L : Layout α) : Safe (field L) :=
  (safe_take _).bind fun _ => safe_pure _

theorem safe_failIf (c : Prop) [Decidable c] (e : Error) : Safe (failIf c e) := by
  intro r
  unfold failIf
  split
  · exact trivial
  · exact trivial

theorem safe_check {m : Result Unit} (h : Returns m) : Safe (check m) := by
  intro r
  rcases m with (e | -) | u
  · exact trivial
  · exact h
  · exact trivial

theorem safe_liftM {m : Result α} (h : Returns m) : Safe (liftM m) := by
  intro r
  show Returns (m >>= fun a => pure (a, r))
  exact h.bind fun _ _ => trivial

theorem returns_finish (r : Reader) : Returns (finish r) := by
  unfold finish
  split
  · exact trivial
  · exact trivial

end Reader

/-! ### Headers -/

theorem returns_failIf {ε : Type} {c : Prop} [Decidable c] {e : ε} :
    Ends (fun _ => ¬ c) (fun _ => True) (failIf c e) :=
  Ends.failIf fun _ => trivial

theorem FrameType.returns_tryFrom (value : UInt8) : Returns (tryFrom value) := by
  unfold tryFrom
  repeat' split
  all_goals exact trivial

/-- A header is decoded from 48 bytes at least. -/
theorem decodeHeader_ends (bytes : List UInt8) :
    Ends (fun _ => headerLen ≤ bytes.length) (fun _ => True) (decodeHeader bytes) := by
  refine returns_failIf.bind fun _ hlen => ?_
  have hle : headerLen ≤ bytes.length := not_lt.mp hlen
  rw [slice_eq (Nat.zero_le _) hle, Outcome.ok_bind]
  refine Ends.bind (Q := fun _ => True) ?_ fun p _ => ?_
  · -- the fields of the header, and the checks between them
    refine Reader.Safe.bind (Reader.safe_field _) (fun m₀ => ?_) _
    refine (Reader.safe_field _).bind fun m₁ => ?_
    refine (Reader.safe_failIf _ _).bind fun _ => ?_
    refine (Reader.safe_field _).bind fun version => ?_
    refine (Reader.safe_failIf _ _).bind fun _ => ?_
    refine (Reader.safe_field _).bind fun value => ?_
    refine (Reader.safe_liftM (FrameType.returns_tryFrom value)).bind fun frameType => ?_
    refine (Reader.safe_field _).bind fun foundLen => ?_
    refine (Reader.safe_failIf _ _).bind fun _ => ?_
    refine (Reader.safe_field _).bind fun flags => ?_
    refine (Reader.safe_check (returns_failIf.mono (fun _ _ => trivial) fun _ => id)).bind
      fun _ => ?_
    refine (Reader.safe_field _).bind fun fragmentIndex => ?_
    refine (Reader.safe_field _).bind fun fragmentCount => ?_
    iterate 2 refine (Reader.safe_failIf _ _).bind fun _ => ?_
    iterate 7 refine (Reader.safe_field _).bind fun _ => ?_
    exact Reader.safe_pure _
  · refine (Reader.returns_finish _).bind fun _ _ => ?_
    iterate 4 refine returns_failIf.bind fun _ _ => ?_
    exact hle

/-! ### The checks of the source -/

theorem balances_failIf {c : Prop} [Decidable c] {e : Error} (h : ¬ e.Bookkeeping) :
    Balances (fun _ => ¬ c) (failIf c e) :=
  Ends.failIf fun _ => h

theorem balances_check {c : Prop} [Decidable c] {e : Error} (h : ¬ e.Bookkeeping) :
    Balances (fun _ => True) (failIf c e) :=
  (balances_failIf h).mono (fun _ _ => trivial) fun _ => id

theorem ensureKnownU8_balances (field : String) (value known : UInt8) :
    Balances (fun _ => True) (ensureKnownU8 field value known) :=
  balances_check id

theorem ensureKnownU16_balances (field : String) (value known : UInt16) :
    Balances (fun _ => True) (ensureKnownU16 field value known) :=
  balances_check id

theorem ensureKnownU32_balances (field : String) (value known : UInt32) :
    Balances (fun _ => True) (ensureKnownU32 field value known) :=
  balances_check id

theorem validateHeaterStep_balances (config : DeviceConfig) (step : HeaterStepConfig) (index : Nat)
    (hcount : config.expectedStepCount.toNat ≤ 10) :
    Balances (fun _ => True) (validateHeaterStep config step index) := by
  refine (balances_failIf id).bind fun _ _ => ?_
  split
  · next hlt =>
      rw [bitU16_eq (by omega), Outcome.ok_bind]
      exact balances_check id
  · exact trivial

theorem validateCalibrationHash_balances (config : DeviceConfig) :
    Balances (fun _ => True) (validateCalibrationHash config) := by
  unfold validateCalibrationHash
  split
  · exact balances_check id
  · exact balances_check id

/-- The step count is in range before the mask is made of it and the slots are checked. -/
theorem validateConfig_balances (config : DeviceConfig) :
    Balances (fun _ => config.expectedStepCount.toNat ≤ 10) (validateConfig config) := by
  iterate 3 refine (ensureKnownU8_balances _ _ _).bind fun _ _ => ?_
  iterate 7 refine (balances_failIf id).bind fun _ _ => ?_
  refine (balances_failIf id).bind fun _ hcount => ?_
  obtain ⟨-, hle⟩ := not_not.mp hcount
  have hle' : config.expectedStepCount.toNat ≤ 10 := UInt8.le_iff_toNat_le.mp hle
  rw [stepMask_eq hle, Outcome.ok_bind]
  iterate 4 refine (balances_failIf id).bind fun _ _ => ?_
  refine (validateCalibrationHash_balances config).bind fun _ _ => ?_
  iterate 5 refine (balances_failIf id).bind fun _ _ => ?_
  refine (Ends.forM fun slot _ => ?_).mono (fun _ _ => hle') fun _ => id
  exact validateHeaterStep_balances config slot.1 slot.2 hle'

theorem validateProfileStep_balances (step : ProfileStep) :
    Balances (fun _ => True) (validateProfileStep step) := by
  iterate 3 refine (balances_failIf id).bind fun _ _ => ?_
  exact balances_check id

theorem validateProfileSlot_balances (scan : ProfileScan) (index : Nat) (slot : Option ProfileStep)
    (hcount : scan.expectedStepCount.toNat ≤ 10) :
    Balances (fun _ => True) (validateProfileSlot scan index slot) := by
  rw [validateProfileSlot]
  split
  · next hlt =>
      rw [bitU16_eq (by omega), Outcome.ok_bind]
      generalize decide (scan.missingStepsBitmap &&& _ = 0) = expectedPresent
      rcases expectedPresent with _ | _ <;> rcases slot with _ | step
      · exact trivial
      · exact id
      · exact id
      · exact (balances_failIf id).bind fun _ _ => validateProfileStep_balances step
  · -- past the expected steps a slot has to be empty
    rcases slot with _ | step
    · exact trivial
    · exact id

/-- No more steps are reported missing than are expected, so the difference does not underflow. -/
theorem validateProfile_balances (scan : ProfileScan) :
    Balances (fun _ => 1 ≤ scan.expectedStepCount ∧ scan.expectedStepCount ≤ 10)
      (validateProfile scan) := by
  refine (balances_failIf id).bind fun _ _ => ?_
  refine (balances_failIf id).bind fun _ hcount => ?_
  obtain ⟨hone, hle⟩ := not_not.mp hcount
  have hle' : scan.expectedStepCount.toNat ≤ 10 := UInt8.le_iff_toNat_le.mp hle
  refine (ensureKnownU32_balances _ _ _).bind fun _ _ => ?_
  iterate 2 refine (balances_failIf id).bind fun _ _ => ?_
  rw [stepMask_eq hle, Outcome.ok_bind]
  refine (balances_failIf id).bind fun _ hmask => ?_
  obtain ⟨hmissing, -⟩ := (ScanMeta.bitmaps_iff (m := scan.scanMeta) hle').mp hmask
  have hsub := subU8_countOnes (m := scan.scanMeta) hle' hmissing
  refine (Ends.of_eq_ok (Q := fun _ => True) hsub trivial).bind fun observed _ => ?_
  iterate 2 refine (balances_failIf id).bind fun _ _ => ?_
  refine (Ends.forM fun slot _ => ?_).mono (fun _ _ => ⟨hone, hle⟩) fun _ => id
  exact validateProfileSlot_balances scan slot.2 slot.1 hle'

theorem validateProfileConfigIdentity_balances (common : Common) (flags : UInt32) (reason : UInt8) :
    Balances (fun _ => True) (validateProfileConfigIdentity common flags reason) :=
  balances_check id

theorem validateHealthFlags_balances (common : Common) (flags : UInt8) :
    Balances (fun _ => True) (validateHealthFlags common flags) :=
  (ensureKnownU8_balances _ _ _).bind fun _ _ => balances_check id

theorem validateHealthConfigIdentity_balances (common : Common) (health : DeviceHealth) :
    Balances (fun _ => True) (validateHealthConfigIdentity common health) := by
  refine (balances_failIf id).bind fun _ _ => ?_
  split
  · exact balances_check id
  · exact balances_check id

/-! ### Decoding configurations -/

theorem returns_index {ε : Type} {bs : List UInt8} {i : Nat} (h : i < bs.length) :
    Returns (index bs i : Outcome ε UInt8) := by
  rw [index_eq h]
  exact trivial

/-- The payload is as long as a configuration before its bytes are looked at. -/
theorem validateDecodedConfig_returns (header : Header) (payload : List UInt8) :
    Returns (validateDecodedConfig header payload) := by
  refine returns_failIf.bind fun _ _ => ?_
  refine returns_failIf.bind fun _ hlen => ?_
  have hle : 83 ≤ payload.length := not_lt.mp hlen
  refine (returns_index (by omega)).bind fun schema _ => ?_
  refine returns_failIf.bind fun _ _ => ?_
  refine (returns_index (by omega)).bind fun stepCount _ => ?_
  iterate 2 refine returns_failIf.bind fun _ _ => ?_
  refine (returns_index (by omega)).bind fun flags _ => ?_
  refine (Returns.of_ends (ensureKnownU8_balances _ _ _)).bind fun _ _ => ?_
  refine (returns_index (by omega)).bind fun buildFlags _ => ?_
  refine (Returns.of_ends (ensureKnownU8_balances _ _ _)).bind fun _ _ => ?_
  refine returns_failIf.bind fun _ _ => ?_
  exact Returns.of_ends returns_failIf

/-- The heater slots are filled up to a count that was checked before the fields were read. -/
theorem decodeDeviceConfig_returns (header : Header) (payload : List UInt8) :
    Returns (decodeDeviceConfig header payload) := by
  have hv := (validateDecodedConfig_returns header payload).ne_panicked
  unfold decodeDeviceConfig
  refine ((Ends.of_ne_panicked hv).mono (fun _ => id) fun _ _ => trivial).bind fun ⟨⟩ hok => ?_
  obtain ⟨-, -, h₀, ⟨n, h₄₃, -, hn, hlen⟩, -⟩ := validateDecodedConfig_eq_ok.mp hok
  have hn' : n.toNat ≤ 10 := UInt8.le_iff_toNat_le.mp hn
  obtain ⟨config, hp, hcount, hs⟩ := exists_configBytes hn' hlen h₀ h₄₃
  rw [Reader.new_eq, StateT.run, hp, (readConfig_at (hcount ▸ hn') hs).mpr rfl]
  simp only [Outcome.ok_bind, Reader.finish_at]
  exact (Returns.of_ends (validateConfig_balances _)).bind fun _ _ => trivial

/-! ### Decoding fragments -/

theorem decodeStep_returns (bytes : List UInt8) : Returns (decodeStep bytes) := by
  refine returns_failIf.bind fun _ _ => ?_
  refine Ends.bind (Q := fun _ => True) ?_ fun p _ => ?_
  · refine Reader.Safe.bind (Reader.safe_field _) (fun stepIndex => ?_) _
    iterate 21 refine (Reader.safe_field _).bind fun _ => ?_
    exact Reader.safe_pure _
  · refine (Reader.returns_finish _).bind fun _ _ => ?_
    exact (Returns.of_ends (validateProfileStep_balances _)).bind fun _ _ => trivial

theorem readFragmentMeta_safe (header : Header) : Reader.Safe (readFragmentMeta header) := by
  unfold readFragmentMeta
  iterate 21 refine (Reader.safe_field _).bind fun _ => ?_
  exact Reader.safe_pure _

/-- The rows hold one step for each index of the window that is not missing, so no row is cut
short. -/
theorem checkWindow_returns {missing : UInt16} {stepBytes : List UInt8} :
    ∀ {window : List Nat} {k : Nat}, (∀ i ∈ window, i < 16) →
      stepBytes.length = (k + (presentIn missing window).length) * profileStepLen →
      Returns (checkWindow missing stepBytes window k)
  | [], _, _, _ => trivial
  | i :: window, k, hw, hlen => by
      obtain ⟨hi, hw'⟩ := List.forall_mem_cons.mp hw
      rw [checkWindow, bitU16_eq hi, Outcome.ok_bind]
      by_cases hm : Bitmap.has missing i
      · have hp : presentIn missing (i :: window) = presentIn missing window := by
          simp [presentIn, hm]
        rw [if_pos (by simp [Bitmap.and_bit_eq_zero hi, hm])]
        exact checkWindow_returns hw' (hp ▸ hlen)
      · have hp : presentIn missing (i :: window) = i :: presentIn missing window := by
          simp [presentIn, hm]
        rw [hp, List.length_cons] at hlen
        have hfit : k * profileStepLen + profileStepLen ≤ stepBytes.length := by
          rw [hlen, profileStepLen]
          omega
        rw [if_neg (by simp [Bitmap.and_bit_eq_zero hi, hm])]
        refine (Ends.of_eq_ok (Q := fun _ => True) (slice_eq (Nat.le_add_right _ _) hfit)
          trivial).bind fun row _ => ?_
        refine (decodeStep_returns row).bind fun step _ => ?_
        refine returns_failIf.bind fun _ _ => ?_
        exact checkWindow_returns hw' (by rw [hlen]; congr 1; omega)

/-- The counts and the mask of the metadata are checked before the window is cut out of the
bitmap, and the length of the payload before the rows are cut out of it. -/
theorem decodeProfileFragment_returns (header : Header) (payload : List UInt8) :
    Returns (decodeProfileFragment header payload) := by
  unfold decodeProfileFragment
  refine returns_failIf.bind fun _ _ => ?_
  have hread : Reader.Safe (do
      Reader.failIf ((← Reader.u8) ≠ profileSchemaVersion) (.invalidField "profile_schema_version")
      readFragmentMeta header : Read ProfileFragmentView) := by
    refine (Reader.safe_field _).bind fun schema => ?_
    exact (Reader.safe_failIf _ _).bind fun _ => readFragmentMeta_safe header
  refine (hread _).bind fun ⟨view, r⟩ _ => ?_
  refine returns_failIf.bind fun _ hcount => ?_
  obtain ⟨hone, hle⟩ := not_not.mp hcount
  have hle' : view.expectedStepCount.toNat ≤ 10 := UInt8.le_iff_toNat_le.mp hle
  refine (Returns.of_ends (ensureKnownU32_balances _ _ _)).bind fun _ _ => ?_
  refine returns_failIf.bind fun _ _ => ?_
  refine (Returns.of_ends (validateProfileConfigIdentity_balances _ _ _)).bind fun _ _ => ?_
  iterate 2 refine returns_failIf.bind fun _ _ => ?_
  rw [profileFragmentCount_eq_ok.mpr ⟨⟨hone, hle⟩, rfl⟩, Outcome.ok_bind]
  iterate 2 refine returns_failIf.bind fun _ _ => ?_
  rw [stepMask_eq hle, Outcome.ok_bind]
  refine returns_failIf.bind fun _ hmask => ?_
  obtain ⟨hmissing, -⟩ := (ScanMeta.bitmaps_iff (m := view.scanMeta) hle').mp hmask
  have hsub := subU8_countOnes (m := view.scanMeta) hle' hmissing
  refine (Ends.of_eq_ok (Q := fun _ => True) hsub trivial).bind fun observed _ => ?_
  refine returns_failIf.bind fun _ _ => ?_
  -- the window is one of three steps below sixteen
  have hwindow : ∀ i ∈ stepWindow view.expectedStepCount.toNat header.fragmentIndex.toNat, i < 16 :=
    view.scanMeta.lt_of_mem_stepWindow ⟨hone, hle⟩
  have hpresent := length_presentIn_le view.missingStepsBitmap view.expectedStepCount.toNat
    header.fragmentIndex.toNat
  have hrequired := @countRequired_eq view.missingStepsBitmap _ 0 hwindow
    (by simp only [UInt8.reduceToNat]; omega)
  refine (Ends.of_eq_ok (Q := fun n => n = _) hrequired rfl).bind fun required hreq => ?_
  refine returns_failIf.bind fun _ hsteps => ?_
  refine returns_failIf.bind fun _ hlen => ?_
  have hlen' : payload.length = profileFragmentMetaLen +
      (presentIn view.missingStepsBitmap
        (stepWindow view.expectedStepCount.toNat header.fragmentIndex.toNat)).length *
        profileStepLen := by
    rw [not_not.mp hlen, not_not.mp hsteps, hreq, UInt8.zero_add,
      UInt8.toNat_ofNat_of_lt' (by simp only [UInt8.size]; omega)]
  rw [sliceFrom_eq (by omega), Outcome.ok_bind]
  refine (checkWindow_returns hwindow ?_).bind fun _ _ => trivial
  rw [List.length_drop, hlen', Nat.add_sub_cancel_left, Nat.zero_add]

/-! ### Decoding health records -/

/-- A pass of the loop moves the offset by two at least, and stops it at the end of the payload at
the latest. -/
theorem validateExtensions_returns {payload : List UInt8} :
    ∀ {fuel offset : Nat} {previousType : UInt8}, payload.length < offset + fuel →
      offset ≤ payload.length → Returns (validateExtensions payload fuel offset previousType)
  | 0, offset, _, hfuel, hle => by omega
  | fuel + 1, offset, previousType, hfuel, hle => by
      rw [validateExtensions]
      split
      · rw [subUsize_eq hle, Outcome.ok_bind]
        refine returns_failIf.bind fun _ htwo => ?_
        refine (returns_index (by omega)).bind fun kind _ => ?_
        refine (returns_index (by omega)).bind fun len _ => ?_
        refine returns_failIf.bind fun _ _ => ?_
        rw [subUsize_eq (by omega), Outcome.ok_bind]
        refine returns_failIf.bind fun _ hlen => ?_
        split
        · refine returns_failIf.bind fun _ _ => ?_
          exact validateExtensions_returns (by omega) (by omega)
        · exact trivial
      · exact trivial

theorem validateDecodedHealth_returns (header : Header) (payload : List UInt8) :
    Returns (validateDecodedHealth header payload) := by
  refine returns_failIf.bind fun _ _ => ?_
  refine returns_failIf.bind fun _ hlen => ?_
  have hle : 54 ≤ payload.length := not_lt.mp hlen
  refine (returns_index (by omega)).bind fun schema _ => ?_
  refine returns_failIf.bind fun _ _ => ?_
  refine (returns_index (by omega)).bind fun flags _ => ?_
  refine (Returns.of_ends (validateHealthFlags_balances _ _)).bind fun _ _ => ?_
  refine (returns_index (by omega)).bind fun extensionLen _ => ?_
  refine returns_failIf.bind fun _ _ => ?_
  exact validateExtensions_returns (by omega) hle

/-- The optional measurements that were checked are the ones the second loop reads. -/
theorem decodeDeviceHealth_returns (header : Header) (payload : List UInt8) :
    Returns (decodeDeviceHealth header payload) := by
  have hv := (validateDecodedHealth_returns header payload).ne_panicked
  unfold decodeDeviceHealth
  refine ((Ends.of_ne_panicked hv).mono (fun _ => id) fun _ _ => trivial).bind fun ⟨⟩ hok => ?_
  have hle : healthBaseLen ≤ payload.length := by
    simp only [validateDecodedHealth, Outcome.unit_bind_eq_ok, Outcome.failIf_eq_ok] at hok
    exact not_lt.mp hok.2.1
  obtain ⟨schema, len, base, rest, rfl⟩ := exists_healthBaseBytes hle
  obtain ⟨-, -, hschema, -, -, t, v, rfl⟩ := validateDecodedHealth_eq_ok.mp hok
  have hlen := length_healthBaseBytes schema len base
  rw [slice_append hlen, sliceFrom_append hlen, subUsize_eq hle]
  simp only [Outcome.ok_bind, Reader.new_eq, StateT.run, readHealthBase_at.mpr ⟨hschema, rfl⟩,
    Reader.finish_at]
  refine returns_failIf.bind fun _ _ => ?_
  simp only [readExtensions_at base.base t v rfl rfl, Outcome.ok_bind, Reader.finish_at]
  exact (Returns.of_ends (validateHealthConfigIdentity_balances _ _)).bind fun _ _ => trivial

/-! ### Decoding frames -/

theorem decode_returns (bytes : List UInt8) : Returns (decode bytes) := by
  unfold decode
  refine (decodeHeader_ends bytes).bind fun header hlen => ?_
  rw [sliceFrom_eq hlen, Outcome.ok_bind]
  split
  · exact (decodeDeviceConfig_returns _ _).bind fun _ _ => trivial
  · exact (decodeProfileFragment_returns _ _).bind fun _ _ => trivial
  · exact (decodeDeviceHealth_returns _ _).bind fun _ _ => trivial

theorem returns_readAt {ε α : Type} (L : Layout α) {bytes : List UInt8} {offset : Nat}
    (h : offset + L.width ≤ bytes.length) : Returns (readAt L bytes offset : Outcome ε α) := by
  rw [readAt, slice_eq (Nat.le_add_right _ _) h]
  exact trivial

/-- Every field of a version 1 frame lies in its 48 bytes. -/
theorem TelemetryV1.decode_returns (bytes : List UInt8) : Returns (TelemetryV1.decode bytes) := by
  refine returns_failIf.bind fun _ hne => ?_
  have hlen : bytes.length = 48 := not_not.mp hne
  refine (returns_index (by omega)).bind fun m₀ _ => ?_
  refine (returns_index (by omega)).bind fun m₁ _ => ?_
  refine returns_failIf.bind fun _ _ => ?_
  refine (returns_index (by omega)).bind fun found _ => ?_
  refine returns_failIf.bind fun _ _ => ?_
  refine (returns_index (by omega)).bind fun sensorStatus _ => ?_
  iterate 10 refine (returns_readAt _ (by simp [hlen])).bind fun _ _ => ?_
  iterate 6 refine (returns_index (by omega)).bind fun _ _ => ?_
  exact trivial

theorem decodeAny_returns (bytes : List UInt8) : Returns (decodeAny bytes) := by
  refine returns_failIf.bind fun _ hlt => ?_
  have hlen : 3 ≤ bytes.length := not_lt.mp hlt
  refine (returns_index (by omega)).bind fun m₀ _ => ?_
  refine (returns_index (by omega)).bind fun m₁ _ => ?_
  refine returns_failIf.bind fun _ _ => ?_
  refine (returns_index (by omega)).bind fun found _ => ?_
  split
  · exact (TelemetryV1.decode_returns bytes).mapErr.bind fun _ _ => trivial
  · split
    · exact (decode_returns bytes).mapErr.bind fun _ _ => trivial
    · exact trivial

/-! ### Encoding -/

/-- A header is written for a payload that fits the radio's frame. -/
theorem encodeHeader_balances (t : FrameType) (c : Common) (i n : UInt8) {len : Nat}
    (h : headerLen + len ≤ maxPhyFrameLen) :
    Balances (fun bytes => bytes.length = headerLen) (encodeHeader headerLen t c i n len) := by
  rw [encodeHeader, Outcome.failIf_neg (not_not.mpr rfl), Outcome.ok_bind]
  iterate 2 refine (balances_failIf id).bind fun _ _ => ?_
  refine (ensureKnownU8_balances _ _ _).bind fun _ _ => ?_
  iterate 2 refine (balances_failIf id).bind fun _ _ => ?_
  refine (ensureKnownU16_balances _ _ _).bind fun _ _ => ?_
  rw [Outcome.failIf_neg (not_lt.mpr h), Outcome.ok_bind, fill_header t c i n h]
  exact length_headerBytes _

theorem frameOf_balances {header payload : List UInt8} {payloadLen : Nat}
    (hheader : header.length = headerLen) (hpayload : payload.length = payloadLen)
    (hfit : payloadLen ≤ 183) :
    Balances (fun frame => frame.length ≤ maxV2FrameLen) (frameOf header payload payloadLen) := by
  rw [frameOf, Outcome.failIf_neg (by rw [headerLen]; omega), Outcome.ok_bind]
  show (header ++ payload).length ≤ maxV2FrameLen
  rw [List.length_append, hheader, hpayload]
  exact Nat.add_le_add_left hfit headerLen

/-- The bytes that are hashed are those of the payload. -/
theorem deviceConfigId_balances (config : DeviceConfig) :
    Balances (fun _ => True) (deviceConfigId config) := by
  unfold deviceConfigId
  refine (validateConfig_balances config).bind fun _ hle => ?_
  have hfill := fillSlice_eq (configBaseLen + maxProfileSteps * configStepLen) 0
    (writes_configPayload hle)
    (by rw [length_configBytes hle]; exact (Nat.zero_add _).trans_le (configPayloadLen_le hle))
  rw [length_configBytes hle] at hfill
  rw [hfill, Outcome.ok_bind]
  exact (balances_failIf id).bind fun _ _ => trivial

theorem encodeDeviceConfig_balances (c : Common) (config : DeviceConfig) (repeated : Bool) :
    Balances (fun frame => frame.length ≤ maxV2FrameLen)
      (encodeDeviceConfig c config repeated) := by
  unfold encodeDeviceConfig
  refine (validateConfig_balances config).bind fun _ hle => ?_
  have hfit := configPayloadLen_le hle
  have hfill := fillSlice_eq maxPhyFrameLen headerLen (writes_configPayload hle)
    (by rw [length_configBytes hle, headerLen, maxPhyFrameLen]; omega)
  rw [length_configBytes hle] at hfill
  refine (Ends.of_eq_ok (Q := fun payload => payload = configBytes config) hfill rfl).bind
    fun payload hpayload => ?_
  refine (deviceConfigId_balances config).bind fun configId _ => ?_
  refine (encodeHeader_balances _ _ _ _ ?_).bind fun header hheader => ?_
  · rw [headerLen, maxPhyFrameLen]
    omega
  · exact frameOf_balances hheader (hpayload ▸ length_configBytes hle) hfit

theorem encodeFragment_balances (c : Common) {scan : ProfileScan} {k : Nat}
    (hn : scan.expectedStepCount.toNat ≤ 10) (hk : k < fragmentsOf scan.expectedStepCount.toNat) :
    Balances (fun frame => frame.length ≤ maxV2FrameLen)
      (encodeFragment c scan (.ofNat (fragmentsOf scan.expectedStepCount.toNat)) (.ofNat k)) := by
  have h4 := fragmentsOf_le hn
  have hk' : (UInt8.ofNat k).toNat = k :=
    UInt8.toNat_ofNat_of_lt' (by simp only [UInt8.size]; omega)
  have hslot : k < maxProfileFragments := lt_of_lt_of_le hk h4
  have h3 := scan.length_stepsIn_le k
  have hfit : profileFragmentMetaLen + (scan.stepsIn k).length * profileStepLen ≤ 183 := by
    simp only [profileFragmentMetaLen, profileStepLen]
    omega
  have hphy : headerLen + (profileFragmentMetaLen + (scan.stepsIn k).length * profileStepLen) ≤
      maxPhyFrameLen := by
    rw [headerLen, maxPhyFrameLen]
    omega
  have hfill := fillSlice_eq maxPhyFrameLen headerLen (writes_fragmentPayload c scan hslot)
    (by rwa [length_fragmentBytes_fragmentView])
  rw [length_fragmentBytes_fragmentView] at hfill
  rw [encodeFragment, hk', windowSteps_eq hn hk, Outcome.ok_bind]
  dsimp only
  rw [frameSlot_eq hslot, Outcome.ok_bind]
  refine (encodeHeader_balances _ _ _ _ hphy).bind fun header hheader => ?_
  rw [hfill, Outcome.ok_bind]
  exact frameOf_balances hheader (length_fragmentBytes_fragmentView c scan k) hfit

theorem encodeProfile_balances (c : Common) (scan : ProfileScan) :
    Balances (fun frames => ∀ frame ∈ frames, frame.length ≤ maxV2FrameLen)
      (encodeProfile c scan) := by
  unfold encodeProfile
  refine (validateProfile_balances scan).bind fun _ hcount => ?_
  have hn : scan.expectedStepCount.toNat ≤ 10 := UInt8.le_iff_toNat_le.mp hcount.2
  refine (validateProfileConfigIdentity_balances _ _ _).bind fun _ _ => ?_
  rw [profileFragmentCount_eq_ok.mpr ⟨hcount, rfl⟩, Outcome.ok_bind]
  refine Ends.mapM fun k hk => encodeFragment_balances c hn ?_
  rwa [List.mem_range, UInt8.toNat_ofNat_of_lt' (lt_of_le_of_lt (fragmentsOf_le hn) (by decide))]
    at hk

theorem encodeDeviceHealth_balances (c : Common) (health : DeviceHealth) :
    Balances (fun frame => frame.length ≤ maxV2FrameLen) (encodeDeviceHealth c health) := by
  have hle := health.extensionLen_le
  have hfit : headerLen + (healthBaseLen + health.extensionLen) ≤ maxPhyFrameLen := by
    simp only [headerLen, healthBaseLen, maxPhyFrameLen]
    omega
  have hfill := fillSlice_eq maxPhyFrameLen headerLen (writes_healthPayload health)
    (by rwa [length_healthBytes])
  rw [length_healthBytes] at hfill
  unfold encodeDeviceHealth
  refine (validateHealthFlags_balances _ _).bind fun _ _ => ?_
  refine (validateHealthConfigIdentity_balances _ _).bind fun _ _ => ?_
  refine (encodeHeader_balances _ _ _ _ hfit).bind fun header hheader => ?_
  refine (Ends.of_eq_ok (Q := fun payload => payload = healthBytes health) hfill rfl).bind
    fun payload hpayload => ?_
  refine frameOf_balances hheader ?_ ?_
  · rw [hpayload, length_healthBytes]
    rfl
  · show healthBaseLen + health.extensionLen ≤ 183
    rw [healthBaseLen]
    omega

/-- **The codec does not panic.**  Whatever the bytes, decoding returns or fails, and the steps
that a decoded fragment announces can all be read.  Whatever the record, encoding returns or
fails, never with an error of the writer's own accounting, and a frame that is returned has 231
bytes at most. -/
theorem codec_total :
    (∀ b, decode b ≠ .error .panicked ∧ decodeAny b ≠ .error .panicked) ∧
    (∀ b view, decode b = .ok (.profileFragment view) →
      ∀ localIndex < view.stepsInFragment.toNat, ∃ step, view.step localIndex = .ok step) ∧
    (∀ config, Balances (fun _ => True) (deviceConfigId config)) ∧
    ∀ common,
      (∀ config repeated, Balances (fun frame => frame.length ≤ 231)
        (encodeDeviceConfig common config repeated)) ∧
      (∀ scan, Balances (fun frames => ∀ frame ∈ frames, frame.length ≤ 231)
        (encodeProfile common scan)) ∧
      ∀ health, Balances (fun frame => frame.length ≤ 231)
        (encodeDeviceHealth common health) := by
  refine ⟨fun b => ⟨(decode_returns b).ne_panicked, (decodeAny_returns b).ne_panicked⟩,
    fun b view hb localIndex hlt => ?_, deviceConfigId_balances, fun common =>
    ⟨encodeDeviceConfig_balances common, encodeProfile_balances common,
      encodeDeviceHealth_balances common⟩⟩
  obtain ⟨-, -, -, ⟨-, -, -, -, steps, hs⟩, -⟩ := decode_fragment.mp hb
  rw [hs.toNat_count] at hlt
  exact ⟨_, hs.step hlt⟩

end Vesta.Protocol
