import Vesta.Foundations.Fault
import Vesta.Foundations.Text
import Vesta.Protocol.Any

/-!
# Receiver — Hex

The hexadecimal texts of `lib.rs`: a frame of exactly 48 bytes, and a payload of 3 to 255.  Both
parsers run one loop over the bytes of the text after an optional `0x` or `0X`, so both accept the
texts that spell bytes in digits of either case (`Spells HexDigit`), and where they fail at a byte
it is the first that is not a digit.
-/

namespace Vesta.Receiver

open Outcome (failIf)
open Protocol (frameLen maxPhyFrameLen)
open Text (asBytes Spells)

/-- Failure to parse a hexadecimal text. -/
inductive HexError where
  | wrongLength (expected actual : Nat)
  | oddLength (actual : Nat)
  | payloadLength (minimum maximum actual : Nat)
  | invalidByte (index : Nat) (found : UInt8)
deriving DecidableEq, Repr

/-! ### The parsers -/

/-- `str::strip_prefix`. -/
def stripPrefix (input lead : String) : Option String :=
  if lead.toList <+: input.toList then
    some (.ofList (input.toList.drop lead.toList.length))
  else none

/-- What both parsers read: the input without `0x`, or else without `0X`, or else all of it. -/
def unprefixed (input : String) : String :=
  ((stripPrefix input "0x").or (stripPrefix input "0X")).getD input

/-- `hex_nibble`. -/
def hexNibble (byte : UInt8) : Option UInt8 :=
  if '0'.toUInt8 ≤ byte ∧ byte ≤ '9'.toUInt8 then some (byte - '0'.toUInt8)
  else if 'a'.toUInt8 ≤ byte ∧ byte ≤ 'f'.toUInt8 then some (byte - 'a'.toUInt8 + 10)
  else if 'A'.toUInt8 ≤ byte ∧ byte ≤ 'F'.toUInt8 then some (byte - 'A'.toUInt8 + 10)
  else none

/-- `hex_nibble(source[index]).ok_or(..)?`. -/
def nibbleAt (source : List UInt8) (index : Nat) : Outcome HexError UInt8 := do
  let found ← Vesta.index source index
  match hexNibble found with
  | some nibble => return nibble
  | none => Outcome.fail (.invalidByte index found)

/-- The body of both loops: the byte that two digits spell. -/
def byteAt (source : List UInt8) (index : Nat) : Outcome HexError UInt8 := do
  let highIndex := index * 2
  let lowIndex := highIndex + 1
  let high ← nibbleAt source highIndex
  let low ← nibbleAt source lowIndex
  return high <<< 4 ||| low

def frameHexLen : Nat := frameLen * 2

/-- `parse_frame_hex`. -/
def parseFrameHex (input : String) : Outcome HexError (List UInt8) := do
  let input := unprefixed input
  failIf (input.utf8ByteSize ≠ frameHexLen) (.wrongLength frameHexLen input.utf8ByteSize)
  let source := asBytes input
  (List.range frameLen).mapM fun index => byteAt source index

/-- `parse_payload_hex`. -/
def parsePayloadHex (input : String) : Outcome HexError (List UInt8) := do
  let input := unprefixed input
  failIf (input.utf8ByteSize % 2 ≠ 0) (.oddLength input.utf8ByteSize)
  let byteLen := input.utf8ByteSize / 2
  failIf (¬ (3 ≤ byteLen ∧ byteLen ≤ maxPhyFrameLen)) (.payloadLength 3 maxPhyFrameLen byteLen)
  let source := asBytes input
  (List.range byteLen).mapM fun index => byteAt source index

/-! ### Digits -/

def lowerDigits : List Char := "0123456789abcdef".toList
def upperDigits : List Char := "0123456789ABCDEF".toList

/-- The character `c` is the hexadecimal digit `d`, in either case. -/
def HexDigit (c : Char) (d : Nat) : Prop := lowerDigits[d]? = some c ∨ upperDigits[d]? = some c

instance (c : Char) (d : Nat) : Decidable (HexDigit c d) := inferInstanceAs (Decidable (_ ∨ _))

/-- The byte of a hexadecimal digit. -/
def IsHexByte (b : UInt8) : Prop := ∃ c d, HexDigit c d ∧ b = c.toUInt8

/-- The byte `b` is read as the digit `d`. -/
def HexByte (b : UInt8) (d : Nat) : Prop := d < 16 ∧ hexNibble b = some (.ofNat d)

instance (b : UInt8) (d : Nat) : Decidable (HexByte b d) := inferInstanceAs (Decidable (_ ∧ _))

theorem HexDigit.lt {c : Char} {d : Nat} (h : HexDigit c d) : d < 16 := by
  rcases h with h | h
  · exact (List.getElem?_eq_some_iff.mp h).1
  · exact (List.getElem?_eq_some_iff.mp h).1

theorem HexDigit.ascii {c : Char} {d : Nat} (h : HexDigit c d) : c.toNat < 128 := by
  have hall : (lowerDigits ++ upperDigits).all fun x => x.toNat < 128 := by decide
  refine of_decide_eq_true (List.all_eq_true.mp hall c ?_)
  rcases h with h | h
  · exact List.mem_append_left _ (List.mem_of_getElem? h)
  · exact List.mem_append_right _ (List.mem_of_getElem? h)

/-- On ASCII, the code reads the digits that there are. -/
theorem hexByte_iff {c : Char} (h : c.toNat < 128) (d : Nat) :
    HexByte c.toUInt8 d ↔ HexDigit c d := by
  have hall : ∀ k < 128, ∀ d < 16,
      HexByte (Char.ofNat k).toUInt8 d ↔ HexDigit (Char.ofNat k) d := by
    decide +kernel
  have hc := hall c.toNat h d
  rw [Char.ofNat_toNat] at hc
  exact ⟨fun hb => (hc hb.1).mp hb, fun hd => (hc hd.lt).mpr hd⟩

/-- A byte that the code reads is ASCII, and a digit. -/
theorem exists_hexByte {b : UInt8} (h : hexNibble b ≠ none) :
    b < 128 ∧ IsHexByte b ∧ ∃ d, HexByte b d := by
  have hall : ∀ k < 256, hexNibble (.ofNat k) ≠ none →
      UInt8.ofNat k < 128 ∧ UInt8.ofNat k = (Char.ofNat k).toUInt8 ∧
        ∃ d < 16, HexDigit (Char.ofNat k) d ∧ HexByte (.ofNat k) d := by
    decide +kernel
  have hb := hall b.toNat b.toNat_lt
  rw [UInt8.ofNat_toNat] at hb
  obtain ⟨hascii, hchar, d, -, hdigit, hbyte⟩ := hb h
  exact ⟨hascii, ⟨_, d, hdigit, hchar⟩, d, hbyte⟩

theorem HexByte.ne_none {b : UInt8} {d : Nat} (h : HexByte b d) : hexNibble b ≠ none := by
  rw [h.2]
  exact nofun

theorem isHexByte_iff {b : UInt8} : IsHexByte b ↔ hexNibble b ≠ none := by
  constructor
  · rintro ⟨c, d, hd, rfl⟩
    exact ((hexByte_iff hd.ascii d).mpr hd).ne_none
  · intro hb
    exact (exists_hexByte hb).2.1

/-- A text spells what its bytes do. -/
theorem spells_asBytes {s : String} {v : List UInt8} :
    Spells HexByte (asBytes s) v ↔ Spells HexDigit s.toList v := by
  constructor
  · intro h
    have hascii : ∀ b ∈ asBytes s, b < 128 := fun b hb =>
      let ⟨_, hd⟩ := h.exists_digit b hb
      (exists_hexByte hd.ne_none).1
    obtain ⟨hbytes, hchars⟩ := Text.asciiBytes_eq hascii
    rw [hbytes] at h
    exact h.of_map fun c hc d => (hexByte_iff (hchars c hc) d).mp
  · intro h
    have hchars : ∀ c ∈ s.toList, c.toNat < 128 := fun c hc =>
      let ⟨_, hd⟩ := h.exists_digit c hc
      hd.ascii
    rw [Text.asBytes_eq, Text.flatMap_ascii hchars]
    exact h.map fun c hc d => (hexByte_iff (hchars c hc) d).mpr

/-! ### The loop -/

theorem nibbleAt_eq_ok {source : List UInt8} {i : Nat} {n : UInt8} :
    nibbleAt source i = .ok n ↔ ∃ b, source[i]? = some b ∧ hexNibble b = some n := by
  rw [nibbleAt, Outcome.bind_eq_ok]
  refine exists_congr fun b => ?_
  rw [index_eq_ok]
  refine and_congr_right fun _ => ?_
  cases hexNibble b with
  | none => exact ⟨nofun, nofun⟩
  | some m => exact ⟨fun h => congrArg some (Except.ok.inj h), fun h =>
    congrArg _ (Option.some.inj h)⟩

theorem nibble_pair : ∀ high < 16, ∀ low < 16,
    UInt8.ofNat high <<< 4 ||| UInt8.ofNat low = UInt8.ofNat (16 * high + low) := by
  decide

/-- The byte that a pass reads. -/
theorem byteAt_eq_ok {source : List UInt8} {i : Nat} {x : UInt8} :
    byteAt source i = .ok x ↔ ∃ a b high low, source[i * 2]? = some a ∧
      source[i * 2 + 1]? = some b ∧ HexByte a high ∧ HexByte b low ∧
        x = .ofNat (16 * high + low) := by
  simp only [byteAt, Outcome.bind_eq_ok, nibbleAt_eq_ok, Outcome.pure_eq_ok, Except.ok.injEq]
  constructor
  · rintro ⟨_, ⟨a, ha, hna⟩, _, ⟨b, hb, hnb⟩, rfl⟩
    obtain ⟨-, -, high, hhigh⟩ := exists_hexByte (Option.ne_none_iff_exists'.mpr ⟨_, hna⟩)
    obtain ⟨-, -, low, hlow⟩ := exists_hexByte (Option.ne_none_iff_exists'.mpr ⟨_, hnb⟩)
    obtain rfl := Option.some.inj (hna.symm.trans hhigh.2)
    obtain rfl := Option.some.inj (hnb.symm.trans hlow.2)
    exact ⟨a, b, high, low, ha, hb, hhigh, hlow, nibble_pair high hhigh.1 low hlow.1⟩
  · rintro ⟨a, b, high, low, ha, hb, hhigh, hlow, rfl⟩
    exact ⟨_, ⟨a, ha, hhigh.2⟩, _, ⟨b, hb, hlow.2⟩, nibble_pair high hhigh.1 low hlow.1⟩

theorem byteAt_succ {a b : UInt8} {source : List UInt8} {i : Nat} {x : UInt8} :
    byteAt (a :: b :: source) (i + 1) = .ok x ↔ byteAt source i = .ok x := by
  have hi : (i + 1) * 2 = i * 2 + 2 := by omega
  simp only [byteAt_eq_ok, hi, List.getElem?_cons_succ]

/-- The passes over all pairs of digits return what the source spells. -/
theorem spells_iff {source v : List UInt8} :
    Spells HexByte source v ↔
      source.length = 2 * v.length ∧ ∀ i (h : i < v.length), byteAt source i = .ok v[i] := by
  constructor
  · intro h
    refine ⟨h.length, ?_⟩
    induction h with
    | nil => nofun
    | cons ha hb _ ih =>
        intro i hi
        cases i with
        | zero => exact byteAt_eq_ok.mpr ⟨_, _, _, _, rfl, rfl, ha, hb, rfl⟩
        | succ i => exact byteAt_succ.mpr (ih i (Nat.lt_of_succ_lt_succ hi))
  · rintro ⟨hlen, h⟩
    induction v generalizing source with
    | nil =>
        rw [List.eq_nil_of_length_eq_zero hlen]
        exact .nil
    | cons x v ih =>
        obtain ⟨a, b, high, low, ha, hb, hhigh, hlow, hx⟩ := byteAt_eq_ok.mp (h 0 (by simp))
        match source, hlen, h, ha, hb with
        | a' :: b' :: source, hlen, h, ha, hb =>
            obtain rfl := Option.some.inj ha
            obtain rfl := Option.some.inj hb
            rw [List.getElem_cons_zero] at hx
            rw [hx]
            refine .cons hhigh hlow (ih (by simp only [List.length_cons] at hlen; omega) ?_)
            exact fun i hi => byteAt_succ.mp (h (i + 1) (Nat.succ_lt_succ hi))

/-- The byte at `k` is the first that is not a digit. -/
structure FirstInvalid (source : List UInt8) (k : Nat) (found : UInt8) : Prop where
  at_ : source[k]? = some found
  invalid : ¬ IsHexByte found
  before : ∀ j < k, ∃ b, source[j]? = some b ∧ IsHexByte b

theorem nibbleAt_eq_error {source : List UInt8} {i : Nat} (hi : i < source.length)
    {e : Fault HexError} (h : nibbleAt source i = .error e) :
    ∃ b, source[i]? = some b ∧ ¬ IsHexByte b ∧ e = .error (.invalidByte i b) := by
  rw [nibbleAt, index_eq hi, Outcome.ok_bind] at h
  refine ⟨source[i], List.getElem?_eq_getElem hi, ?_⟩
  cases hn : hexNibble source[i] with
  | some n =>
      rw [hn] at h
      cases h
  | none =>
      rw [hn] at h
      exact ⟨fun hb => isHexByte_iff.mp hb hn, (Except.error.inj h).symm⟩

theorem isHexByte_of_nibbleAt {source : List UInt8} {i : Nat} {n : UInt8}
    (h : nibbleAt source i = .ok n) : ∃ b, source[i]? = some b ∧ IsHexByte b := by
  obtain ⟨b, hb, hn⟩ := nibbleAt_eq_ok.mp h
  exact ⟨b, hb, isHexByte_iff.mpr (Option.ne_none_iff_exists'.mpr ⟨n, hn⟩)⟩

/-- The loop over all pairs of digits ends in what the source spells, or at its first invalid
byte; it does not panic. -/
theorem loop_ends {source : List UInt8} {n : Nat} (hlen : source.length = 2 * n) :
    Outcome.Ends (fun v => v.length = n ∧ Spells HexByte source v)
      (fun e => ∃ k found, e = .invalidByte k found ∧ FirstInvalid source k found)
      ((List.range n).mapM fun index => byteAt source index) := by
  cases hm : (List.range n).mapM fun index => byteAt source index with
  | ok v =>
      obtain ⟨hv, hb⟩ := Outcome.mapM_range_eq_ok.mp hm
      exact ⟨hv, spells_iff.mpr ⟨hv ▸ hlen, hb⟩⟩
  | error e =>
      obtain ⟨i, hi, he, hbefore⟩ := Outcome.mapM_range_eq_error hm
      -- both digits of the passes before were read
      have hread : ∀ j < i * 2, ∃ b, source[j]? = some b ∧ IsHexByte b := by
        intro j hj
        obtain ⟨x, hx⟩ := hbefore (j / 2) (by omega)
        obtain ⟨a, b, high, low, ha, hb, hhigh, hlow, -⟩ := byteAt_eq_ok.mp hx
        rcases Nat.mod_two_eq_zero_or_one j with heven | hodd
        · exact ⟨a, by rwa [show j = j / 2 * 2 by omega], isHexByte_iff.mpr hhigh.ne_none⟩
        · exact ⟨b, by rwa [show j = j / 2 * 2 + 1 by omega], isHexByte_iff.mpr hlow.ne_none⟩
      rw [byteAt] at he
      cases hhigh : nibbleAt source (i * 2) with
      | error e' =>
          rw [hhigh] at he
          obtain rfl : e' = e := Except.error.inj he
          obtain ⟨b, hb, hinvalid, rfl⟩ := nibbleAt_eq_error (by omega) hhigh
          exact ⟨_, b, rfl, hb, hinvalid, hread⟩
      | ok high =>
          rw [hhigh, Outcome.ok_bind] at he
          cases hlow : nibbleAt source (i * 2 + 1) with
          | ok low =>
              rw [hlow] at he
              cases he
          | error e' =>
              rw [hlow] at he
              obtain rfl : e' = e := Except.error.inj he
              obtain ⟨b, hb, hinvalid, rfl⟩ := nibbleAt_eq_error (by omega) hlow
              refine ⟨_, b, rfl, hb, hinvalid, fun j hj => ?_⟩
              rcases Nat.lt_succ_iff_lt_or_eq.mp hj with hj | rfl
              · exact hread j hj
              · exact isHexByte_of_nibbleAt hhigh

/-! ### The optional prefix -/

/-- `0x`, `0X` or nothing. -/
def IsLead (lead : List Char) : Prop := lead = [] ∨ lead = ['0', 'x'] ∨ lead = ['0', 'X']

theorem stripPrefix_eq_some {input lead rest : String} :
    stripPrefix input lead = some rest ↔ input.toList = lead.toList ++ rest.toList := by
  rw [stripPrefix]
  constructor
  · intro h
    split at h
    · next hp =>
        obtain ⟨tail, htail⟩ := hp
        rw [← Option.some.inj h, String.toList_ofList, ← htail, List.drop_left]
    · cases h
  · intro h
    rw [if_pos ⟨_, h.symm⟩, h, List.drop_left, String.ofList_toList]

theorem stripPrefix_eq_none {input lead : String} :
    stripPrefix input lead = none ↔ ¬ lead.toList <+: input.toList := by
  rw [stripPrefix]
  split
  · next hp => exact ⟨nofun, fun hn => absurd hp hn⟩
  · next hn => exact ⟨fun _ => hn, fun _ => rfl⟩

/-- What stands before the text that is read. -/
theorem unprefixed_spec (s : String) :
    ∃ lead, IsLead lead ∧ s.toList = lead ++ (unprefixed s).toList ∧
    (lead = [] → ¬ ['0', 'x'] <+: s.toList ∧ ¬ ['0', 'X'] <+: s.toList) := by
  rw [unprefixed]
  cases hx : stripPrefix s "0x" with
  | some rest => exact ⟨_, .inr (.inl rfl), stripPrefix_eq_some.mp hx, nofun⟩
  | none =>
      cases hX : stripPrefix s "0X" with
      | some rest => exact ⟨_, .inr (.inr rfl), stripPrefix_eq_some.mp hX, nofun⟩
      | none =>
          exact ⟨[], .inl rfl, rfl, fun _ => ⟨stripPrefix_eq_none.mp hx, stripPrefix_eq_none.mp hX⟩⟩

/-- Digits do not start with a prefix, so one prefix at most is taken from them. -/
theorem unprefixed_of_spells {s : String} {lead digits : List Char} {v : List UInt8}
    (hlead : IsLead lead) (hs : s.toList = lead ++ digits) (h : Spells HexDigit digits v) :
    (unprefixed s).toList = digits := by
  have hnot : ∀ c, (∀ d < 16, ¬ HexDigit c d) → ¬ ['0', c] <+: digits := by
    rintro c hc ⟨tail, rfl⟩
    obtain ⟨d, hd⟩ := h.exists_digit c (by simp)
    exact hc d hd.lt hd
  rw [unprefixed]
  rcases hlead with rfl | rfl | rfl
  · have hx : stripPrefix s "0x" = none := stripPrefix_eq_none.mpr (hs ▸ hnot 'x' (by decide))
    have hX : stripPrefix s "0X" = none := stripPrefix_eq_none.mpr (hs ▸ hnot 'X' (by decide))
    rw [hx, hX]
    exact hs
  · have hx : stripPrefix s "0x" = some (.ofList digits) :=
      stripPrefix_eq_some.mpr (hs.trans (congrArg _ String.toList_ofList.symm))
    rw [hx]
    exact String.toList_ofList
  · have hx : stripPrefix s "0x" = none := by
      rw [stripPrefix_eq_none, hs]
      show ¬ ['0', 'x'] <+: '0' :: 'X' :: digits
      simp
    have hX : stripPrefix s "0X" = some (.ofList digits) :=
      stripPrefix_eq_some.mpr (hs.trans (congrArg _ String.toList_ofList.symm))
    rw [hx, hX]
    exact String.toList_ofList

/-! ### What the parsers accept -/

/-- What both parsers make of the text that they read, once its length is right. -/
theorem loop_unprefixed {s : String} {n : Nat} (hlen : (unprefixed s).utf8ByteSize = 2 * n) :
    Outcome.Ends (fun v => v.length = n ∧ Spells HexDigit (unprefixed s).toList v)
      (fun e => ∃ k found, e = .invalidByte k found ∧
        FirstInvalid (asBytes (unprefixed s)) k found)
      ((List.range n).mapM fun index => byteAt (asBytes (unprefixed s)) index) :=
  (loop_ends hlen).mono (fun _ hv => ⟨hv.1, spells_asBytes.mp hv.2⟩) fun _ he => he

theorem loop_eq_ok {s : String} {n : Nat} {v : List UInt8}
    (h : Spells HexDigit (unprefixed s).toList v) (hn : v.length = n) :
    (List.range n).mapM (fun index => byteAt (asBytes (unprefixed s)) index) = .ok v := by
  obtain ⟨-, hb⟩ := spells_iff.mp (spells_asBytes.mpr h)
  exact Outcome.mapM_range_eq_ok.mpr ⟨hn, hb⟩

theorem size_of_spells {s : String} {v : List UInt8} (h : Spells HexDigit s.toList v) :
    s.utf8ByteSize = 2 * v.length := (spells_asBytes.mpr h).length

/-- An error of a parser at a byte is about the first that is no digit. -/
def Blames (s : String) (e : HexError) : Prop :=
  ∀ k found, e = .invalidByte k found → FirstInvalid (asBytes (unprefixed s)) k found

theorem parsePayloadHex_ends (s : String) :
    Outcome.Ends (fun v => Spells HexDigit (unprefixed s).toList v ∧ 3 ≤ v.length ∧ v.length ≤ 255)
      (Blames s) (parsePayloadHex s) := by
  refine (Outcome.Ends.failIf fun _ _ _ he => nomatch he).bind fun _ heven => ?_
  refine (Outcome.Ends.failIf fun _ _ _ he => nomatch he).bind fun _ hrange => ?_
  have hlen : (unprefixed s).utf8ByteSize = 2 * ((unprefixed s).utf8ByteSize / 2) := by omega
  obtain ⟨hmin, hmax⟩ := not_not.mp hrange
  refine (loop_unprefixed hlen).mono ?_ ?_
  · rintro v ⟨hv, h⟩
    exact ⟨h, hv ▸ hmin, hv ▸ hmax⟩
  · rintro _ ⟨k, found, rfl, h⟩ _ _ he
    cases he
    exact h

theorem parseFrameHex_ends (s : String) :
    Outcome.Ends (fun v => Spells HexDigit (unprefixed s).toList v ∧ v.length = 48)
      (Blames s) (parseFrameHex s) := by
  refine (Outcome.Ends.failIf fun _ _ _ he => nomatch he).bind fun _ hsize => ?_
  refine (loop_unprefixed (not_not.mp hsize)).mono ?_ ?_
  · rintro v ⟨hv, h⟩
    exact ⟨h, hv⟩
  · rintro _ ⟨k, found, rfl, h⟩ _ _ he
    cases he
    exact h

theorem parsePayloadHex_eq_ok {s : String} {v : List UInt8} :
    parsePayloadHex s = .ok v ↔
      Spells HexDigit (unprefixed s).toList v ∧ 3 ≤ v.length ∧ v.length ≤ 255 := by
  constructor
  · exact (parsePayloadHex_ends s).of_ok
  · rintro ⟨h, hmin, hmax⟩
    have hsize := size_of_spells h
    have hhalf : (unprefixed s).utf8ByteSize / 2 = v.length := by omega
    rw [parsePayloadHex]
    dsimp only
    rw [Outcome.failIf_neg (by omega), Outcome.ok_bind, hhalf,
      Outcome.failIf_neg (not_not.mpr ⟨hmin, hmax⟩), Outcome.ok_bind]
    exact loop_eq_ok h rfl

theorem parseFrameHex_eq_ok {s : String} {v : List UInt8} :
    parseFrameHex s = .ok v ↔ Spells HexDigit (unprefixed s).toList v ∧ v.length = 48 := by
  constructor
  · exact (parseFrameHex_ends s).of_ok
  · rintro ⟨h, hlen⟩
    have hsize : (unprefixed s).utf8ByteSize = frameHexLen :=
      (size_of_spells h).trans (congrArg (2 * ·) hlen)
    rw [parseFrameHex]
    dsimp only
    rw [Outcome.failIf_neg (not_not.mpr hsize), Outcome.ok_bind]
    exact loop_eq_ok h hlen

/-! ### Renderings -/

/-- Two digits of an alphabet for each byte; `{byte:02x}` with the lower-case one. -/
def hexDigits (alphabet : List Char) (v : List UInt8) : List Char :=
  v.flatMap fun b => [alphabet.getD (b.toNat / 16) '0', alphabet.getD (b.toNat % 16) '0']

theorem spells_hexDigits {alphabet : List Char}
    (h : alphabet = lowerDigits ∨ alphabet = upperDigits) (v : List UInt8) :
    Spells HexDigit (hexDigits alphabet v) v := by
  have hdigit : ∀ d < 16, HexDigit (alphabet.getD d '0') d := by
    rcases h with rfl | rfl
    · decide
    · decide
  induction v with
  | nil => exact .nil
  | cons b v ih =>
      have hb : b = .ofNat (16 * (b.toNat / 16) + b.toNat % 16) := by
        rw [Nat.div_add_mod, UInt8.ofNat_toNat]
      have hlt := b.toNat_lt
      have hcons := Spells.cons (hdigit (b.toNat / 16) (by omega))
        (hdigit (b.toNat % 16) (by omega)) ih
      rwa [← hb] at hcons

/-- **The hexadecimal parsers accept exactly their grammar and agree.**  `parsePayloadHex` accepts
the texts that spell 3 to 255 bytes after an optional `0x` or `0X`, and returns these bytes; so it
reads back every rendering of such a payload.  `parseFrameHex` accepts the ones among them with 48
bytes.  A byte that an error blames is the first after the prefix that is not a digit, and no
parser indexes out of range. -/
theorem hex_parsers_agree (s : String) :
    (∀ v, parsePayloadHex s = .ok v ↔
      ∃ lead digits, s.toList = lead ++ digits ∧ IsLead lead ∧ Spells HexDigit digits v ∧
        digits.length = 2 * v.length ∧ 3 ≤ v.length ∧ v.length ≤ 255) ∧
    (∀ v, 3 ≤ v.length → v.length ≤ 255 → ∀ lead, IsLead lead →
      ∀ alphabet, alphabet = lowerDigits ∨ alphabet = upperDigits →
        parsePayloadHex (.ofList (lead ++ hexDigits alphabet v)) = .ok v) ∧
    (∀ f, parseFrameHex s = .ok f ↔ parsePayloadHex s = .ok f ∧ f.length = 48) ∧
    (∀ k found, parsePayloadHex s = .error (.error (.invalidByte k found)) ∨
        parseFrameHex s = .error (.error (.invalidByte k found)) →
      ∃ lead rest, IsLead lead ∧ s.toList = lead ++ rest.toList ∧
        (lead = [] → ¬ ['0', 'x'] <+: s.toList ∧ ¬ ['0', 'X'] <+: s.toList) ∧
        FirstInvalid (asBytes rest) k found) ∧
    parsePayloadHex s ≠ .error .panicked ∧ parseFrameHex s ≠ .error .panicked := by
  have hgrammar : ∀ (s : String) (v : List UInt8) (lead digits : List Char),
      s.toList = lead ++ digits → IsLead lead → Spells HexDigit digits v →
      Spells HexDigit (unprefixed s).toList v := by
    intro s v lead digits hs hlead h
    rwa [unprefixed_of_spells hlead hs h]
  -- one goal for each part: grammar, round trip, length of a frame, first bad byte
  refine ⟨fun v => ⟨fun h => ?_, ?_⟩, fun v hmin hmax lead hlead alphabet ha => ?_, fun f => ?_,
    fun k found h => ?_, (parsePayloadHex_ends s).ne_panicked, (parseFrameHex_ends s).ne_panicked⟩
  · obtain ⟨h, hmin, hmax⟩ := parsePayloadHex_eq_ok.mp h
    obtain ⟨lead, hlead, hs, -⟩ := unprefixed_spec s
    exact ⟨lead, _, hs, hlead, h, h.length, hmin, hmax⟩
  · rintro ⟨lead, digits, hs, hlead, h, -, hmin, hmax⟩
    exact parsePayloadHex_eq_ok.mpr ⟨hgrammar s v lead digits hs hlead h, hmin, hmax⟩
  · exact parsePayloadHex_eq_ok.mpr ⟨hgrammar _ v lead _ String.toList_ofList hlead
      (spells_hexDigits ha v), hmin, hmax⟩
  · rw [parseFrameHex_eq_ok, parsePayloadHex_eq_ok]
    constructor
    · rintro ⟨h, hlen⟩
      exact ⟨⟨h, by omega, by omega⟩, hlen⟩
    · rintro ⟨⟨h, -, -⟩, hlen⟩
      exact ⟨h, hlen⟩
  · obtain ⟨lead, hlead, hs, hnone⟩ := unprefixed_spec s
    refine ⟨lead, unprefixed s, hlead, hs, hnone, ?_⟩
    rcases h with h | h
    · exact (parsePayloadHex_ends s).of_error h k found rfl
    · exact (parseFrameHex_ends s).of_error h k found rfl

end Vesta.Receiver
