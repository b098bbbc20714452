import Mathlib.Data.List.Basic

/-!
# Foundations — Text

Text and its bytes.  The bytes of a text are the UTF-8 encodings of its characters, one after the
other; where they are all below 128 they are the characters (`asciiBytes_eq`).

`Spells digit cs bs` says that the letters `cs` spell the bytes `bs`, two digits in base 16 each,
the higher one first, where `digit c d` says that the letter `c` stands for the digit `d`.
-/

namespace Vesta.Text

/-! ### Bytes -/

/-- `str::as_bytes`. -/
def asBytes (s : String) : List UInt8 := s.toUTF8.data.toList

theorem asBytes_eq (s : String) : asBytes s = s.toList.flatMap String.utf8EncodeChar := by
  rw [asBytes, String.toUTF8_eq_toByteArray, ← String.utf8Encode_toList, List.utf8Encode,
    List.toList_data_toByteArray]

theorem utf8EncodeChar_ascii {c : Char} (h : c.toNat < 128) :
    String.utf8EncodeChar c = [c.toUInt8] := by
  have hle : c.val.toNat ≤ 0x7f := Nat.le_of_lt_succ h
  rw [String.utf8EncodeChar, if_pos hle]
  rfl

/-- Past ASCII, an encoding has a byte past 127. -/
theorem ascii_of_utf8EncodeChar {c : Char} (h : ∀ b ∈ String.utf8EncodeChar c, b < 128) :
    c.toNat < 128 := by
  by_contra hge
  have hgt : ¬ c.val.toNat ≤ 0x7f := fun hle => hge (Nat.lt_succ_of_le hle)
  -- the first byte of a longer encoding is 192 at least
  have hfirst : ∃ b ∈ String.utf8EncodeChar c, 128 ≤ b.toNat := by
    rw [String.utf8EncodeChar, if_neg hgt]
    split
    · refine ⟨_, List.mem_cons_self, ?_⟩
      rw [UInt8.toNat_ofNat']
      omega
    · split
      · refine ⟨_, List.mem_cons_self, ?_⟩
        rw [UInt8.toNat_ofNat']
        omega
      · refine ⟨_, List.mem_cons_self, ?_⟩
        rw [UInt8.toNat_ofNat']
        omega
  obtain ⟨b, hb, hlarge⟩ := hfirst
  have hsmall : b.toNat < 128 := UInt8.lt_iff_toNat_lt.mp (h b hb)
  omega

theorem flatMap_ascii {cs : List Char} (h : ∀ c ∈ cs, c.toNat < 128) :
    cs.flatMap String.utf8EncodeChar = cs.map Char.toUInt8 := by
  induction cs with
  | nil => rfl
  | cons c cs ih =>
      rw [List.flatMap_cons, utf8EncodeChar_ascii (h c List.mem_cons_self),
        ih fun c' hc' => h c' (List.mem_cons_of_mem _ hc')]
      rfl

/-- ASCII bytes are the characters. -/
theorem asciiBytes_eq {s : String} (h : ∀ b ∈ asBytes s, b < 128) :
    asBytes s = s.toList.map Char.toUInt8 ∧ ∀ c ∈ s.toList, c.toNat < 128 := by
  rw [asBytes_eq] at h ⊢
  have hascii : ∀ c ∈ s.toList, c.toNat < 128 := fun c hc =>
    ascii_of_utf8EncodeChar fun b hb => h b (List.mem_flatMap.mpr ⟨c, hc, hb⟩)
  exact ⟨flatMap_ascii hascii, hascii⟩

/-! ### Spelling -/

section
variable {α β : Type}

/-- The letters `cs` spell the bytes `bs`. -/
inductive Spells (digit : α → Nat → Prop) : List α → List UInt8 → Prop where
  | nil : Spells digit [] []
  | cons {a b : α} {high low : Nat} {cs : List α} {bs : List UInt8} (ha : digit a high)
      (hb : digit b low) (h : Spells digit cs bs) :
      Spells digit (a :: b :: cs) (.ofNat (16 * high + low) :: bs)

namespace Spells

variable {digit : α → Nat → Prop} {digit' : β → Nat → Prop} {cs : List α} {bs : List UInt8}

theorem length (h : Spells digit cs bs) : cs.length = 2 * bs.length := by
  induction h with
  | nil => rfl
  | cons _ _ _ ih =>
      simp only [List.length_cons, ih]
      omega

theorem exists_digit (h : Spells digit cs bs) : ∀ c ∈ cs, ∃ d, digit c d := by
  induction h with
  | nil => nofun
  | cons ha hb _ ih =>
      exact List.forall_mem_cons.mpr ⟨⟨_, ha⟩, List.forall_mem_cons.mpr ⟨⟨_, hb⟩, ih⟩⟩

/-- Writing the same digits in other letters. -/
theorem map {f : α → β} (h : Spells digit cs bs)
    (hf : ∀ c ∈ cs, ∀ d, digit c d → digit' (f c) d) : Spells digit' (cs.map f) bs := by
  induction h with
  | nil => exact .nil
  | cons ha hb _ ih =>
      refine .cons (hf _ (by simp) _ ha) (hf _ (by simp) _ hb) (ih fun c hc => hf c ?_)
      exact List.mem_cons_of_mem _ (List.mem_cons_of_mem _ hc)

theorem of_map {f : α → β} (h : Spells digit' (cs.map f) bs)
    (hf : ∀ c ∈ cs, ∀ d, digit' (f c) d → digit c d) : Spells digit cs bs := by
  generalize hcs : cs.map f = cs' at h
  induction h generalizing cs with
  | nil =>
      rw [List.map_eq_nil_iff.mp hcs]
      exact .nil
  | cons ha hb _ ih =>
      obtain ⟨a, tail, rfl, rfl, htail⟩ := List.map_eq_cons_iff.mp hcs
      obtain ⟨b, rest, rfl, rfl, hrest⟩ := List.map_eq_cons_iff.mp htail
      refine .cons (hf _ (by simp) _ ha) (hf _ (by simp) _ hb) (ih (fun c hc => hf c ?_) hrest)
      exact List.mem_cons_of_mem _ (List.mem_cons_of_mem _ hc)

end Spells

end

end Vesta.Text
