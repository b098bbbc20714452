import Mathlib.Logic.Equiv.Basic
import Mathlib.Data.List.Induction
import Mathlib.Tactic.Positivity
import Mathlib.Tactic.Ring

/-!
# Foundations — Layout

Fixed-width byte layouts.  A `Layout α` writes a value of `α` as exactly `width` bytes and reads
it back, and the two directions are inverse: every byte string of the right length is the
writing of exactly one value.  Layouts are closed under pairing and under renaming the values
along a bijection, so the layout of a record is the pairing of the layouts of its fields.

The integers are big-endian (`Layout.u8` … `Layout.u64`, and the two's-complement `Layout.i8`,
`Layout.i16`), over the digit expansion `toBe`/`ofBe` in base 256.
-/

namespace Vesta

/-! ### Base 256, most significant digit first -/

/-- The `n` lowest base-256 digits of `x`, most significant first. -/
def toBe : Nat → Nat → List UInt8
  | 0, _ => []
  | n + 1, x => toBe n (x / 256) ++ [UInt8.ofNat x]

/-- The number whose base-256 digits are `bs`, most significant first. -/
def ofBe (bs : List UInt8) : Nat := bs.foldl (fun acc b => acc * 256 + b.toNat) 0

@[simp] theorem length_toBe : ∀ n x, (toBe n x).length = n
  | 0, _ => rfl
  | n + 1, x => by simp [toBe, length_toBe n]

theorem ofBe_append_singleton (bs : List UInt8) (b : UInt8) :
    ofBe (bs ++ [b]) = ofBe bs * 256 + b.toNat := by
  simp [ofBe]

theorem ofBe_toBe : ∀ {n x : Nat}, x < 256 ^ n → ofBe (toBe n x) = x
  | 0, x, h => by
      have hx : x = 0 := by simpa using h
      simp [toBe, ofBe, hx]
  | n + 1, x, h => by
      have hx : x / 256 < 256 ^ n := by
        rw [Nat.div_lt_iff_lt_mul (by decide)]
        rwa [pow_succ] at h
      rw [toBe, ofBe_append_singleton, ofBe_toBe hx, UInt8.toNat_ofNat']
      omega

theorem ofBe_lt (bs : List UInt8) : ofBe bs < 256 ^ bs.length := by
  induction bs using List.reverseRecOn with
  | nil => simp [ofBe]
  | append_singleton bs b ih =>
      rw [ofBe_append_singleton, List.length_append, List.length_singleton, pow_succ]
      have hb := b.toNat_lt
      omega

theorem toBe_ofBe (bs : List UInt8) : toBe bs.length (ofBe bs) = bs := by
  induction bs using List.reverseRecOn with
  | nil => rfl
  | append_singleton bs b ih =>
      have hb := b.toNat_lt
      have hdiv : (ofBe bs * 256 + b.toNat) / 256 = ofBe bs := by omega
      have hmod : UInt8.ofNat (ofBe bs * 256 + b.toNat) = b := by
        apply UInt8.toNat_inj.mp
        rw [UInt8.toNat_ofNat']
        omega
      rw [List.length_append, List.length_singleton, ofBe_append_singleton, toBe, hdiv, ih, hmod]

/-! ### Layouts -/

/-- A value of `α` as exactly `width` bytes, and back. -/
structure Layout (α : Type) where
  width : Nat
  put : α → List UInt8
  get : List UInt8 → α
  length_put : ∀ a, (put a).length = width
  get_put : ∀ a, get (put a) = a
  put_get : ∀ bs, bs.length = width → put (get bs) = bs

namespace Layout

variable {α β : Type}

attribute [simp] length_put get_put

theorem put_injective (L : Layout α) : Function.Injective L.put :=
  Function.LeftInverse.injective L.get_put

/-- Every byte string of the layout's width is the writing of a value. -/
theorem exists_put (L : Layout α) (bs : List UInt8) (h : bs.length = L.width) :
    ∃ a, L.put a = bs := ⟨L.get bs, L.put_get bs h⟩

/-- A byte string at least as long as the layout starts with the writing of a value. -/
theorem exists_put_append (L : Layout α) (bs : List UInt8) (h : L.width ≤ bs.length) :
    ∃ a rest, bs = L.put a ++ rest ∧ rest.length = bs.length - L.width := by
  obtain ⟨a, ha⟩ := L.exists_put (bs.take L.width) (by simpa using h)
  exact ⟨a, bs.drop L.width, by rw [ha, List.take_append_drop], List.length_drop⟩

/-- One layout after another. -/
def seq (A : Layout α) (B : Layout β) : Layout (α × β) where
  width := A.width + B.width
  put p := A.put p.1 ++ B.put p.2
  get bs := (A.get (bs.take A.width), B.get (bs.drop A.width))
  length_put p := by simp
  get_put p := by
    have h : (A.put p.1).length = A.width := A.length_put p.1
    rw [← h, List.take_left, List.drop_left, A.get_put, B.get_put]
  put_get bs h := by
    rw [A.put_get _ (by simp [h]), B.put_get _ (by simp [h]), List.take_append_drop]

/-- The same bytes, for values renamed along a bijection. -/
def congr (A : Layout α) (e : α ≃ β) : Layout β where
  width := A.width
  put b := A.put (e.symm b)
  get bs := e (A.get bs)
  length_put b := by simp
  get_put b := by simp
  put_get bs h := by simp [A.put_get bs h]

/-- The numbers below `256 ^ n`, as `n` bytes. -/
def nat (n : Nat) : Layout {x : Nat // x < 256 ^ n} where
  width := n
  put x := toBe n x.1
  get bs := ⟨ofBe bs % 256 ^ n, Nat.mod_lt _ (by positivity)⟩
  length_put x := length_toBe n x.1
  get_put x := Subtype.ext (by simp only [ofBe_toBe x.2, Nat.mod_eq_of_lt x.2])
  put_get bs h := by
    subst h
    simp only [Nat.mod_eq_of_lt (ofBe_lt bs), toBe_ofBe]

/-- `to_be_bytes` and `from_be_bytes` of `u8`. -/
def u8 : Layout UInt8 :=
  (nat 1).congr ⟨fun x => UInt8.ofNat x.1, fun x => ⟨x.toNat, x.toNat_lt⟩,
    fun x => Subtype.ext (UInt8.toNat_ofNat_of_lt' x.2), fun _ => UInt8.ofNat_toNat⟩

/-- `to_be_bytes` and `from_be_bytes` of `u16`. -/
def u16 : Layout UInt16 :=
  (nat 2).congr ⟨fun x => UInt16.ofNat x.1, fun x => ⟨x.toNat, x.toNat_lt⟩,
    fun x => Subtype.ext (UInt16.toNat_ofNat_of_lt' x.2), fun _ => UInt16.ofNat_toNat⟩

/-- `to_be_bytes` and `from_be_bytes` of `u32`. -/
def u32 : Layout UInt32 :=
  (nat 4).congr ⟨fun x => UInt32.ofNat x.1, fun x => ⟨x.toNat, x.toNat_lt⟩,
    fun x => Subtype.ext (UInt32.toNat_ofNat_of_lt' x.2), fun _ => UInt32.ofNat_toNat⟩

/-- `to_be_bytes` and `from_be_bytes` of `u64`. -/
def u64 : Layout UInt64 :=
  (nat 8).congr ⟨fun x => UInt64.ofNat x.1, fun x => ⟨x.toNat, x.toNat_lt⟩,
    fun x => Subtype.ext (UInt64.toNat_ofNat_of_lt' x.2), fun _ => UInt64.ofNat_toNat⟩

/-- `to_be_bytes` and `from_be_bytes` of `i8`. -/
def i8 : Layout Int8 := u8.congr ⟨Int8.ofUInt8, Int8.toUInt8, fun _ => rfl, fun _ => rfl⟩

/-- `to_be_bytes` and `from_be_bytes` of `i16`. -/
def i16 : Layout Int16 := u16.congr ⟨Int16.ofUInt16, Int16.toUInt16, fun _ => rfl, fun _ => rfl⟩

@[simp] theorem width_seq (A : Layout α) (B : Layout β) :
    (A.seq B).width = A.width + B.width := rfl
@[simp] theorem width_u8 : u8.width = 1 := rfl
@[simp] theorem width_i8 : i8.width = 1 := rfl
@[simp] theorem width_u16 : u16.width = 2 := rfl
@[simp] theorem width_i16 : i16.width = 2 := rfl
@[simp] theorem width_u32 : u32.width = 4 := rfl
@[simp] theorem width_u64 : u64.width = 8 := rfl

theorem put_u8 (x : UInt8) : u8.put x = [x] := by
  show toBe 1 x.toNat = [x]
  simp [toBe]

/-! ### Rows of one layout -/

theorem length_flatMap_put (L : Layout α) (as : List α) :
    (as.flatMap L.put).length = as.length * L.width := by
  induction as with
  | nil => simp
  | cons a as ih =>
      rw [List.flatMap_cons, List.length_append, L.length_put, ih, List.length_cons]
      ring

/-- A byte string whose length is a multiple of the width is the writing of a list of values. -/
theorem exists_flatMap_put (L : Layout α) :
    ∀ (n : Nat) (bs : List UInt8), bs.length = n * L.width →
      ∃ as : List α, as.length = n ∧ as.flatMap L.put = bs
  | 0, bs, h => by
      have hbs : bs = [] := by simpa using h
      exact ⟨[], rfl, by simp [hbs]⟩
  | n + 1, bs, h => by
      have hw : L.width ≤ bs.length := by rw [h]; exact Nat.le_mul_of_pos_left _ n.succ_pos
      obtain ⟨a, rest, rfl, hrest⟩ := L.exists_put_append bs hw
      have hlen : rest.length = n * L.width := by
        rw [hrest, h, Nat.succ_mul, Nat.add_sub_cancel]
      obtain ⟨as, hn, has⟩ := L.exists_flatMap_put n rest hlen
      exact ⟨a :: as, by simp [hn], by rw [List.flatMap_cons, has]⟩

/-- The bytes of row `k`. -/
theorem take_drop_flatMap_put (L : Layout α) : ∀ {as : List α} {k : Nat} (h : k < as.length),
    ((as.flatMap L.put).drop (k * L.width)).take L.width = L.put as[k]
  | a :: as, 0, _ => by
      rw [Nat.zero_mul, List.drop_zero, List.flatMap_cons]
      exact List.take_left' (L.length_put a)
  | a :: as, k + 1, h => by
      have hk : (k + 1) * L.width = (L.put a).length + k * L.width := by
        rw [L.length_put]
        ring
      rw [List.flatMap_cons, hk, List.drop_length_add_append, L.take_drop_flatMap_put
        (by simpa using h)]
      rfl

end Layout

end Vesta
