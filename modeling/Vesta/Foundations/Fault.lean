import Mathlib.Data.List.Basic
import Vesta.Foundations.Bitmap

/-!
# Foundations — Fault

Computations that return, fail with an error of their own type, or panic.  A panic is what an
index or a slice out of range, a shift by the width or more, and an arithmetic overflow do; it
is kept apart from an error so that its absence can be stated and proved.

The checked operations come with their values under the condition that makes them safe, so a
proof discharges the condition once and never unfolds the operation.
-/

namespace Vesta

/-- How a computation ends when it does not return a value. -/
inductive Fault (ε : Type) where
  | error (e : ε)
  | panicked
deriving DecidableEq, Repr

/-- A value of `α`, an error of `ε`, or a panic. -/
abbrev Outcome (ε α : Type) := Except (Fault ε) α

namespace Outcome

variable {ε α β : Type}

/-- Return the error `e`. -/
def fail (e : ε) : Outcome ε α := .error (.error e)

/-- Stop without a value or an error. -/
def abort : Outcome ε α := .error .panicked

/-- `Err(e)` when `c` holds; nothing otherwise. -/
def failIf (c : Prop) [Decidable c] (e : ε) : Outcome ε Unit := if c then fail e else .ok ()

theorem failIf_pos {c : Prop} [Decidable c] (h : c) (e : ε) :
    failIf c e = (.error (.error e) : Outcome ε Unit) := if_pos h

theorem failIf_neg {c : Prop} [Decidable c] (h : ¬ c) (e : ε) :
    failIf c e = (.ok () : Outcome ε Unit) := if_neg h

@[simp] theorem failIf_eq_ok {c : Prop} [Decidable c] {e : ε} {u : Unit} :
    failIf c e = .ok u ↔ ¬ c := by
  unfold failIf fail
  split <;> simp_all

@[simp] theorem ok_bind (a : α) (f : α → Outcome ε β) : ((.ok a : Outcome ε α) >>= f) = f a := rfl

@[simp] theorem error_bind (e : Fault ε) (f : α → Outcome ε β) :
    ((.error e : Outcome ε α) >>= f) = .error e := rfl

theorem bind_of_eq_ok {x : Outcome ε α} {f : α → Outcome ε β} {a : α} (h : x = .ok a) :
    x >>= f = f a := h ▸ rfl

@[simp] theorem pure_eq_ok (a : α) : (pure a : Outcome ε α) = .ok a := rfl

/-- What a sequence of two computations returned. -/
theorem bind_eq_ok {x : Outcome ε α} {f : α → Outcome ε β} {b : β} :
    (x >>= f) = .ok b ↔ ∃ a, x = .ok a ∧ f a = .ok b := by
  cases x with
  | error e => simp
  | ok a => simp

/-- A check followed by `k` returns exactly when the check passes and `k` returns. -/
theorem unit_bind_eq_ok {m : Outcome ε Unit} {k : Unit → Outcome ε β} {b : β} :
    (m >>= k) = .ok b ↔ m = .ok () ∧ k () = .ok b := by
  cases m with
  | error e => simp
  | ok u => simp

theorem exists_unit {p : Unit → Prop} : (∃ u, p u) ↔ p () :=
  ⟨fun ⟨_, h⟩ => h, fun h => ⟨(), h⟩⟩

/-- A loop of checks passes exactly when every check does. -/
theorem forM_eq_ok {f : α → Outcome ε Unit} :
    ∀ {as : List α}, as.forM f = .ok () ↔ ∀ a ∈ as, f a = .ok ()
  | [] => by simp [List.forM]
  | a :: as => by
      show (f a >>= fun _ => as.forM f) = .ok () ↔ _
      rw [unit_bind_eq_ok, forM_eq_ok, List.forall_mem_cons]

/-- A loop that returned keeps what every pass that returns keeps. -/
theorem foldlM_keeps {f : β → α → Outcome ε β} {R : β → Prop}
    (hstep : ∀ b a b', R b → f b a = .ok b' → R b') {as : List α} {b b' : β} (hb : R b)
    (h : as.foldlM f b = .ok b') : R b' := by
  induction as generalizing b with
  | nil => exact Except.ok.inj h ▸ hb
  | cons a as ih =>
      rw [List.foldlM_cons] at h
      obtain ⟨c, hc, h⟩ := bind_eq_ok.mp h
      exact ih (hstep b a c hb hc) h

/-- A loop each pass of which returns `g a`. -/
theorem mapM_eq_map {f : α → Outcome ε β} {g : α → β} :
    ∀ {as : List α}, (∀ a ∈ as, f a = .ok (g a)) → as.mapM f = .ok (as.map g)
  | [], _ => rfl
  | a :: as, hf => by
      obtain ⟨ha, has⟩ := List.forall_mem_cons.mp hf
      rw [List.mapM_cons, ha, mapM_eq_map has]
      rfl

/-- A loop whose pass `j` returns element `j` of a list returns the list. -/
theorem mapM_range'_eq_ok {f : Nat → Outcome ε α} :
    ∀ {as : List α} {k : Nat}, (∀ j (h : j < as.length), f (k + j) = .ok as[j]) →
      (List.range' k as.length).mapM f = .ok as
  | [], _, _ => rfl
  | a :: as, k, h => by
      have ha : f k = .ok a := h 0 (by simp)
      have has : (List.range' (k + 1) as.length).mapM f = .ok as :=
        mapM_range'_eq_ok fun j hj => by
          rw [Nat.add_assoc, Nat.add_comm 1]
          exact h (j + 1) (by simpa using hj)
      rw [List.length_cons, List.range'_succ, List.mapM_cons, ha, has]
      rfl

/-- What a loop over `0..n` returned, pass by pass. -/
theorem mapM_range_eq_ok {f : Nat → Outcome ε α} {n : Nat} {as : List α} :
    (List.range n).mapM f = .ok as ↔
      as.length = n ∧ ∀ i (h : i < as.length), f i = .ok as[i] := by
  constructor
  · intro hm
    induction n generalizing as with
    | zero =>
        obtain rfl : [] = as := Except.ok.inj hm
        exact ⟨rfl, nofun⟩
    | succ n ih =>
        rw [List.range_succ, List.mapM_append, bind_eq_ok] at hm
        obtain ⟨bs, hbs, hm⟩ := hm
        obtain ⟨cs, hcs, hm⟩ := bind_eq_ok.mp hm
        obtain ⟨hlen, hf⟩ := ih hbs
        rw [List.mapM_cons, List.mapM_nil, bind_eq_ok] at hcs
        obtain ⟨a, ha, hcs⟩ := hcs
        obtain rfl : [a] = cs := Except.ok.inj hcs
        obtain rfl : bs ++ [a] = as := Except.ok.inj hm
        refine ⟨by simp [hlen], fun i hi => ?_⟩
        rcases Nat.lt_or_ge i bs.length with hlt | hge
        · rw [List.getElem_append_left hlt, hf i hlt]
        · obtain rfl : i = n := by
            rw [List.length_append, List.length_singleton] at hi
            omega
          simp [ha, hlen]
  · rintro ⟨rfl, hf⟩
    rw [List.range_eq_range']
    exact mapM_range'_eq_ok fun j hj => by rw [Nat.zero_add, hf j hj]

/-- A loop over `0..n` fails in the first pass that does. -/
theorem mapM_range_eq_error {f : Nat → Outcome ε α} {n : Nat} {e : Fault ε}
    (h : (List.range n).mapM f = .error e) :
    ∃ i < n, f i = .error e ∧ ∀ j < i, ∃ a, f j = .ok a := by
  induction n with
  | zero => cases h
  | succ n ih =>
      rw [List.range_succ, List.mapM_append] at h
      cases hm : (List.range n).mapM f with
      | error e' =>
          rw [hm] at h
          obtain ⟨i, hi, he, hj⟩ := ih (hm.trans h)
          exact ⟨i, Nat.lt_succ_of_lt hi, he, hj⟩
      | ok as =>
          obtain ⟨hlen, hf⟩ := mapM_range_eq_ok.mp hm
          refine ⟨n, Nat.lt_succ_self n, ?_, fun j hj => ⟨as[j], hf j (hlen ▸ hj)⟩⟩
          rw [hm, ok_bind, List.mapM_cons, List.mapM_nil] at h
          cases ha : f n with
          | error e' =>
              rw [ha] at h
              exact congrArg Except.error (Except.error.inj h)
          | ok a =>
              rw [ha] at h
              cases h

theorem mapM_ne_ok {f : α → Outcome ε β} {as : List α} {bs : List β} (hne : as ≠ [])
    (hf : ∀ a ∈ as, ∀ b, f a ≠ .ok b) : as.mapM f ≠ .ok bs := by
  cases as with
  | nil => exact absurd rfl hne
  | cons a as =>
      simp only [List.mapM_cons, ne_eq, bind_eq_ok, not_exists, not_and]
      exact fun b hb => absurd hb (hf a List.mem_cons_self b)

/-- Change the error type, as `?` does through `From`. -/
def mapErr {δ : Type} (g : ε → δ) : Outcome ε α → Outcome δ α
  | .ok a => .ok a
  | .error (.error e) => .error (.error (g e))
  | .error .panicked => .error .panicked

@[simp] theorem mapErr_ok {δ : Type} (g : ε → δ) (a : α) :
    mapErr g (.ok a : Outcome ε α) = .ok a := rfl

theorem mapErr_eq_ok {δ : Type} {g : ε → δ} {x : Outcome ε α} {a : α} :
    mapErr g x = .ok a ↔ x = .ok a := by
  rcases x with (_ | _) | _ <;> simp [mapErr]

/-- `.is_ok()`. -/
def isOk {δ : Type} : Outcome δ α → Outcome ε Bool
  | .ok _ => .ok true
  | .error (.error _) => .ok false
  | .error .panicked => abort

/-! ### How computations end -/

/-- The computation does not panic: it returns a value of `Q` or an error of `E`. -/
def Ends (Q : α → Prop) (E : ε → Prop) : Outcome ε α → Prop
  | .ok a => Q a
  | .error (.error e) => E e
  | .error .panicked => False

namespace Ends

variable {Q Q' : α → Prop} {R : β → Prop} {E E' : ε → Prop} {x : Outcome ε α}

theorem of_eq_ok {a : α} (hx : x = .ok a) (h : Q a) : Ends Q E x := hx ▸ h

theorem mono (h : Ends Q E x) (hQ : ∀ a, Q a → Q' a) (hE : ∀ e, E e → E' e) : Ends Q' E' x := by
  rcases x with (e | -) | a
  · exact hE e h
  · exact h.elim
  · exact hQ a h

/-- One computation after another. -/
theorem bind {f : α → Outcome ε β} (h : Ends Q E x) (hf : ∀ a, Q a → Ends R E (f a)) :
    Ends R E (x >>= f) := by
  rcases x with (e | -) | a
  · exact h
  · exact h.elim
  · exact hf a h

/-- What did not panic returned its value or an error. -/
theorem of_ne_panicked (h : x ≠ .error .panicked) :
    Ends (fun a => x = .ok a) (fun e => x = .error (.error e)) x := by
  rcases x with (e | -) | a
  · exact rfl
  · exact h rfl
  · exact rfl

theorem failIf {c : Prop} [Decidable c] {e : ε} (h : c → E e) :
    Ends (fun _ => ¬ c) E (Outcome.failIf c e) := by
  by_cases hc : c
  · rw [failIf_pos hc]
    exact h hc
  · rw [failIf_neg hc]
    exact hc

theorem mapErr {δ : Type} {g : δ → ε} {y : Outcome δ α} (h : Ends Q (fun e => E (g e)) y) :
    Ends Q E (Outcome.mapErr g y) := by
  rcases y with (e | -) | a
  · exact h
  · exact h.elim
  · exact h

theorem ne_panicked (h : Ends Q E x) : x ≠ .error .panicked := by
  rintro rfl
  exact h

theorem of_ok {a : α} (h : Ends Q E x) (hx : x = .ok a) : Q a := by
  subst hx
  exact h

theorem of_error {e : ε} (h : Ends Q E x) (hx : x = .error (.error e)) : E e := by
  subst hx
  exact h

/-- A loop that every pass of which ends well. -/
theorem forM {f : α → Outcome ε Unit} {as : List α}
    (hf : ∀ a ∈ as, Ends (fun _ => True) E (f a)) : Ends (fun _ => True) E (as.forM f) := by
  induction as with
  | nil => exact trivial
  | cons a as ih =>
      obtain ⟨ha, has⟩ := List.forall_mem_cons.mp hf
      exact ha.bind fun _ _ => ih has

/-- A loop each pass of which ends with a value of `R`. -/
theorem mapM {f : α → Outcome ε β} {as : List α} (hf : ∀ a ∈ as, Ends R E (f a)) :
    Ends (fun bs => ∀ b ∈ bs, R b) E (as.mapM f) := by
  induction as with
  | nil => exact fun _ hb => nomatch hb
  | cons a as ih =>
      obtain ⟨ha, has⟩ := List.forall_mem_cons.mp hf
      rw [List.mapM_cons]
      refine ha.bind fun b hb => (ih has).bind fun bs hbs => ?_
      exact List.forall_mem_cons.mpr ⟨hb, hbs⟩

/-- A loop that every pass of which keeps the invariant `R`. -/
theorem foldlM {f : β → α → Outcome ε β} {as : List α} {b : β} (hb : R b)
    (hf : ∀ b, R b → ∀ a ∈ as, Ends R E (f b a)) : Ends R E (as.foldlM f b) := by
  induction as generalizing b with
  | nil => exact hb
  | cons a as ih =>
      rw [List.foldlM_cons]
      refine (hf b hb a List.mem_cons_self).bind fun b' hb' => ih hb' fun b hb a ha => ?_
      exact hf b hb a (List.mem_cons_of_mem _ ha)

end Ends

/-- What did not panic is ok or not. -/
theorem exists_isOk {δ : Type} {x : Outcome δ Unit} (h : x ≠ .error .panicked) :
    ∃ b, (isOk x : Outcome ε Bool) = .ok b ∧ (b = true ↔ x = .ok ()) := by
  rcases x with (e | -) | u
  · refine ⟨false, rfl, ?_⟩
    simp
  · exact absurd rfl h
  · exact ⟨true, rfl, by simp⟩

end Outcome

variable {ε α : Type}

/-- `bs[lo..hi]`. -/
def slice (bs : List α) (lo hi : Nat) : Outcome ε (List α) :=
  if lo ≤ hi ∧ hi ≤ bs.length then .ok ((bs.drop lo).take (hi - lo)) else .abort

/-- `bs[lo..]`. -/
def sliceFrom (bs : List α) (lo : Nat) : Outcome ε (List α) :=
  if lo ≤ bs.length then .ok (bs.drop lo) else .abort

/-- `bs[i]`. -/
def index (bs : List α) (i : Nat) : Outcome ε α :=
  match bs[i]? with
  | some a => .ok a
  | none => .abort

theorem slice_eq {bs : List α} {lo hi : Nat} (h : lo ≤ hi) (h' : hi ≤ bs.length) :
    (slice bs lo hi : Outcome ε (List α)) = .ok ((bs.drop lo).take (hi - lo)) :=
  if_pos ⟨h, h'⟩

theorem sliceFrom_eq {bs : List α} {lo : Nat} (h : lo ≤ bs.length) :
    (sliceFrom bs lo : Outcome ε (List α)) = .ok (bs.drop lo) := if_pos h

theorem index_eq {bs : List α} {i : Nat} (h : i < bs.length) :
    (index bs i : Outcome ε α) = .ok bs[i] := by
  simp [index, h]

theorem index_eq_ok {bs : List α} {i : Nat} {a : α} :
    (index bs i : Outcome ε α) = .ok a ↔ bs[i]? = some a := by
  unfold index Outcome.abort
  split <;> simp_all

/-- The slice of a concatenation that stops where the first part does. -/
theorem slice_append {xs ys : List α} {n : Nat} (h : xs.length = n) :
    (slice (xs ++ ys) 0 n : Outcome ε (List α)) = .ok xs := by
  subst h
  rw [slice_eq (Nat.zero_le _) (by simp)]
  simp

/-- The slice of a concatenation that starts where the first part stops. -/
theorem sliceFrom_append {xs ys : List α} {n : Nat} (h : xs.length = n) :
    (sliceFrom (xs ++ ys) n : Outcome ε (List α)) = .ok ys := by
  subst h
  rw [sliceFrom_eq (by simp)]
  simp

/-- `a - b` on `u8`, which overflows below zero. -/
def subU8 (a b : UInt8) : Outcome ε UInt8 := if b ≤ a then .ok (a - b) else .abort

/-- `a - b` on `usize`, which overflows below zero. -/
def subUsize (a b : Nat) : Outcome ε Nat := if b ≤ a then .ok (a - b) else .abort

/-- `a + b` on `u8`, which overflows above 255. -/
def addU8 (a b : UInt8) : Outcome ε UInt8 :=
  if a.toNat + b.toNat < 256 then .ok (a + b) else .abort

/-- `a + b` on `u32`, which overflows from `2 ^ 32` on. -/
def addU32 (a b : UInt32) : Outcome ε UInt32 :=
  if a.toNat + b.toNat < 2 ^ 32 then .ok (a + b) else .abort

/-- `u8::try_from(n)`, or the error. -/
def tryU8 (n : Nat) (e : ε) : Outcome ε UInt8 := if n < 256 then .ok (.ofNat n) else .fail e

/-- `u16::try_from(n)`, or the error. -/
def tryU16 (n : Nat) (e : ε) : Outcome ε UInt16 := if n < 65536 then .ok (.ofNat n) else .fail e

/-- `1_u16 << n`, which overflows from 16 on. -/
def bitU16 (n : Nat) : Outcome ε UInt16 := if n < 16 then .ok (Bitmap.bit n) else .abort

theorem subU8_eq {a b : UInt8} (h : b ≤ a) : (subU8 a b : Outcome ε UInt8) = .ok (a - b) := if_pos h

theorem subUsize_eq {a b : Nat} (h : b ≤ a) : (subUsize a b : Outcome ε Nat) = .ok (a - b) :=
  if_pos h

theorem subUsize_eq_ok {a b c : Nat} :
    (subUsize a b : Outcome ε Nat) = .ok c ↔ b ≤ a ∧ c = a - b := by
  unfold subUsize Outcome.abort
  split <;> simp_all [eq_comm]

theorem addU8_eq {a b : UInt8} (h : a.toNat + b.toNat < 256) :
    (addU8 a b : Outcome ε UInt8) = .ok (a + b) := if_pos h

theorem addU32_eq {a b : UInt32} (h : a.toNat + b.toNat < 2 ^ 32) :
    (addU32 a b : Outcome ε UInt32) = .ok (a + b) := if_pos h

theorem tryU8_eq {n : Nat} (h : n < 256) (e : ε) : tryU8 n e = .ok (.ofNat n) := if_pos h

theorem tryU16_eq {n : Nat} (h : n < 65536) (e : ε) : tryU16 n e = .ok (.ofNat n) := if_pos h

theorem bitU16_eq {n : Nat} (h : n < 16) :
    (bitU16 n : Outcome ε UInt16) = .ok (Bitmap.bit n) := if_pos h

/-- `(1_u16 << n) - 1`; the difference is of a number that is at least one. -/
def maskU16 (n : Nat) : Outcome ε UInt16 := do
  let bit ← bitU16 n
  return bit - 1

theorem maskU16_eq {n : Nat} (h : n < 16) :
    (maskU16 n : Outcome ε UInt16) = .ok (Bitmap.lowMask n) := by
  rw [maskU16, bitU16_eq h]
  rfl

theorem maskU16_panics {n : Nat} (h : 16 ≤ n) :
    (maskU16 n : Outcome ε UInt16) = .error .panicked := by
  rw [maskU16, bitU16, if_neg (Nat.not_lt.mpr h)]
  rfl

end Vesta
