import Vesta.Foundations.Fault
import Vesta.Foundations.Layout

/-!
# Protocol — Cursor

The error type of the protocol-v2 codec, and the two cursors it moves over a byte slice: a
`Reader` that takes big-endian fields from the front, and a `Writer` that fills a slice of fixed
length and must end exactly at its end.

A reader standing before the writing of a value reads that value (`Reader.field_at`): with
`Reader.field_bind_at` and its kin a decoder is evaluated on the bytes of a record field by field.
A sequence of writes is the writing of one byte string (`Writes`), and filling a slice with it
succeeds exactly when the lengths agree (`fill_eq`).
-/

namespace Vesta.Protocol

/-- Codec or structural validation failure. -/
inductive Error where
  | wrongLength (expected actual : Nat)
  | frameTooLong (len : Nat)
  | invalidMagic (found : UInt8 × UInt8)
  | unsupportedVersion (found : UInt8)
  | invalidHeaderLength (found : UInt8)
  | unknownFrameType (found : UInt8)
  | invalidFragmentCount (count : UInt8)
  | invalidFragmentIndex (index count : UInt8)
  | invalidField (field : String)
  | unknownFlags (field : String) (bits : UInt32)
  | configIdMismatch (header calculated : UInt64)
  | stepIndexOutOfBounds
  | bufferExhausted
deriving DecidableEq, Repr

/-- What a codec function returns. -/
abbrev Result (α : Type) := Outcome Error α

/-! ### Reading -/

structure Reader where
  bytes : List UInt8
  offset : Nat

/-- A computation that moves a `Reader`. -/
abbrev Read (α : Type) := StateT Reader (Except (Fault Error)) α

namespace Reader

def new (bytes : List UInt8) : Reader := ⟨bytes, 0⟩

/-- `take::<N>`. -/
def take (n : Nat) : Read (List UInt8) := fun r =>
  if r.offset + n ≤ r.bytes.length then
    .ok ((r.bytes.drop r.offset).take n, { r with offset := r.offset + n })
  else .error (.error .bufferExhausted)

/-- Take the bytes of one layout. -/
def field {α : Type} (L : Layout α) : Read α := do
  let bs ← take L.width
  return L.get bs

def u8 : Read UInt8 := field .u8
def i8 : Read Int8 := field .i8
def u16 : Read UInt16 := field .u16
def i16 : Read Int16 := field .i16
def u32 : Read UInt32 := field .u32
def u64 : Read UInt64 := field .u64

/-- `Err(e)` when `c` holds, in the middle of a read. -/
def failIf (c : Prop) [Decidable c] (e : Error) : Read Unit :=
  fun r => if c then .error (.error e) else .ok ((), r)

/-- A check between two reads. -/
def check (m : Result Unit) : Read Unit := fun r =>
  match m with
  | .ok () => .ok ((), r)
  | .error e => .error e

def finish (r : Reader) : Result Unit :=
  if r.offset = r.bytes.length then .ok ()
  else .error (.error (.wrongLength r.bytes.length r.offset))

/-- The reader that has consumed `pre` and has `rest` in front of it. -/
def at_ (pre rest : List UInt8) : Reader := ⟨pre ++ rest, pre.length⟩

theorem new_eq (bs : List UInt8) : new bs = at_ [] bs := rfl

@[simp] theorem finish_at (pre : List UInt8) : finish (at_ pre []) = .ok () := by
  simp [finish, at_]

theorem offset_lt_at {pre rest : List UInt8} :
    (at_ pre rest).offset < (at_ pre rest).bytes.length ↔ rest ≠ [] := by
  simp [at_, List.length_pos_iff]

theorem take_at {n : Nat} {xs : List UInt8} (h : xs.length = n) (pre rest : List UInt8) :
    take n (at_ pre (xs ++ rest)) = .ok (xs, at_ (pre ++ xs) rest) := by
  subst h
  simp [take, at_]

/-- Before the writing of `a`, the reader reads `a`. -/
theorem field_at {α : Type} (L : Layout α) (a : α) (pre rest : List UInt8) :
    field L (at_ pre (L.put a ++ rest)) = .ok (a, at_ (pre ++ L.put a) rest) := by
  have h := take_at (L.length_put a) pre rest
  show (take L.width _ >>= fun q => Except.ok (L.get q.1, q.2)) = _
  rw [h]
  show Except.ok (L.get (L.put a), _) = _
  rw [L.get_put]

/-! What a sequence of reads returned, one read or check at a time. -/

variable {α β : Type} {k : Unit → Read β} {r : Reader} {p : β × Reader}

theorem field_bind_at (L : Layout α) (a : α) (k : α → Read β) (pre rest : List UInt8) :
    (field L >>= k) (at_ pre (L.put a ++ rest)) = k a (at_ (pre ++ L.put a) rest) := by
  show (field L (at_ pre (L.put a ++ rest)) >>= fun q => k q.1 q.2) = _
  rw [field_at]
  rfl

theorem field_bind_at_end (L : Layout α) (a : α) (k : α → Read β) (pre : List UInt8) :
    (field L >>= k) (at_ pre (L.put a)) = k a (at_ (pre ++ L.put a) []) := by
  simpa using field_bind_at L a k pre []

theorem get_bind (k : Reader → Read β) (r : Reader) : (get >>= k) r = k r r := rfl

theorem pure_run (b : β) (r : Reader) : (pure b : Read β) r = .ok (b, r) := rfl

theorem pure_eq_ok {b : β} : (pure b : Read β) r = .ok p ↔ p = (b, r) := by
  rw [pure_run, Except.ok.injEq, eq_comm]

theorem failIf_bind_neg {c : Prop} [Decidable c] (h : ¬ c) (e : Error) :
    (failIf c e >>= k) r = k () r := by
  show (failIf c e r >>= fun q => k q.1 q.2) = _
  rw [failIf, if_neg h]
  rfl

theorem failIf_bind_eq_ok {c : Prop} [Decidable c] {e : Error} :
    (failIf c e >>= k) r = .ok p ↔ ¬ c ∧ k () r = .ok p := by
  show (failIf c e r >>= fun q => k q.1 q.2) = .ok p ↔ _
  unfold failIf
  split <;> simp_all [bind, Except.bind]

theorem check_bind_eq_ok {m : Result Unit} :
    (check m >>= k) r = .ok p ↔ m = .ok () ∧ k () r = .ok p := by
  show (check m r >>= fun q => k q.1 q.2) = .ok p ↔ _
  unfold check
  split <;> simp_all [bind, Except.bind]

/-- A loop that reads one row for each element of `is` reads the rows in front of it. -/
theorem mapM_at {ι : Type} (L : Layout α) {row : Read α}
    (hrow : ∀ a pre rest, row (at_ pre (L.put a ++ rest)) = .ok (a, at_ (pre ++ L.put a) rest)) :
    ∀ (is : List ι) (as : List α) (pre rest : List UInt8), is.length = as.length →
      (is.mapM fun _ => row) (at_ pre (as.flatMap L.put ++ rest)) =
        .ok (as, at_ (pre ++ as.flatMap L.put) rest)
  | [], [], pre, rest, _ => by simp [pure_run]
  | i :: is, a :: as, pre, rest, h => by
      have ih := mapM_at L hrow is as (pre ++ L.put a) rest (by simpa using h)
      have ha := hrow a pre (as.flatMap L.put ++ rest)
      simp only [List.mapM_cons, List.flatMap_cons, List.append_assoc, bind, StateT.bind,
        Except.bind] at ih ⊢
      simp only [ha, ih, pure_run]

theorem liftM_bind_eq_ok {m : Result α} {k : α → Read β} :
    (liftM m >>= k) r = .ok p ↔ ∃ a, m = .ok a ∧ k a r = .ok p := by
  show ((m >>= fun a => pure (a, r)) >>= fun q => k q.1 q.2) = .ok p ↔ _
  cases m <;> simp [bind, Except.bind, pure, Except.pure]

end Reader

/-! ### Writing -/

/-- `capacity` is the length of the slice, `written` its bytes before the offset. -/
structure Writer where
  capacity : Nat
  written : List UInt8

/-- A computation that moves a `Writer`. -/
abbrev Write := StateT Writer (Except (Fault Error)) Unit

namespace Writer

def new (capacity : Nat) : Writer := ⟨capacity, []⟩

def bytes (value : List UInt8) : Write := fun w =>
  if w.written.length + value.length ≤ w.capacity then
    .ok ((), { w with written := w.written ++ value })
  else .error (.error .bufferExhausted)

def u8 (value : UInt8) : Write := bytes (Layout.u8.put value)
def i8 (value : Int8) : Write := bytes (Layout.i8.put value)
def u16 (value : UInt16) : Write := bytes (Layout.u16.put value)
def i16 (value : Int16) : Write := bytes (Layout.i16.put value)
def u32 (value : UInt32) : Write := bytes (Layout.u32.put value)
def u64 (value : UInt64) : Write := bytes (Layout.u64.put value)

def finish (w : Writer) : Result Unit :=
  if w.written.length = w.capacity then .ok ()
  else .error (.error (.wrongLength w.capacity w.written.length))

/-- Fill a slice of `capacity` bytes with what `m` writes, and finish. -/
def fill (capacity : Nat) (m : Write) : Result (List UInt8) := do
  let (_, w) ← m.run (new capacity)
  finish w
  return w.written

/-- `m` writes exactly `bs`, or fails because `bs` does not fit. -/
def Writes (m : Write) (bs : List UInt8) : Prop :=
  ∀ w : Writer, w.written.length ≤ w.capacity → m w = bytes bs w

theorem writes_bytes (bs : List UInt8) : Writes (bytes bs) bs := fun _ _ => rfl

theorem writes_pure : Writes (pure ()) [] := fun w h => by
  show Except.ok ((), w) = _
  simp [bytes, h]

theorem Writes.seq {m : Write} {k : Unit → Write} {xs ys : List UInt8} (hm : Writes m xs)
    (hk : Writes (k ()) ys) : Writes (m >>= k) (xs ++ ys) := fun w h => by
  show (m w >>= fun p => k p.1 p.2) = bytes (xs ++ ys) w
  rw [hm w h]
  by_cases hx : w.written.length + xs.length ≤ w.capacity
  · have hx' : (w.written ++ xs).length ≤ w.capacity := by simpa using hx
    have hs := hk { w with written := w.written ++ xs } hx'
    simp only [bytes, if_pos hx, bind, Except.bind] at hs ⊢
    rw [hs]
    simp only [List.length_append, List.append_assoc, Nat.add_assoc]
  · have hxy : ¬ w.written.length + (xs ++ ys).length ≤ w.capacity := by
      simp only [List.length_append]
      omega
    simp only [bytes, if_neg hx, if_neg hxy, bind, Except.bind]

/-- A checked value read before a write. -/
theorem Writes.lift {α : Type} {x : Result α} {a : α} {k : α → Write} {bs : List UInt8}
    (hx : x = .ok a) (hk : Writes (k a) bs) : Writes (liftM x >>= k) bs := fun w h => by
  subst hx
  exact hk w h

/-- A loop of writes writes the rows one after another. -/
theorem writes_forM {α : Type} {f : α → Write} {g : α → List UInt8} (hf : ∀ a, Writes (f a) (g a)) :
    ∀ as : List α, Writes (as.forM f) (as.flatMap g)
  | [] => writes_pure
  | a :: as => (hf a).seq (writes_forM hf as)

/-- Filling a slice succeeds exactly when what is written has the slice's length. -/
theorem fill_eq {m : Write} {bs : List UInt8} (hm : Writes m bs) (capacity : Nat) :
    fill capacity m =
      if bs.length ≤ capacity then
        if bs.length = capacity then .ok bs
        else .error (.error (.wrongLength capacity bs.length))
      else .error (.error .bufferExhausted) := by
  have h : m ⟨capacity, []⟩ = bytes bs ⟨capacity, []⟩ := hm _ (Nat.zero_le _)
  simp only [fill, new, StateT.run, h, bytes, List.length_nil, Nat.zero_add, List.nil_append]
  by_cases hle : bs.length ≤ capacity
  · by_cases heq : bs.length = capacity <;>
      simp [hle, heq, finish, bind, Except.bind, pure, Except.pure]
  · simp [hle, bind, Except.bind]

theorem fill_length {m : Write} {bs : List UInt8} (hm : Writes m bs) :
    fill bs.length m = .ok bs := by
  simp [fill_eq hm]

end Writer

end Vesta.Protocol
