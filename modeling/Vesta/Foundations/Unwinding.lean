import Mathlib.Data.List.Forall2

/-!
# Foundations — Unwinding

Two runs of one machine, compared step by step.  A relation of states *unwinds* when related states
give the same output to the inputs that are seen, and stay related over every input (`Unwinds`).
Then runs from related states look alike (`Unwinds.run_alike`), and an input that leads from a state
to a related one can be deleted: the rest of the run looks as before (`Unwinds.delete`).
-/

namespace Vesta.Unwinding

variable {σ α ω : Type} {step : σ → α → ω × σ} {seen : α → Prop} {R : σ → σ → Prop}

/-- Take inputs one after the other; each is logged with its output. -/
def run (step : σ → α → ω × σ) (s : σ) : List α → List (α × ω) × σ
  | [] => ([], s)
  | a :: as =>
      let (o, s₁) := step s a
      let (log, s') := run step s₁ as
      ((a, o) :: log, s')

theorem run_cons (s : σ) (a : α) (as : List α) : run step s (a :: as) =
    ((a, (step s a).1) :: (run step (step s a).2 as).1, (run step (step s a).2 as).2) := rfl

theorem run_append (s : σ) (as bs : List α) : run step s (as ++ bs) =
    ((run step s as).1 ++ (run step (run step s as).2 bs).1,
      (run step (run step s as).2 bs).2) := by
  induction as generalizing s with
  | nil => rfl
  | cons a as ih =>
      rw [List.cons_append, run_cons, run_cons, ih]
      rfl

/-- The log names the inputs. -/
theorem run_inputs (s : σ) (as : List α) : (run step s as).1.map Prod.fst = as := by
  induction as generalizing s with
  | nil => rfl
  | cons a as ih =>
      rw [run_cons]
      exact congrArg (a :: ·) (ih _)

/-- Entries of two logs: one input, and one output where it is seen. -/
structure Alike (seen : α → Prop) (e e' : α × ω) : Prop where
  input : e.1 = e'.1
  output : seen e.1 → e.2 = e'.2

theorem eq_of_alike {log log' : List (α × ω)}
    (h : List.Forall₂ (Alike fun _ => True) log log') : log = log' :=
  List.forall₂_eq_eq_eq ▸ h.imp fun _ _ he => Prod.ext he.input (he.output trivial)

/-- Related states cannot be told apart by what is seen. -/
structure Unwinds (step : σ → α → ω × σ) (seen : α → Prop) (R : σ → σ → Prop) : Prop where
  output : ∀ {s s'} a, R s s' → seen a → (step s a).1 = (step s' a).1
  state : ∀ {s s'} a, R s s' → R (step s a).2 (step s' a).2

theorem unwinds_eq : Unwinds step (fun _ => True) Eq where
  output _ h _ := h ▸ rfl
  state _ h := h ▸ rfl

/-- Runs from related states look alike. -/
theorem Unwinds.run_alike (h : Unwinds step seen R) {s s' : σ} (hs : R s s') (as : List α) :
    List.Forall₂ (Alike seen) (run step s as).1 (run step s' as).1 := by
  induction as generalizing s s' with
  | nil => exact .nil
  | cons a as ih => exact .cons ⟨rfl, h.output a hs⟩ (ih (h.state a hs))

/-- Deleting an input that leads to a related state. -/
theorem Unwinds.delete (h : Unwinds step seen R) (s : σ) (as : List α) (a : α) (bs : List α)
    (ha : R (step (run step s as).2 a).2 (run step s as).2) :
    ∃ log o rest rest', (run step s (as ++ a :: bs)).1 = log ++ (a, o) :: rest ∧
      (run step s (as ++ bs)).1 = log ++ rest' ∧ log.map Prod.fst = as ∧
      List.Forall₂ (Alike seen) rest rest' :=
  ⟨(run step s as).1, (step (run step s as).2 a).1, _, _, congrArg Prod.fst (run_append s as _),
    congrArg Prod.fst (run_append s as bs), run_inputs s as, h.run_alike ha bs⟩

end Vesta.Unwinding
