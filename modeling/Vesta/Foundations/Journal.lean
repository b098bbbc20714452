import Mathlib.Data.List.Basic

/-!
# Foundations — Journal

Programs over a state of which a part is durable.  A program changes the state, may fail, and
commits durable states on the way; a failure leaves the state as it is at that point.  A crash
loses everything but the last commit, so what a program may leave behind is what it started from
or one of its commits (`Leaves`).

`wp I Q E x s` says how the run of `x` from `s` ends: every commit satisfies `I`, and the state
satisfies `Q` with the value returned or `E` with the error.  Programs are verified from these
rules, one for each way of building them.
-/

namespace Vesta.Journal

variable {δ σ ε α β δ' τ ε' : Type}

/-- How a run ends, in which state, and what was committed on the way, oldest first. -/
structure Trace (δ σ ε α : Type) where
  result : Except ε α
  state : σ
  commits : List δ

/-- A program with durable states `δ`, states `σ`, errors `ε` and values `α`. -/
def Prog (δ σ ε α : Type) := σ → Trace δ σ ε α

namespace Prog

/-- Run `x`, then go on with its value. -/
def bind (x : Prog δ σ ε α) (f : α → Prog δ σ ε β) : Prog δ σ ε β := fun s =>
  match x s with
  | ⟨.ok a, s', commits⟩ =>
      let t := f a s'
      { t with commits := commits ++ t.commits }
  | ⟨.error e, s', commits⟩ => ⟨.error e, s', commits⟩

instance : Monad (Prog δ σ ε) where
  pure a s := ⟨.ok a, s, []⟩
  bind := bind

/-- Read the state. -/
def get : Prog δ σ ε σ := fun s => ⟨.ok s, s, []⟩

/-- Return or fail without touching the state. -/
def lift (x : Except ε α) : Prog δ σ ε α := fun s => ⟨x, s, []⟩

/-- Change the state without a commit; a failure changes nothing. -/
def update (f : σ → Except ε (α × σ)) : Prog δ σ ε α := fun s =>
  match f s with
  | .ok (a, s') => ⟨.ok a, s', []⟩
  | .error e => ⟨.error e, s, []⟩

/-- Change the state in one transaction; a failure changes nothing. -/
def transact (durable : σ → δ) (f : σ → Except ε (α × σ)) : Prog δ σ ε α := fun s =>
  match f s with
  | .ok (a, s') => ⟨.ok a, s', [durable s']⟩
  | .error e => ⟨.error e, s, []⟩

/-- Run `x`; on an error, go on with the handler from where it stopped. -/
def orElse (x : Prog δ σ ε α) (handle : ε → Prog δ σ ε α) : Prog δ σ ε α := fun s =>
  match x s with
  | ⟨.ok a, s', commits⟩ => ⟨.ok a, s', commits⟩
  | ⟨.error e, s', commits⟩ =>
      let t := handle e s'
      { t with commits := commits ++ t.commits }

/-- Run `f` on each element, in order. -/
def forEach (f : α → Prog δ σ ε Unit) : List α → Prog δ σ ε Unit
  | [] => pure ()
  | a :: as => do
      f a
      forEach f as

/-- Take turns until one of them ends the loop, but no more than so many.  Without a value, the loop
still goes on. -/
def turns (f : β → Prog δ σ ε (β ⊕ α)) : Nat → β → Prog δ σ ε (Option α)
  | 0, _ => pure none
  | n + 1, b => do
      match ← f b with
      | .inl b => turns f n b
      | .inr a => return some a

/-- Run `x`, and `last` when it has ended, in whatever way; what becomes of `last` is ignored.
Without a value, `x` still goes on. -/
def ensuring (x : Prog δ σ ε (Option α)) (last : Prog δ σ ε Unit) :
    Prog δ σ ε (Option α) := fun s =>
  let t := x s
  match t.result with
  | .ok none => t
  | _ =>
      let u := last t.state
      ⟨t.result, u.state, t.commits ++ u.commits⟩

/-- Run a program of one part of a larger state. -/
def embed (durable : δ → δ') (part : τ → σ) (put : σ → τ → τ) (error : ε → ε')
    (x : Prog δ σ ε α) : Prog δ' τ ε' α := fun t =>
  let r := x (part t)
  ⟨r.result.mapError error, put r.state t, r.commits.map durable⟩

end Prog

/-- A durable state that a run from `s`, cut short or not, leaves behind. -/
def Leaves (durable : σ → δ) (x : Prog δ σ ε α) (s : σ) (d : δ) : Prop :=
  d = durable s ∨ d ∈ (x s).commits

/-- The run ends in `Q` or, with an error, in `E`; every commit satisfies `I`. -/
structure Trace.Ends (I : δ → Prop) (Q : α → σ → Prop) (E : ε → σ → Prop)
    (t : Trace δ σ ε α) : Prop where
  commits : ∀ d ∈ t.commits, I d
  ok : ∀ a, t.result = .ok a → Q a t.state
  error : ∀ e, t.result = .error e → E e t.state

/-- How the run of `x` from `s` ends. -/
def wp (I : δ → Prop) (Q : α → σ → Prop) (E : ε → σ → Prop) (x : Prog δ σ ε α) (s : σ) : Prop :=
  (x s).Ends I Q E

section
variable {I I' : δ → Prop} {Q Q' : α → σ → Prop} {E E' : ε → σ → Prop} {x : Prog δ σ ε α} {s : σ}

theorem wp.mono (h : wp I Q E x s) (hI : ∀ d, I d → I' d) (hQ : ∀ a s', Q a s' → Q' a s')
    (hE : ∀ e s', E e s' → E' e s') : wp I' Q' E' x s where
  commits d hd := hI d (h.commits d hd)
  ok a ha := hQ a _ (h.ok a ha)
  error e he := hE e _ (h.error e he)

theorem wp_pure {a : α} (h : Q a s) : wp I Q E (pure a) s :=
  ⟨nofun, fun _ he => Except.ok.inj he ▸ h, nofun⟩

theorem wp_bind {f : β → Prog δ σ ε α} {y : Prog δ σ ε β}
    (h : wp I (fun b s' => wp I Q E (f b) s') E y s) : wp I Q E (y >>= f) s := by
  show (Prog.bind y f s).Ends I Q E
  obtain ⟨hcommits, hok, herror⟩ := h
  unfold Prog.bind
  cases hy : y s with
  | mk result s' commits =>
      rw [hy] at hcommits hok herror
      cases result with
      | ok b =>
          have hf : wp I Q E (f b) s' := hok b rfl
          refine ⟨fun d hd => ?_, hf.ok, hf.error⟩
          rcases List.mem_append.mp hd with hd | hd
          · exact hcommits d hd
          · exact hf.commits d hd
      | error e => exact ⟨hcommits, nofun, fun e' he => Except.error.inj he ▸ herror e rfl⟩

theorem lift_ok_bind (b : β) (f : β → Prog δ σ ε α) : (Prog.lift (.ok b) >>= f) = f b := rfl

theorem wp_get {Q : σ → σ → Prop} (h : Q s s) : wp I Q E Prog.get s :=
  ⟨nofun, fun _ he => Except.ok.inj he ▸ h, nofun⟩

theorem wp_lift {r : Except ε α} (hok : ∀ a, r = .ok a → Q a s)
    (herror : ∀ e, r = .error e → E e s) :
    wp I Q E (Prog.lift r) s := ⟨nofun, hok, herror⟩

theorem wp_update {f : σ → Except ε (α × σ)} (hok : ∀ a s', f s = .ok (a, s') → Q a s')
    (herror : ∀ e, f s = .error e → E e s) : wp I Q E (Prog.update f) s := by
  unfold wp Prog.update
  cases hf : f s with
  | ok r => exact ⟨nofun, fun _ he => Except.ok.inj he ▸ hok _ _ hf, nofun⟩
  | error e => exact ⟨nofun, nofun, fun _ he => Except.error.inj he ▸ herror e hf⟩

theorem wp_transact {durable : σ → δ} {f : σ → Except ε (α × σ)}
    (hok : ∀ a s', f s = .ok (a, s') → Q a s' ∧ I (durable s'))
    (herror : ∀ e, f s = .error e → E e s) : wp I Q E (Prog.transact durable f) s := by
  unfold wp Prog.transact
  cases hf : f s with
  | ok r =>
      obtain ⟨hQ, hI⟩ := hok _ _ hf
      exact ⟨fun d hd => List.mem_singleton.mp hd ▸ hI, fun _ he => Except.ok.inj he ▸ hQ, nofun⟩
  | error e => exact ⟨nofun, nofun, fun _ he => Except.error.inj he ▸ herror e hf⟩

theorem wp_orElse {handle : ε → Prog δ σ ε α}
    (h : wp I Q (fun e s' => wp I Q E (handle e) s') x s) : wp I Q E (x.orElse handle) s := by
  obtain ⟨hcommits, hok, herror⟩ := h
  unfold wp Prog.orElse
  cases hx : x s with
  | mk result s' commits =>
      rw [hx] at hcommits hok herror
      cases result with
      | ok a => exact ⟨hcommits, fun a' he => Except.ok.inj he ▸ hok a rfl, nofun⟩
      | error e =>
          have hh : wp I Q E (handle e) s' := herror e rfl
          refine ⟨fun d hd => ?_, hh.ok, hh.error⟩
          rcases List.mem_append.mp hd with hd | hd
          · exact hcommits d hd
          · exact hh.commits d hd

/-- Turn after turn keeps what one turn keeps. -/
theorem wp_turns {f : β → Prog δ σ ε (β ⊕ α)} {J : β → σ → Prop} {Q : Option α → σ → Prop}
    (hstep : ∀ b s, J b s →
      wp I (fun r s' => r.elim (fun b' => J b' s') fun a => Q (some a) s') E (f b) s)
    (hlast : ∀ b s, J b s → Q none s) (n : Nat) {b : β} (h : J b s) :
    wp I Q E (Prog.turns f n b) s := by
  induction n generalizing b s with
  | zero => exact wp_pure (hlast b s h)
  | succ n ih =>
      refine wp_bind ((hstep b s h).mono (fun _ => id) (fun r s' hr => ?_) fun _ _ => id)
      cases r with
      | inl b' => exact ih hr
      | inr a => exact wp_pure hr

theorem wp_ensuring {x : Prog δ σ ε (Option α)} {Q : Option α → σ → Prop} {last : Prog δ σ ε Unit}
    (h : wp I (fun r s' => r.elim (Q none s') fun a =>
        wp I (fun _ s'' => Q (some a) s'') (fun _ s'' => Q (some a) s'') last s')
      (fun e s' => wp I (fun _ s'' => E e s'') (fun _ s'' => E e s'') last s') x s) :
    wp I Q E (x.ensuring last) s := by
  -- whatever `last` comes to, it leaves its state
  have hlast : ∀ {P : σ → Prop} {s' : σ}, wp I (fun _ => P) (fun _ => P) last s' →
      P (last s').state := by
    intro P s' hl
    cases hr : (last s').result with
    | ok u => exact hl.ok u hr
    | error e => exact hl.error e hr
  have hcommits : ∀ {P : σ → Prop} {s' : σ}, wp I (fun _ => P) (fun _ => P) last s' →
      ∀ d ∈ (x s).commits ++ (last s').commits, I d := by
    intro P s' hl d hd
    rcases List.mem_append.mp hd with hd | hd
    · exact h.commits d hd
    · exact hl.commits d hd
  unfold wp Prog.ensuring
  dsimp only
  split
  · next hr =>
      refine ⟨h.commits, fun r he => ?_, fun e he => ?_⟩
      · obtain rfl := Except.ok.inj (hr.symm.trans he)
        exact h.ok none hr
      · cases hr.symm.trans he
  · next hr =>
      cases hx : (x s).result with
      | ok r =>
          cases r with
          | none => exact absurd hx hr
          | some a =>
              have hl := h.ok (some a) hx
              refine ⟨hcommits hl, fun r he => Except.ok.inj he ▸ hlast hl, fun e he => ?_⟩
              cases he
      | error e =>
          have hl := h.error e hx
          refine ⟨hcommits hl, fun r he => ?_, fun e' he => Except.error.inj he ▸ hlast hl⟩
          cases he

theorem mapError_eq_ok {error : ε → ε'} {r : Except ε α} {a : α} :
    r.mapError error = .ok a ↔ r = .ok a := by
  cases r <;> simp [Except.mapError]

theorem mapError_eq_error {error : ε → ε'} {r : Except ε α} {e' : ε'} :
    r.mapError error = .error e' ↔ ∃ e, r = .error e ∧ error e = e' := by
  cases r <;> simp [Except.mapError]

theorem wp_embed {J : δ' → Prop} {P : α → τ → Prop} {F : ε' → τ → Prop} {durable : δ → δ'}
    {part : τ → σ} {put : σ → τ → τ} {error : ε → ε'} {t : τ}
    (h : wp (fun d => J (durable d)) (fun a s' => P a (put s' t))
      (fun e s' => F (error e) (put s' t))
      x (part t)) : wp J P F (x.embed durable part put error) t where
  commits d hd := by
    obtain ⟨d', hd', rfl⟩ := List.mem_map.mp hd
    exact h.commits d' hd'
  ok a ha := h.ok a (mapError_eq_ok.mp ha)
  error e he := by
    obtain ⟨e', he', rfl⟩ := mapError_eq_error.mp he
    exact h.error e' he'

theorem wp.leaves {durable : σ → δ} (h : wp I Q E x s) (hs : I (durable s)) {d : δ}
    (hd : Leaves durable x s d) : I d := by
  rcases hd with rfl | hd
  · exact hs
  · exact h.commits d hd

end

end Vesta.Journal
