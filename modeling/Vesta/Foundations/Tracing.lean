import Vesta.Foundations.Journal

/-!
# Foundations — Tracing

Programs told by what they do.  A recording says of two states which events lie between them, and
of a durable state which events it has seen (`Recording`).  `Does R ok err cut x s` says what `x`
does from `s`: events of `ok` when it returns, of `err` when it fails, and of `cut` when it is
interrupted after a commit.  Events of consecutive programs are appended, so the rules follow a
program statement by statement.

Two recordings, of two parts of a state, make one of both (`Recording.prod`); its events keep their
order.
-/

namespace Vesta.Tracing

open Journal (Prog wp wp_pure wp_bind wp_get wp_lift wp_update wp_transact wp_orElse wp_ensuring
  wp_embed)

variable {δ δ' σ σ' τ τ' ε ε' α β : Type}

/-- Which events lie between two states, and which a durable state has seen. -/
structure Recording (δ σ τ : Type) where
  After : σ → List τ → σ → Prop
  Saw : σ → List τ → δ → Prop
  refl : ∀ s, After s [] s
  trans : ∀ {s s' s'' ts us}, After s ts s' → After s' us s'' → After s (ts ++ us) s''
  saw : ∀ {s s' d ts us}, After s ts s' → Saw s' us d → Saw s (ts ++ us) d

/-- What the run of `x` from `s` does. -/
def Does (R : Recording δ σ τ) (ok : α → List τ → Prop) (err : ε → List τ → Prop)
    (cut : List τ → Prop) (x : Prog δ σ ε α) (s : σ) : Prop :=
  wp (fun d => ∃ ts, R.Saw s ts d ∧ cut ts) (fun a s' => ∃ ts, R.After s ts s' ∧ ok a ts)
    (fun e s' => ∃ ts, R.After s ts s' ∧ err e ts) x s

namespace Does

variable {R : Recording δ σ τ} {ok ok' : α → List τ → Prop} {err err' : ε → List τ → Prop}
  {cut cut' : List τ → Prop} {x : Prog δ σ ε α} {s s₀ : σ} {ts : List τ}

theorem mono (h : Does R ok err cut x s) (hok : ∀ a ts, ok a ts → ok' a ts)
    (herr : ∀ e ts, err e ts → err' e ts) (hcut : ∀ ts, cut ts → cut' ts) :
    Does R ok' err' cut' x s := by
  refine wp.mono h (fun d hd => ?_) (fun a s' hs => ?_) fun e s' hs => ?_
  · obtain ⟨ts, hsaw, hts⟩ := hd
    exact ⟨ts, hsaw, hcut ts hts⟩
  · obtain ⟨ts, hafter, hts⟩ := hs
    exact ⟨ts, hafter, hok a ts hts⟩
  · obtain ⟨ts, hafter, hts⟩ := hs
    exact ⟨ts, hafter, herr e ts hts⟩

theorem of_ok {a : α} (h : Does R ok err cut x s) (hr : (x s).result = .ok a) :
    ∃ ts, R.After s ts (x s).state ∧ ok a ts := h.ok a hr

theorem of_error {e : ε} (h : Does R ok err cut x s) (hr : (x s).result = .error e) :
    ∃ ts, R.After s ts (x s).state ∧ err e ts := h.error e hr

theorem of_commit {d : δ} (h : Does R ok err cut x s) (hd : d ∈ (x s).commits) :
    ∃ ts, R.Saw s ts d ∧ cut ts := h.commits d hd

/-- What happened before comes first. -/
theorem shift {P : α → List τ → Prop} {E : ε → List τ → Prop} (h : R.After s₀ ts s)
    (hx : Does R (fun a us => P a (ts ++ us)) (fun e us => E e (ts ++ us))
      (fun us => cut (ts ++ us)) x s) :
    wp (fun d => ∃ ts, R.Saw s₀ ts d ∧ cut ts) (fun a s' => ∃ ts, R.After s₀ ts s' ∧ P a ts)
      (fun e s' => ∃ ts, R.After s₀ ts s' ∧ E e ts) x s := by
  refine wp.mono hx (fun d hd => ?_) (fun a s' hs => ?_) fun e s' hs => ?_
  · obtain ⟨us, hsaw, hus⟩ := hd
    exact ⟨ts ++ us, R.saw h hsaw, hus⟩
  · obtain ⟨us, hafter, hus⟩ := hs
    exact ⟨ts ++ us, R.trans h hafter, hus⟩
  · obtain ⟨us, hafter, hus⟩ := hs
    exact ⟨ts ++ us, R.trans h hafter, hus⟩

theorem pure {a : α} (h : ok a []) : Does R ok err cut (pure a) s :=
  wp_pure ⟨[], R.refl s, h⟩

theorem lift {r : Except ε α} (hok : ∀ a, r = .ok a → ok a [])
    (herr : ∀ e, r = .error e → err e []) :
    Does R ok err cut (Prog.lift r) s :=
  wp_lift (fun a ha => ⟨[], R.refl s, hok a ha⟩) fun e he => ⟨[], R.refl s, herr e he⟩

theorem get {ok : σ → List τ → Prop} (h : ok s []) : Does R ok err cut Prog.get s :=
  wp_get ⟨[], R.refl s, h⟩

/-- What follows a reading starts from the state that was read. -/
theorem get_bind {f : σ → Prog δ σ ε α} (h : Does R ok err cut (f s) s) :
    Does R ok err cut (Prog.get >>= f) s := h

/-- One operation without a commit. -/
theorem update {f : σ → Except ε (α × σ)}
    (hok : ∀ a s', f s = .ok (a, s') → ∃ ts, R.After s ts s' ∧ ok a ts)
    (herr : ∀ e, f s = .error e → err e []) : Does R ok err cut (Prog.update f) s :=
  wp_update hok fun e he => ⟨[], R.refl s, herr e he⟩

/-- One operation that commits. -/
theorem transact {durable : σ → δ} {f : σ → Except ε (α × σ)}
    (hok : ∀ a s', f s = .ok (a, s') →
      ∃ ts, R.After s ts s' ∧ R.Saw s ts (durable s') ∧ ok a ts ∧ cut ts)
    (herr : ∀ e, f s = .error e → err e []) : Does R ok err cut (Prog.transact durable f) s := by
  refine wp_transact (fun a s' he => ?_) fun e he => ⟨[], R.refl s, herr e he⟩
  obtain ⟨ts, hafter, hsaw, hts, hcut⟩ := hok a s' he
  exact ⟨⟨ts, hafter, hts⟩, ts, hsaw, hcut⟩

/-- One program after another. -/
theorem bind {y : Prog δ σ ε β} {f : β → Prog δ σ ε α} {P : β → List τ → Prop}
    {E : ε → List τ → Prop} {K : List τ → Prop} (hy : Does R P E K y s)
    (hf : ∀ b ts s', R.After s ts s' → P b ts →
      Does R (fun a us => ok a (ts ++ us)) (fun e us => err e (ts ++ us))
        (fun us => cut (ts ++ us)) (f b) s')
    (herr : ∀ e ts, E e ts → err e ts) (hcut : ∀ ts, K ts → cut ts) :
    Does R ok err cut (y >>= f) s := by
  refine wp_bind (wp.mono hy (fun d hd => ?_) (fun b s' hs => ?_) fun e s' hs => ?_)
  · obtain ⟨ts, hsaw, hts⟩ := hd
    exact ⟨ts, hsaw, hcut ts hts⟩
  · obtain ⟨ts, hafter, hts⟩ := hs
    exact shift hafter (hf b ts s' hafter hts)
  · obtain ⟨ts, hafter, hts⟩ := hs
    exact ⟨ts, hafter, herr e ts hts⟩

/-- A handler goes on from where `x` failed. -/
theorem orElse {handle : ε → Prog δ σ ε α} {P : α → List τ → Prop} {E : ε → List τ → Prop}
    {K : List τ → Prop} (hx : Does R P E K x s) (hok : ∀ a ts, P a ts → ok a ts)
    (hhandle : ∀ e ts s', R.After s ts s' → E e ts →
      Does R (fun a us => ok a (ts ++ us)) (fun e' us => err e' (ts ++ us))
        (fun us => cut (ts ++ us)) (handle e) s')
    (hcut : ∀ ts, K ts → cut ts) : Does R ok err cut (x.orElse handle) s := by
  refine wp_orElse (wp.mono hx (fun d hd => ?_) (fun a s' hs => ?_) fun e s' hs => ?_)
  · obtain ⟨ts, hsaw, hts⟩ := hd
    exact ⟨ts, hsaw, hcut ts hts⟩
  · obtain ⟨ts, hafter, hts⟩ := hs
    exact ⟨ts, hafter, hok a ts hts⟩
  · obtain ⟨ts, hafter, hts⟩ := hs
    exact shift hafter (hhandle e ts s' hafter hts)

/-- Turn after turn.  `J b us` says that the turns before `b` did the events `us`. -/
theorem turns {f : β → Prog δ σ ε (β ⊕ α)} {J : β → List τ → Prop}
    {P : Option α → List τ → Prop} {E : ε → List τ → Prop} {K : List τ → Prop}
    (hstep : ∀ b us s, J b us → Does R
      (fun r ts => r.elim (fun b' => J b' (us ++ ts)) fun a => P (some a) (us ++ ts))
      (fun e ts => E e (us ++ ts)) (fun ts => K (us ++ ts)) (f b) s)
    (hlast : ∀ b us, J b us → P none us) (n : Nat) {b : β} {us : List τ} (h : J b us) (s : σ) :
    Does R (fun a ts => P a (us ++ ts)) (fun e ts => E e (us ++ ts)) (fun ts => K (us ++ ts))
      (Prog.turns f n b) s := by
  induction n generalizing b us s with
  | zero => exact pure (by rw [List.append_nil]; exact hlast b us h)
  | succ n ih =>
      refine bind (hstep b us s h) (fun r ts s' _ hr => ?_) (fun _ _ => id) fun _ => id
      cases r with
      | inl b' => simpa only [List.append_assoc] using ih hr s'
      | inr a => exact pure (by rw [List.append_nil]; exact hr)

section
variable {f : β → α → Prog δ σ ε β} {J : List α → β → List τ → Prop} {E : ε → List τ → Prop}
  {K : List τ → Prop} {as before : List α} {b : β} {us : List τ}

/-- Element after element.  `J before b us` says that `us` was done for the elements `before`. -/
theorem foldlM_from
    (hstep : ∀ a ∈ as, ∀ before b us s, J before b us →
      Does R (fun b' ts => J (before ++ [a]) b' (us ++ ts)) (fun e ts => E e (us ++ ts))
        (fun ts => K (us ++ ts)) (f b a) s) (h : J before b us) (s : σ) :
    Does R (fun b' ts => J (before ++ as) b' (us ++ ts)) (fun e ts => E e (us ++ ts))
      (fun ts => K (us ++ ts)) (as.foldlM f b) s := by
  induction as generalizing before b us s with
  | nil => exact pure (by rwa [List.append_nil, List.append_nil])
  | cons a as ih =>
      rw [List.foldlM_cons]
      refine bind (hstep a List.mem_cons_self before b us s h) (fun b' ts s' _ hb => ?_)
        (fun _ _ => id) fun _ => id
      have hrest := ih (fun a' ha => hstep a' (List.mem_cons_of_mem _ ha)) hb s'
      simpa only [List.append_assoc, List.singleton_append] using hrest

/-- A loop over a list. -/
theorem foldlM
    (hstep : ∀ a ∈ as, ∀ before b us s, J before b us →
      Does R (fun b' ts => J (before ++ [a]) b' (us ++ ts)) (fun e ts => E e (us ++ ts))
        (fun ts => K (us ++ ts)) (f b a) s) (h : J [] b []) (s : σ) :
    Does R (J as) E K (as.foldlM f b) s := foldlM_from hstep h s

end

/-- `last` comes after `x` when `x` has ended. -/
theorem ensuring {x : Prog δ σ ε (Option α)} {ok P : Option α → List τ → Prop}
    {E : ε → List τ → Prop} {K : List τ → Prop} {last : Prog δ σ ε Unit} (hx : Does R P E K x s)
    (hnone : ∀ ts, P none ts → ok none ts)
    (hok : ∀ a ts s', R.After s ts s' → P (some a) ts → Does R (fun _ us => ok (some a) (ts ++ us))
      (fun _ us => ok (some a) (ts ++ us)) (fun us => cut (ts ++ us)) last s')
    (herr : ∀ e ts s', R.After s ts s' → E e ts → Does R (fun _ us => err e (ts ++ us))
      (fun _ us => err e (ts ++ us)) (fun us => cut (ts ++ us)) last s')
    (hcut : ∀ ts, K ts → cut ts) : Does R ok err cut (x.ensuring last) s := by
  refine wp_ensuring (wp.mono hx (fun d hd => ?_) (fun r s' hs => ?_) fun e s' hs => ?_)
  · obtain ⟨ts, hsaw, hts⟩ := hd
    exact ⟨ts, hsaw, hcut ts hts⟩
  · obtain ⟨ts, hafter, hts⟩ := hs
    cases r with
    | none => exact ⟨ts, hafter, hnone ts hts⟩
    | some a =>
        exact shift (P := fun _ => ok (some a)) (E := fun _ => ok (some a)) hafter
          (hok a ts s' hafter hts)
  · obtain ⟨ts, hafter, hts⟩ := hs
    exact shift (P := fun _ => err e) (E := fun _ => err e) hafter (herr e ts s' hafter hts)

end Does

/-! ### Other events -/

/-- The same told by events that are a function of these. -/
theorem Does.view {R : Recording δ σ τ} {S : Recording δ σ τ'} (g : List τ → List τ')
    (hafter : ∀ {s ts s'}, R.After s ts s' → S.After s (g ts) s')
    (hsaw : ∀ {s ts d}, R.Saw s ts d → S.Saw s (g ts) d) {ok : α → List τ → Prop}
    {err : ε → List τ → Prop} {cut : List τ → Prop} {x : Prog δ σ ε α} {s : σ}
    (h : Does R ok err cut x s) : Does S (fun a us => ∃ ts, us = g ts ∧ ok a ts)
      (fun e us => ∃ ts, us = g ts ∧ err e ts) (fun us => ∃ ts, us = g ts ∧ cut ts) x s := by
  refine wp.mono h (fun d hd => ?_) (fun a s' hs => ?_) fun e s' hs => ?_
  · obtain ⟨ts, hd, hts⟩ := hd
    exact ⟨g ts, hsaw hd, ts, rfl, hts⟩
  · obtain ⟨ts, hs, hts⟩ := hs
    exact ⟨g ts, hafter hs, ts, rfl, hts⟩
  · obtain ⟨ts, hs, hts⟩ := hs
    exact ⟨g ts, hafter hs, ts, rfl, hts⟩

/-! ### Events in groups -/

/-- Events that stand for several events each. -/
def Recording.grouped (R : Recording δ σ τ) (g : τ' → List τ) : Recording δ σ τ' where
  After s ts s' := R.After s (ts.flatMap g) s'
  Saw s ts d := R.Saw s (ts.flatMap g) d
  refl := R.refl
  trans h h' := by
    rw [List.flatMap_append]
    exact R.trans h h'
  saw h h' := by
    rw [List.flatMap_append]
    exact R.saw h h'

/-- Programs that do whole groups. -/
theorem does_grouped {R : Recording δ σ τ} {g : τ' → List τ} {ok : α → List τ' → Prop}
    {err : ε → List τ' → Prop} {cut : List τ' → Prop} {x : Prog δ σ ε α} {s : σ} :
    Does (R.grouped g) ok err cut x s ↔ Does R (fun a es => ∃ ts, es = ts.flatMap g ∧ ok a ts)
      (fun e es => ∃ ts, es = ts.flatMap g ∧ err e ts) (fun es => ∃ ts, es = ts.flatMap g ∧ cut ts)
      x s := by
  constructor
  · intro h
    refine wp.mono h (fun d hd => ?_) (fun a s' hs => ?_) fun e s' hs => ?_
    · obtain ⟨ts, hsaw, hts⟩ := hd
      exact ⟨_, hsaw, ts, rfl, hts⟩
    · obtain ⟨ts, hafter, hts⟩ := hs
      exact ⟨_, hafter, ts, rfl, hts⟩
    · obtain ⟨ts, hafter, hts⟩ := hs
      exact ⟨_, hafter, ts, rfl, hts⟩
  · intro h
    refine wp.mono h (fun d hd => ?_) (fun a s' hs => ?_) fun e s' hs => ?_
    · obtain ⟨_, hsaw, ts, rfl, hts⟩ := hd
      exact ⟨ts, hsaw, hts⟩
    · obtain ⟨_, hafter, ts, rfl, hts⟩ := hs
      exact ⟨ts, hafter, hts⟩
    · obtain ⟨_, hafter, ts, rfl, hts⟩ := hs
      exact ⟨ts, hafter, hts⟩

/-! ### Two parts of a state -/

namespace Recording

/-- The events of the first part. -/
def firsts (es : List (τ ⊕ τ')) : List τ := es.filterMap Sum.getLeft?

/-- The events of the second part. -/
def seconds (es : List (τ ⊕ τ')) : List τ' := es.filterMap Sum.getRight?

@[simp] theorem firsts_append (es fs : List (τ ⊕ τ')) :
    firsts (es ++ fs) = firsts es ++ firsts fs := List.filterMap_append

@[simp] theorem seconds_append (es fs : List (τ ⊕ τ')) :
    seconds (es ++ fs) = seconds es ++ seconds fs := List.filterMap_append

@[simp] theorem firsts_map_inl (ts : List τ) : firsts (ts.map (.inl : τ → τ ⊕ τ')) = ts := by
  simp [firsts, List.filterMap_map, Function.comp_def]

@[simp] theorem firsts_map_inr (ts : List τ') : firsts (ts.map (.inr : τ' → τ ⊕ τ')) = [] := by
  simp [firsts, List.filterMap_map, Function.comp_def]

@[simp] theorem seconds_map_inl (ts : List τ) : seconds (ts.map (.inl : τ → τ ⊕ τ')) = [] := by
  simp [seconds, List.filterMap_map, Function.comp_def]

@[simp] theorem seconds_map_inr (ts : List τ') : seconds (ts.map (.inr : τ' → τ ⊕ τ')) = ts := by
  simp [seconds, List.filterMap_map, Function.comp_def]

/-- Both parts.  Only the second one is durable. -/
def prod (R : Recording Empty σ τ) (R' : Recording δ σ' τ') : Recording δ (σ × σ') (τ ⊕ τ') where
  After s es s' := R.After s.1 (firsts es) s'.1 ∧ R'.After s.2 (seconds es) s'.2
  Saw s es d := R'.Saw s.2 (seconds es) d
  refl s := ⟨R.refl s.1, R'.refl s.2⟩
  trans h h' := by
    rw [firsts_append, seconds_append]
    exact ⟨R.trans h.1 h'.1, R'.trans h.2 h'.2⟩
  saw h h' := by
    rw [seconds_append]
    exact R'.saw h.2 h'

end Recording

section
variable {R : Recording Empty σ τ} {R' : Recording δ σ' τ'} {s : σ × σ'}

/-- A program of the first part. -/
theorem Does.first {ok : α → List τ → Prop} {err : ε → List τ → Prop} {cut : List τ → Prop}
    {C : List (τ ⊕ τ') → Prop} {x : Prog Empty σ ε α} {f : ε → ε'}
    (h : Does R ok err cut x s.1) :
    Does (R.prod R') (fun a es => ∃ ts, es = ts.map .inl ∧ ok a ts)
      (fun e es => ∃ e' ts, e = f e' ∧ es = ts.map .inl ∧ err e' ts) C
      (x.embed Empty.elim Prod.fst (fun a s => (a, s.2)) f) s := by
  refine wp_embed (wp.mono h (fun d _ => d.elim) (fun a s' hs => ?_) fun e s' hs => ?_)
  · obtain ⟨ts, hafter, hts⟩ := hs
    refine ⟨ts.map .inl, ⟨?_, ?_⟩, ts, rfl, hts⟩
    · rwa [Recording.firsts_map_inl]
    · rw [Recording.seconds_map_inl]
      exact R'.refl s.2
  · obtain ⟨ts, hafter, hts⟩ := hs
    refine ⟨ts.map .inl, ⟨?_, ?_⟩, e, ts, rfl, rfl, hts⟩
    · rwa [Recording.firsts_map_inl]
    · rw [Recording.seconds_map_inl]
      exact R'.refl s.2

/-- A program of the second part. -/
theorem Does.second {ok : α → List τ' → Prop} {err : ε → List τ' → Prop} {cut : List τ' → Prop}
    {x : Prog δ σ' ε α} {f : ε → ε'} (h : Does R' ok err cut x s.2) :
    Does (R.prod R') (fun a es => ∃ ts, es = ts.map .inr ∧ ok a ts)
      (fun e es => ∃ e' ts, e = f e' ∧ es = ts.map .inr ∧ err e' ts)
      (fun es => ∃ ts, es = ts.map .inr ∧ cut ts)
      (x.embed id Prod.snd (fun a s => (s.1, a)) f) s := by
  refine wp_embed (wp.mono h (fun d hd => ?_) (fun a s' hs => ?_) fun e s' hs => ?_)
  · obtain ⟨ts, hsaw, hts⟩ := hd
    refine ⟨ts.map .inr, ?_, ts, rfl, hts⟩
    show R'.Saw s.2 (Recording.seconds (ts.map .inr)) d
    rwa [Recording.seconds_map_inr]
  · obtain ⟨ts, hafter, hts⟩ := hs
    refine ⟨ts.map .inr, ⟨?_, ?_⟩, ts, rfl, hts⟩
    · rw [Recording.firsts_map_inr]
      exact R.refl s.1
    · rwa [Recording.seconds_map_inr]
  · obtain ⟨ts, hafter, hts⟩ := hs
    refine ⟨ts.map .inr, ⟨?_, ?_⟩, e, ts, rfl, rfl, hts⟩
    · rw [Recording.firsts_map_inr]
      exact R.refl s.1
    · rwa [Recording.seconds_map_inr]

end

end Vesta.Tracing
