import Mathlib.Data.List.Nodup
import Mathlib.Data.List.Perm.Basic

/-!
# Foundations — FirstWins

Collections in which the first item wins.  The content of an item has a slot and a tag.  A
collection accepts an item that agrees with all accepted items on the tag and takes a slot of its
own; an item equal to an accepted one is a repeat; anything else is a clash.  Repeats and clashes
leave the accepted items as they are and are only counted, up to a limit.

The verdict on an item is a matter of the set of accepted items, so collecting respects
permutations of what was accepted (`collect_equiv`): a collection that was saved and read back in
another order goes on as it would have.
-/

namespace Vesta.FirstWins

/-- How a collection takes an item. -/
inductive Verdict where
  | fresh
  | repeated
  | clash
deriving DecidableEq, Repr

/-- What of an item is compared, its slot and its tag, and the largest count. -/
structure Rule (α β ι μ : Type) where
  content : α → β
  slot : β → ι
  tag : β → μ
  limit : Nat

/-- What was accepted, and how often an item was repeated or clashed. -/
structure Tally (α : Type) where
  accepted : List α
  repeats : Nat
  clashes : Nat

namespace Tally

variable {α : Type}

def empty : Tally α := ⟨[], 0, 0⟩

/-- Equal counts and the same accepted items, in any order. -/
structure Equiv (t t' : Tally α) : Prop where
  accepted : t.accepted.Perm t'.accepted
  repeats : t.repeats = t'.repeats
  clashes : t.clashes = t'.clashes

theorem Equiv.refl (t : Tally α) : t.Equiv t := ⟨.refl _, rfl, rfl⟩

theorem Equiv.symm {t t' : Tally α} (h : t.Equiv t') : t'.Equiv t :=
  ⟨h.accepted.symm, h.repeats.symm, h.clashes.symm⟩

theorem Equiv.trans {t t' t'' : Tally α} (h : t.Equiv t') (h' : t'.Equiv t'') : t.Equiv t'' :=
  ⟨h.accepted.trans h'.accepted, h.repeats.trans h'.repeats, h.clashes.trans h'.clashes⟩

end Tally

namespace Rule

variable {α β ι μ : Type} (R : Rule α β ι μ)

/-- One more, up to the limit. -/
def bump (n : Nat) : Nat := min (n + 1) R.limit

/-- Count a verdict. -/
def count (v : Verdict) (t : Tally α) : Tally α :=
  match v with
  | .fresh => t
  | .repeated => { t with repeats := R.bump t.repeats }
  | .clash => { t with clashes := R.bump t.clashes }

/-- One tag, and a slot for each item. -/
structure Uniform (accepted : List α) : Prop where
  slots : (accepted.map fun a => R.slot (R.content a)).Nodup
  tags : ∀ a ∈ accepted, ∀ b ∈ accepted, R.tag (R.content a) = R.tag (R.content b)

/-- The counts within the limit. -/
structure Bounded (t : Tally α) : Prop where
  repeats : t.repeats ≤ R.limit
  clashes : t.clashes ≤ R.limit

section
variable {R} {accepted accepted' : List α}

theorem Uniform.nil : R.Uniform ([] : List α) := ⟨by simp, by simp⟩

theorem Uniform.perm (h : R.Uniform accepted) (hp : accepted.Perm accepted') :
    R.Uniform accepted' where
  slots := (hp.map _).nodup_iff.mp h.slots
  tags a ha b hb := h.tags a (hp.mem_iff.mpr ha) b (hp.mem_iff.mpr hb)

theorem Uniform.eq_of_slot (h : R.Uniform accepted) {a a' : α} (ha : a ∈ accepted)
    (ha' : a' ∈ accepted) (hs : R.slot (R.content a) = R.slot (R.content a')) : a = a' :=
  List.inj_on_of_nodup_map h.slots ha ha' hs

theorem le_bump {n : Nat} (h : n ≤ R.limit) : n ≤ R.bump n := by
  unfold bump
  omega

theorem bump_le (n : Nat) : R.bump n ≤ R.limit := Nat.min_le_right _ _

theorem bounded_empty : R.Bounded (.empty : Tally α) := ⟨Nat.zero_le _, Nat.zero_le _⟩

end

section
variable {R} {t t' : Tally α}

@[simp] theorem count_accepted (v : Verdict) : (R.count v t).accepted = t.accepted := by
  cases v <;> rfl

theorem count_equiv (h : t.Equiv t') (v : Verdict) : (R.count v t).Equiv (R.count v t') := by
  cases v with
  | fresh => exact h
  | repeated => exact ⟨h.accepted, congrArg R.bump h.repeats, h.clashes⟩
  | clash => exact ⟨h.accepted, h.repeats, congrArg R.bump h.clashes⟩

theorem count_bounded (h : R.Bounded t) (v : Verdict) : R.Bounded (R.count v t) := by
  cases v with
  | fresh => exact h
  | repeated => exact ⟨bump_le _, h.clashes⟩
  | clash => exact ⟨h.repeats, bump_le _⟩

theorem clashes_le_count (h : R.Bounded t) (v : Verdict) : t.clashes ≤ (R.count v t).clashes := by
  cases v with
  | fresh | repeated => exact Nat.le_refl _
  | clash => exact le_bump h.clashes

end

variable [DecidableEq β] [DecidableEq ι] [DecidableEq μ]

/-- The verdict on `b` when `accepted` was accepted. -/
def verdict (accepted : List α) (b : β) : Verdict :=
  if ∃ a ∈ accepted, R.content a = b then .repeated
  else if ∀ a ∈ accepted, R.slot (R.content a) ≠ R.slot b ∧ R.tag (R.content a) = R.tag b then
    .fresh
  else .clash

/-- Take one item. -/
def step (t : Tally α) (a : α) : Tally α :=
  match R.verdict t.accepted (R.content a) with
  | .fresh => { t with accepted := t.accepted ++ [a] }
  | .repeated => { t with repeats := R.bump t.repeats }
  | .clash => { t with clashes := R.bump t.clashes }

/-- Take items one after the other. -/
def collect (t : Tally α) (as : List α) : Tally α := as.foldl R.step t

/-- The verdicts given on the way. -/
def verdicts (t : Tally α) : List α → List Verdict
  | [] => []
  | a :: as => R.verdict t.accepted (R.content a) :: verdicts (R.step t a) as

variable {R}

/-! ### Verdicts -/

section
variable {accepted accepted' : List α} {b : β}

theorem verdict_eq_repeated :
    R.verdict accepted b = .repeated ↔ ∃ a ∈ accepted, R.content a = b := by
  unfold verdict
  split
  · next h => exact iff_of_true rfl h
  · next h =>
      refine iff_of_false ?_ h
      split <;> exact nofun

theorem verdict_eq_fresh : R.verdict accepted b = .fresh ↔
    ∀ a ∈ accepted, R.slot (R.content a) ≠ R.slot b ∧ R.tag (R.content a) = R.tag b := by
  unfold verdict
  split
  · next h =>
      obtain ⟨a, ha, rfl⟩ := h
      exact iff_of_false nofun fun hf => (hf a ha).1 rfl
  · split
    · next hf => exact iff_of_true rfl hf
    · next hf => exact iff_of_false nofun hf

theorem verdict_eq_clash : R.verdict accepted b = .clash ↔
    (∀ a ∈ accepted, R.content a ≠ b) ∧
      ∃ a ∈ accepted, R.slot (R.content a) = R.slot b ∨ R.tag (R.content a) ≠ R.tag b := by
  unfold verdict
  split
  · next h =>
      obtain ⟨a, ha, hab⟩ := h
      exact iff_of_false nofun fun hn => hn.1 a ha hab
  · next hn =>
      split
      · next hf =>
          refine iff_of_false nofun ?_
          rintro ⟨-, a, ha, hs | ht⟩
          · exact (hf a ha).1 hs
          · exact ht (hf a ha).2
      · next hf =>
          refine iff_of_true rfl ⟨fun a ha he => hn ⟨a, ha, he⟩, ?_⟩
          by_contra hno
          refine hf fun a ha => ⟨fun hs => hno ⟨a, ha, .inl hs⟩, ?_⟩
          by_contra ht
          exact hno ⟨a, ha, .inr ht⟩

theorem verdict_nil : R.verdict ([] : List α) b = .fresh := by
  rw [verdict_eq_fresh]
  exact fun a ha => absurd ha List.not_mem_nil

/-- The verdict depends on the set of accepted items only. -/
theorem verdict_congr (h : ∀ a, a ∈ accepted ↔ a ∈ accepted') :
    R.verdict accepted b = R.verdict accepted' b := by
  simp only [verdict, h]

/-- A fresh item joins a uniform collection. -/
theorem Uniform.append (h : R.Uniform accepted) {a : α}
    (ha : R.verdict accepted (R.content a) = .fresh) : R.Uniform (accepted ++ [a]) := by
  have hf := verdict_eq_fresh.mp ha
  refine ⟨?_, ?_⟩
  · rw [List.map_append, List.nodup_append]
    refine ⟨h.slots, by simp, ?_⟩
    intro s hs s' hs'
    obtain ⟨x, hx, rfl⟩ := List.mem_map.mp hs
    rw [List.map_singleton, List.mem_singleton] at hs'
    rw [hs']
    exact (hf x hx).1
  · intro x hx y hy
    rcases List.mem_append.mp hx with hx | hx <;> rcases List.mem_append.mp hy with hy | hy
    · exact h.tags x hx y hy
    · rw [List.mem_singleton.mp hy]
      exact (hf x hx).2
    · rw [List.mem_singleton.mp hx]
      exact (hf y hy).2.symm
    · rw [List.mem_singleton.mp hx, List.mem_singleton.mp hy]

/-- The last item of a uniform collection was fresh. -/
theorem Uniform.fresh {a : α} {as : List α} (h : R.Uniform (accepted ++ a :: as)) :
    R.verdict accepted (R.content a) = .fresh := by
  have hmem : a ∈ accepted ++ a :: as := by simp
  refine verdict_eq_fresh.mpr fun x hx => ⟨?_, h.tags x (List.mem_append_left _ hx) a hmem⟩
  have hnd := h.slots
  rw [List.map_append, List.nodup_append] at hnd
  exact hnd.2.2 _ (List.mem_map_of_mem hx) _ (by simp)

/-- The verdict as the slot of `b` decides it: empty, or with an item that is or is not `b`. -/
theorem Uniform.verdict_of_slot (h : R.Uniform accepted) {a : α} (ha : a ∈ accepted)
    (hs : R.slot (R.content a) = R.slot b) :
    R.verdict accepted b = if R.content a = b then .repeated else .clash := by
  split
  · next he => exact verdict_eq_repeated.mpr ⟨a, ha, he⟩
  · next hne =>
      refine verdict_eq_clash.mpr ⟨fun x hx hxb => hne ?_, a, ha, .inl hs⟩
      rw [h.eq_of_slot ha hx (by rw [hs, hxb]), hxb]

/-- A verdict other than fresh stays as more is accepted. -/
theorem Uniform.verdict_mono (h : R.Uniform accepted') (hs : accepted ⊆ accepted')
    (hv : R.verdict accepted b ≠ .fresh) : R.verdict accepted' b = R.verdict accepted b := by
  cases hv' : R.verdict accepted b with
  | fresh => exact absurd hv' hv
  | repeated =>
      obtain ⟨a, ha, he⟩ := verdict_eq_repeated.mp hv'
      exact verdict_eq_repeated.mpr ⟨a, hs ha, he⟩
  | clash =>
      obtain ⟨hne, a, ha, hor⟩ := verdict_eq_clash.mp hv'
      refine verdict_eq_clash.mpr ⟨fun x hx hxb => ?_, a, hs ha, hor⟩
      -- an item equal to `b` shares its tag with `a`, so it has the slot of `a` and is `a`
      have htag : R.tag (R.content a) = R.tag b := hxb ▸ h.tags a (hs ha) x hx
      have hslot : R.slot (R.content a) = R.slot (R.content x) := by
        rw [hxb]
        exact hor.resolve_right (not_not.mpr htag)
      exact hne a ha (h.eq_of_slot (hs ha) hx hslot ▸ hxb)

theorem verdict_of_tag {a : α} (ha : a ∈ accepted) (ht : R.tag (R.content a) ≠ R.tag b)
    (h : R.Uniform accepted) : R.verdict accepted b = .clash := by
  refine verdict_eq_clash.mpr ⟨fun x hx hxb => ht ?_, a, ha, .inr ht⟩
  rw [h.tags a ha x hx, hxb]

end

/-! ### Steps -/

section
variable {t t' : Tally α} {a : α} {as bs : List α}

theorem step_fresh (h : R.verdict t.accepted (R.content a) = .fresh) :
    R.step t a = { t with accepted := t.accepted ++ [a] } := by simp [step, h]

theorem step_repeated (h : R.verdict t.accepted (R.content a) = .repeated) :
    R.step t a = { t with repeats := R.bump t.repeats } := by simp [step, h]

theorem step_clash (h : R.verdict t.accepted (R.content a) = .clash) :
    R.step t a = { t with clashes := R.bump t.clashes } := by simp [step, h]

@[simp] theorem collect_nil : R.collect t [] = t := rfl

@[simp] theorem collect_cons : R.collect t (a :: as) = R.collect (R.step t a) as := rfl

theorem collect_append : R.collect t (as ++ bs) = R.collect (R.collect t as) bs :=
  List.foldl_append ..

theorem collect_concat : R.collect t (as ++ [a]) = R.step (R.collect t as) a := by
  rw [collect_append, collect_cons, collect_nil]

/-- What a step does to the accepted items. -/
theorem step_accepted : (R.step t a).accepted = t.accepted ∨
    R.verdict t.accepted (R.content a) = .fresh ∧ (R.step t a).accepted = t.accepted ++ [a] := by
  cases hv : R.verdict t.accepted (R.content a) with
  | fresh => exact .inr ⟨rfl, by rw [step_fresh hv]⟩
  | repeated => exact .inl (by rw [step_repeated hv])
  | clash => exact .inl (by rw [step_clash hv])

theorem step_uniform (h : R.Uniform t.accepted) : R.Uniform (R.step t a).accepted := by
  rcases step_accepted (R := R) (t := t) (a := a) with he | ⟨hv, he⟩
  · rwa [he]
  · rw [he]
    exact h.append hv

theorem collect_uniform (h : R.Uniform t.accepted) : R.Uniform (R.collect t as).accepted := by
  induction as generalizing t with
  | nil => exact h
  | cons a as ih => exact ih (step_uniform h)

theorem mem_of_mem_collect {x : α} (h : x ∈ (R.collect t as).accepted) :
    x ∈ t.accepted ∨ x ∈ as := by
  induction as generalizing t with
  | nil => exact .inl h
  | cons a as ih =>
      rcases ih h with hx | hx
      · rcases step_accepted (R := R) (t := t) (a := a) with he | ⟨-, he⟩
        · exact .inl (he ▸ hx)
        · rcases List.mem_append.mp (he ▸ hx) with hx | hx
          · exact .inl hx
          · exact .inr (List.mem_singleton.mp hx ▸ List.mem_cons_self)
      · exact .inr (List.mem_cons_of_mem _ hx)

/-- What was accepted stays. -/
theorem accepted_prefix : t.accepted <+: (R.collect t as).accepted := by
  induction as generalizing t with
  | nil => exact List.prefix_rfl
  | cons a as ih =>
      refine List.IsPrefix.trans ?_ ih
      rcases step_accepted (R := R) (t := t) (a := a) with he | ⟨-, he⟩
      · exact he ▸ List.prefix_rfl
      · exact he ▸ List.prefix_append _ _

/-- Items are accepted in the order in which they come. -/
theorem collect_sublist : ∃ fresh, fresh.Sublist as ∧
    (R.collect t as).accepted = t.accepted ++ fresh := by
  induction as generalizing t with
  | nil => exact ⟨[], .slnil, (List.append_nil _).symm⟩
  | cons a as ih =>
      obtain ⟨fresh, hsub, heq⟩ := ih (t := R.step t a)
      rcases step_accepted (R := R) (t := t) (a := a) with he | ⟨-, he⟩
      · exact ⟨fresh, hsub.cons a, by rw [collect_cons, heq, he]⟩
      · exact ⟨a :: fresh, hsub.cons_cons a, by rw [collect_cons, heq, he, List.append_assoc]; rfl⟩

/-! ### Counting -/

/-- An item that is not fresh is only counted. -/
theorem step_eq_count {v : Verdict} (hv : R.verdict t.accepted (R.content a) = v)
    (hne : v ≠ .fresh) : R.step t a = R.count v t := by
  cases v with
  | fresh => exact absurd rfl hne
  | repeated => exact step_repeated hv
  | clash => exact step_clash hv

theorem step_count (v : Verdict) : R.step (R.count v t) a = R.count v (R.step t a) := by
  have hv : R.verdict (R.count v t).accepted (R.content a) =
      R.verdict t.accepted (R.content a) := by
    rw [count_accepted]
  cases hv' : R.verdict t.accepted (R.content a) with
  | fresh =>
      rw [step_fresh hv', step_fresh (hv.trans hv')]
      cases v <;> rfl
  | repeated =>
      rw [step_repeated hv', step_repeated (hv.trans hv')]
      cases v <;> rfl
  | clash =>
      rw [step_clash hv', step_clash (hv.trans hv')]
      cases v <;> rfl

theorem collect_count (v : Verdict) : R.collect (R.count v t) as = R.count v (R.collect t as) := by
  induction as generalizing t with
  | nil => rfl
  | cons a as ih => rw [collect_cons, step_count, ih, collect_cons]

/-- An item that is not fresh may be taken before or after others. -/
theorem step_collect (h : R.Uniform t.accepted)
    (hv : R.verdict t.accepted (R.content a) ≠ .fresh) :
    R.step (R.collect t as) a = R.collect (R.step t a) as := by
  have hv' : R.verdict (R.collect t as).accepted (R.content a) =
      R.verdict t.accepted (R.content a) :=
    (collect_uniform h).verdict_mono accepted_prefix.subset hv
  rw [step_eq_count hv' hv, step_eq_count rfl hv, collect_count]

/-! ### Permutations -/

theorem step_equiv (h : t.Equiv t') : (R.step t a).Equiv (R.step t' a) := by
  have hv : R.verdict t.accepted (R.content a) = R.verdict t'.accepted (R.content a) :=
    verdict_congr fun _ => h.accepted.mem_iff
  cases hv' : R.verdict t.accepted (R.content a) with
  | fresh =>
      rw [step_fresh hv', step_fresh (hv ▸ hv')]
      exact ⟨h.accepted.append_right _, h.repeats, h.clashes⟩
  | repeated =>
      rw [step_repeated hv', step_repeated (hv ▸ hv')]
      exact ⟨h.accepted, congrArg R.bump h.repeats, h.clashes⟩
  | clash =>
      rw [step_clash hv', step_clash (hv ▸ hv')]
      exact ⟨h.accepted, h.repeats, congrArg R.bump h.clashes⟩

/-- Collecting goes on from a permutation of what was accepted as from the original. -/
theorem collect_equiv (h : t.Equiv t') : (R.collect t as).Equiv (R.collect t' as) := by
  induction as generalizing t t' with
  | nil => exact h
  | cons a as ih => exact ih (step_equiv h)

/-! ### Contents -/

/-- The verdict depends on the contents of the accepted items only. -/
theorem verdict_contents {accepted accepted' : List α} {b : β}
    (h : accepted.map R.content = accepted'.map R.content) :
    R.verdict accepted b = R.verdict accepted' b := by
  have hex : (∃ a ∈ accepted, R.content a = b) ↔ ∃ a ∈ accepted', R.content a = b := by
    rw [← List.mem_map, ← List.mem_map, h]
  have hall : (∀ a ∈ accepted, R.slot (R.content a) ≠ R.slot b ∧ R.tag (R.content a) = R.tag b) ↔
      ∀ a ∈ accepted', R.slot (R.content a) ≠ R.slot b ∧ R.tag (R.content a) = R.tag b := by
    have hmap : ∀ as : List α,
        (∀ y ∈ as.map R.content, R.slot y ≠ R.slot b ∧ R.tag y = R.tag b) ↔ _ :=
      fun as => List.forall_mem_map
    rw [← hmap accepted, ← hmap accepted', h]
  simp only [verdict, hex, hall]

/-- Collections of equal contents, in the same order, stay so. -/
theorem step_contents {b : α} (hacc : t.accepted.map R.content = t'.accepted.map R.content)
    (hab : R.content a = R.content b) :
    (R.step t a).accepted.map R.content = (R.step t' b).accepted.map R.content ∧
      (t.repeats = t'.repeats → (R.step t a).repeats = (R.step t' b).repeats) ∧
      (t.clashes = t'.clashes → (R.step t a).clashes = (R.step t' b).clashes) := by
  have hv : R.verdict t.accepted (R.content a) = R.verdict t'.accepted (R.content b) :=
    hab ▸ verdict_contents hacc
  cases hv' : R.verdict t.accepted (R.content a) with
  | fresh =>
      rw [step_fresh hv', step_fresh (hv ▸ hv')]
      exact ⟨by rw [List.map_append, List.map_append, hacc, List.map_singleton,
        List.map_singleton, hab], id, id⟩
  | repeated =>
      rw [step_repeated hv', step_repeated (hv ▸ hv')]
      exact ⟨hacc, fun h => congrArg R.bump h, id⟩
  | clash =>
      rw [step_clash hv', step_clash (hv ▸ hv')]
      exact ⟨hacc, id, fun h => congrArg R.bump h⟩

/-- What is collected is a matter of the contents. -/
theorem collect_contents (h : as.map R.content = bs.map R.content) :
    (R.collect .empty as).accepted.map R.content = (R.collect .empty bs).accepted.map R.content ∧
      (R.collect .empty as).repeats = (R.collect .empty bs).repeats ∧
      (R.collect .empty as).clashes = (R.collect .empty bs).clashes := by
  suffices hgen : ∀ t t' : Tally α, t.accepted.map R.content = t'.accepted.map R.content →
      t.repeats = t'.repeats → t.clashes = t'.clashes →
      (R.collect t as).accepted.map R.content = (R.collect t' bs).accepted.map R.content ∧
        (R.collect t as).repeats = (R.collect t' bs).repeats ∧
        (R.collect t as).clashes = (R.collect t' bs).clashes from hgen _ _ rfl rfl rfl
  induction as generalizing bs with
  | nil =>
      intro t t' hacc hr hc
      rw [List.map_eq_nil_iff.mp h.symm]
      exact ⟨hacc, hr, hc⟩
  | cons a as ih =>
      intro t t' hacc hr hc
      obtain ⟨b, bs, rfl, hab, hrest⟩ := List.map_eq_cons_iff.mp h.symm
      obtain ⟨hacc', hr', hc'⟩ := step_contents (R := R) hacc hab.symm
      exact ih hrest.symm _ _ hacc' (hr' hr) (hc' hc)

/-! ### Counts -/

theorem step_bounded (h : R.Bounded t) : R.Bounded (R.step t a) := by
  cases hv : R.verdict t.accepted (R.content a) with
  | fresh =>
      rw [step_fresh hv]
      exact ⟨h.repeats, h.clashes⟩
  | repeated =>
      rw [step_repeated hv]
      exact ⟨bump_le _, h.clashes⟩
  | clash =>
      rw [step_clash hv]
      exact ⟨h.repeats, bump_le _⟩

/-- A step never lowers the count of clashes. -/
theorem clashes_le_step (h : R.Bounded t) : t.clashes ≤ (R.step t a).clashes := by
  cases hv : R.verdict t.accepted (R.content a) with
  | fresh => exact step_fresh hv ▸ Nat.le_refl _
  | repeated => exact step_repeated hv ▸ Nat.le_refl _
  | clash => exact step_clash hv ▸ le_bump h.clashes

theorem clashes_le_collect (h : R.Bounded t) : t.clashes ≤ (R.collect t as).clashes := by
  induction as generalizing t with
  | nil => exact Nat.le_refl _
  | cons a as ih => exact Nat.le_trans (clashes_le_step h) (ih (step_bounded h))

/-- The counts are those of the verdicts, up to the limit. -/
theorem collect_counts (h : R.Bounded t) :
    (R.collect t as).repeats = min (t.repeats + (R.verdicts t as).count .repeated) R.limit ∧
      (R.collect t as).clashes = min (t.clashes + (R.verdicts t as).count .clash) R.limit := by
  induction as generalizing t with
  | nil => simp [verdicts, h.repeats, h.clashes]
  | cons a as ih =>
      obtain ⟨hr, hc⟩ := ih (step_bounded (a := a) h)
      rw [collect_cons, hr, hc, verdicts, List.count_cons, List.count_cons]
      have := h.repeats
      have := h.clashes
      cases hv : R.verdict t.accepted (R.content a) with
      | fresh => simp [step_fresh hv]
      | repeated =>
          simp only [step_repeated hv, bump, beq_self_eq_true, ↓reduceIte, reduceCtorEq,
            beq_iff_eq, Nat.add_zero, and_true]
          omega
      | clash =>
          simp only [step_clash hv, bump, beq_self_eq_true, ↓reduceIte, reduceCtorEq,
            beq_iff_eq, Nat.add_zero, true_and]
          omega

/-- Each item is accepted, repeated or clashes. -/
theorem length_collect : (R.collect t as).accepted.length + (R.verdicts t as).count .repeated +
    (R.verdicts t as).count .clash = t.accepted.length + as.length := by
  induction as generalizing t with
  | nil => rfl
  | cons a as ih =>
      have hstep := ih (t := R.step t a)
      rw [collect_cons, verdicts, List.count_cons, List.count_cons, List.length_cons]
      cases hv : R.verdict t.accepted (R.content a) with
      | fresh =>
          rw [step_fresh hv] at hstep ⊢
          simp only [List.length_append, List.length_singleton] at hstep
          simp
          omega
      | repeated =>
          rw [step_repeated hv] at hstep ⊢
          simp at hstep ⊢
          omega
      | clash =>
          rw [step_clash hv] at hstep ⊢
          simp at hstep ⊢
          omega

end

theorem collect_empty_counts (as : List α) :
    (R.collect .empty as).repeats = min ((R.verdicts .empty as).count .repeated) R.limit ∧
      (R.collect .empty as).clashes = min ((R.verdicts .empty as).count .clash) R.limit := by
  obtain ⟨hr, hc⟩ := R.collect_counts (t := .empty) bounded_empty
  exact ⟨by rw [hr, Tally.empty, Nat.zero_add], by rw [hc, Tally.empty, Nat.zero_add]⟩

end Rule

end Vesta.FirstWins
