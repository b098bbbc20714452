import Vesta.Ledger.Late

/-!
# Ledger — Outcome

What becomes of the fragments of a key that has no stray.  Whatever was accepted, at any time and in
any place, is among what collecting the archive accepts.  So a fragment that clashes with some of it
is never accepted, and once it no longer waits it is filed as a conflict, which the stored scan has
counted (`Exact.clash_filed`).  Once nothing is pending, the stored scan is what collecting the
archive gives (`Exact.base_of_settled`).
-/

namespace Vesta.Ledger

open FirstWins (Rule Tally Verdict)
open Receiver (Arrival ScanTally ProfileKey scanRule)
open Store (FragmentStorageStatus ScanRow TelemetryStore)

variable {I : ProfileKey → Account → Prop}

namespace Account.Exact

variable {key : ProfileKey} {c : Account} (he : c.Exact)
include he

/-- What is linked by a stored scan is in the one stored scan. -/
theorem mem_base {a : Arrival} (ha : a ∈ held c.whole ∨ a ∈ held c.part) : a ∈ c.base.accepted := by
  cases hw : c.whole with
  | some t =>
      rw [hw, he.single.resolve_left (by rw [hw]; exact nofun)] at ha
      rw [base_of_whole hw]
      exact ha.resolve_right List.not_mem_nil
  | none =>
      rw [hw] at ha
      have ha := ha.resolve_left List.not_mem_nil
      cases hp : c.part with
      | none =>
          rw [hp] at ha
          cases ha
      | some t =>
          rw [base_of_part hw hp]
          rwa [hp] at ha

theorem base_subset : c.base.accepted ⊆ (scanRule.collect .empty c.archive).accepted :=
  fun _ ha => he.collected.accepted.mem_iff.mp (Rule.accepted_prefix.subset ha)

theorem base_archived {a : Arrival} (ha : a ∈ c.base.accepted) : a ∈ c.archive :=
  (Rule.mem_of_mem_collect (he.base_subset ha)).resolve_left List.not_mem_nil

/-- What the scan in memory accepted is accepted in the end. -/
theorem held_live_subset : held c.live ⊆ (scanRule.collect .empty c.archive).accepted := by
  intro a ha
  cases hl : c.live with
  | none =>
      rw [hl] at ha
      cases ha
  | some t =>
      rw [hl] at ha
      obtain ⟨done, hsplit, -, hlive⟩ := he.split
      have hdone := (hlive t hl).accepted.mem_iff.mp ha
      refine he.collected.accepted.mem_iff.mp ?_
      rw [hsplit, Rule.collect_append]
      exact Rule.accepted_prefix.subset hdone

/-- **A clash is counted.**  A fragment that clashes with what was accepted at any time, and that no
longer waits, is filed as a conflict. -/
theorem clash_filed (h : c.Sound key) {accepted : List Arrival}
    (hsub : accepted ⊆ (scanRule.collect .empty c.archive).accepted) {a : Arrival}
    (ha : a ∈ c.archive) (hw : a ∉ c.waiting)
    (hv : scanRule.verdict accepted a.fragment = .clash) : (a, .conflict) ∈ c.entries := by
  have huniform : scanRule.Uniform (scanRule.collect .empty c.archive).accepted :=
    Rule.collect_uniform .nil
  have hclash :
      scanRule.verdict (scanRule.collect .empty c.archive).accepted a.fragment = .clash := by
    rw [huniform.verdict_mono hsub (by rw [hv]; exact nofun), hv]
  have hnot : a ∉ (scanRule.collect .empty c.archive).accepted := fun hmem => by
    have hrepeated := Rule.verdict_eq_repeated (R := scanRule).mpr ⟨a, hmem, rfl⟩
    cases hclash.symm.trans hrepeated
  obtain ⟨⟨b, status⟩, hentry, rfl⟩ := List.mem_map.mp (he.kept ▸ ha : a ∈ c.entries.map (·.1))
  dsimp only at ha hw hv hclash hnot
  cases status with
  | pending =>
      obtain ⟨done, hsplit, hdone, -⟩ := he.split
      have hmem := mem_pending.mpr hentry
      rw [hsplit] at hmem
      have hb := hdone b ((List.mem_append.mp hmem).resolve_right hw)
      exact absurd (he.held_live_subset hb) hnot
  | assembled => exact absurd (he.base_subset (he.mem_base (.inl ((h.assembled b).mp hentry)))) hnot
  | incomplete =>
      exact absurd (he.base_subset (he.mem_base (.inr ((h.incomplete b).mp hentry)))) hnot
  | duplicate =>
      have hrepeated := he.duplicates b hentry
      have hmono := huniform.verdict_mono he.base_subset (b := b.fragment)
        (by rw [hrepeated]; exact nofun)
      rw [hrepeated, hclash] at hmono
      cases hmono
  | conflict => exact hentry

/-- Once nothing is pending, the stored scan is the collection of the archive. -/
theorem base_of_settled (hp : c.pending = []) :
    c.base.Equiv (scanRule.collect .empty c.archive) := by
  have hcol := he.collected
  rwa [hp] at hcol

end Account.Exact

namespace Books

variable {s : TelemetryStore} {key : ProfileKey} {c : Account} (h : Books I s key c)
include h

/-- The one stored scan of a key without strays, and its row. -/
theorem rows_of_exact (he : c.Exact) : (s.rows key = [] ∧ c.base = .empty) ∨
    ∃ row, s.rows key = [row] ∧ Shows row c.base ∧ c.base ∈ c.whole.toList ++ c.part.toList := by
  have hrows := h.rows
  have hone : ∀ {t : ScanTally}, List.Forall₂ Shows (s.rows key) [t] →
      ∃ row, s.rows key = [row] ∧ Shows row t := by
    intro t ht
    obtain ⟨row, rest, hs, hrest, heq⟩ := List.forall₂_cons_right_iff.mp ht
    rw [List.forall₂_nil_right_iff.mp hrest] at heq
    exact ⟨row, heq, hs⟩
  cases hw : c.whole with
  | some t =>
      rw [hw, he.single.resolve_left (by rw [hw]; exact nofun)] at hrows
      obtain ⟨row, heq, hs⟩ := hone hrows
      rw [Account.base_of_whole hw]
      exact .inr ⟨row, heq, hs, List.mem_cons_self⟩
  | none =>
      rw [hw] at hrows
      cases hp : c.part with
      | some t =>
          rw [hp] at hrows
          obtain ⟨row, heq, hs⟩ := hone hrows
          rw [Account.base_of_part hw hp]
          exact .inr ⟨row, heq, hs, List.mem_singleton_self t⟩
      | none =>
          rw [hp] at hrows
          exact .inl ⟨List.forall₂_nil_right_iff.mp hrows, Account.base_of_none hw hp⟩

end Books

end Vesta.Ledger
