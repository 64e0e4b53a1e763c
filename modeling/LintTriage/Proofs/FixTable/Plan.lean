import LintTriage.Proofs.FixTable.Position

namespace LintTriage

def Fix.startsWithin (fix other : Fix) : Prop :=
  other.edit.span.start < fix.edit.span.start ∧ fix.edit.span.start < other.edit.span.stop

def Fix.endsBefore (fix other : Fix) : Prop :=
  max fix.edit.span.start fix.edit.span.stop ≤ other.edit.span.start

theorem Fix.endsBefore_iff {a b : Fix} :
    a.endsBefore b ↔ a.edit.span.start ≤ b.edit.span.start ∧ a.overlaps b = false := by
  rw [endsBefore, Nat.max_le, overlaps, ← Bool.not_eq_true, Span.overlaps_iff, Nat.not_lt]

theorem Fix.not_startsWithin_of_endsBefore {a b : Fix} (h : a.endsBefore b) :
    ¬b.startsWithin a ∧ ¬a.startsWithin b := by
  simp only [endsBefore, startsWithin] at *
  omega

namespace Plan

theorem sweep_of_overlaps {last fix : Fix} (h : last.overlaps fix = true) (rest : List Fix) :
    sweep last (fix :: rest) = (sweep last rest).dropping ⟨fix, last⟩ := by
  simp [sweep, h]

theorem sweep_of_not_overlaps {last fix : Fix} (h : last.overlaps fix = false)
    (rest : List Fix) : sweep last (fix :: rest) = (sweep fix rest).keeping fix := by
  simp [sweep, h]

theorem sublist_kept_sweep (last : Fix) (fixes : List Fix) :
    (sweep last fixes).kept.Sublist fixes := by
  induction fixes generalizing last with
  | nil => exact List.Sublist.refl _
  | cons fix rest ih =>
    cases h : last.overlaps fix with
    | true =>
      rw [sweep_of_overlaps h]
      exact (ih last).cons fix
    | false =>
      rw [sweep_of_not_overlaps h]
      exact (ih fix).cons_cons fix

theorem sublist_dropped_sweep (last : Fix) (fixes : List Fix) :
    ((sweep last fixes).dropped.map Dropped.fix).Sublist fixes := by
  induction fixes generalizing last with
  | nil => exact List.Sublist.refl _
  | cons fix rest ih =>
    cases h : last.overlaps fix with
    | true =>
      rw [sweep_of_overlaps h]
      exact (ih last).cons_cons fix
    | false =>
      rw [sweep_of_not_overlaps h]
      exact (ih fix).cons fix

theorem perm_sweep (last : Fix) (fixes : List Fix) :
    fixes.Perm ((sweep last fixes).kept ++ (sweep last fixes).dropped.map Dropped.fix) := by
  induction fixes generalizing last with
  | nil => exact List.Perm.refl _
  | cons fix rest ih =>
    cases h : last.overlaps fix with
    | true =>
      rw [sweep_of_overlaps h]
      exact ((ih last).cons fix).trans List.perm_middle.symm
    | false =>
      rw [sweep_of_not_overlaps h]
      exact (ih fix).cons fix

theorem pairwise_kept_sweep {last : Fix} {fixes : List Fix}
    (h : (last :: fixes).Pairwise fun a b => a.edit.span.start ≤ b.edit.span.start) :
    (last :: (sweep last fixes).kept).Pairwise Fix.endsBefore := by
  induction fixes generalizing last with
  | nil => exact List.pairwise_singleton _ _
  | cons fix rest ih =>
    obtain ⟨hl, hrest⟩ := List.pairwise_cons.mp h
    cases ho : last.overlaps fix with
    | true =>
      rw [sweep_of_overlaps ho]
      exact ih (h.sublist ((List.sublist_cons_self fix rest).cons_cons last))
    | false =>
      rw [sweep_of_not_overlaps ho]
      have hf : last.endsBefore fix := Fix.endsBefore_iff.mpr ⟨hl fix List.mem_cons_self, ho⟩
      have hk := ih hrest
      apply List.pairwise_cons.mpr ⟨?_, hk⟩
      intro other hm
      -- all that is kept later starts no earlier than `fix`, where `last` is over already
      have hs : fix.edit.span.start ≤ other.edit.span.start := by
        rcases List.mem_cons.mp hm with rfl | hm
        · exact Nat.le_refl _
        · exact (List.pairwise_cons.mp hrest).1 other ((sublist_kept_sweep fix rest).subset hm)
      exact Nat.le_trans hf hs

theorem sublist_kept_ofOrdered (fixes : List Fix) : (ofOrdered fixes).kept.Sublist fixes := by
  cases fixes with
  | nil => exact List.Sublist.refl _
  | cons first rest => exact (sublist_kept_sweep first rest).cons_cons first

theorem sublist_dropped_ofOrdered (fixes : List Fix) :
    ((ofOrdered fixes).dropped.map Dropped.fix).Sublist fixes := by
  cases fixes with
  | nil => exact List.Sublist.refl _
  | cons first rest => exact (sublist_dropped_sweep first rest).cons first

theorem perm_ofOrdered (fixes : List Fix) :
    fixes.Perm ((ofOrdered fixes).kept ++ (ofOrdered fixes).dropped.map Dropped.fix) := by
  cases fixes with
  | nil => exact List.Perm.refl _
  | cons first rest => exact (perm_sweep first rest).cons first

theorem pairwise_kept_ofOrdered {fixes : List Fix}
    (h : fixes.Pairwise fun a b => a.edit.span.start ≤ b.edit.span.start) :
    (ofOrdered fixes).kept.Pairwise Fix.endsBefore := by
  cases fixes with
  | nil => exact List.Pairwise.nil
  | cons first rest => exact pairwise_kept_sweep h

end Plan

namespace FixTable

theorem pairwise_endsBefore_kept (table : FixTable) :
    table.plan.kept.Pairwise Fix.endsBefore :=
  Plan.pairwise_kept_ofOrdered (pairwise_start_byPosition table)

theorem kept_apart (table : FixTable) :
    (table.plan.kept.Pairwise fun a b =>
      max a.edit.span.start a.edit.span.stop ≤ b.edit.span.start ∧ a.overlaps b = false ∧
        ¬b.startsWithin a ∧ ¬a.startsWithin b) ∧
    ∀ version, table.planFor version = [] ∨ table.planFor version = table.plan.kept := by
  constructor
  · apply (pairwise_endsBefore_kept table).imp
    intro a b h
    exact ⟨h, (Fix.endsBefore_iff.mp h).2, Fix.not_startsWithin_of_endsBefore h⟩
  · intro version
    rw [planFor]
    split
    · exact .inr rfl
    · exact .inl rfl

end FixTable

end LintTriage
