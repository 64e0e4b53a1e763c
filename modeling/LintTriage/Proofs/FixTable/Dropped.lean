import Mathlib.Data.List.Perm.Subperm
import LintTriage.Proofs.FixTable.Plan
import LintTriage.Proofs.SiteKey

namespace LintTriage

def Fix.apart (a b : Fix) : Prop :=
  a.endsBefore b ∨ b.endsBefore a

theorem Fix.not_apart_of_overlaps {a b : Fix}
    (hab : (compare a.edit.span b.edit.span).isLE = true) (h : a.overlaps b = true) :
    ¬a.apart b := by
  rw [overlaps, Span.overlaps_iff] at h
  simp only [apart, endsBefore]
  rcases Span.isLE_compare_iff.mp hab with hlt | ⟨heq, hle⟩ <;> omega

namespace Dropped

/-- Before the dropped fix stand the kept ones up to the one that it conflicts with and `i` dropped
ones, behind it the other kept ones. -/
def StandsAt (dropped : Dropped) (i : Nat) (fixes kept : List Fix) : Prop :=
  ∃ before after earlier later,
    fixes = before ++ dropped.fix :: after ∧
    kept = earlier ++ dropped.conflictsWith :: later ∧
    (earlier ++ [dropped.conflictsWith]).Sublist before ∧ later.Sublist after ∧
    before.length = earlier.length + 1 + i

variable {d : Dropped} {i : Nat} {fixes kept : List Fix} {last fix : Fix}

theorem standsAt_zero (h : kept.Sublist fixes) :
    StandsAt ⟨fix, last⟩ 0 (last :: fix :: fixes) (last :: kept) :=
  ⟨[last], fixes, [], kept, rfl, rfl, List.Sublist.refl _, h, rfl⟩

theorem StandsAt.after_dropped (h : d.StandsAt i (last :: fixes) (last :: kept)) :
    d.StandsAt (i + 1) (last :: fix :: fixes) (last :: kept) := by
  obtain ⟨before, after, earlier, later, hf, hk, hb, ha, hl⟩ := h
  cases before with
  | nil => simp at hb
  | cons first before =>
    obtain ⟨rfl, rfl⟩ := List.cons.inj hf
    refine ⟨last :: fix :: before, after, earlier, later, rfl, hk, ?_, ha, ?_⟩
    · exact hb.trans ((List.sublist_cons_self fix before).cons_cons last)
    · simp only [List.length_cons] at *
      omega

theorem StandsAt.after_kept (h : d.StandsAt i fixes kept) :
    d.StandsAt i (last :: fixes) (last :: kept) := by
  obtain ⟨before, after, earlier, later, hf, hk, hb, ha, hl⟩ := h
  refine ⟨last :: before, after, last :: earlier, later, by rw [hf]; rfl, by rw [hk]; rfl,
    hb.cons_cons last, ha, ?_⟩
  simp only [List.length_cons]
  omega

theorem StandsAt.mem_kept (h : d.StandsAt i fixes kept) : d.conflictsWith ∈ kept := by
  obtain ⟨before, after, earlier, later, -, rfl, -⟩ := h
  simp

theorem StandsAt.rel {R : Fix → Fix → Prop} (h : d.StandsAt i fixes kept)
    (hp : fixes.Pairwise R) : R d.conflictsWith d.fix := by
  obtain ⟨before, after, earlier, later, rfl, -, hb, -⟩ := h
  apply (List.pairwise_append.mp hp).2.2 _ (hb.subset _) _ List.mem_cons_self
  simp

theorem toList_reason (d : Dropped) :
    d.reason.toList =
      (("overlaps kept fix '" ++ d.conflictsWith.label ++ "' spanning ").toList ++
        '[' :: (toString d.conflictsWith.edit.span.start).toList) ++
        ',' :: (toString d.conflictsWith.edit.span.stop).toList ++ [')'] := by
  have hs : "' spanning [" = "' spanning " ++ "[" := rfl
  unfold reason
  rw [hs]
  simp only [String.toList_append, List.append_assoc]
  rfl

theorem reason_eq_iff {d e : Dropped} :
    d.reason = e.reason ↔ d.conflictsWith.label = e.conflictsWith.label ∧
      d.conflictsWith.edit.span = e.conflictsWith.edit.span := by
  constructor
  · intro h
    have hl := congrArg String.toList h
    rw [toList_reason, toList_reason, List.append_left_inj] at hl
    obtain ⟨hl, hstop⟩ := Numeral.eq_of_append_cons_toString (by decide) hl
    obtain ⟨hl, hstart⟩ := Numeral.eq_of_append_cons_toString (by decide) hl
    rw [String.toList_inj, String.append_left_inj, String.append_right_inj] at hl
    refine ⟨hl, ?_⟩
    cases hd : d.conflictsWith.edit.span
    cases he : e.conflictsWith.edit.span
    simp_all
  · rintro ⟨hl, hs⟩
    unfold reason
    rw [hl, hs]

end Dropped

namespace Plan

theorem standsAt_of_dropped_sweep {last : Fix} {fixes : List Fix} {i : Nat} {d : Dropped}
    (h : (sweep last fixes).dropped[i]? = some d) :
    d.StandsAt i (last :: fixes) (last :: (sweep last fixes).kept) ∧
      d.conflictsWith.overlaps d.fix = true := by
  induction fixes generalizing last i with
  | nil => simp [sweep] at h
  | cons fix rest ih =>
    cases ho : last.overlaps fix with
    | true =>
      rw [sweep_of_overlaps ho] at h ⊢
      cases i with
      | zero =>
        obtain rfl := Option.some.inj h
        exact ⟨Dropped.standsAt_zero (sublist_kept_sweep last rest), ho⟩
      | succ i =>
        obtain ⟨hs, hd⟩ := ih h
        exact ⟨hs.after_dropped, hd⟩
    | false =>
      rw [sweep_of_not_overlaps ho] at h ⊢
      obtain ⟨hs, hd⟩ := ih h
      exact ⟨hs.after_kept, hd⟩

theorem standsAt_of_dropped_ofOrdered {fixes : List Fix} {i : Nat} {d : Dropped}
    (h : (ofOrdered fixes).dropped[i]? = some d) :
    d.StandsAt i fixes (ofOrdered fixes).kept ∧ d.conflictsWith.overlaps d.fix = true := by
  cases fixes with
  | nil => simp [ofOrdered] at h
  | cons first rest => exact standsAt_of_dropped_sweep h

theorem mem_kept_of_dropped {fixes : List Fix} {d : Dropped}
    (h : d ∈ (ofOrdered fixes).dropped) : d.conflictsWith ∈ (ofOrdered fixes).kept := by
  obtain ⟨i, hi⟩ := List.mem_iff_getElem?.mp h
  exact (standsAt_of_dropped_ofOrdered hi).1.mem_kept

theorem rel_of_dropped {R : Fix → Fix → Prop} {fixes : List Fix} {d : Dropped}
    (hp : fixes.Pairwise R) (h : d ∈ (ofOrdered fixes).dropped) :
    R d.conflictsWith d.fix ∧ d.conflictsWith.overlaps d.fix = true := by
  obtain ⟨i, hi⟩ := List.mem_iff_getElem?.mp h
  obtain ⟨hs, ho⟩ := standsAt_of_dropped_ofOrdered hi
  exact ⟨hs.rel hp, ho⟩

theorem kept_eq_of_dropped_eq_nil {order : List Fix}
    (h : (ofOrdered order).dropped = []) : (ofOrdered order).kept = order := by
  apply (sublist_kept_ofOrdered order).eq_of_length
  simpa [h] using (perm_ofOrdered order).length_eq.symm

section Ordered

variable {order fixes : List Fix}
  (ho : order.Pairwise fun a b => (compare a.edit.span b.edit.span).isLE = true)

include ho

theorem dropped_eq_nil_iff :
    (ofOrdered order).dropped = [] ↔ order.Pairwise fun a b => a.overlaps b = false := by
  constructor
  · intro h
    have hs := ho.imp Span.start_le_of_isLE_compare
    rw [← kept_eq_of_dropped_eq_nil h]
    exact (pairwise_kept_ofOrdered hs).imp fun h => (Fix.endsBefore_iff.mp h).2
  · intro hp
    rw [List.eq_nil_iff_forall_not_mem]
    intro d hd
    obtain ⟨hn, ho⟩ := rel_of_dropped hp hd
    simp [hn] at ho

theorem pairwise_apart (hf : fixes.Sublist order)
    (hp : fixes.Pairwise fun a b => a.overlaps b = false) : fixes.Pairwise Fix.apart := by
  have hs := (ho.sublist hf).imp Span.start_le_of_isLE_compare
  apply (hs.and hp).imp
  intro a b h
  exact .inl (Fix.endsBefore_iff.mpr h)

theorem eq_kept_of_sublist (hk : (ofOrdered order).kept.Sublist fixes) (hf : fixes.Sublist order)
    (hp : fixes.Pairwise fun a b => a.overlaps b = false) :
    fixes = (ofOrdered order).kept := by
  obtain ⟨extra, he⟩ := hk.exists_perm_append
  have hsub : extra.Subperm ((ofOrdered order).dropped.map Dropped.fix) := by
    rw [← List.subperm_append_left (ofOrdered order).kept]
    exact he.symm.subperm.trans (hf.subperm.trans (perm_ofOrdered order).subperm)
  have hapart : ((ofOrdered order).kept ++ extra).Pairwise Fix.apart :=
    he.pairwise (pairwise_apart ho hf hp) Or.symm
  have hnil : extra = [] := by
    -- a fix beside the kept ones is a dropped one, and overlaps the kept one it conflicts with
    rw [List.eq_nil_iff_forall_not_mem]
    intro fix hfix
    obtain ⟨d, hd, rfl⟩ := List.mem_map.mp (hsub.subset hfix)
    obtain ⟨hle, hover⟩ := rel_of_dropped ho hd
    exact Fix.not_apart_of_overlaps hle hover
      ((List.pairwise_append.mp hapart).2.2 _ (mem_kept_of_dropped hd) _ hfix)
  exact (hk.eq_of_length (by simp [he.length_eq, hnil])).symm

end Ordered

end Plan

namespace FixTable

theorem dropped_justified (table : FixTable) :
    (∀ i (d : Dropped), table.plan.dropped[i]? = some d →
      d.StandsAt i table.byPosition table.plan.kept ∧
      d.conflictsWith.edit.span.start ≤ d.fix.edit.span.start ∧
      d.fix.edit.span.start < d.conflictsWith.edit.span.stop ∧
      (d.fix.edit.span.stop = 0 →
        d.conflictsWith.edit.span.start < d.fix.edit.span.start) ∧
      ∀ other : Fix, d.reason = "overlaps kept fix '" ++ other.label ++ "' spanning [" ++
          toString other.edit.span.start ++ "," ++ toString other.edit.span.stop ++ ")" ↔
        other.label = d.conflictsWith.label ∧ other.edit.span = d.conflictsWith.edit.span) ∧
    (∀ fixes, table.plan.kept.Sublist fixes → fixes.Sublist table.byPosition →
      (fixes.Pairwise fun a b => a.overlaps b = false) → fixes = table.plan.kept) ∧
    (table.plan.dropped = [] ↔
      table.byPosition.Pairwise fun a b => ¬a.edit.span.stop > b.edit.span.start) := by
  have ho := pairwise_byPosition table
  refine ⟨?_, ?_, ?_⟩
  · intro i d hd
    obtain ⟨hs, hover⟩ := Plan.standsAt_of_dropped_ofOrdered hd
    have hle := Span.isLE_compare_iff.mp (hs.rel ho)
    rw [Fix.overlaps, Span.overlaps_iff] at hover
    refine ⟨hs, by omega, hover, by omega, ?_⟩
    intro other
    have hr := Dropped.reason_eq_iff (d := ⟨d.fix, other⟩) (e := d)
    exact eq_comm.trans hr
  · intro fixes hk hf hp
    exact Plan.eq_kept_of_sublist ho hk hf hp
  · rw [plan, Plan.dropped_eq_nil_iff ho]
    simp only [← Bool.not_eq_true, Fix.overlaps, Span.overlaps_iff]

end FixTable

end LintTriage
