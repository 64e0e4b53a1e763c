import LintTriage.Proofs.FixTable.Position
import LintTriage.Proofs.Text.ByteOrder

namespace LintTriage

open Std

/-- A stable sort keeps, among elements that its order does not tell apart, whatever holds between
each element of the list and all behind it. -/
theorem pairwise_mergeSort_stable {α : Type} {cmp : α → α → Ordering} [TransCmp cmp]
    {r : α → α → Prop} {l : List α} (h : l.Pairwise r) :
    (l.mergeSort fun a b => (cmp a b).isLE).Pairwise
      fun a b => cmp a b = .lt ∨ (cmp a b = .eq ∧ r a b) := by
  induction l with
  | nil => simp
  | cons a l ih =>
    obtain ⟨ha, hl⟩ := List.pairwise_cons.mp h
    have htrans : ∀ a b c, (cmp a b).isLE = true → (cmp b c).isLE = true →
        (cmp a c).isLE = true := fun _ _ _ => TransCmp.isLE_trans
    have hsorted := List.pairwise_mergeSort htrans isLE_or_isLE (a :: l)
    obtain ⟨front, back, he, hs, hfront⟩ := List.mergeSort_cons htrans isLE_or_isLE a l
    have hp := ih hl
    rw [hs, List.pairwise_append] at hp
    rw [he] at hsorted ⊢
    obtain ⟨-, hab, -⟩ := List.pairwise_append.mp hsorted
    obtain ⟨hab, -⟩ := List.pairwise_cons.mp hab
    refine List.pairwise_append.mpr ⟨hp.1, List.pairwise_cons.mpr ⟨?_, hp.2.1⟩, ?_⟩
    · intro b hb
      have hm : b ∈ l.mergeSort fun a b => (cmp a b).isLE := hs ▸ List.mem_append_right front hb
      have hr : r a b := ha b (List.mem_mergeSort.mp hm)
      have hle := hab b hb
      cases hc : cmp a b with
      | lt => exact .inl rfl
      | eq => exact .inr ⟨rfl, hr⟩
      | gt => simp [hc] at hle
    · intro b hb c hc
      rcases List.mem_cons.mp hc with rfl | hc
      · -- what stands in front of the head after the sort is less than it
        have hlt := hfront b hb
        have hs : cmp b c = (cmp c b).swap := OrientedCmp.eq_swap
        rw [hs]
        cases hcb : cmp c b <;> simp [hcb] at hlt ⊢
      · exact hp.2.2 b hb c hc

namespace FixTable

def Ahead (a b : String × Fix) : Prop :=
  compare a.2.edit.span b.2.edit.span = .lt ∨
    (a.2.edit.span = b.2.edit.span ∧ Text.bytes a.1 < Text.bytes b.1)

theorem ahead_iff {a b : String × Fix} : Ahead a b ↔ entryOrder a b = .lt := by
  have he : compare a.2.edit.span b.2.edit.span = .eq ↔ a.2.edit.span = b.2.edit.span :=
    LawfulEqCmp.compare_eq_iff_eq
  rw [entryOrder_eq, Ahead, ← Text.compare_eq_lt_iff, ← he]
  exact Ordering.then_eq_lt.symm

def spanOrder (a b : String × Fix) : Ordering :=
  compare a.2.edit.span b.2.edit.span

instance : TransCmp spanOrder :=
  inferInstanceAs (TransCmp (compareOn fun entry : String × Fix => entry.2.edit.span))

theorem pairwise_ahead_mergeSort (table : FixTable) :
    (table.entries.toList.mergeSort fun a b => (spanOrder a b).isLE).Pairwise Ahead := by
  apply (pairwise_mergeSort_stable ExtTreeMap.ordered_keys_toList).imp
  intro a b h
  rw [ahead_iff, entryOrder_eq]
  exact Ordering.then_eq_lt.mpr h

theorem eq_entriesByPosition_of_ahead {table : FixTable} {entries : List (String × Fix)}
    (hp : entries.Perm table.entries.toList) (ha : entries.Pairwise Ahead) :
    entries = table.entriesByPosition := by
  apply eq_entriesByPosition hp
  apply ha.imp
  intro a b h
  rw [ahead_iff.mp h]
  rfl

theorem entriesByPosition_eq_mergeSort (table : FixTable) :
    table.entriesByPosition = table.entries.toList.mergeSort fun a b => (spanOrder a b).isLE :=
  (eq_entriesByPosition_of_ahead (List.mergeSort_perm _ _) (pairwise_ahead_mergeSort table)).symm

theorem pairwise_ahead_entriesByPosition (table : FixTable) :
    table.entriesByPosition.Pairwise Ahead := by
  rw [entriesByPosition_eq_mergeSort]
  exact pairwise_ahead_mergeSort table

theorem byPosition_eq_mergeSort (table : FixTable) : table.byPosition =
    table.fixes.mergeSort fun a b => (a.edit.span.positionOrder b.edit.span).isLE := by
  rw [← map_snd_entriesByPosition, entriesByPosition_eq_mergeSort]
  apply List.map_mergeSort
  intro a _ b _
  rw [Span.positionOrder_eq_compare]
  rfl

theorem isLE_compare_iff_insertions_first {a b : Span} : (compare a b).isLE = true ↔
    a.start < b.start ∨
      (a.start = b.start ∧ (a.stop = 0 ∨ (b.stop ≠ 0 ∧ a.stop ≤ b.stop))) := by
  rw [Span.isLE_compare_iff]
  omega

theorem byPosition_arranged (table : FixTable) :
    (∀ fixes, fixes = table.byPosition ↔ ∃ entries : List (String × Fix),
      entries.Perm table.entries.toList ∧ entries.Pairwise Ahead ∧
        entries.map Prod.snd = fixes) ∧
    table.byPosition.Perm table.fixes ∧
    (table.byPosition.Pairwise fun a b => (compare a.edit.span b.edit.span).isLE = true) ∧
    (∀ a b : Span, a.positionOrder b = compare a b ∧ ((compare a b).isLE = true ↔
      a.start < b.start ∨
        (a.start = b.start ∧ (a.stop = 0 ∨ (b.stop ≠ 0 ∧ a.stop ≤ b.stop))))) ∧
    table.byPosition =
      table.fixes.mergeSort fun a b => (a.edit.span.positionOrder b.edit.span).isLE := by
  refine ⟨?_, perm_byPosition table, pairwise_byPosition table, ?_, byPosition_eq_mergeSort table⟩
  · intro fixes
    constructor
    · rintro rfl
      exact ⟨table.entriesByPosition, perm_entriesByPosition table,
        pairwise_ahead_entriesByPosition table, map_snd_entriesByPosition table⟩
    · rintro ⟨entries, hp, ha, rfl⟩
      rw [eq_entriesByPosition_of_ahead hp ha, map_snd_entriesByPosition]
  · intro a b
    exact ⟨a.positionOrder_eq_compare b, isLE_compare_iff_insertions_first⟩

end FixTable

end LintTriage
