import Mathlib.Data.List.Nodup
import LintTriage.FixTable

namespace LintTriage

open Std

instance : TransOrd Span :=
  inferInstanceAs (TransCmp (compareLex (compareOn Span.start) (compareOn Span.stop)))

theorem isLE_or_isLE {α : Type} {cmp : α → α → Ordering} [OrientedCmp cmp] (a b : α) :
    ((cmp a b).isLE || (cmp b a).isLE) = true := by
  have hs : cmp b a = (cmp a b).swap := OrientedCmp.eq_swap
  rw [hs]
  cases cmp a b <;> rfl

theorem Span.isLE_compare_iff {a b : Span} :
    (compare a b).isLE = true ↔ a.start < b.start ∨ (a.start = b.start ∧ a.stop ≤ b.stop) := by
  change ((compare a.start b.start).then (compare a.stop b.stop)).isLE = true ↔ _
  rw [Ordering.isLE_then_iff_or]
  simp [Nat.compare_eq_lt, Nat.isLE_compare]

theorem Span.start_le_of_isLE_compare {a b : Span} (h : (compare a b).isLE = true) :
    a.start ≤ b.start := by
  rcases isLE_compare_iff.mp h with h | h <;> omega

instance : LawfulEqOrd Span where
  eq_of_compare {a b} h := by
    have hs : compare b a = (compare a b).swap := OrientedCmp.eq_swap
    have hle : (compare a b).isLE = true := by rw [h]; rfl
    have hge : (compare b a).isLE = true := by rw [hs, h]; rfl
    cases a
    cases b
    simp only [Span.isLE_compare_iff] at hle hge
    simp only [Span.mk.injEq]
    omega

namespace FixTable

theorem entryOrder_eq : entryOrder =
    compareLex (compareOn fun entry => entry.2.edit.span) (compareOn Prod.fst) := by
  funext a b
  simp only [entryOrder, compareLex, Span.positionOrder_eq_compare]
  rfl

instance : TransCmp entryOrder :=
  entryOrder_eq ▸ inferInstanceAs (TransCmp
    (compareLex (compareOn fun entry : String × Fix => entry.2.edit.span) (compareOn Prod.fst)))

theorem perm_byPosition (table : FixTable) : table.byPosition.Perm table.fixes :=
  (List.mergeSort_perm _ _).map _

theorem pairwise_entryOrder (entries : List (String × Fix)) :
    (entries.mergeSort fun a b => (entryOrder a b).isLE).Pairwise
      fun a b => (entryOrder a b).isLE = true :=
  List.pairwise_mergeSort (fun _ _ _ => TransCmp.isLE_trans) isLE_or_isLE entries

def entriesByPosition (table : FixTable) : List (String × Fix) :=
  table.entries.toList.mergeSort fun a b => (entryOrder a b).isLE

theorem map_snd_entriesByPosition (table : FixTable) :
    table.entriesByPosition.map Prod.snd = table.byPosition := rfl

theorem perm_entriesByPosition (table : FixTable) :
    table.entriesByPosition.Perm table.entries.toList :=
  List.mergeSort_perm _ _

theorem nodup_keys_entriesByPosition (table : FixTable) :
    (table.entriesByPosition.map Prod.fst).Nodup := by
  rw [((perm_entriesByPosition table).map Prod.fst).nodup_iff, ExtTreeMap.map_fst_toList_eq_keys]
  exact ExtTreeMap.nodup_keys

theorem fst_eq_of_entryOrder {a b : String × Fix} (hab : (entryOrder a b).isLE = true)
    (hba : (entryOrder b a).isLE = true) : a.1 = b.1 := by
  have he : entryOrder a b = .eq := OrientedCmp.isLE_antisymm hab hba
  rw [entryOrder_eq] at he
  exact LawfulEqCmp.eq_of_compare (Ordering.then_eq_eq.mp he).2

theorem eq_entriesByPosition {table : FixTable} {entries : List (String × Fix)}
    (hp : entries.Perm table.entries.toList)
    (ho : entries.Pairwise fun a b => (entryOrder a b).isLE = true) :
    entries = table.entriesByPosition := by
  have hperm : entries.Perm table.entriesByPosition := hp.trans (perm_entriesByPosition table).symm
  apply List.Perm.eq_of_pairwise _ ho (pairwise_entryOrder _) hperm
  intro a b ha hb hab hba
  have hk : a.1 = b.1 := fst_eq_of_entryOrder hab hba
  exact List.inj_on_of_nodup_map (nodup_keys_entriesByPosition table) (hperm.subset ha) hb hk

theorem pairwise_byPosition (table : FixTable) :
    table.byPosition.Pairwise fun a b => (compare a.edit.span b.edit.span).isLE = true := by
  rw [byPosition, List.pairwise_map]
  apply (pairwise_entryOrder _).imp
  intro a b h
  rw [entryOrder_eq] at h
  exact (Ordering.isLE_then_iff_and.mp h).1

theorem pairwise_start_byPosition (table : FixTable) :
    table.byPosition.Pairwise fun a b => a.edit.span.start ≤ b.edit.span.start := by
  apply (pairwise_byPosition table).imp
  intro a b h
  exact Span.start_le_of_isLE_compare h

end FixTable

end LintTriage
