import LintTriage.Proofs.FixTable.Plan

namespace LintTriage.FixTable

theorem version?_eq_none_iff {table : FixTable} : table.version? = none ↔ table.fixes = [] := by
  simp [version?]

theorem singleVersion_iff {table : FixTable} {version : Int} :
    (table.hasSingleVersion = true ∧ table.version? = some version) ↔
      table.fixes ≠ [] ∧ ∀ fix ∈ table.fixes, fix.version = version := by
  rw [hasSingleVersion, version?]
  cases table.fixes with
  | nil => simp
  | cons first rest =>
    simp only [List.head?_cons, Option.map_some, Option.all_some, List.all_eq_true,
      decide_eq_true_iff, Option.some.injEq, ne_eq, reduceCtorEq, not_false_eq_true, true_and]
    constructor
    · rintro ⟨hall, rfl⟩
      exact hall
    · intro hall
      obtain rfl := hall first List.mem_cons_self
      exact ⟨hall, rfl⟩

theorem kept_plan_eq_nil {table : FixTable} (h : table.fixes = []) : table.plan.kept = [] := by
  have hp : table.byPosition.Perm [] := h ▸ perm_byPosition table
  rw [plan, hp.eq_nil]
  rfl

theorem planFor_eq (table : FixTable) (version : Int) :
    table.planFor version =
      if ∀ fix ∈ table.fixes, fix.version = version then table.plan.kept else [] := by
  simp only [planFor, singleVersion_iff]
  by_cases he : table.fixes = []
  · simp [he, kept_plan_eq_nil he]
  · simp [he]

section

variable {table : FixTable} {version : Int} (h : ∀ fix ∈ table.fixes, fix.version = version)

include h

theorem hasSingleVersion_of_forall : table.hasSingleVersion = true := by
  by_cases he : table.fixes = []
  · rw [hasSingleVersion, version?_eq_none_iff.mpr he, Option.all_none]
  · exact (singleVersion_iff.mpr ⟨he, h⟩).1

theorem version?_of_forall : table.version? = if table.fixes = [] then none else some version := by
  split
  next he => exact version?_eq_none_iff.mpr he
  next he => exact (singleVersion_iff.mpr ⟨he, h⟩).2

theorem planFor_of_forall (other : Int) :
    table.planFor other = if other = version then table.plan.kept else [] := by
  rw [planFor_eq]
  by_cases he : table.fixes = []
  · simp [he, kept_plan_eq_nil he]
  · obtain ⟨fix, hf⟩ := List.exists_mem_of_ne_nil _ he
    have hiff : (∀ fix ∈ table.fixes, fix.version = other) ↔ other = version := by
      constructor
      · intro ho
        exact (ho fix hf).symm.trans (h fix hf)
      · rintro rfl
        exact h
    simp only [hiff]

end

theorem mem_fixes_iff {table : FixTable} {fix : Fix} :
    fix ∈ table.fixes ↔ ∃ key : String, table.entries[key]? = some fix := by
  simp [fixes, Std.ExtTreeMap.mem_toList_iff_getElem?_eq_some]

theorem fix_mem_of_dropped {table : FixTable} {dropped : Dropped}
    (h : dropped ∈ table.plan.dropped) : dropped.fix ∈ table.fixes := by
  apply (perm_byPosition table).subset
  exact (Plan.sublist_dropped_ofOrdered _).subset (List.mem_map_of_mem h)

theorem planFor_eq_nil_of_mem {table : FixTable} {fix : Fix} {version : Int}
    (h : fix ∈ table.fixes) (hv : fix.version ≠ version) : table.planFor version = [] := by
  rw [planFor_eq, if_neg]
  exact fun hall => hv (hall fix h)

theorem hasSingleVersion_iff {table : FixTable} : table.hasSingleVersion = true ↔
    ∀ fix ∈ table.fixes, ∀ other ∈ table.fixes, fix.version = other.version := by
  constructor
  · intro h fix hf other ho
    obtain ⟨version, hv⟩ := Option.ne_none_iff_exists'.mp
      (mt version?_eq_none_iff.mp (List.ne_nil_of_mem hf))
    have hall := (singleVersion_iff.mp ⟨h, hv⟩).2
    rw [hall fix hf, hall other ho]
  · intro h
    by_cases he : table.fixes = []
    · have hz : ∀ fix ∈ table.fixes, fix.version = 0 := by simp [he]
      exact hasSingleVersion_of_forall hz
    · obtain ⟨fix, hf⟩ := List.exists_mem_of_ne_nil _ he
      exact hasSingleVersion_of_forall fun other ho => h other ho fix hf

theorem planFor_guarded (table : FixTable) :
    (∀ version, (∀ (key : String) (fix : Fix), table.entries[key]? = some fix →
      fix.version = version) → table.planFor version = table.plan.kept) ∧
    (∀ version, (∃ (key : String) (fix : Fix), table.entries[key]? = some fix ∧
      fix.version ≠ version) → table.planFor version = []) ∧
    (∀ version, ∀ dropped ∈ table.plan.dropped, dropped.fix.version ≠ version →
      table.planFor version = []) ∧
    (∀ version, table.hasSingleVersion = false → table.planFor version = []) ∧
    (table.hasSingleVersion = true ↔ ∀ (key other : String) (fix otherFix : Fix),
      table.entries[key]? = some fix → table.entries[other]? = some otherFix →
        fix.version = otherFix.version) := by
  refine ⟨?_, ?_, ?_, ?_, ?_⟩
  · intro version h
    rw [planFor_eq, if_pos]
    intro fix hf
    obtain ⟨key, hk⟩ := mem_fixes_iff.mp hf
    exact h key fix hk
  · rintro version ⟨key, fix, hk, hv⟩
    exact planFor_eq_nil_of_mem (mem_fixes_iff.mpr ⟨key, hk⟩) hv
  · intro version dropped hd hv
    exact planFor_eq_nil_of_mem (fix_mem_of_dropped hd) hv
  · intro version hs
    simp [planFor, hs]
  · rw [hasSingleVersion_iff]
    constructor
    · intro h key other fix otherFix hk ho
      exact h fix (mem_fixes_iff.mpr ⟨key, hk⟩) otherFix (mem_fixes_iff.mpr ⟨other, ho⟩)
    · intro h fix hf otherFix ho
      obtain ⟨key, hk⟩ := mem_fixes_iff.mp hf
      obtain ⟨other, ho⟩ := mem_fixes_iff.mp ho
      exact h key other fix otherFix hk ho

end LintTriage.FixTable
