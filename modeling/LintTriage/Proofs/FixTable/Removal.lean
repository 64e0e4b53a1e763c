import Mathlib.Data.List.Nodup
import LintTriage.Proofs.FixTable.Dropped

/-!
Entries taken out of a table. The plan is read off the verdicts on the entries, one after the other
in position order, and a dropped entry has no part in the verdict on any other. A table without some
of its dropped entries has therefore the plan that it had, less these.
-/

namespace LintTriage

open Std

structure Verdict where
  key : String
  fix : Fix
  conflictsWith : Option Fix

namespace Verdict

def isDropped (verdict : Verdict) : Bool :=
  verdict.conflictsWith.isSome

def dropped? (verdict : Verdict) : Option Dropped :=
  verdict.conflictsWith.map fun kept => { fix := verdict.fix, conflictsWith := kept }

theorem dropped?_eq_none_iff {verdict : Verdict} :
    verdict.dropped? = none ↔ verdict.isDropped = false := by
  simp [dropped?, isDropped]

end Verdict

namespace Plan

def verdicts (last : Option Fix) : List (String × Fix) → List Verdict
  | [] => []
  | (key, fix) :: rest =>
    if last.any fun kept => kept.overlaps fix then ⟨key, fix, last⟩ :: verdicts last rest
    else ⟨key, fix, none⟩ :: verdicts (some fix) rest

def ofVerdicts (verdicts : List Verdict) : Plan where
  kept := (verdicts.filter fun verdict => !verdict.isDropped).map Verdict.fix
  dropped := verdicts.filterMap Verdict.dropped?

theorem ofVerdicts_dropped (key : String) (fix last : Fix) (verdicts : List Verdict) :
    ofVerdicts (⟨key, fix, some last⟩ :: verdicts) =
      (ofVerdicts verdicts).dropping ⟨fix, last⟩ := rfl

theorem ofVerdicts_kept (key : String) (fix : Fix) (verdicts : List Verdict) :
    ofVerdicts (⟨key, fix, none⟩ :: verdicts) = (ofVerdicts verdicts).keeping fix := rfl

theorem verdicts_of_overlaps {last fix : Fix} (h : last.overlaps fix = true) (key : String)
    (rest : List (String × Fix)) :
    verdicts (some last) ((key, fix) :: rest) =
      ⟨key, fix, some last⟩ :: verdicts (some last) rest := by
  simp [verdicts, h]

theorem verdicts_of_not_overlaps {last : Option Fix} {fix : Fix}
    (h : ∀ kept ∈ last, kept.overlaps fix = false) (key : String) (rest : List (String × Fix)) :
    verdicts last ((key, fix) :: rest) = ⟨key, fix, none⟩ :: verdicts (some fix) rest := by
  cases last with
  | none => simp [verdicts]
  | some kept => simp [verdicts, h kept rfl]

theorem map_entry_verdicts (last : Option Fix) (entries : List (String × Fix)) :
    (verdicts last entries).map (fun verdict => (verdict.key, verdict.fix)) = entries := by
  induction entries generalizing last with
  | nil => rfl
  | cons entry rest ih =>
    unfold verdicts
    split <;> rw [List.map_cons, ih]

theorem ofVerdicts_verdicts_some (last : Fix) (entries : List (String × Fix)) :
    ofVerdicts (verdicts (some last) entries) = sweep last (entries.map Prod.snd) := by
  induction entries generalizing last with
  | nil => rfl
  | cons entry rest ih =>
    obtain ⟨key, fix⟩ := entry
    cases h : last.overlaps fix with
    | true => rw [verdicts_of_overlaps h, ofVerdicts_dropped, ih, List.map_cons, sweep_of_overlaps h]
    | false =>
      rw [verdicts_of_not_overlaps (by simpa using h), ofVerdicts_kept, ih, List.map_cons,
        sweep_of_not_overlaps h]

theorem ofVerdicts_verdicts_none (entries : List (String × Fix)) :
    ofVerdicts (verdicts none entries) = ofOrdered (entries.map Prod.snd) := by
  cases entries with
  | nil => rfl
  | cons first rest =>
    rw [verdicts_of_not_overlaps (by simp), ofVerdicts_kept, ofVerdicts_verdicts_some]
    rfl

theorem kept_ofVerdicts_filter {verdicts : List Verdict} {stays : Verdict → Bool}
    (h : ∀ verdict ∈ verdicts, stays verdict = false → verdict.isDropped = true) :
    (ofVerdicts (verdicts.filter stays)).kept = (ofVerdicts verdicts).kept := by
  simp only [ofVerdicts, List.filter_filter]
  congr 1
  apply List.filter_congr
  intro verdict hv
  cases hs : stays verdict with
  | true => simp
  | false => simp [h verdict hv hs]

/-- The last kept fix is the same with and without the dropped entries, so their removal changes no
other verdict. -/
theorem verdicts_filter (stays : String → Bool) {last : Option Fix} {entries : List (String × Fix)}
    (h : ∀ verdict ∈ verdicts last entries, stays verdict.key = false → verdict.isDropped = true) :
    verdicts last (entries.filter fun entry => stays entry.1) =
      (verdicts last entries).filter fun verdict => stays verdict.key := by
  induction entries generalizing last with
  | nil => rfl
  | cons entry rest ih =>
    obtain ⟨key, fix⟩ := entry
    by_cases ho : ∃ kept ∈ last, kept.overlaps fix = true
    · obtain ⟨kept, rfl, ho⟩ := ho
      rw [verdicts_of_overlaps ho] at h ⊢
      obtain ⟨-, hrest⟩ := List.forall_mem_cons.mp h
      cases hs : stays key with
      | true => simp [hs, verdicts_of_overlaps ho, ih hrest]
      | false => simp [hs, ih hrest]
    · have hn : ∀ kept ∈ last, kept.overlaps fix = false := by simpa using ho
      rw [verdicts_of_not_overlaps hn] at h ⊢
      obtain ⟨hkept, hrest⟩ := List.forall_mem_cons.mp h
      have hs : stays key = true := by
        by_contra hs
        simpa [Verdict.isDropped] using hkept (by simpa using hs)
      simp [hs, verdicts_of_not_overlaps hn, ih hrest]

end Plan

namespace FixTable

def without (table : FixTable) (keys : List String) : FixTable :=
  ⟨table.entries.filter fun key _ => key ∉ keys⟩

theorem getElem?_without (table : FixTable) (keys : List String) (key : String) :
    (table.without keys).entries[key]? = if key ∈ keys then none else table.entries[key]? := by
  rw [without, ExtTreeMap.getElem?_filter']
  by_cases h : key ∈ keys
  · simp [h]
  · cases table.entries[key]? <;> simp [h]

theorem entriesByPosition_without (table : FixTable) (keys : List String) :
    (table.without keys).entriesByPosition =
      table.entriesByPosition.filter fun entry => entry.1 ∉ keys := by
  symm
  apply eq_entriesByPosition
  · rw [without, ExtTreeMap.toList_filter]
    exact (perm_entriesByPosition table).filter _
  · exact (pairwise_entryOrder _).sublist List.filter_sublist

def verdicts (table : FixTable) : List Verdict :=
  Plan.verdicts none table.entriesByPosition

theorem plan_eq_ofVerdicts (table : FixTable) : table.plan = .ofVerdicts table.verdicts := by
  rw [plan, ← map_snd_entriesByPosition, verdicts, Plan.ofVerdicts_verdicts_none]

theorem map_entry_verdicts (table : FixTable) :
    table.verdicts.map (fun verdict => (verdict.key, verdict.fix)) = table.entriesByPosition :=
  Plan.map_entry_verdicts none _

theorem nodup_keys_verdicts (table : FixTable) : (table.verdicts.map Verdict.key).Nodup := by
  have hk : table.verdicts.map Verdict.key = table.entriesByPosition.map Prod.fst := by
    rw [← map_entry_verdicts, List.map_map]
    rfl
  rw [hk]
  exact nodup_keys_entriesByPosition table

def droppedKeys (table : FixTable) : List String :=
  (table.verdicts.filter Verdict.isDropped).map Verdict.key

theorem isDropped_iff {table : FixTable} {verdict : Verdict} (hv : verdict ∈ table.verdicts) :
    verdict.isDropped = true ↔ verdict.key ∈ table.droppedKeys := by
  constructor
  · intro hd
    exact List.mem_map_of_mem (List.mem_filter.mpr ⟨hv, hd⟩)
  · intro hk
    obtain ⟨other, ho, he⟩ := List.mem_map.mp hk
    obtain ⟨ho, hd⟩ := List.mem_filter.mp ho
    exact List.inj_on_of_nodup_map (nodup_keys_verdicts table) ho hv he ▸ hd

section

variable {table : FixTable} {removed : List String} (h : removed ⊆ table.droppedKeys)

include h

theorem isDropped_of_removed : ∀ verdict ∈ table.verdicts,
    decide (verdict.key ∉ removed) = false → verdict.isDropped = true := by
  intro verdict hv hk
  exact (isDropped_iff hv).mpr (h (by simpa using hk))

theorem verdicts_without :
    (table.without removed).verdicts =
      table.verdicts.filter fun verdict => verdict.key ∉ removed := by
  rw [verdicts, entriesByPosition_without]
  exact Plan.verdicts_filter (fun key => key ∉ removed) (isDropped_of_removed h)

theorem kept_plan_without : (table.without removed).plan.kept = table.plan.kept := by
  rw [plan_eq_ofVerdicts, plan_eq_ofVerdicts, verdicts_without h]
  exact Plan.kept_ofVerdicts_filter (isDropped_of_removed h)

end

theorem dropped_plan_without_droppedKeys (table : FixTable) :
    (table.without table.droppedKeys).plan.dropped = [] := by
  rw [plan_eq_ofVerdicts, verdicts_without (List.Subset.refl _)]
  apply List.filterMap_eq_nil_iff.mpr
  intro verdict hv
  obtain ⟨hv, hk⟩ := List.mem_filter.mp hv
  rw [Verdict.dropped?_eq_none_iff, ← Bool.not_eq_true, isDropped_iff hv]
  simpa using hk

theorem plan_without_dropped (table : FixTable) {removed : List String}
    (h : removed ⊆ table.droppedKeys) :
    (table.verdicts.map fun verdict => (verdict.key, verdict.fix)).Perm table.entries.toList ∧
    table.plan.dropped = table.verdicts.filterMap Verdict.dropped? ∧
    (table.without removed).plan.dropped =
      (table.verdicts.filter fun verdict => verdict.key ∉ removed).filterMap Verdict.dropped? ∧
    (table.without removed).plan.kept = table.plan.kept ∧
    (table.without table.droppedKeys).byPosition = table.plan.kept ∧
    (table.without table.droppedKeys).plan = { kept := table.plan.kept, dropped := [] } := by
  have hk : (table.without table.droppedKeys).plan.kept = table.plan.kept :=
    kept_plan_without (List.Subset.refl _)
  have hd : (table.without table.droppedKeys).plan.dropped = [] :=
    dropped_plan_without_droppedKeys table
  refine ⟨?_, ?_, ?_, kept_plan_without h, ?_, ?_⟩
  · rw [map_entry_verdicts]
    exact perm_entriesByPosition table
  · rw [plan_eq_ofVerdicts]
    rfl
  · rw [plan_eq_ofVerdicts, verdicts_without h]
    rfl
  · rw [← hk]
    exact (Plan.kept_eq_of_dropped_eq_nil hd).symm
  · rw [← hk, ← hd]

theorem plan_without_one_of_two_equal :
    let entries : List (String × Fix) :=
      [("a", { edit := { span := ⟨0, 5⟩ } }), ("b", { edit := { span := ⟨0, 5⟩ } }),
        ("c", { edit := { span := ⟨3, 8⟩ } }), ("d", { edit := { span := ⟨5, 9⟩ } })]
    let table := FixTable.ofList entries
    ["b"] ⊆ table.droppedKeys ∧ (table.without ["b"]).plan.kept = table.plan.kept ∧
      (table.without ["b"]).plan.dropped =
        [⟨{ edit := { span := ⟨3, 8⟩ } }, { edit := { span := ⟨0, 5⟩ } }⟩] := by
  intro entries table
  have ho : table.entriesByPosition = entries :=
    (eq_entriesByPosition (List.Perm.of_eq rfl) (by decide)).symm
  have hv : table.verdicts = Plan.verdicts none entries := by rw [verdicts, ho]
  have hk : table.droppedKeys = ["b", "c"] := by rw [droppedKeys, hv]; rfl
  have hb : ["b"] ⊆ table.droppedKeys := by rw [hk]; decide
  obtain ⟨-, -, hd, hkept, -⟩ := plan_without_dropped table hb
  refine ⟨hb, hkept, ?_⟩
  rw [hd, hv]
  rfl

end FixTable

end LintTriage
