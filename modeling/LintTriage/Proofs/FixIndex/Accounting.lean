import LintTriage.Proofs.FixIndex.Log
import LintTriage.Proofs.FixTable.Plan

namespace LintTriage.FixIndex

open Std

def accepted (log : Log) : List (String × Fix) :=
  log.filterMap fun entry => entry.2.map fun key => (key, entry.1.fix)

theorem map_fst_accepted (log : Log) : (accepted log).map Prod.fst = log.filterMap Prod.snd := by
  rw [accepted, List.map_filterMap]
  congr 1
  funext entry
  cases entry.2 <;> rfl

theorem mem_accepted_iff {log : Log} {key : String} {fix : Fix} :
    (key, fix) ∈ accepted log ↔ ∃ filing, (filing, some key) ∈ log ∧ filing.fix = fix := by
  simp [accepted, List.mem_filterMap]

theorem perm_rejections_accepted (log : Log) :
    (log.map fun entry => entry.1.fix).Perm (rejections log ++ (accepted log).map Prod.snd) := by
  induction log with
  | nil => exact List.Perm.refl _
  | cons entry rest ih =>
    obtain ⟨filing, answer⟩ := entry
    cases answer with
    | none => exact ih.cons filing.fix
    | some key => exact (ih.cons filing.fix).trans List.perm_middle.symm

theorem sublist_map_snd_accepted (log : Log) :
    ((accepted log).map Prod.snd).Sublist (log.map fun entry => entry.1.fix) := by
  induction log with
  | nil => exact List.Sublist.refl _
  | cons entry rest ih =>
    obtain ⟨filing, answer⟩ := entry
    cases answer with
    | none => exact ih.cons filing.fix
    | some key => exact ih.cons_cons filing.fix

theorem Records.perm_toList {index : FixIndex} {log : Log} (h : Records index log) :
    index.table.entries.toList.Perm (accepted log) := by
  have hl : index.table.entries.toList.Nodup := by
    apply List.Nodup.of_map Prod.fst
    rw [ExtTreeMap.map_fst_toList_eq_keys]
    exact ExtTreeMap.nodup_keys
  have ha : (accepted log).Nodup := by
    apply List.Nodup.of_map Prod.fst
    rw [map_fst_accepted]
    exact h.keys_nodup
  rw [List.perm_ext_iff_of_nodup hl ha]
  rintro ⟨key, fix⟩
  rw [ExtTreeMap.mem_toList_iff_getElem?_eq_some, h.getElem?_iff, mem_accepted_iff]

theorem Records.perm_fixes {index : FixIndex} {log : Log} (h : Records index log) :
    (log.map fun entry => entry.1.fix).Perm (index.rejected ++ index.table.fixes) := by
  rw [h.rejected_eq]
  exact (perm_rejections_accepted log).trans (h.perm_toList.symm.map _ |>.append_left _)

theorem map_fix_filings (findings : List Finding) :
    (findings.flatMap Finding.filings).map Filing.fix = findings.flatMap Finding.fixes := by
  simp [Finding.filings, List.map_flatMap, Function.comp_def]

theorem map_fix_logOfFindings (findings : List Finding) :
    ((logOfFindings findings).map fun entry => entry.1.fix) = findings.flatMap Finding.fixes := by
  rw [← map_fix_filings, ← map_fst_logOfFindings, List.map_map]
  rfl

theorem perm_fixes_ofFindings (findings : List Finding) :
    let index := FixIndex.ofFindings findings
    (findings.flatMap Finding.fixes).Perm
      (index.rejected ++ (index.table.plan.kept ++ index.table.plan.dropped.map Dropped.fix)) ∧
    index.table.plan.kept.Sublist index.table.byPosition ∧
    (index.table.plan.dropped.map Dropped.fix).Sublist index.table.byPosition := by
  intro index
  have hf : (findings.flatMap Finding.fixes).Perm (index.rejected ++ index.table.fixes) := by
    rw [← map_fix_logOfFindings]
    exact (records_ofFindings findings).perm_fixes
  have hp : index.table.fixes.Perm
      (index.table.plan.kept ++ index.table.plan.dropped.map Dropped.fix) :=
    index.table.perm_byPosition.symm.trans (Plan.perm_ofOrdered _)
  exact ⟨hf.trans (hp.append_left _), Plan.sublist_kept_ofOrdered _,
    Plan.sublist_dropped_ofOrdered _⟩

end LintTriage.FixIndex
