import LintTriage.Proofs.Finding.Enabled
import LintTriage.Proofs.FixIndex.Accounting
import LintTriage.Proofs.FixIndex.Run
import LintTriage.Proofs.FixTable.Version

namespace LintTriage

theorem FixTable.fixes_ne_nil_of_mem {table : FixTable} {key : String}
    (h : key ∈ table.entries) : table.fixes ≠ [] := by
  have hs : table.entries[key]? = some table.entries[key] :=
    Std.ExtTreeMap.getElem?_eq_some_getElem h
  exact List.ne_nil_of_mem (mem_fixes_iff.mpr ⟨key, hs⟩)

namespace FixIndex

theorem Records.fixes_ne_nil {index : FixIndex} {log : Log} (h : Records index log)
    (hl : log ≠ []) : index.table.fixes ≠ [] := by
  obtain ⟨⟨filing, answer⟩, hm⟩ := List.exists_mem_of_ne_nil _ hl
  cases answer with
  | some key => exact FixTable.fixes_ne_nil_of_mem (h.mem_entries_of_mem hm)
  | none =>
    -- the key that was refused here is one that the table holds
    obtain ⟨refusals, ha, hb⟩ := h.answersAt_eq filing.site
    have hn : none ∈ answersAt log filing.site := mem_answersAt_of_mem hm
    have hpos : 0 < refusals := by
      rw [ha] at hn
      simpa [Nat.pos_iff_ne_zero] using hn
    exact FixTable.fixes_ne_nil_of_mem (hb hpos)

theorem perm_rejected_fixes_ofFindings (findings : List Finding) :
    (findings.flatMap Finding.fixes).Perm
      ((ofFindings findings).rejected ++ (ofFindings findings).table.fixes) := by
  rw [← map_fix_logOfFindings]
  exact (records_ofFindings findings).perm_fixes

theorem fixes_ofFindings_eq_nil_iff {findings : List Finding} :
    (ofFindings findings).table.fixes = [] ↔ findings.flatMap Finding.fixes = [] := by
  constructor
  · intro h
    by_contra hne
    apply (records_ofFindings findings).fixes_ne_nil ?_ h
    intro hl
    rw [← map_fix_logOfFindings, hl] at hne
    exact hne rfl
  · intro h
    have hp := perm_rejected_fixes_ofFindings findings
    rw [h] at hp
    exact (List.append_eq_nil_iff.mp hp.nil_eq.symm).2

end FixIndex

namespace RuleBook

variable {book : RuleBook} {hits : List Hit} {settings : Settings} {revision : Revision}

theorem mem_fixes_findings_iff {fix : Fix} :
    fix ∈ (book.findings hits settings revision).flatMap Finding.fixes ↔
      ∃ hit ∈ hits, ∃ rule, book.find? hit.ruleId = some rule ∧ rule.isEnabled settings = true ∧
        ∃ edit ∈ hit.edits, edit.toFix rule revision.version = fix := by
  rw [List.mem_flatMap]
  constructor
  · rintro ⟨finding, hm, hf⟩
    obtain ⟨hit, hh, rule, hr, he, rfl⟩ := mem_findings_iff.mp hm
    rw [Finding.fixes_attach_ofHit] at hf
    exact ⟨hit, hh, rule, hr, he, List.mem_map.mp hf⟩
  · rintro ⟨hit, hh, rule, hr, he, hf⟩
    refine ⟨_, mem_findings_iff.mpr ⟨hit, hh, rule, hr, he, rfl⟩, ?_⟩
    rw [Finding.fixes_attach_ofHit]
    exact List.mem_map.mpr hf

theorem version_of_mem_fixes {fix : Fix}
    (h : fix ∈ (FixIndex.ofFindings (book.findings hits settings revision)).table.fixes) :
    fix.version = revision.version := by
  have hp := FixIndex.perm_rejected_fixes_ofFindings (book.findings hits settings revision)
  have hm := hp.mem_iff.mpr (List.mem_append_right _ h)
  obtain ⟨hit, -, rule, -, -, edit, -, rfl⟩ := mem_fixes_findings_iff.mp hm
  rfl

theorem fixes_findings_ne_nil_iff :
    (book.findings hits settings revision).flatMap Finding.fixes ≠ [] ↔
      ∃ hit ∈ hits, book.counts settings hit = true ∧ hit.edits ≠ [] := by
  constructor
  · intro h
    obtain ⟨fix, hf⟩ := List.exists_mem_of_ne_nil _ h
    obtain ⟨hit, hh, rule, hr, he, edit, hm, -⟩ := mem_fixes_findings_iff.mp hf
    exact ⟨hit, hh, counts_iff.mpr ⟨rule, hr, he⟩, List.ne_nil_of_mem hm⟩
  · rintro ⟨hit, hh, hc, hne⟩
    obtain ⟨rule, hr, he⟩ := counts_iff.mp hc
    obtain ⟨edit, hm⟩ := List.exists_mem_of_ne_nil _ hne
    exact List.ne_nil_of_mem (mem_fixes_findings_iff.mpr ⟨hit, hh, rule, hr, he, edit, hm, rfl⟩)

theorem version_of_batch (book : RuleBook) (hits : List Hit) (settings : Settings)
    (revision : Revision) :
    let table := (FixIndex.ofFindings (book.findings hits settings revision)).table
    table.hasSingleVersion = true ∧
    table.version? =
      (if ∃ hit ∈ hits, book.counts settings hit = true ∧ hit.edits ≠ [] then
        some revision.version else none) ∧
    ∀ version, table.planFor version =
      if version = revision.version then table.plan.kept else [] := by
  intro table
  have hv : ∀ fix ∈ table.fixes, fix.version = revision.version := fun _ => version_of_mem_fixes
  have hne : table.fixes = [] ↔
      ¬∃ hit ∈ hits, book.counts settings hit = true ∧ hit.edits ≠ [] := by
    rw [FixIndex.fixes_ofFindings_eq_nil_iff, ← fixes_findings_ne_nil_iff, not_not]
  refine ⟨FixTable.hasSingleVersion_of_forall hv, ?_, FixTable.planFor_of_forall hv⟩
  simp only [FixTable.version?_of_forall hv, hne, ite_not]

end RuleBook

end LintTriage
