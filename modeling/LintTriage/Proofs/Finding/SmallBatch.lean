import LintTriage.Proofs.FixIndex.Selection
import LintTriage.Proofs.Finding.Isolation

namespace LintTriage

theorem FixTable.forDiagnostics_map_diagnostic (table : FixTable) (findings : List Finding)
    (settings : Settings) :
    table.forDiagnostics (findings.map fun finding => finding.diagnostic settings) =
      table.forFindings findings := by
  rw [forDiagnostics, forFindings, List.flatMap_map]
  simp only [Finding.site_diagnostic]

namespace FixIndex

section AtMostTen

variable {findings : List Finding}
  (hten : ∀ p ∈ findings, (Finding.fixesAt findings p.site).length ≤ 10)

include hten

theorem length_answersAt_le_ten (site : Site) :
    (answersAt (logOfFindings findings) site).length ≤ 10 := by
  by_cases hnil : answersAt (logOfFindings findings) site = []
  · simp [hnil]
  · obtain ⟨p, hp, rfl⟩ := exists_finding_of_answersAt hnil
    rw [length_answersAt_ofFindings]
    exact hten p hp

theorem offered_eq_fixesAt {site : Site}
    (hnine : (Finding.fixesAt findings site).length ≤ 9) :
    (ofFindings findings).table.offered site = Finding.fixesAt findings site := by
  have h := records_ofFindings findings
  have hle := h.nextNumber_le site
  rw [length_answersAt_ofFindings] at hle
  have he := h.endsFree_of_le_ten (length_answersAt_le_ten hten) (Nat.le_trans hle hnine)
  rw [h.offered_eq_filed he, map_fst_logOfFindings, Finding.map_fix_filter_filings]

theorem rejected_ofFindings_eq_nil : (ofFindings findings).rejected = [] := by
  have h := records_ofFindings findings
  have hl := length_answersAt_le_ten hten
  apply h.rejected_eq_nil
  intro entry _
  apply h.none_notMem_answersAt
  intro hlt
  have hsite := hl entry.1.site
  exact h.endsFree_of_le_ten hl (by omega)

end AtMostTen

theorem selection_of_small_batch {findings : List Finding}
    (hten : ∀ p ∈ findings, (Finding.fixesAt findings p.site).length ≤ 10) :
    let index := FixIndex.ofFindings findings
    index.rejected = [] ∧
    (∀ diagnostic : Diagnostic, (Finding.fixesAt findings diagnostic.site).length ≤ 9 →
      index.table.forDiagnostics [diagnostic] = Finding.fixesAt findings diagnostic.site) ∧
    (∀ finding : Finding, (Finding.fixesAt findings finding.site).length ≤ 9 →
      index.table.forFindings [finding] = Finding.fixesAt findings finding.site) ∧
    ((∀ p ∈ findings, (Finding.fixesAt findings p.site).length ≤ 9) →
      index.table.forFindings findings =
        findings.flatMap (fun p => Finding.fixesAt findings p.site) ∧
      ∀ settings, index.table.forDiagnostics (findings.map fun p => p.diagnostic settings) =
        index.table.forFindings findings) := by
  intro index
  refine ⟨rejected_ofFindings_eq_nil hten, ?_, ?_, ?_⟩
  · intro diagnostic hnine
    rw [FixTable.forDiagnostics_singleton]
    exact offered_eq_fixesAt hten hnine
  · intro finding hnine
    rw [FixTable.forFindings_singleton]
    exact offered_eq_fixesAt hten hnine
  · intro hnine
    constructor
    · apply List.flatMap_congr
      intro p hp
      exact offered_eq_fixesAt hten (hnine p hp)
    · exact index.table.forDiagnostics_map_diagnostic findings

theorem selection_of_nine_beside_ten :
    let nine : List Finding :=
      [{ ruleId := "A1", fixes := (List.range 4).map fun n => { version := n } },
        { ruleId := "A1", fixes := (List.range 5).map fun n => { version := n + 4 } }]
    let findings : List Finding := { ruleId := "A", fixes := List.replicate 10 {} } :: nine
    let fixes : List Fix := (List.range 9).map fun n => { version := n }
    (∀ p ∈ findings, (Finding.fixesAt findings p.site).length ≤ 10) ∧
      (FixIndex.ofFindings findings).rejected = [] ∧
      (FixIndex.ofFindings findings).table.forDiagnostics [{ code := "A1" }] = fixes ∧
      (∀ p ∈ nine, (Finding.fixesAt nine p.site).length ≤ 9) ∧
      (FixIndex.ofFindings nine).table.forFindings nine = fixes ++ fixes := by
  intro nine findings fixes
  have hten : ∀ p ∈ findings, (Finding.fixesAt findings p.site).length ≤ 10 := by decide
  have hnine : ∀ p ∈ nine, (Finding.fixesAt nine p.site).length ≤ 9 := by decide
  obtain ⟨hr, hd, -⟩ := selection_of_small_batch hten
  obtain ⟨-, -, -, hall⟩ := selection_of_small_batch fun p hp => Nat.le_succ_of_le (hnine p hp)
  exact ⟨hten, hr, hd { code := "A1" } (by decide), hnine, (hall hnine).1⟩

end FixIndex

end LintTriage
