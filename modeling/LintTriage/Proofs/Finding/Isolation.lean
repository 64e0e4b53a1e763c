import LintTriage.Finding
import LintTriage.Proofs.FixIndex.Offered

/-!
Whether a finding is offered the fixes of its own rule only. Where the id of one rule is that of
another with a number behind it, their keys at one range meet as soon as the shorter id owns ten
times that number of fixes; no finding of a batch is offered a foreign fix exactly when that happens
nowhere in the batch.
-/

namespace LintTriage

namespace Finding

theorem site_eq_extend_iff {p q : Finding} {j : Nat} :
    q.site = p.site.extend j ↔ q.range = p.range ∧ q.ruleId = p.ruleId ++ toString j := by
  simp [site, Site.extend]

def fixesAt (findings : List Finding) (site : Site) : List Fix :=
  (findings.filter fun finding => finding.site = site).flatMap Finding.fixes

theorem mem_filings_iff {findings : List Finding} {filing : Filing} :
    filing ∈ findings.flatMap filings ↔
      ∃ finding ∈ findings, filing.site = finding.site ∧ filing.fix ∈ finding.fixes := by
  simp only [List.mem_flatMap, filings, List.mem_map]
  constructor
  · rintro ⟨finding, hf, fix, hfix, rfl⟩
    exact ⟨finding, hf, rfl, hfix⟩
  · rintro ⟨finding, hf, hs, hfix⟩
    exact ⟨finding, hf, filing.fix, hfix, by rw [← hs]⟩

theorem filter_filings (finding : Finding) (site : Site) :
    finding.filings.filter (fun filing => filing.site = site) =
      if finding.site = site then finding.filings else [] := by
  by_cases h : finding.site = site <;> simp [filings, h]

theorem map_fix_filter_filings (findings : List Finding) (site : Site) :
    ((findings.flatMap filings).filter fun filing => filing.site = site).map Filing.fix =
      fixesAt findings site := by
  induction findings with
  | nil => rfl
  | cons finding rest ih =>
    rw [List.flatMap_cons, List.filter_append, List.map_append, ih, filter_filings, fixesAt,
      fixesAt, List.filter_cons]
    by_cases h : finding.site = site
    · simp [h, filings, Function.comp_def]
    · simp [h]

end Finding

namespace FixIndex

theorem length_answersAt_ofFindings (findings : List Finding) (site : Site) :
    (answersAt (logOfFindings findings) site).length =
      (Finding.fixesAt findings site).length := by
  rw [← Finding.map_fix_filter_filings, ← map_fst_logOfFindings, ← map_fix_filter_log, answersAt,
    List.length_map, List.length_map]

theorem answersAt_eq_nil_iff {findings : List Finding} {site : Site} :
    answersAt (logOfFindings findings) site = [] ↔ Finding.fixesAt findings site = [] := by
  rw [← List.length_eq_zero_iff, length_answersAt_ofFindings, List.length_eq_zero_iff]

theorem mem_logOfFindings {findings : List Finding} {filing : Filing} {answer : Option String}
    (h : (filing, answer) ∈ logOfFindings findings) :
    ∃ finding ∈ findings, filing.site = finding.site ∧ filing.fix ∈ finding.fixes := by
  rw [← Finding.mem_filings_iff, ← map_fst_logOfFindings]
  exact List.mem_map_of_mem h

theorem exists_finding_of_answersAt {findings : List Finding} {site : Site}
    (h : answersAt (logOfFindings findings) site ≠ []) : ∃ p ∈ findings, p.site = site := by
  obtain ⟨answer, hm⟩ := List.exists_mem_of_ne_nil _ h
  obtain ⟨filing, hl, rfl⟩ := mem_answersAt_iff.mp hm
  obtain ⟨p, hp, hsite, -⟩ := mem_logOfFindings hl
  exact ⟨p, hp, hsite.symm⟩

theorem endsFree_ofFindings_iff (findings : List Finding) :
    (∀ p ∈ findings, (ofFindings findings).endsFree p.site) ↔
      ∀ p ∈ findings, ∀ q ∈ findings, ∀ j, 0 < j →
        q.range = p.range → q.ruleId = p.ruleId ++ toString j →
          (Finding.fixesAt findings p.site).length < 10 * j ∨
            ((Finding.fixesAt findings p.site).length = 10 * j ∧
              Finding.fixesAt findings q.site = []) := by
  have h := records_ofFindings findings
  constructor
  · intro he p hp q hq j hj hrange hrule
    have hsite : q.site = p.site.extend j := Finding.site_eq_extend_iff.mpr ⟨hrange, hrule⟩
    have hl := h.length_answersAt_of_endsFree hj (he p hp) (hsite ▸ he q hq)
    rwa [length_answersAt_ofFindings, answersAt_eq_nil_iff, ← hsite] at hl
  · intro hc p hp
    apply h.endsFree_of_lengths (fun site => ∃ p ∈ findings, p.site = site) ?_ ?_ ⟨p, hp, rfl⟩
    · intro site
      exact exists_finding_of_answersAt
    · rintro _ j hj ⟨p, hp, rfl⟩ ⟨q, hq, hsite⟩
      obtain ⟨hrange, hrule⟩ := Finding.site_eq_extend_iff.mp hsite
      rw [length_answersAt_ofFindings, answersAt_eq_nil_iff, ← hsite]
      exact hc p hp q hq j hj hrange hrule

theorem forall_offered_own_iff {findings : List Finding}
    (hrule : ∀ p ∈ findings, ∀ fix ∈ p.fixes, fix.ruleId = p.ruleId) :
    (∀ p ∈ findings, ∀ fix ∈ (ofFindings findings).table.offered p.site,
      fix.ruleId = p.ruleId ∧
        ∃ q ∈ findings, q.range = p.range ∧ q.ruleId = p.ruleId ∧ fix ∈ q.fixes) ↔
      ∀ p ∈ findings, (ofFindings findings).endsFree p.site := by
  have h := records_ofFindings findings
  constructor
  · intro ho p hp
    by_contra he
    obtain ⟨filing, key, hm, -, hc, hf⟩ := h.exists_other_offered he
    obtain ⟨q, hq, hs, hfix⟩ := mem_logOfFindings hm
    have hcode : filing.site.code = q.ruleId := congrArg Site.code hs
    exact hc (hcode.trans ((hrule q hq _ hfix).symm.trans (ho p hp _ hf).1))
  · intro he p hp fix hf
    obtain ⟨filing, key, hm, hs, rfl⟩ := h.own_of_mem_offered (he p hp) hf
    obtain ⟨q, hq, hsite, hfix⟩ := mem_logOfFindings hm
    have heq : q.site = p.site := hsite.symm.trans hs
    have hrange : q.range = p.range := congrArg Site.range heq
    have hid : q.ruleId = p.ruleId := congrArg Site.code heq
    exact ⟨(hrule q hq _ hfix).trans hid, q, hq, hrange, hid, hfix⟩

end FixIndex

theorem FixTable.forDiagnostics_diagnostic (table : FixTable) (finding : Finding)
    (settings : Settings) :
    table.forDiagnostics [finding.diagnostic settings] = table.offered finding.site := by
  rw [forDiagnostics_singleton, Finding.site_diagnostic]

namespace RuleBook

theorem ruleId_of_mem_fixes {book : RuleBook} {hits : List Hit} {settings : Settings}
    {revision : Revision} : ∀ p ∈ book.findings hits settings revision,
      ∀ fix ∈ p.fixes, fix.ruleId = p.ruleId := by
  intro p hp fix hf
  obtain ⟨hit, -, rule, -, -, rfl⟩ := mem_findings_iff.mp hp
  rw [Finding.fixes_attach_ofHit] at hf
  obtain ⟨edit, -, rfl⟩ := List.mem_map.mp hf
  rfl

/-- Every finding of a batch is offered its own fixes only, exactly when no rule id of the batch is
another one at its range with a number `j` behind it that the fixes of the shorter id reach: those
must be fewer than `10 * j`, or just as many if the longer id has none. -/
theorem offered_own_iff (book : RuleBook) (hits : List Hit) (settings : Settings)
    (revision : Revision) :
    let findings := book.findings hits settings revision
    let table := (FixIndex.ofFindings findings).table
    (∀ p ∈ findings, ∀ fix ∈ table.forDiagnostics [p.diagnostic settings],
      fix.ruleId = p.ruleId ∧
        ∃ q ∈ findings, q.range = p.range ∧ q.ruleId = p.ruleId ∧ fix ∈ q.fixes) ↔
    ∀ p ∈ findings, ∀ q ∈ findings, ∀ j, 0 < j →
      q.range = p.range → q.ruleId = p.ruleId ++ toString j →
        (Finding.fixesAt findings p.site).length < 10 * j ∨
          ((Finding.fixesAt findings p.site).length = 10 * j ∧
            Finding.fixesAt findings q.site = []) := by
  intro findings table
  simp only [FixTable.forDiagnostics_diagnostic]
  rw [FixIndex.forall_offered_own_iff ruleId_of_mem_fixes, FixIndex.endsFree_ofFindings_iff]

theorem not_offered_own_of_ten_fixes :
    let book : RuleBook :=
      { rules := [{ id := "A", severityText := "critical" },
          { id := "A1", severityText := "critical" }] }
    let hits : List Hit :=
      [{ ruleId := "A", edits := List.replicate 10 {} }, { ruleId := "A1", edits := [{}] }]
    let findings := book.findings hits {} {}
    let table := (FixIndex.ofFindings findings).table
    ¬∀ p ∈ findings, ∀ fix ∈ table.forDiagnostics [p.diagnostic {}],
      fix.ruleId = p.ruleId ∧
        ∃ q ∈ findings, q.range = p.range ∧ q.ruleId = p.ruleId ∧ fix ∈ q.fixes := by
  intro book hits findings table
  simp only [FixTable.forDiagnostics_diagnostic]
  rw [FixIndex.forall_offered_own_iff ruleId_of_mem_fixes, FixIndex.endsFree_ofFindings_iff]
  intro h
  have hf : book.findings hits {} {} =
      [{ ruleId := "A", severity := .critical, fixes := List.replicate 10 { ruleId := "A" } },
        { ruleId := "A1", severity := .critical, fixes := [{ ruleId := "A1" }] }] := rfl
  rw [hf] at h
  have hten := h _ List.mem_cons_self _ (List.mem_cons_of_mem _ List.mem_cons_self) 1
    (by decide) rfl (by decide)
  simp [Finding.fixesAt, Finding.site] at hten

end RuleBook

end LintTriage
