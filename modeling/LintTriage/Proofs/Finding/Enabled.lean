import Mathlib.Data.List.Forall2
import LintTriage.Finding
import LintTriage.Proofs.RuleBook.Lookup

namespace LintTriage

structure Finding.Reports (finding : Finding) (rule : Rule) (hit : Hit) (revision : Revision) :
    Prop where
  ruleId : finding.ruleId = rule.id
  source : finding.source = rule.name
  message : finding.message = rule.description
  replacement : finding.replacement = rule.recommendation
  issueUrl : finding.issueUrl = rule.guidancePage
  overrides : finding.overrides = rule.overrides
  severity : finding.severity = rule.severity
  range : finding.range = hit.range
  snippet : finding.snippet = hit.matchedText
  filePath : finding.filePath = revision.filePath
  fixes : List.Forall₂ (fun edit fix => fix.edit = edit ∧ fix.label = edit.name.getD rule.name ∧
    fix.ruleId = rule.id ∧ fix.version = revision.version) hit.edits finding.fixes

theorem Finding.reports_attach_ofHit (rule : Rule) (hit : Hit) (revision : Revision) :
    ((ofHit rule hit revision.filePath).attach rule hit revision.version).Reports rule hit
      revision where
  ruleId := rfl
  source := rfl
  message := rfl
  replacement := rfl
  issueUrl := rfl
  overrides := rfl
  severity := by simp only [attach, ofHit, ofDraft]
  range := rfl
  snippet := rfl
  filePath := rfl
  fixes := by
    rw [fixes_attach_ofHit, List.forall₂_map_right_iff, List.forall₂_same]
    intro edit _
    exact ⟨rfl, rfl, rfl, rfl⟩

namespace RuleBook

def counts (book : RuleBook) (settings : Settings) (hit : Hit) : Bool :=
  (book.find? hit.ruleId).any (·.isEnabled settings)

theorem counts_iff {book : RuleBook} {settings : Settings} {hit : Hit} :
    book.counts settings hit = true ↔
      ∃ rule, book.find? hit.ruleId = some rule ∧ rule.isEnabled settings = true :=
  Option.any_eq_true _ _

theorem isSome_finding? (book : RuleBook) (settings : Settings) (revision : Revision) (hit : Hit) :
    (book.finding? settings revision hit).isSome = book.counts settings hit := by
  rw [Bool.eq_iff_iff, Option.isSome_iff_exists, counts_iff]
  simp only [finding?_eq_some_iff]
  constructor
  · rintro ⟨finding, rule, hf, he, -⟩
    exact ⟨rule, hf, he⟩
  · rintro ⟨rule, hf, he⟩
    exact ⟨_, rule, hf, he, rfl⟩

theorem forall₂_findings (book : RuleBook) (hits : List Hit) (settings : Settings)
    (revision : Revision) :
    List.Forall₂ (fun hit finding => book.finding? settings revision hit = some finding)
      (hits.filter (book.counts settings)) (book.findings hits settings revision) := by
  induction hits with
  | nil => exact .nil
  | cons hit rest ih =>
    rw [findings, List.filterMap_cons, List.filter_cons, ← isSome_finding? book settings revision]
    cases hf : book.finding? settings revision hit with
    | none => exact ih
    | some finding => exact .cons hf ih

theorem counts_eq_any_enabledRules {book : RuleBook} (h : (book.rules.map Rule.id).Nodup)
    (settings : Settings) (hit : Hit) :
    book.counts settings hit = (book.enabledRules settings).any (·.id = hit.ruleId) := by
  rw [Bool.eq_iff_iff, counts_iff, List.any_eq_true]
  simp only [find?_eq_some_iff_of_nodup h, mem_enabledRules_iff, decide_eq_true_iff]
  constructor
  · rintro ⟨rule, ⟨hr, hi⟩, he⟩
    exact ⟨rule, ⟨hr, he⟩, hi⟩
  · rintro ⟨rule, ⟨hr, he⟩, hi⟩
    exact ⟨rule, ⟨hr, hi⟩, he⟩

theorem findings_match_enabledRules (book : RuleBook) (hits : List Hit) (settings : Settings)
    (revision : Revision) :
    let findings := book.findings hits settings revision
    List.Forall₂ (fun hit finding => ∃ entry ∈ book.enabledEntries settings,
        book.position? hit.ruleId = some entry.2 ∧ entry.1.id = hit.ruleId ∧
          finding.Reports entry.1 hit revision)
      (hits.filter (book.counts settings)) findings ∧
    ((book.rules.map Rule.id).Nodup →
      List.Forall₂ (fun hit finding => ∀ rule ∈ book.enabledRules settings,
          rule.id = hit.ruleId →
            book.find? hit.ruleId = some rule ∧ finding.Reports rule hit revision)
        (hits.filter fun hit => (book.enabledRules settings).any (·.id = hit.ruleId))
        findings) := by
  intro findings
  have hall := forall₂_findings book hits settings revision
  constructor
  · refine hall.imp fun hit finding h => ?_
    obtain ⟨rule, hf, he, rfl⟩ := finding?_eq_some_iff.mp h
    obtain ⟨i, hi, hr⟩ := find?_eq_some_iff.mp hf
    exact ⟨(rule, i), mem_enabledEntries_iff.mpr ⟨hr, he⟩, hi, id_of_find? hf,
      Finding.reports_attach_ofHit rule hit revision⟩
  · intro hn
    rw [← funext (counts_eq_any_enabledRules hn settings)]
    refine hall.imp fun hit finding h rule hr hid => ?_
    obtain ⟨used, hf, he, rfl⟩ := finding?_eq_some_iff.mp h
    have hu : book.find? hit.ruleId = some rule :=
      (find?_eq_some_iff_of_nodup hn).mpr ⟨(mem_enabledRules_iff.mp hr).1, hid⟩
    obtain rfl : used = rule := Option.some.inj (hf.symm.trans hu)
    exact ⟨hf, Finding.reports_attach_ofHit used hit revision⟩

theorem findings_match_of_distinct_ids :
    let book : RuleBook :=
      { rules := [{ id := "A", active := false, severityText := "critical" },
          { id := "B", severityText := "Important" }, { id := "C", severityText := "advice" }] }
    let hits : List Hit :=
      [{ ruleId := "A" }, { ruleId := "B", edits := [{}, { text := "x" }] }, { ruleId := "C" },
        { ruleId := "D" }, { ruleId := "B" }]
    (book.rules.map Rule.id).Nodup ∧
    List.Forall₂ (fun hit finding => ∀ rule ∈ book.enabledRules {}, rule.id = hit.ruleId →
        book.find? hit.ruleId = some rule ∧ finding.Reports rule hit {})
      [{ ruleId := "B", edits := [{}, { text := "x" }] }, { ruleId := "B" }]
      (book.findings hits {} {}) := by
  intro book hits
  have hn : (book.rules.map Rule.id).Nodup := by decide
  have hhits : (hits.filter fun hit => (book.enabledRules {}).any (·.id = hit.ruleId)) =
      [{ ruleId := "B", edits := [{}, { text := "x" }] }, { ruleId := "B" }] := by decide
  obtain ⟨-, hlisted⟩ := book.findings_match_enabledRules hits {} {}
  exact ⟨hn, hhits ▸ hlisted hn⟩

-- where an id occurs twice, a first rule that is off hides an enabled one from the hits
example :
    let book : RuleBook :=
      { rules := [{ id := "A", active := false }, { id := "A", severityText := "critical" }] }
    (book.enabledRules {}).map Rule.id = ["A"] ∧ book.findings [{ ruleId := "A" }] {} {} = [] := by
  decide

end RuleBook

end LintTriage
