import LintTriage.Finding

namespace LintTriage

structure Settings.AtMost (s t : Settings) : Prop where
  bestPractice : s.bestPractice = true → t.bestPractice = true
  manualReview : s.manualReview = true → t.manualReview = true
  ignoredRules : t.ignoredRules ⊆ s.ignoredRules

def Settings.allOpen (settings : Settings) : Settings :=
  { settings with bestPractice := true, manualReview := true, ignoredRules := [] }

theorem Settings.atMost_allOpen (settings : Settings) : settings.AtMost settings.allOpen where
  bestPractice _ := rfl
  manualReview _ := rfl
  ignoredRules := List.nil_subset _

def Finding.isAdmitted (finding : Finding) (settings : Settings) : Bool :=
  finding.severity.isEnabled settings ∧ finding.ruleId ∉ settings.ignoredRules

theorem Finding.isAdmitted_iff {finding : Finding} {settings : Settings} :
    finding.isAdmitted settings = true ↔
      finding.severity.isEnabled settings = true ∧ finding.ruleId ∉ settings.ignoredRules := by
  simp [isAdmitted]

theorem Finding.isAdmitted_attach_ofHit_iff {rule : Rule} {hit : Hit} {revision : Revision}
    {settings : Settings} :
    ((ofHit rule hit revision.filePath).attach rule hit revision.version).isAdmitted settings =
        true ↔ rule.severity.isEnabled settings = true ∧ rule.id ∉ settings.ignoredRules := by
  rw [isAdmitted_iff]
  simp only [attach, ofHit, ofDraft, Option.getD_some]

section

variable {s t : Settings} (h : s.AtMost t)

include h

theorem Severity.isEnabled_of_atMost {severity : Severity}
    (hs : severity.isEnabled s = true) : severity.isEnabled t = true := by
  rw [isEnabled] at hs ⊢
  cases hg : severity.gate with
  | alwaysOn => rfl
  | bestPractice =>
    rw [hg] at hs
    exact h.bestPractice hs
  | manualReview =>
    rw [hg] at hs
    exact h.manualReview hs

theorem Rule.isEnabled_iff_of_atMost (rule : Rule) :
    rule.isEnabled s = true ↔ rule.isEnabled t = true ∧
      rule.severity.isEnabled s = true ∧ rule.id ∉ s.ignoredRules := by
  rw [isEnabled_iff, isEnabled_iff]
  constructor
  · rintro ⟨ha, hs, hi⟩
    exact ⟨⟨ha, Severity.isEnabled_of_atMost h hs, fun hm => hi (h.ignoredRules hm)⟩, hs, hi⟩
  · rintro ⟨⟨ha, -⟩, hs, hi⟩
    exact ⟨ha, hs, hi⟩

namespace RuleBook

theorem finding?_eq_filter (book : RuleBook) (revision : Revision) (hit : Hit) :
    book.finding? s revision hit =
      (book.finding? t revision hit).filter (·.isAdmitted s) := by
  rw [finding?, finding?]
  cases book.find? hit.ruleId with
  | none => rfl
  | some rule =>
    have hiff := Rule.isEnabled_iff_of_atMost h rule
    by_cases ht : rule.isEnabled t = true
    · simp [hiff, ht, Finding.isAdmitted_attach_ofHit_iff, Option.filter_some]
    · simp [hiff, ht]

theorem findings_eq_filter (book : RuleBook) (hits : List Hit) (revision : Revision) :
    book.findings hits s revision =
      (book.findings hits t revision).filter (·.isAdmitted s) := by
  rw [findings, findings, List.filter_filterMap]
  exact congrArg (hits.filterMap ·) (funext (finding?_eq_filter h book revision))

end RuleBook

end

theorem RuleBook.findings_gated (book : RuleBook) (hits : List Hit) (settings : Settings)
    (revision : Revision) :
    let findings := fun s => book.findings hits s revision
    findings settings = (findings settings.allOpen).filter (·.isAdmitted settings) ∧
    (∀ other : Settings, other.bestPractice = settings.bestPractice →
      other.manualReview = settings.manualReview →
      (∀ id, id ∈ other.ignoredRules ↔ id ∈ settings.ignoredRules) →
        findings other = findings settings) ∧
    ∀ opened : Settings, settings.AtMost opened →
      (findings settings).Sublist (findings opened) ∧
      findings settings = (findings opened).filter (·.isAdmitted settings) := by
  intro findings
  have hfilter {s t : Settings} (h : s.AtMost t) :
      findings s = (findings t).filter (·.isAdmitted s) :=
    findings_eq_filter h book hits revision
  have hsub {s t : Settings} (h : s.AtMost t) : (findings s).Sublist (findings t) := by
    rw [hfilter h]
    exact List.filter_sublist
  have hopen := hfilter settings.atMost_allOpen
  refine ⟨hopen, ?_, fun opened h => ⟨hsub h, hfilter h⟩⟩
  intro other hb hm hi
  have hle : other.AtMost settings := ⟨fun h => hb ▸ h, fun h => hm ▸ h, fun id h => (hi id).mpr h⟩
  have hge : settings.AtMost other := ⟨fun h => hb ▸ h, fun h => hm ▸ h, fun id h => (hi id).mp h⟩
  exact (hsub hle).eq_of_length_le (hsub hge).length_le

theorem RuleBook.findings_of_opened_gate :
    let book : RuleBook :=
      { rules := [{ id := "A", severityText := "Critical" }, { id := "B" },
          { id := "A", severityText := "manual-review" },
          { id := "C", severityText := "moderate" }] }
    let hits : List Hit := [{ ruleId := "B" }, { ruleId := "A" }, { ruleId := "C" }]
    let closed : Settings := { ignoredRules := ["C"] }
    let opened : Settings := { bestPractice := true }
    closed.AtMost opened ∧
    (book.findings hits closed {}).Sublist (book.findings hits opened {}) ∧
    book.findings hits closed {} = (book.findings hits opened {}).filter (·.isAdmitted closed) := by
  intro book hits closed opened
  have h : closed.AtMost opened := ⟨by decide, by decide, by decide⟩
  obtain ⟨-, -, hopen⟩ := book.findings_gated hits closed {}
  exact ⟨h, hopen opened h⟩

end LintTriage
