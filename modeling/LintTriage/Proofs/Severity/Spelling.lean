import Mathlib.Data.List.Forall2
import LintTriage.Proofs.Finding.Enabled

namespace LintTriage.Text

def IsCapitalOf (c d : Char) : Prop :=
  'A' ≤ c ∧ c ≤ 'Z' ∧ d.toNat = c.toNat + 32

def SameLetter (c d : Char) : Prop :=
  c = d ∨ IsCapitalOf c d ∨ IsCapitalOf d c

def SameButCase (s t : String) : Prop :=
  List.Forall₂ SameLetter s.toList t.toList

theorem isCapitalOf_iff {c d : Char} :
    IsCapitalOf c d ↔ 65 ≤ c.toNat ∧ c.toNat ≤ 90 ∧ d.toNat = c.toNat + 32 :=
  Iff.rfl

theorem toNat_toLower (c : Char) :
    c.toLower.toNat = if 65 ≤ c.toNat ∧ c.toNat ≤ 90 then c.toNat + 32 else c.toNat := by
  by_cases hn : 65 ≤ c.toNat ∧ c.toNat ≤ 90
  · have hcapital : c.val ≥ 'A'.val ∧ c.val ≤ 'Z'.val := hn
    have hl : c.toLower.toNat = (c.val + 32).toNat := congrArg Char.toNat (dif_pos hcapital)
    have hlt : c.val.toNat + 32 < 2 ^ 32 :=
      Nat.lt_of_le_of_lt (Nat.add_le_add_right hn.2 32) (by decide)
    rw [hl, if_pos hn, UInt32.toNat_add]
    exact Nat.mod_eq_of_lt hlt
  · have hcapital : ¬(c.val ≥ 'A'.val ∧ c.val ≤ 'Z'.val) := hn
    have hl : c.toLower = c := dif_neg hcapital
    rw [hl, if_neg hn]

theorem sameLetter_iff {c d : Char} : SameLetter c d ↔ c.toLower = d.toLower := by
  rw [SameLetter, isCapitalOf_iff, isCapitalOf_iff, ← Char.toNat_inj, ← Char.toNat_inj,
    toNat_toLower, toNat_toLower]
  split <;> split <;> omega

theorem sameButCase_iff {s t : String} : SameButCase s t ↔ lower s = lower t := by
  have h : SameLetter = fun c d => c.toLower = d.toLower := by
    funext c d
    exact propext sameLetter_iff
  rw [SameButCase, h, ← String.toList_inj, toList_lower, toList_lower, ← List.forall₂_eq_eq_eq,
    List.forall₂_map_left_iff, List.forall₂_map_right_iff]

end LintTriage.Text

namespace LintTriage.Severity

def spellings : List (Severity × String) :=
  [(critical, "critical"), (important, "important"), (moderate, "moderate"),
    (manualReview, "manual-review")]

theorem ofText_of_lower_eq {t : String} {entry : Severity × String} (he : entry ∈ spellings)
    (h : Text.lower t = entry.2) : ofText t = entry.1 := by
  rw [ofText, h]
  simp only [spellings, List.mem_cons, List.not_mem_nil, or_false] at he
  rcases he with rfl | rfl | rfl | rfl <;> rfl

theorem ofText_of_lower_ne {t : String} (h : ∀ entry ∈ spellings, Text.lower t ≠ entry.2) :
    ofText t = bestPractice := by
  simp only [spellings, List.forall_mem_cons] at h
  obtain ⟨hc, hi, hm, hr, -⟩ := h
  rw [ofText]
  split
  next he => exact absurd he hc
  next he => exact absurd he hi
  next he => exact absurd he hm
  next he => exact absurd he hr
  next => rfl

theorem sameButCase_spelling_iff {t : String} {entry : Severity × String}
    (he : entry ∈ spellings) : Text.SameButCase t entry.2 ↔ Text.lower t = entry.2 := by
  have hl : ∀ entry ∈ spellings, Text.lower entry.2 = entry.2 := by decide
  rw [Text.sameButCase_iff, hl entry he]

theorem ofText_cases (t : String) :
    (∃ entry ∈ spellings, Text.SameButCase t entry.2 ∧ ofText t = entry.1) ∨
      (∀ entry ∈ spellings, ¬Text.SameButCase t entry.2) ∧ ofText t = bestPractice := by
  by_cases h : ∃ entry ∈ spellings, Text.SameButCase t entry.2
  · obtain ⟨entry, he, hs⟩ := h
    exact .inl ⟨entry, he, hs, ofText_of_lower_eq he ((sameButCase_spelling_iff he).mp hs)⟩
  · have hn : ∀ entry ∈ spellings, ¬Text.SameButCase t entry.2 := fun entry he hs => h ⟨entry, he, hs⟩
    refine .inr ⟨hn, ofText_of_lower_ne fun entry he => ?_⟩
    exact mt (sameButCase_spelling_iff he).mpr (hn entry he)

theorem ofText_eq_spelled_iff {t : String} {entry : Severity × String} (he : entry ∈ spellings) :
    ofText t = entry.1 ↔ Text.SameButCase t entry.2 := by
  constructor
  · intro h
    rcases ofText_cases t with ⟨other, ho, hs, ht⟩ | ⟨-, ht⟩
    · have hinj : ∀ a ∈ spellings, ∀ b ∈ spellings, a.1 = b.1 → a.2 = b.2 := by decide
      rwa [hinj entry he other ho (h.symm.trans ht)]
    · have hb : ∀ entry ∈ spellings, entry.1 ≠ bestPractice := by decide
      exact absurd (h.symm.trans ht) (hb entry he)
  · intro hs
    exact ofText_of_lower_eq he ((sameButCase_spelling_iff he).mp hs)

theorem ofText_eq_bestPractice_iff {t : String} :
    ofText t = bestPractice ↔ ∀ entry ∈ spellings, ¬Text.SameButCase t entry.2 := by
  rcases ofText_cases t with ⟨entry, he, hs, ht⟩ | ⟨hn, ht⟩
  · have hb : ∀ entry ∈ spellings, entry.1 ≠ bestPractice := by decide
    rw [ht]
    exact iff_of_false (hb entry he) fun hn => hn entry he hs
  · exact iff_of_true ht hn

theorem ofText_ne_warningInfo (t : String) : ofText t ≠ warningInfo := by
  rcases ofText_cases t with ⟨entry, he, -, ht⟩ | ⟨-, ht⟩
  · have hw : ∀ entry ∈ spellings, entry.1 ≠ warningInfo := by decide
    rw [ht]
    exact hw entry he
  · rw [ht]
    decide

theorem ofText_congr {s t : String} (h : Text.SameButCase s t) : ofText s = ofText t := by
  rw [ofText, ofText, Text.sameButCase_iff.mp h]

theorem level_of_isEnabled_ofText {t : String} {settings : Settings}
    (h : (ofText t).isEnabled settings = true) :
    (ofText t).level = .error ∨ (ofText t).level = .warning ∧ settings.bestPractice = true ∨
      (ofText t).level = .information ∧ settings.manualReview = true := by
  rcases ofText_cases t with ⟨entry, he, -, ht⟩ | ⟨-, ht⟩
  · simp only [spellings, List.mem_cons, List.not_mem_nil, or_false] at he
    rw [ht] at h ⊢
    rcases he with rfl | rfl | rfl | rfl
    · exact .inl rfl
    · exact .inl rfl
    · exact .inl rfl
    · exact .inr (.inr ⟨rfl, h⟩)
  · rw [ht] at h ⊢
    exact .inr (.inl ⟨rfl, h⟩)

end LintTriage.Severity

namespace LintTriage

theorem RuleBook.exists_severity_of_mem_findings {book : RuleBook} {hits : List Hit}
    {settings : Settings} {revision : Revision} {finding : Finding}
    (h : finding ∈ book.findings hits settings revision) :
    ∃ t, finding.severity = .ofText t ∧ (Severity.ofText t).isEnabled settings = true := by
  obtain ⟨hit, -, rule, -, he, rfl⟩ := mem_findings_iff.mp h
  obtain ⟨-, hs, -⟩ := Rule.isEnabled_iff.mp he
  exact ⟨rule.severityText, (Finding.reports_attach_ofHit rule hit revision).severity, hs⟩

theorem Severity.ofText_to_level :
    (∀ t, (∀ entry ∈ spellings, ofText t = entry.1 ↔ Text.SameButCase t entry.2) ∧
      (ofText t = .bestPractice ↔ ∀ entry ∈ spellings, ¬Text.SameButCase t entry.2) ∧
      ofText t ≠ .warningInfo) ∧
    (∀ s t, Text.SameButCase s t → ofText s = ofText t) ∧
    ∀ (book : RuleBook) (hits : List Hit) (settings : Settings) (revision : Revision),
      ∀ finding ∈ book.findings hits settings revision,
        let level := (finding.diagnostic settings).level
        level = .error ∨ level = .warning ∧ settings.bestPractice = true ∨
          level = .information ∧ settings.manualReview = true := by
  refine ⟨fun t => ⟨?_, ofText_eq_bestPractice_iff, ofText_ne_warningInfo t⟩, ?_, ?_⟩
  · intro entry he
    exact ofText_eq_spelled_iff he
  · intro s t h
    exact ofText_congr h
  · intro book hits settings revision finding hf
    obtain ⟨t, hs, he⟩ := RuleBook.exists_severity_of_mem_findings hf
    rw [Finding.diagnostic, hs]
    exact level_of_isEnabled_ofText he

end LintTriage
