import LintTriage.Proofs.Numeral
import LintTriage.Finding

namespace LintTriage

theorem Range.toList_bracketed_append (range : Range) (text : String) :
    (range.bracketed ++ text).toList =
      '[' :: ((toString range.start.line.toInt).toList ++
        ',' :: ((toString range.start.character.toInt).toList ++
        ',' :: ((toString range.stop.line.toInt).toList ++
        ',' :: ((toString range.stop.character.toInt).toList ++ ']' :: text.toList)))) := by
  simp [bracketed]

theorem Range.bracketed_append_inj {r s : Range} {a b : String} :
    r.bracketed ++ a = s.bracketed ++ b ↔ r = s ∧ a = b := by
  refine ⟨fun h => ?_, fun ⟨hr, ha⟩ => by rw [hr, ha]⟩
  have hl := congrArg String.toList h
  rw [toList_bracketed_append, toList_bracketed_append, List.cons_inj_right] at hl
  obtain ⟨h₁, hl⟩ := Numeral.eq_of_toString_append_cons (by decide) (by decide) hl
  obtain ⟨h₂, hl⟩ := Numeral.eq_of_toString_append_cons (by decide) (by decide) hl
  obtain ⟨h₃, hl⟩ := Numeral.eq_of_toString_append_cons (by decide) (by decide) hl
  obtain ⟨h₄, hl⟩ := Numeral.eq_of_toString_append_cons (by decide) (by decide) hl
  rw [Int64.toInt_inj] at h₁ h₂ h₃ h₄
  obtain ⟨⟨_, _⟩, ⟨_, _⟩⟩ := r
  obtain ⟨⟨_, _⟩, ⟨_, _⟩⟩ := s
  simp_all [String.toList_inj]

namespace Site

def extend (site : Site) (number : Nat) : Site :=
  { site with code := site.code ++ toString number }

theorem key_inj {s t : Site} : s.key = t.key ↔ s = t := by
  cases s
  cases t
  simp [key, String.append_assoc, Range.bracketed_append_inj]

theorem numberedKey_eq_iff {s t : Site} {m n : Nat} :
    s.numberedKey m = t.numberedKey n ↔
      s.range = t.range ∧ s.code ++ toString m = t.code ++ toString n := by
  simp [numberedKey, key, String.append_assoc, Range.bracketed_append_inj]

theorem numberedKey_inj {site : Site} {m n : Nat} :
    site.numberedKey m = site.numberedKey n ↔ m = n := by
  rw [numberedKey, numberedKey, String.append_right_inj]
  exact Nat.repr_inj

theorem numberedKey_extend (site : Site) {number : Nat} (h : 0 < number) :
    (site.extend number).numberedKey 0 = site.numberedKey (10 * number) := by
  rw [numberedKey_eq_iff, Numeral.toString_ten_mul h]
  simp [extend, String.append_assoc]

example : Site.numberedKey { code := "A1" } 0 = Site.numberedKey { code := "A" } 10 := by decide

theorem numberedKey_cases {s t : Site} {m n : Nat} (h : s.numberedKey m = t.numberedKey n) :
    (s = t ∧ m = n) ∨ (∃ j, 0 < j ∧ 10 * j ≤ m ∧ t = s.extend j) ∨
      ∃ j, 0 < j ∧ 10 * j ≤ n ∧ s = t.extend j := by
  obtain ⟨hr, hc⟩ := numberedKey_eq_iff.mp h
  cases s
  cases t
  obtain rfl : _ = _ := hr
  simpa [extend] using Numeral.append_toString_cases hc

theorem keys_coincide_iff (r₁ r₂ : Range) (c₁ c₂ : String) (s₁ s₂ : Nat) :
    (key ⟨r₁, c₁⟩ = key ⟨r₂, c₂⟩ ↔ r₁ = r₂ ∧ c₁ = c₂) ∧
    (numberedKey ⟨r₁, c₁⟩ s₁ = numberedKey ⟨r₂, c₂⟩ s₂ ↔
      r₁ = r₂ ∧ c₁ ++ toString s₁ = c₂ ++ toString s₂) ∧
    (c₁ ++ toString s₁ = c₂ ++ toString s₂ ↔
      (c₁ = c₂ ∧ s₁ = s₂) ∨ ∃ digits, Numeral.IsPositive digits ∧
        ((c₂ = c₁ ++ digits ∧ toString s₁ = digits ++ toString s₂) ∨
          (c₁ = c₂ ++ digits ∧ toString s₂ = digits ++ toString s₁))) := by
  refine ⟨?_, numberedKey_eq_iff, Numeral.append_toString_eq_iff⟩
  rw [key_inj, Site.mk.injEq]

theorem code_extend_ne (site : Site) (number : Nat) :
    (site.extend number).code ≠ site.code := by
  simp [extend]

theorem extend_ne (site : Site) (number : Nat) : site.extend number ≠ site := by
  intro h
  exact code_extend_ne site number (congrArg code h)

end Site

end LintTriage
