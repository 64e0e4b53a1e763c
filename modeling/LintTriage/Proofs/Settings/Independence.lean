import LintTriage.Settings

namespace LintTriage

variable {dump : Json → String}

theorem Setting.given?_congr {setting : Setting} {p q : Json}
    (h : p.member? setting.key = q.member? setting.key) :
    setting.given? dump p = setting.given? dump q := by
  rw [given?, given?, h]

theorem Setting.given?_of_absent {setting : Setting} {config : Json}
    (h : config.member? setting.key = none ∨ config.member? setting.key = some .null) :
    setting.given? dump config = none := by
  rcases h with h | h <;> rw [given?, h]
  · rfl
  · cases setting <;> rfl

namespace Settings

theorem fallbacks_filter_comm (p q : Json) :
    ((validate dump p).fallbacks.filter fun setting => setting ∈ (validate dump q).fallbacks) =
      (validate dump q).fallbacks.filter fun setting => setting ∈ (validate dump p).fallbacks := by
  simp only [mem_fallbacks_validate]
  unfold validate
  simp only [List.filter_filter]
  apply List.filter_congr
  intro setting _
  cases setting.given? dump p <;> cases setting.given? dump q <;> rfl

theorem validate_eq_of_given? {p q : Json}
    (h : ∀ setting : Setting, setting.given? dump p = setting.given? dump q) :
    validate dump p = validate dump q := by
  simp only [validate, h]

section

variable {p q : Json} {key : String} (h : ∀ other, other ≠ key → p.member? other = q.member? other)

include h

theorem fallbacks_filter_key_ne :
    ((validate dump p).fallbacks.filter fun setting => setting.key ≠ key) =
      (validate dump q).fallbacks.filter fun setting => setting.key ≠ key := by
  unfold validate
  simp only [List.filter_filter]
  apply List.filter_congr
  intro setting _
  by_cases hk : setting.key = key
  · simp [hk]
  · rw [Setting.given?_congr (h _ hk)]

theorem validate_eq_of_foreign_or_absent
    (hk : key ∉ Setting.all.map Setting.key ∨
      (p.member? key = none ∨ p.member? key = some .null) ∧
        (q.member? key = none ∨ q.member? key = some .null)) :
    validate dump p = validate dump q := by
  apply validate_eq_of_given?
  intro setting
  by_cases hs : setting.key = key
  · subst hs
    rcases hk with hk | ⟨hp, hq⟩
    · exact absurd (List.mem_map_of_mem setting.mem_all) hk
    · rw [Setting.given?_of_absent hp, Setting.given?_of_absent hq]
  · exact Setting.given?_congr (h _ hs)

theorem validate_of_one_member_changed :
    (∀ setting : Setting, setting.key ≠ key →
      (validate dump p).settings.get setting = (validate dump q).settings.get setting ∧
      (setting ∈ (validate dump p).fallbacks ↔ setting ∈ (validate dump q).fallbacks)) ∧
    ((validate dump p).fallbacks.filter fun setting => setting.key ≠ key) =
      ((validate dump q).fallbacks.filter fun setting => setting.key ≠ key) ∧
    ((validate dump p).fallbacks.filter fun setting => setting ∈ (validate dump q).fallbacks) =
      ((validate dump q).fallbacks.filter fun setting => setting ∈ (validate dump p).fallbacks) ∧
    (key ∉ Setting.all.map Setting.key ∨
        (p.member? key = none ∨ p.member? key = some .null) ∧
          (q.member? key = none ∨ q.member? key = some .null) →
      validate dump p = validate dump q) := by
  refine ⟨?_, fallbacks_filter_key_ne h, fallbacks_filter_comm p q,
    validate_eq_of_foreign_or_absent h⟩
  intro setting hs
  have hg : setting.given? dump p = setting.given? dump q := Setting.given?_congr (h _ hs)
  rw [get_validate, get_validate, mem_fallbacks_validate, mem_fallbacks_validate, hg]
  exact ⟨rfl, Iff.rfl⟩

end

theorem validate_of_console_flag_changed :
    let days : String × Json := ("suppressionDurationInDays", .signed 7)
    let p : Json := .object [days, ("logToConsole", .bool true)]
    let q : Json := .object [("logToConsole", .signed 1), days]
    (∀ other, other ≠ "logToConsole" → p.member? other = q.member? other) ∧
      (validate Json.compact p).settings.suppressionDays = (validate Json.compact q).settings.suppressionDays ∧
      (.suppressionDays ∈ (validate Json.compact p).fallbacks ↔ .suppressionDays ∈ (validate Json.compact q).fallbacks) ∧
      ((validate Json.compact p).fallbacks.filter fun setting => setting.key ≠ "logToConsole") =
        (validate Json.compact q).fallbacks.filter fun setting => setting.key ≠ "logToConsole" := by
  intro days p q
  have h : ∀ other, other ≠ "logToConsole" → p.member? other = q.member? other := by
    intro other ho
    have hb : (other == "logToConsole") = false := by simpa using ho
    simp only [p, q, days, Json.member?_object, List.lookup_cons, hb]
  obtain ⟨hg, hf, -⟩ := validate_of_one_member_changed h
  obtain ⟨hv, hm⟩ := hg .suppressionDays (by decide)
  exact ⟨h, hv, hm, hf⟩

end Settings

end LintTriage
