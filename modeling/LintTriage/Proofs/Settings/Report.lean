import LintTriage.Proofs.Settings.RoundTrip

namespace LintTriage

namespace Setting

def Admits : Setting → Json → Prop
  | bestPractice, j | manualReview, j | removeOnClose, j | checkRuleFiles, j | consoleLog, j =>
    ∃ value, j = .bool value
  | guidanceUrl, j | reviewer, j | commentPlacement, j => ∃ value, j = .text value ∧ value ≠ ""
  | commentStyle, j => j = .text "line" ∨ j = .text "block"
  | suppressionDays, j =>
    (∃ n, j = .signed n ∧ 0 ≤ n ∧ n ≤ 2147483647) ∨ ∃ n, j = .unsigned n ∧ n ≤ 2147483647
  | ignoredFiles, j | ignoredRules, j => ∃ items, j = .array items

variable {dump : Json → String} {j : Json}

theorem exists_ofJson?_commentStyle_iff :
    (∃ value, Kind.commentStyle.ofJson? dump j = some value) ↔
      j = .text "line" ∨ j = .text "block" := by
  refine (exists_congr fun value => Kind.ofJson?_commentStyle_eq_some_iff).trans ?_
  simp [and_or_left, exists_or]

theorem exists_ofJson?_dayCount_iff :
    (∃ value, Kind.dayCount.ofJson? dump j = some value) ↔
      (∃ n, j = .signed n ∧ 0 ≤ n ∧ n ≤ 2147483647) ∨ ∃ n, j = .unsigned n ∧ n ≤ 2147483647 := by
  have hd : (∃ value, Kind.dayCount.ofJson? dump j = some value) ↔
      ∃ n, j.integer? = some n ∧ 0 ≤ n ∧ n ≤ 2147483647 := by
    refine (exists_congr fun value => Kind.ofJson?_dayCount_eq_some_iff).trans ?_
    constructor
    · rintro ⟨value, hj, h0⟩
      exact ⟨value.toInt, hj, h0, Int32.toInt_le value⟩
    · rintro ⟨n, hj, h0, hle⟩
      have hn : (Int32.ofInt n).toInt = n := Kind.toInt_ofInt_of_days h0 hle
      exact ⟨Int32.ofInt n, by rw [hn, hj], hn.symm ▸ h0⟩
  rw [hd]
  cases j with
  | unsigned n =>
    have hle : (n : Int) ≤ 2147483647 ↔ n ≤ 2147483647 := by omega
    simp [Json.integer?, hle]
  | _ => simp [Json.integer?]

theorem exists_ofJson?_textList_iff :
    (∃ value, Kind.textList.ofJson? dump j = some value) ↔ ∃ items, j = .array items := by
  refine (exists_congr fun value => Kind.ofJson?_textList_eq_some_iff).trans ?_
  simp

theorem admits_iff (dump : Json → String) {setting : Setting} :
    setting.Admits j ↔ ∃ value, setting.kind.ofJson? dump j = some value := by
  symm
  cases setting with
  | bestPractice | manualReview | removeOnClose | checkRuleFiles | consoleLog =>
    exact exists_congr fun value => Kind.ofJson?_flag_eq_some_iff
  | guidanceUrl | reviewer | commentPlacement =>
    exact exists_congr fun value => Kind.ofJson?_filledText_eq_some_iff
  | commentStyle => exact exists_ofJson?_commentStyle_iff
  | suppressionDays => exact exists_ofJson?_dayCount_iff
  | ignoredFiles | ignoredRules => exact exists_ofJson?_textList_iff

theorem given?_eq_none_iff {setting : Setting} {config : Json} :
    setting.given? dump config = none ↔
      ∀ j, config.member? setting.key = some j → ¬setting.Admits j := by
  rw [given?, Option.bind_eq_none_iff]
  simp only [admits_iff dump, not_exists, Option.eq_none_iff_forall_ne_some]

theorem not_admits_null (setting : Setting) : ¬setting.Admits .null := by
  cases setting <;> simp [Admits]

theorem given?_eq_some_iff (hdump : Json.WritesCompactly dump) {setting : Setting} {config : Json}
    {value : setting.kind.Value} :
    setting.given? dump config = some value ↔
      ∃ j, config.member? setting.key = some j ∧ setting.kind.Gives dump j value := by
  simp [given?, Option.bind_eq_some_iff, Kind.ofJson?_eq_some_iff hdump]

theorem admits_unsigned_iff (n : Nat) :
    suppressionDays.Admits (.unsigned n) ↔ suppressionDays.Admits (.signed n) := by
  rw [admits_iff Json.compact, admits_iff Json.compact, Kind.ofJson?_dayCount_unsigned]

end Setting

namespace Settings

variable {dump : Json → String}

theorem fallbacks_iff {config : Json} {setting : Setting} :
    setting ∈ (validate dump config).fallbacks ↔
      config.isObject = false ∨ config.member? setting.key = none ∨
        config.member? setting.key = some .null ∨
        ∃ j, config.member? setting.key = some j ∧ ¬setting.Admits j := by
  rw [mem_fallbacks_validate, Setting.given?_eq_none_iff]
  constructor
  · intro h
    cases hm : config.member? setting.key with
    | none => exact .inr (.inl rfl)
    | some j => exact .inr (.inr (.inr ⟨j, rfl, h j hm⟩))
  · rintro (ho | hn | hn | ⟨i, hi, ha⟩) j hj
    · rw [Json.isObject_of_member? hj] at ho
      contradiction
    · rw [hn] at hj
      contradiction
    · obtain rfl := Option.some.inj (hn.symm.trans hj)
      exact setting.not_admits_null
    · obtain rfl := Option.some.inj (hi.symm.trans hj)
      exact ha

theorem fallbacks_sublist (dump : Json → String) (config : Json) :
    ((validate dump config).fallbacks.map Setting.key).Sublist (Setting.all.map Setting.key) :=
  List.filter_sublist.map _

theorem validate_exact (hdump : Json.WritesCompactly dump) (config : Json) :
    (∀ setting : Setting,
      (setting.key ∈ (validate dump config).fallbacks.map Setting.key ↔
        config.isObject = false ∨ config.member? setting.key = none ∨
          config.member? setting.key = some .null ∨
          ∃ j, config.member? setting.key = some j ∧ ¬setting.Admits j) ∧
      (setting.key ∈ (validate dump config).fallbacks.map Setting.key →
        (validate dump config).settings.get setting = shipped.get setting) ∧
      (setting.key ∉ (validate dump config).fallbacks.map Setting.key →
        ∃ j, config.member? setting.key = some j ∧
          setting.kind.Gives dump j ((validate dump config).settings.get setting))) ∧
    (∀ n : Nat, Setting.suppressionDays.Admits (.unsigned n) ↔
      Setting.suppressionDays.Admits (.signed n)) ∧
    (∀ negative digits places,
      ¬Setting.suppressionDays.Admits (.decimal negative digits places)) ∧
    ((validate dump config).fallbacks.map Setting.key).Nodup ∧
    ((validate dump config).fallbacks.map Setting.key).Sublist
      ["enableBestPracticeRules", "enableManualReviewRules", "guidanceBaseURL", "ignoreFilesList",
        "ignoreRulesList", "manualReviewerName", "removeFindingsOnClose",
        "suppressionDurationInDays", "suppressionCommentStyle", "suppressionCommentPlacement",
        "validateRulesFiles", "logToConsole"] := by
  have hs := fallbacks_sublist dump config
  refine ⟨?_, Setting.admits_unsigned_iff, ?_, hs.nodup (by decide), hs⟩
  · intro setting
    rw [Setting.key_mem_map_iff]
    refine ⟨fallbacks_iff, ?_, ?_⟩
    · intro h
      rw [get_validate, mem_fallbacks_validate.mp h, Option.getD_none]
    · intro h
      rw [mem_fallbacks_validate] at h
      obtain ⟨value, hv⟩ := Option.ne_none_iff_exists'.mp h
      rw [get_validate, hv, Option.getD_some]
      exact (Setting.given?_eq_some_iff hdump).mp hv
  · intro negative digits places
    simp [Setting.Admits]

theorem validate_exact_of_mixed_list :
    let items : List Json :=
      [.text "a", .array [.unsigned 1, .text "b"], .text "a", .object [("k", .null)]]
    let config : Json :=
      .object [("ignoreFilesList", .array items), ("logToConsole", .unsigned 1)]
    let outcome := validate Json.compact config
    Json.WritesCompactly Json.compact ∧
      "logToConsole" ∈ outcome.fallbacks.map Setting.key ∧
      outcome.settings.consoleLog = shipped.consoleLog ∧
      "ignoreFilesList" ∉ outcome.fallbacks.map Setting.key ∧
      List.Forall₂ (Json.KeptAs Json.compact) items outcome.settings.ignoredFiles ∧
      outcome.settings.ignoredFiles = ["a", "[1,\"b\"]", "a", "\x7b\"k\":null\x7d"] := by
  intro items config outcome
  obtain ⟨hs, -⟩ := validate_exact Json.writesCompactly_compact config
  obtain ⟨hc, hshipped, -⟩ := hs .consoleLog
  obtain ⟨-, -, hgiven⟩ := hs .ignoredFiles
  have hcm : "logToConsole" ∈ outcome.fallbacks.map Setting.key :=
    hc.mpr (.inr (.inr (.inr ⟨.unsigned 1, rfl, by simp [Setting.Admits]⟩)))
  have hfm : "ignoreFilesList" ∉ outcome.fallbacks.map Setting.key := by decide
  obtain ⟨_, hj, listed, rfl, hk⟩ := hgiven hfm
  obtain rfl : items = listed := Json.array.inj (Option.some.inj hj)
  have ho : (Json.object [("k", .null)]).compact = "\x7b\"k\":null\x7d" := by
    rw [Json.compact, Json.compactMembers, Json.compactMembers, List.mergeSort_singleton]
    decide
  refine ⟨Json.writesCompactly_compact, hcm, hshipped hcm, hfm, hk, ?_⟩
  rw [← ho]
  rfl

end Settings

end LintTriage
