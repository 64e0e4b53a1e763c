import LintTriage.Proofs.Settings.Reading

namespace LintTriage

namespace Setting.Kind

def Usable : (kind : Kind) → kind.Value → Prop
  | flag, _ => True
  | filledText, value => value ≠ ""
  | commentStyle, value => value = "line" ∨ value = "block"
  | dayCount, value => 0 ≤ value
  | textList, _ => True

instance : (kind : Kind) → DecidablePred kind.Usable
  | flag, _ => inferInstanceAs (Decidable True)
  | filledText, value => inferInstanceAs (Decidable (value ≠ ""))
  | commentStyle, value => inferInstanceAs (Decidable (value = "line" ∨ value = "block"))
  | dayCount, value => inferInstanceAs (Decidable (0 ≤ value))
  | textList, _ => inferInstanceAs (Decidable True)

theorem usable_of_ofJson? {dump : Json → String} {kind : Kind} {j : Json} {value : kind.Value}
    (h : kind.ofJson? dump j = some value) : kind.Usable value := by
  cases kind with
  | flag | textList => trivial
  | filledText => exact (ofJson?_filledText_eq_some_iff.mp h).2
  | commentStyle => exact (ofJson?_commentStyle_eq_some_iff.mp h).2
  | dayCount => exact Int32.le_iff_toInt_le.mpr (ofJson?_dayCount_eq_some_iff.mp h).2

theorem ofJson?_toJson (dump : Json → String) (kind : Kind) (value : kind.Value) :
    kind.ofJson? dump (kind.toJson value) = if kind.Usable value then some value else none := by
  cases kind with
  | flag => rfl
  | filledText => by_cases h : value = "" <;> simp [ofJson?, toJson, Usable, h]
  | commentStyle =>
    by_cases h : value = "line" ∨ value = "block" <;> simp [ofJson?, toJson, Usable, h]
  | dayCount =>
    have hle : value.toInt ≤ Int32.maxValue.toInt := Int32.toInt_le value
    simp [ofJson?, toJson, Usable, hle, Int32.le_iff_toInt_le]
  | textList => simp [ofJson?, toJson, Usable, Function.comp_def, Json.asText]

end Setting.Kind

def Setting.restricted : List Setting :=
  [guidanceUrl, reviewer, suppressionDays, commentStyle, commentPlacement]

theorem Setting.key_mem_map_iff (setting : Setting) (l : List Setting) :
    setting.key ∈ l.map key ↔ setting ∈ l := by
  simp [key_inj]

namespace Settings

theorem eq_of_get {s t : Settings} (h : ∀ setting, s.get setting = t.get setting) : s = t := by
  rw [← ofValues_get s, ← ofValues_get t, funext h]

def Usable (settings : Settings) (setting : Setting) : Prop :=
  setting.kind.Usable (settings.get setting)

instance (settings : Settings) : DecidablePred settings.Usable :=
  fun setting => inferInstanceAs (Decidable (setting.kind.Usable (settings.get setting)))

section

variable (dump : Json → String)

theorem given?_toJson (settings : Settings) (setting : Setting) :
    setting.given? dump settings.toJson =
      if settings.Usable setting then some (settings.get setting) else none := by
  rw [Setting.given?, member?_toJson]
  exact Setting.Kind.ofJson?_toJson dump _ _

theorem get_validate_toJson (settings : Settings) (setting : Setting) :
    (validate dump settings.toJson).settings.get setting =
      if settings.Usable setting then settings.get setting else shipped.get setting := by
  rw [get_validate, given?_toJson]
  split <;> rfl

theorem fallbacks_validate_toJson (settings : Settings) :
    (validate dump settings.toJson).fallbacks =
      Setting.all.filter fun setting => ¬settings.Usable setting := by
  apply List.filter_congr
  intro setting _
  rw [given?_toJson]
  by_cases h : settings.Usable setting <;> simp [h]

end

theorem mem_restricted_of_not_usable {settings : Settings} {setting : Setting}
    (h : ¬settings.Usable setting) : setting ∈ Setting.restricted := by
  cases setting with
  | guidanceUrl | reviewer | suppressionDays | commentStyle | commentPlacement => decide
  | _ => exact absurd trivial h

theorem filter_not_usable (settings : Settings) :
    (Setting.all.filter fun setting => ¬settings.Usable setting) =
      Setting.restricted.filter fun setting => ¬settings.Usable setting := by
  have hr : Setting.restricted = Setting.all.filter (· ∈ Setting.restricted) := rfl
  rw [hr, List.filter_filter]
  apply List.filter_congr
  intro setting _
  by_cases h : settings.Usable setting
  · simp [h]
  · simp [h, mem_restricted_of_not_usable h]

theorem usable_shipped_iff {setting : Setting} :
    shipped.Usable setting ↔ setting ≠ .reviewer := by
  cases setting <;> decide

theorem settings_validate_toJson_iff (dump : Json → String) {settings : Settings} :
    (validate dump settings.toJson).settings = settings ↔
      ∀ setting, setting ≠ .reviewer → settings.Usable setting := by
  constructor
  · intro h setting hne
    by_cases hu : settings.Usable setting
    · exact hu
    · have hg := get_validate_toJson dump settings setting
      rw [h, if_neg hu] at hg
      rw [Usable, hg]
      exact usable_shipped_iff.mpr hne
  · intro h
    apply eq_of_get
    intro setting
    rw [get_validate_toJson]
    split
    next => rfl
    next hu =>
      -- only the reviewer may be unusable, and is then the empty name that is shipped as well
      obtain rfl : setting = .reviewer := Decidable.not_not.mp fun hne => hu (h setting hne)
      exact (Decidable.not_not.mp hu : settings.reviewer = "").symm

theorem usable_validate_iff {dump : Json → String} {config : Json} {setting : Setting} :
    (validate dump config).settings.Usable setting ↔
      setting ≠ .reviewer ∨ setting ∉ (validate dump config).fallbacks := by
  rw [Usable, get_validate, mem_fallbacks_validate]
  cases hg : setting.given? dump config with
  | none =>
    rw [Option.getD_none, eq_self, not_true, or_false]
    exact usable_shipped_iff
  | some value =>
    obtain ⟨j, -, hj⟩ := Option.bind_eq_some_iff.mp hg
    simp [Setting.Kind.usable_of_ofJson? hj]

theorem validate_toJson (dump : Json → String) (s : Settings) :
    ((validate dump s.toJson).settings = s ↔
      s.guidanceUrl ≠ "" ∧ s.commentPlacement ≠ "" ∧
        (s.commentStyle = "line" ∨ s.commentStyle = "block") ∧ 0 ≤ s.suppressionDays) ∧
    (validate dump s.toJson).fallbacks.map Setting.key =
      (([("guidanceBaseURL", s.guidanceUrl ≠ ""), ("manualReviewerName", s.reviewer ≠ ""),
          ("suppressionDurationInDays", 0 ≤ s.suppressionDays),
          ("suppressionCommentStyle", s.commentStyle = "line" ∨ s.commentStyle = "block"),
          ("suppressionCommentPlacement", s.commentPlacement ≠ "")] : List (String × Bool)).filter
        fun entry => !entry.2).map Prod.fst := by
  constructor
  · rw [settings_validate_toJson_iff]
    constructor
    · intro h
      exact ⟨h .guidanceUrl (by decide), h .commentPlacement (by decide),
        h .commentStyle (by decide), h .suppressionDays (by decide)⟩
    · rintro ⟨hu, hp, hs, hd⟩ setting hne
      cases setting with
      | guidanceUrl => exact hu
      | commentPlacement => exact hp
      | commentStyle => exact hs
      | suppressionDays => exact hd
      | reviewer => contradiction
      | _ => trivial
  · rw [fallbacks_validate_toJson, filter_not_usable]
    change _ = ((Setting.restricted.map fun setting =>
      (setting.key, decide (s.Usable setting))).filter fun entry => !entry.2).map Prod.fst
    rw [List.filter_map, List.map_map]
    simp [Function.comp_def]

theorem fallbacks_validate_toJson_validate (dump : Json → String) (config : Json) :
    (validate dump (validate dump config).settings.toJson).fallbacks =
      [Setting.reviewer].filter fun setting => setting ∈ (validate dump config).fallbacks := by
  have hr : [Setting.reviewer] = Setting.all.filter (· = .reviewer) := rfl
  rw [fallbacks_validate_toJson, hr, List.filter_filter]
  apply List.filter_congr
  intro setting _
  simp [usable_validate_iff, Bool.and_comm]

theorem validate_toJson_validate (dump : Json → String) (config : Json) :
    let first := validate dump config
    let second := validate dump first.settings.toJson
    first.settings.guidanceUrl ≠ "" ∧ first.settings.commentPlacement ≠ "" ∧
    (first.settings.commentStyle = "line" ∨ first.settings.commentStyle = "block") ∧
    0 ≤ first.settings.suppressionDays.toInt ∧
    first.settings.suppressionDays.toInt ≤ Int32.maxValue.toInt ∧
    second.settings = first.settings ∧
    second.fallbacks.map Setting.key =
      if "manualReviewerName" ∈ first.fallbacks.map Setting.key then ["manualReviewerName"]
      else [] := by
  intro first second
  have hu (setting : Setting) (h : setting ≠ .reviewer) : first.settings.Usable setting :=
    usable_validate_iff.mpr (.inl h)
  have hd : 0 ≤ first.settings.suppressionDays := hu .suppressionDays (by decide)
  refine ⟨hu .guidanceUrl (by decide), hu .commentPlacement (by decide),
    hu .commentStyle (by decide), Int32.le_iff_toInt_le.mp hd, Int32.toInt_le _,
    (settings_validate_toJson_iff dump).mpr hu, ?_⟩
  have hk : "manualReviewerName" ∈ first.fallbacks.map Setting.key ↔
      Setting.reviewer ∈ first.fallbacks := Setting.key_mem_map_iff .reviewer first.fallbacks
  have hf : second.fallbacks = [Setting.reviewer].filter (· ∈ first.fallbacks) :=
    fallbacks_validate_toJson_validate dump config
  rw [hf]
  by_cases hr : Setting.reviewer ∈ first.fallbacks
  · rw [if_pos (hk.mpr hr), List.filter_cons_of_pos (by simpa using hr)]
    rfl
  · rw [if_neg (mt hk.mp hr), List.filter_cons_of_neg (by simpa using hr)]
    rfl

end Settings

end LintTriage
