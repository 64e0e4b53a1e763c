import LintTriage.Settings
import LintTriage.Proofs.Json.Compact

namespace LintTriage

namespace Json

inductive KeptAs (dump : Json → String) : Json → String → Prop
  | text (s : String) : KeptAs dump (text s) s
  | other {j : Json} (h : ∀ s, j ≠ .text s) (hc : j.CompactText (dump j)) : KeptAs dump j (dump j)

variable {dump : Json → String}

theorem keptAs_iff (hdump : WritesCompactly dump) {j : Json} {s : String} :
    j.KeptAs dump s ↔ j.asText dump = s := by
  constructor
  · intro h
    cases h with
    | text => rfl
    | other h =>
      cases j with
      | text s => exact absurd rfl (h s)
      | _ => rfl
  · rintro rfl
    cases j with
    | text s => exact .text s
    | _ => exact .other (by simp) (compactText_dump hdump _)

theorem forall₂_keptAs_iff (hdump : WritesCompactly dump) {items : List Json}
    {texts : List String} :
    List.Forall₂ (KeptAs dump) items texts ↔ items.map (asText dump) = texts := by
  have hr : KeptAs dump = fun j s => j.asText dump = s := by
    funext j s
    exact propext (keptAs_iff hdump)
  rw [hr, ← List.forall₂_eq_eq_eq, List.forall₂_map_left_iff]

end Json

namespace Setting.Kind

variable {dump : Json → String} {j : Json}

def Gives (dump : Json → String) : (kind : Kind) → Json → kind.Value → Prop
  | flag, j, value => j = .bool value
  | filledText, j, value => j = .text value ∧ value ≠ ""
  | commentStyle, j, value => j = .text value ∧ (value = "line" ∨ value = "block")
  | dayCount, j, value => j.integer? = some value.toInt ∧ 0 ≤ value.toInt
  | textList, j, value => ∃ items, j = .array items ∧ List.Forall₂ (Json.KeptAs dump) items value

theorem ofJson?_flag_eq_some_iff {value : Bool} : flag.ofJson? dump j = some value ↔ j = .bool value := by
  cases j <;> simp [ofJson?]

theorem ofJson?_filledText_eq_some_iff {value : String} :
    filledText.ofJson? dump j = some value ↔ j = .text value ∧ value ≠ "" := by
  cases j with
  | text s =>
    by_cases hs : s = value
    · simp [ofJson?, hs]
    · simp [ofJson?, hs]
  | _ => simp [ofJson?]

theorem ofJson?_commentStyle_eq_some_iff {value : String} :
    commentStyle.ofJson? dump j = some value ↔
      j = .text value ∧ (value = "line" ∨ value = "block") := by
  cases j with
  | text s =>
    by_cases hs : s = value
    · simp [ofJson?, hs, or_iff_not_imp_left]
    · simp [ofJson?, hs]
  | _ => simp [ofJson?]

theorem toInt_ofInt_of_days {n : Int} (h0 : 0 ≤ n) (hle : n ≤ 2147483647) :
    (Int32.ofInt n).toInt = n :=
  Int32.toInt_ofInt_of_le (by omega) (by omega)

theorem ofJson?_dayCount_signed_eq_some_iff {n : Int} {value : Int32} :
    dayCount.ofJson? dump (.signed n) = some value ↔ n = value.toInt ∧ 0 ≤ value.toInt := by
  simp only [ofJson?, Option.ite_none_right_eq_some, Option.some.injEq]
  constructor
  · rintro ⟨⟨h0, hle⟩, rfl⟩
    rw [toInt_ofInt_of_days h0 hle]
    exact ⟨rfl, h0⟩
  · rintro ⟨rfl, h0⟩
    exact ⟨⟨h0, Int32.toInt_le value⟩, Int32.ofInt_toInt value⟩

theorem ofJson?_dayCount_eq_some_iff {value : Int32} :
    dayCount.ofJson? dump j = some value ↔ j.integer? = some value.toInt ∧ 0 ≤ value.toInt := by
  cases j with
  | signed n => simpa [Json.integer?] using ofJson?_dayCount_signed_eq_some_iff
  | unsigned n =>
    rw [ofJson?_dayCount_unsigned]
    simpa [Json.integer?] using ofJson?_dayCount_signed_eq_some_iff
  | _ => simp [ofJson?, Json.integer?]

theorem ofJson?_textList_eq_some_iff {texts : List String} :
    textList.ofJson? dump j = some texts ↔
      ∃ items, j = .array items ∧ items.map (Json.asText dump) = texts := by
  cases j <;> simp [ofJson?]

theorem ofJson?_eq_some_iff (hdump : Json.WritesCompactly dump) {kind : Kind} {value : kind.Value} :
    kind.ofJson? dump j = some value ↔ kind.Gives dump j value := by
  cases kind with
  | flag => exact ofJson?_flag_eq_some_iff
  | filledText => exact ofJson?_filledText_eq_some_iff
  | commentStyle => exact ofJson?_commentStyle_eq_some_iff
  | dayCount => exact ofJson?_dayCount_eq_some_iff
  | textList =>
    simp only [Gives, Json.forall₂_keptAs_iff hdump]
    exact ofJson?_textList_eq_some_iff

end Setting.Kind

end LintTriage
