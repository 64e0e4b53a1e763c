import Mathlib.Data.List.DropRight
import LintTriage.RulesFolder

namespace LintTriage.Text

def IsBlankChar (c : Char) : Prop :=
  c = ' ' ∨ c = '\t' ∨ c = '\n' ∨ c = '\r'

def IsBlank (s : String) : Prop :=
  ∀ c ∈ s.toList, IsBlankChar c

def IsTight (s : String) : Prop :=
  ∀ c, s.toList.head? = some c ∨ s.toList.getLast? = some c → ¬IsBlankChar c

def TrimsTo (s t : String) : Prop :=
  ∃ lead trail, s = lead ++ t ++ trail ∧ IsBlank lead ∧ IsBlank trail ∧ IsTight t

theorem isWhitespace_iff {c : Char} : c.isWhitespace = true ↔ IsBlankChar c := by
  simp [Char.isWhitespace, IsBlankChar, or_assoc, or_comm, or_left_comm]

theorem isBlank_iff {s : String} : IsBlank s ↔ ∀ c ∈ s.toList, c.isWhitespace = true := by
  simp only [IsBlank, isWhitespace_iff]

theorem toList_trim_eq_rdropWhile (s : String) : (trim s).toList =
    (s.toList.dropWhile Char.isWhitespace).rdropWhile Char.isWhitespace :=
  toList_trim s

theorem trim_blank_append {lead : String} (h : IsBlank lead) (s : String) :
    trim (lead ++ s) = trim s := by
  apply String.toList_inj.mp
  rw [toList_trim, toList_trim, String.toList_append,
    List.dropWhile_append_of_pos (isBlank_iff.mp h)]

theorem trim_append_blank {trail : String} (h : IsBlank trail) (s : String) :
    trim (s ++ trail) = trim s := by
  have ht : ∀ c ∈ trail.toList.reverse, c.isWhitespace = true := by
    simpa using isBlank_iff.mp h
  apply String.toList_inj.mp
  rw [toList_trim, toList_trim, String.toList_append, List.dropWhile_append]
  split
  next he =>
    rw [List.isEmpty_iff.mp he, List.dropWhile_eq_nil_iff.mpr (isBlank_iff.mp h)]
  next => rw [List.reverse_append, List.dropWhile_append_of_pos ht]

theorem trim_of_isTight {s : String} (h : IsTight s) : trim s = s := by
  have hhead : s.toList.dropWhile Char.isWhitespace = s.toList := by
    cases hs : s.toList with
    | nil => rfl
    | cons c l =>
      have hc : ¬IsBlankChar c := h c (.inl (by rw [hs, List.head?_cons]))
      exact List.dropWhile_cons_of_neg (mt isWhitespace_iff.mp hc)
  apply String.toList_inj.mp
  rw [toList_trim_eq_rdropWhile, hhead, List.rdropWhile_eq_self_iff]
  intro hne
  exact mt isWhitespace_iff.mp (h _ (.inr (List.getLast?_eq_some_getLast hne)))

theorem isTight_trim (s : String) : IsTight (trim s) := by
  intro c hc
  rw [toList_trim_eq_rdropWhile] at hc
  rw [← isWhitespace_iff]
  rcases hc with hc | hc
  · obtain ⟨rest, hr⟩ := List.rdropWhile_prefix Char.isWhitespace
      (s.toList.dropWhile Char.isWhitespace)
    have hd := List.head?_dropWhile_not Char.isWhitespace s.toList
    rw [← hr, List.head?_append, hc] at hd
    exact Bool.eq_false_iff.mp hd
  · have hne := List.ne_nil_of_mem (List.mem_of_getLast? hc)
    rw [List.getLast?_eq_some_getLast hne] at hc
    rw [← Option.some.inj hc]
    exact List.rdropWhile_last_not _ _ hne

theorem trimsTo_trim (s : String) : TrimsTo s (trim s) := by
  let tail := s.toList.dropWhile Char.isWhitespace
  refine ⟨String.ofList (s.toList.takeWhile Char.isWhitespace),
    String.ofList (tail.rtakeWhile Char.isWhitespace), ?_, ?_, ?_, isTight_trim s⟩
  · apply String.toList_inj.mp
    simp only [String.toList_append, String.toList_ofList, toList_trim_eq_rdropWhile]
    rw [List.append_assoc, List.rdropWhile_append_rtakeWhile, List.takeWhile_append_dropWhile]
  · rw [isBlank_iff, String.toList_ofList]
    intro c hc
    exact List.mem_takeWhile_imp hc
  · rw [isBlank_iff, String.toList_ofList]
    intro c hc
    exact List.mem_rtakeWhile_imp hc

theorem trimsTo_iff {s t : String} : TrimsTo s t ↔ t = trim s := by
  constructor
  · rintro ⟨lead, trail, rfl, hl, ht, h⟩
    rw [trim_append_blank ht, trim_blank_append hl, trim_of_isTight h]
  · rintro rfl
    exact trimsTo_trim s

theorem trim_trim (s : String) : trim (trim s) = trim s :=
  trim_of_isTight (isTight_trim s)

end LintTriage.Text

namespace LintTriage.RulesFolder

theorem resolve_of_usable {override : String} (h : Text.trim override ≠ "")
    (hu : Text.trim override ≠ "undefined") (installDir : String) :
    resolve (some override) installDir = { path := Text.trim override, origin := .override } := by
  rw [resolve, Option.bind_some, usable?, if_neg (not_or.mpr ⟨h, hu⟩)]

theorem resolve_of_unusable {override : String}
    (h : Text.trim override = "" ∨ Text.trim override = "undefined") (installDir : String) :
    resolve (some override) installDir = resolve none installDir := by
  rw [resolve, Option.bind_some, usable?, if_pos h, resolve, Option.bind_none]

theorem resolve_congr_trim {override other : String} (h : Text.trim override = Text.trim other)
    (installDir : String) :
    resolve (some override) installDir = resolve (some other) installDir := by
  rw [resolve, resolve, Option.bind_some, Option.bind_some, usable?, usable?, h]

theorem resolve_override (override : String) :
    (∀ path, Text.TrimsTo override path ↔ path = Text.trim override) ∧
    (∀ installDir, (resolve (some override) installDir).origin = .override ↔
      Text.trim override ≠ "" ∧ Text.trim override ≠ "undefined") ∧
    (∀ installDir, Text.trim override ≠ "" → Text.trim override ≠ "undefined" →
      resolve (some override) installDir = { path := Text.trim override, origin := .override }) ∧
    (∀ installDir, Text.trim override = "" ∨ Text.trim override = "undefined" →
      resolve (some override) installDir = resolve none installDir) ∧
    (∀ lead trail, Text.IsBlank lead → Text.IsBlank trail → ∀ installDir,
      resolve (some (lead ++ override ++ trail)) installDir =
        resolve (some override) installDir) ∧
    Text.trim (Text.trim override) = Text.trim override := by
  refine ⟨fun path => Text.trimsTo_iff, ?_, ?_, ?_, ?_, Text.trim_trim override⟩
  · intro installDir
    by_cases h : Text.trim override = "" ∨ Text.trim override = "undefined"
    · rw [resolve_of_unusable h, ← not_or]
      exact iff_of_false Origin.noConfusion (not_not_intro h)
    · rw [not_or] at h
      rw [resolve_of_usable h.1 h.2]
      exact iff_of_true rfl h
  · intro installDir h hu
    exact resolve_of_usable h hu installDir
  · intro installDir h
    exact resolve_of_unusable h installDir
  · intro lead trail hl ht installDir
    apply resolve_congr_trim
    rw [Text.trim_append_blank ht, Text.trim_blank_append hl]

end LintTriage.RulesFolder
