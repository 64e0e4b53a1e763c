import LintTriage.Proofs.Path.Names
import LintTriage.Proofs.Path.Reduction

namespace LintTriage.Path

theorem normalNames_eq_reduced (path : String) :
    normalNames path = reduced (isAbsolute path) (names path) := rfl

theorem not_mem_of_mem_normalNames {path name : String} (h : name ∈ normalNames path) :
    '/' ∉ name.toList :=
  not_mem_of_mem_names ((reduced_sublist _ _).subset h)

theorem ne_empty_of_mem_reduced {absolute : Bool} {l : List String} {name : String}
    (h : name ∈ reduced absolute l) : name ≠ "" ∧ name ≠ "." := by
  obtain ⟨ups, down, hr, hd, -⟩ := reduced_shape absolute l
  rw [hr, List.mem_append] at h
  rcases h with h | h
  · rw [List.eq_of_mem_replicate h]
    decide
  · exact ⟨(hd name h).1, (hd name h).2.1⟩

theorem names_normal {path : String} (h : normalNames path ≠ []) :
    names (normal path) = (if isAbsolute path then [""] else []) ++ normalNames path := by
  have hn : names ("/".intercalate (normalNames path)) = normalNames path :=
    names_intercalate h fun _ => not_mem_of_mem_normalNames
  have hr : names ("/" ++ "/".intercalate (normalNames path)) =
      [""] ++ names ("/".intercalate (normalNames path)) :=
    names_append_slash_append "" ("/".intercalate (normalNames path))
  rw [normal]
  split
  · rw [hr, hn]
  · rw [String.empty_append, hn, List.nil_append]

theorem isAbsolute_normal (path : String) : isAbsolute (normal path) = isAbsolute path := by
  rw [normal]
  split
  next h => rw [isAbsolute_append (by decide), h]; rfl
  next h =>
    rw [String.empty_append, Bool.eq_false_iff.mpr h]
    cases hn : normalNames path with
    | nil => rfl
    | cons name rest =>
      have hm : name ∈ normalNames path := hn ▸ List.mem_cons_self
      exact isAbsolute_intercalate (ne_empty_of_mem_reduced hm).1 (not_mem_of_mem_normalNames hm) rest

theorem reduced_cons_empty (absolute : Bool) (l : List String) :
    reduced absolute ("" :: l) = reduced absolute l :=
  reduced_eq_of_shortens (.skip [] l (.inl rfl))

theorem normal_normal (path : String) : normal (normal path) = normal path := by
  by_cases h : normalNames path = []
  · have hn : normal path = if isAbsolute path then "/" else "" := by
      rw [normal, h, String.intercalate_nil, String.append_empty]
    rw [hn]
    split <;> rfl
  · have hn : normalNames (normal path) = normalNames path := by
      rw [normalNames_eq_reduced, isAbsolute_normal, names_normal h, normalNames_eq_reduced]
      split
      · rw [List.singleton_append, reduced_cons_empty, reduced_reduced]
      · rw [List.nil_append, reduced_reduced]
    rw [normal, isAbsolute_normal, hn]
    rfl

theorem normalNames_join {tail : String} (h : isAbsolute tail = false) (base : String) :
    normalNames (join base tail) = reduced (isAbsolute base) (names base ++ names tail) := by
  rw [normalNames_eq_reduced, isAbsolute_join h]
  rcases names_join base tail with hn | ⟨front, hb, hn⟩
  · rw [hn]
  · rw [hn, hb, List.append_assoc]
    exact (reduced_eq_of_shortens (.skip front (names tail) (.inl rfl))).symm

end LintTriage.Path
