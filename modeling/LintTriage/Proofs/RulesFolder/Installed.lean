import LintTriage.RulesFolder
import LintTriage.Proofs.Path.Normal

namespace LintTriage.RulesFolder

open Relation

theorem resolve_of_not_usable {override : Option String} (h : override.bind usable? = none)
    (installDir : String) :
    resolve override installDir = { path := installed installDir, origin := .install } := by
  rw [resolve, h]

theorem join_folder (installDir : String) :
    Path.join (Path.join (Path.join installDir "..") "data") "rules" =
      Path.join installDir "../data/rules" := by
  have hdata : Path.join (Path.join installDir "..") "data" = Path.join installDir "../data" :=
    Path.join_join rfl installDir "data"
  have hrules : Path.join (Path.join installDir "../data") "rules" =
      Path.join installDir "../data/rules" :=
    Path.join_join rfl installDir "rules"
  rw [hdata, hrules]

def installedNames (installDir : String) : List String :=
  Path.reduced (Path.isAbsolute installDir) (Path.names installDir ++ ["..", "data", "rules"])

theorem normalNames_installed (installDir : String) :
    Path.normalNames (Path.join installDir "../data/rules") = installedNames installDir :=
  Path.normalNames_join rfl installDir

theorem installedNames_shape (installDir : String) :
    ∃ ups down, installedNames installDir = List.replicate ups ".." ++ down ++ ["data", "rules"] ∧
      (∀ name ∈ down, Path.IsOrdinary name) ∧ (Path.isAbsolute installDir = true → ups = 0) := by
  obtain ⟨ups, down, hr, hd, hu⟩ :=
    Path.reduced_shape (Path.isAbsolute installDir) (Path.names installDir ++ [".."])
  have hfolder : ∀ name ∈ ["data", "rules"], Path.IsOrdinary name := by decide
  refine ⟨ups, down, ?_, hd, hu⟩
  rw [← hr, ← Path.reduced_append_ordinary hfolder, List.append_assoc]
  rfl

theorem installedNames_ne_nil (installDir : String) : installedNames installDir ≠ [] := by
  obtain ⟨ups, down, h, -⟩ := installedNames_shape installDir
  simp [h]

theorem installed_eq (installDir : String) :
    installed installDir =
      (if Path.isAbsolute installDir then "/" else "") ++
        "/".intercalate (installedNames installDir) := by
  rw [installed, Path.normal, Path.isAbsolute_join rfl, normalNames_installed]

theorem isAbsolute_installed (installDir : String) :
    Path.isAbsolute (installed installDir) = Path.isAbsolute installDir := by
  rw [installed, Path.isAbsolute_normal, Path.isAbsolute_join rfl]

theorem names_installed (installDir : String) :
    Path.names (installed installDir) =
      (if Path.isAbsolute installDir then [""] else []) ++ installedNames installDir := by
  have h : Path.normalNames (Path.join installDir "../data/rules") ≠ [] := by
    rw [normalNames_installed]
    exact installedNames_ne_nil installDir
  rw [installed, Path.names_normal h, Path.isAbsolute_join rfl, normalNames_installed]

theorem installed_ne_append_slash (installDir front : String) :
    installed installDir ≠ front ++ "/" := by
  intro h
  have hn := names_installed installDir
  obtain ⟨ups, down, hi, -⟩ := installedNames_shape installDir
  rw [h, hi, Path.names_append_slash] at hn
  have hl := congrArg List.getLast? hn
  simp at hl

section

variable {installDir other : String}

theorem installed_congr (ha : Path.isAbsolute other = Path.isAbsolute installDir)
    (hn : ∀ rest, Path.reduced (Path.isAbsolute installDir) (Path.names other ++ rest) =
      Path.reduced (Path.isAbsolute installDir) (Path.names installDir ++ rest)) :
    installed other = installed installDir := by
  rw [installed_eq, installed_eq, installedNames, installedNames, ha, hn]

theorem installed_append_slash (h : installDir ≠ "") {tail : String}
    (htail : ∀ name ∈ Path.names tail, name = "" ∨ name = ".") :
    installed (installDir ++ "/" ++ tail) = installed installDir := by
  apply installed_congr
  · rw [String.append_assoc, Path.isAbsolute_append h]
  · intro rest
    rw [Path.names_append_slash_append, List.append_assoc, Path.reduced_append_skip htail]

theorem installed_append_slashes (h : installDir ≠ "") (n : Nat) :
    installed (installDir ++ Path.slashes n) = installed installDir := by
  cases n with
  | zero => exact congrArg installed String.append_empty
  | succ n =>
    have hs : installDir ++ Path.slashes (n + 1) = installDir ++ "/" ++ (Path.slashes n ++ "") := by
      rw [String.append_assoc, ← Path.slashes_succ_append, String.append_empty]
    rw [hs]
    apply installed_append_slash h
    intro name hm
    rw [Path.names_slashes_append, Path.names_empty, List.mem_append, List.mem_singleton] at hm
    exact .inl (hm.elim List.eq_of_mem_replicate id)

theorem installed_slashes_inside (front rest : String) (n : Nat) :
    installed (front ++ "/" ++ (Path.slashes n ++ rest)) = installed (front ++ "/" ++ rest) := by
  have hne : front ++ "/" ≠ "" := by simp
  apply installed_congr
  · rw [Path.isAbsolute_append hne, Path.isAbsolute_append hne]
  · intro names
    rw [Path.names_append_slash_append, Path.names_append_slash_append, Path.names_slashes_append,
      List.append_assoc, List.append_assoc, List.append_assoc]
    exact Path.reduced_append_skip (fun _ hm => .inl (List.eq_of_mem_replicate hm)) _ _

end

theorem resolve_installed {override : Option String} (h : override.bind usable? = none)
    (installDir : String) :
    let folder := resolve override installDir
    let absolute := Path.isAbsolute installDir
    let joined := Path.join (Path.join (Path.join installDir "..") "data") "rules"
    folder = { path := Path.normal joined, origin := .install } ∧
    (∃ names : List String,
      folder.path = (if absolute then "/" else "") ++ "/".intercalate names ∧
      Path.names folder.path = (if absolute then [""] else []) ++ names ∧
      (∀ l, Path.Walk absolute (Path.names installDir ++ ["..", "data", "rules"]) l ↔ l = names) ∧
      (∀ l, ReflTransGen (Path.Shortens absolute) (Path.names joined) l ∧
        (∀ shorter, ¬Path.Shortens absolute l shorter) ↔ l = names) ∧
      ∃ ups down, names = List.replicate ups ".." ++ down ++ ["data", "rules"] ∧
        (∀ name ∈ down, Path.IsOrdinary name) ∧ (absolute = true → ups = 0)) ∧
    (∀ front, folder.path ≠ front ++ "/") ∧
    Path.isAbsolute folder.path = absolute ∧
    Path.normal folder.path = folder.path ∧
    (installDir ≠ "" → ∀ n, resolve override (installDir ++ Path.slashes n) = folder) ∧
    (installDir ≠ "" → resolve override (installDir ++ "/.") = folder) ∧
    ∀ front rest n, installDir = front ++ "/" ++ rest →
      resolve override (front ++ "/" ++ (Path.slashes n ++ rest)) = folder := by
  intro folder absolute joined
  have hf : folder = { path := installed installDir, origin := .install } :=
    resolve_of_not_usable h installDir
  have hp : folder.path = installed installDir := congrArg RulesFolder.path hf
  have hj : joined = Path.join installDir "../data/rules" := join_folder installDir
  have hn : installedNames installDir = Path.reduced absolute (Path.names joined) := by
    rw [hj, ← normalNames_installed, Path.normalNames_eq_reduced, Path.isAbsolute_join rfl]
  have hr {other : String} (ho : installed other = installed installDir) :
      resolve override other = folder := by
    rw [resolve_of_not_usable h, ho, hf]
  refine ⟨?_, ⟨installedNames installDir, ?_, ?_, ?_, ?_, installedNames_shape installDir⟩, ?_, ?_,
    ?_, ?_, ?_, ?_⟩
  · rw [hf, hj, installed]
  · rw [hp, installed_eq]
  · rw [hp, names_installed]
  · intro l
    exact Path.eq_reduced_iff_walk.symm
  · intro l
    rw [hn]
    exact Path.eq_reduced_iff_shortens.symm
  · intro front
    rw [hp]
    exact installed_ne_append_slash installDir front
  · rw [hp, isAbsolute_installed]
  · rw [hp, installed, Path.normal_normal]
  · intro hne n
    exact hr (installed_append_slashes hne n)
  · intro hne
    have hdot : ∀ name ∈ Path.names ".", name = "" ∨ name = "." := by decide
    apply hr
    rw [← installed_append_slash hne hdot, String.append_assoc]
    rfl
  · rintro front rest n rfl
    exact hr (installed_slashes_inside front rest n)

theorem resolve_installed_above_start :
    let override : Option String := some " undefined\n"
    let installDir := "opt/../../seclint//bin"
    let folder : RulesFolder := { path := "../seclint/data/rules", origin := .install }
    override.bind usable? = none ∧
    resolve override installDir = folder ∧
    Path.normal folder.path = folder.path ∧
    resolve override "opt/../../seclint//bin/." = folder ∧
    resolve override "opt/../../seclint/////bin" = folder := by
  intro override installDir folder
  have h : override.bind usable? = none := by decide
  have hf : resolve override installDir = folder := by decide
  obtain ⟨-, -, -, -, hnormal, -, hdot, hinside⟩ := resolve_installed h installDir
  rw [hf] at hnormal hdot hinside
  exact ⟨h, hf, hnormal, hdot (by decide), hinside "opt/../../seclint" "/bin" 3 rfl⟩

end LintTriage.RulesFolder
