import LintTriage.RulesFolder

namespace LintTriage.Path

theorem names_append_slash_append (a b : String) : names (a ++ "/" ++ b) = names a ++ names b := by
  have h : (a ++ "/" ++ b).toList = a.toList ++ '/' :: b.toList := by simp
  rw [names, h, List.splitOn_append_cons_self, List.map_append]
  rfl

theorem names_empty : names "" = [""] := rfl

theorem names_append_slash (a : String) : names (a ++ "/") = names a ++ [""] := by
  have h := names_append_slash_append a ""
  rwa [String.append_empty, names_empty] at h

def slashes (n : Nat) : String :=
  String.ofList (List.replicate n '/')

theorem slashes_succ_append (n : Nat) (path : String) :
    slashes (n + 1) ++ path = "/" ++ (slashes n ++ path) := by
  apply String.toList_inj.mp
  simp [slashes, List.replicate_succ]

theorem names_slashes_append (n : Nat) (path : String) :
    names (slashes n ++ path) = List.replicate n "" ++ names path := by
  induction n with
  | zero => exact congrArg names String.empty_append
  | succ n ih =>
    have h := names_append_slash_append "" (slashes n ++ path)
    rw [String.empty_append, ih] at h
    rw [slashes_succ_append, h]
    rfl

theorem names_intercalate {l : List String} (hl : l ≠ []) (h : ∀ name ∈ l, '/' ∉ name.toList) :
    names ("/".intercalate l) = l := by
  have hs : (['/'].intercalate (l.map String.toList)).splitOn '/' = l.map String.toList := by
    apply List.splitOn_intercalate
    · simpa using h
    · simpa using hl
  rw [names, String.toList_intercalate]
  change ((['/'].intercalate (l.map String.toList)).splitOn '/').map String.ofList = l
  rw [hs]
  simp [Function.comp_def]

theorem not_mem_of_mem_splitOn {l chars : List Char} (h : chars ∈ l.splitOn '/') :
    '/' ∉ chars := by
  induction l generalizing chars with
  | nil => simp_all
  | cons c l ih =>
    rw [List.splitOn_cons_eq_if_modifyHead] at h
    split at h
    next =>
      rcases List.mem_cons.mp h with rfl | h
      · exact List.not_mem_nil
      · exact ih h
    next hc =>
      -- the first character goes to the first name
      cases hl : l.splitOn '/' with
      | nil => exact absurd hl (List.splitOn_ne_nil _ _)
      | cons first rest =>
        rw [hl, List.modifyHead_cons] at h
        rcases List.mem_cons.mp h with rfl | h
        · have hf : '/' ∉ first := ih (hl ▸ List.mem_cons_self)
          rw [List.mem_cons, not_or]
          exact ⟨fun he => hc (beq_iff_eq.mpr he.symm), hf⟩
        · exact ih (hl ▸ List.mem_cons_of_mem _ h)

theorem not_mem_of_mem_names {path name : String} (h : name ∈ names path) : '/' ∉ name.toList := by
  obtain ⟨chars, hc, rfl⟩ := List.mem_map.mp h
  rw [String.toList_ofList]
  exact not_mem_of_mem_splitOn hc

theorem isAbsolute_append {a : String} (h : a ≠ "") (b : String) :
    isAbsolute (a ++ b) = isAbsolute a := by
  rw [isAbsolute, isAbsolute, String.toList_append, List.head?_append]
  cases ha : a.toList with
  | nil => exact absurd (String.toList_eq_nil_iff.mp ha) h
  | cons c l => rfl

theorem isAbsolute_intercalate {name : String} (h : name ≠ "") (hs : '/' ∉ name.toList)
    (rest : List String) : isAbsolute ("/".intercalate (name :: rest)) = false := by
  have hname : isAbsolute name = false := by
    rw [isAbsolute, decide_eq_false_iff_not]
    exact fun hc => hs (List.mem_of_mem_head? hc)
  cases rest with
  | nil => rwa [String.intercalate_singleton]
  | cons next rest => rwa [String.intercalate_cons_cons, String.append_assoc, isAbsolute_append h]

theorem names_join (base tail : String) :
    names (join base tail) = names base ++ names tail ∨
      ∃ front, names base = front ++ [""] ∧ names (join base tail) = front ++ names tail := by
  rw [join]
  split
  next h =>
    right
    cases hb : base.toList.getLast? with
    | none =>
      obtain rfl : base = "" := by simpa using hb
      exact ⟨[], names_empty, by rw [String.empty_append, List.nil_append]⟩
    | some c =>
      rw [hb] at h
      obtain rfl : c = '/' := by simpa using h
      -- the tail takes the place of the empty name behind the slash
      obtain ⟨front, hf⟩ := List.getLast?_eq_some_iff.mp hb
      obtain rfl : base = String.ofList front ++ "/" := by
        apply String.toList_inj.mp
        simp [hf]
      exact ⟨_, names_append_slash _, names_append_slash_append _ _⟩
  next => exact .inl (names_append_slash_append _ _)

theorem isAbsolute_join {tail : String} (h : isAbsolute tail = false) (base : String) :
    isAbsolute (join base tail) = isAbsolute base := by
  by_cases hb : base = ""
  · subst hb
    have hj : join "" tail = tail := (if_pos rfl).trans String.empty_append
    rw [hj, h]
    rfl
  · rw [join]
    split
    · exact isAbsolute_append hb tail
    · rw [String.append_assoc, isAbsolute_append hb]

theorem join_join {middle : String} (h : middle.toList.getLast?.all (· = '/') = false)
    (base tail : String) :
    join (join base middle) tail = join base (middle ++ "/" ++ tail) := by
  have hl : (join base middle).toList.getLast? = middle.toList.getLast? := by
    cases hm : middle.toList.getLast? with
    | none =>
      rw [hm] at h
      contradiction
    | some c =>
      rw [join]
      split <;> rw [String.toList_append, List.getLast?_append, hm, Option.some_or]
  rw [join, hl, h, if_neg Bool.false_ne_true, join, join]
  split <;> simp only [String.append_assoc]

end LintTriage.Path
