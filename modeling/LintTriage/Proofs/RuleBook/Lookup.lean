import Mathlib.Data.List.Nodup
import Mathlib.Order.Bounds.Basic
import LintTriage.RuleBook

namespace LintTriage

namespace RuleBook

theorem find?_eq_find? (book : RuleBook) (id : String) :
    book.find? id = book.rules.find? (·.id = id) := by
  rw [find?, position?_eq_findIdx?, List.find?_eq_bind_findIdx?_getElem?]

theorem find?_eq_some_iff {book : RuleBook} {id : String} {rule : Rule} :
    book.find? id = some rule ↔ ∃ i, book.position? id = some i ∧ book.rules[i]? = some rule :=
  Option.bind_eq_some_iff

theorem id_of_find? {book : RuleBook} {id : String} {rule : Rule} (h : book.find? id = some rule) :
    rule.id = id := by
  rw [find?_eq_find?] at h
  simpa using List.find?_some h

theorem mem_of_find? {book : RuleBook} {id : String} {rule : Rule} (h : book.find? id = some rule) :
    rule ∈ book.rules := by
  rw [find?_eq_find?] at h
  exact List.mem_of_find?_eq_some h

theorem mem_enabledEntries_iff {book : RuleBook} {settings : Settings} {rule : Rule} {i : Nat} :
    (rule, i) ∈ book.enabledEntries settings ↔
      book.rules[i]? = some rule ∧ rule.isEnabled settings = true := by
  rw [enabledEntries, List.mem_filter, List.mem_zipIdx_iff_getElem?]

theorem enabledRules_eq_filter (book : RuleBook) (settings : Settings) :
    book.enabledRules settings = book.rules.filter (·.isEnabled settings) := by
  have h := List.filter_map (f := Prod.fst) (p := (Rule.isEnabled · settings))
    (l := book.rules.zipIdx)
  rw [List.zipIdx_map_fst] at h
  exact h.symm

theorem mem_enabledRules_iff {book : RuleBook} {settings : Settings} {rule : Rule} :
    rule ∈ book.enabledRules settings ↔ rule ∈ book.rules ∧ rule.isEnabled settings = true := by
  rw [enabledRules_eq_filter, List.mem_filter]

theorem find?_eq_some_iff_of_nodup {book : RuleBook} (h : (book.rules.map Rule.id).Nodup)
    {id : String} {rule : Rule} :
    book.find? id = some rule ↔ rule ∈ book.rules ∧ rule.id = id := by
  constructor
  · intro hf
    exact ⟨mem_of_find? hf, id_of_find? hf⟩
  · rintro ⟨hr, rfl⟩
    cases hf : book.find? rule.id with
    | none =>
      rw [find?_eq_find?, List.find?_eq_none] at hf
      exact absurd (decide_eq_true rfl) (hf rule hr)
    | some found => rw [List.inj_on_of_nodup_map h (mem_of_find? hf) hr (id_of_find? hf)]

end RuleBook

def Rule.places (rules : List Rule) (id : String) : Set Nat :=
  {i | ∃ rule, rules[i]? = some rule ∧ rule.id = id}

theorem Rule.mem_places_iff {rules : List Rule} {id : String} {i : Nat} :
    i ∈ places rules id ↔ ∃ h : i < rules.length, rules[i].id = id := by
  constructor
  · rintro ⟨rule, hr, hid⟩
    obtain ⟨hi, rfl⟩ := List.getElem?_eq_some_iff.mp hr
    exact ⟨hi, hid⟩
  · rintro ⟨hi, hid⟩
    exact ⟨rules[i], List.getElem?_eq_getElem hi, hid⟩

theorem Rule.isLeast_places_iff {rules : List Rule} {id : String} {i : Nat} :
    IsLeast (places rules id) i ↔ rules.findIdx? (·.id = id) = some i := by
  simp only [List.findIdx?_eq_some_iff_getElem, decide_eq_true_eq]
  constructor
  · rintro ⟨hmem, hleast⟩
    obtain ⟨hi, hid⟩ := mem_places_iff.mp hmem
    refine ⟨hi, hid, fun j hj he => ?_⟩
    have hle : i ≤ j := hleast (mem_places_iff.mpr ⟨Nat.lt_trans hj hi, he⟩)
    omega
  · rintro ⟨hi, hid, hbefore⟩
    refine ⟨mem_places_iff.mpr ⟨hi, hid⟩, fun j hj => ?_⟩
    obtain ⟨_, he⟩ := mem_places_iff.mp hj
    exact Nat.le_of_not_lt fun hlt => hbefore j hlt he

namespace RuleBook

variable {book : RuleBook} {id : String}

theorem position?_eq_some_iff {i : Nat} :
    book.position? id = some i ↔ IsLeast (Rule.places book.rules id) i := by
  rw [position?_eq_findIdx?, Rule.isLeast_places_iff]

theorem find?_eq_some_iff_isLeast {rule : Rule} :
    book.find? id = some rule ↔
      ∃ i, IsLeast (Rule.places book.rules id) i ∧ book.rules[i]? = some rule := by
  simp only [find?_eq_some_iff, position?_eq_some_iff]

theorem find?_eq_none_iff : book.find? id = none ↔ ∀ rule ∈ book.rules, rule.id ≠ id := by
  simp only [find?_eq_find?, List.find?_eq_none, decide_eq_true_eq, ne_eq]

theorem found_first (rules : List Rule) (generation : Nat) :
    let book : RuleBook := { rules, generation }
    book.rules = rules ∧
    ∀ id,
      book.find? id = rules.find? (·.id = id) ∧
      (∀ i, book.position? id = some i ↔ IsLeast (Rule.places rules id) i) ∧
      (∀ rule, book.find? id = some rule ↔
        ∃ i, IsLeast (Rule.places rules id) i ∧ rules[i]? = some rule) ∧
      (book.find? id = none ↔ ∀ rule ∈ rules, rule.id ≠ id) := by
  intro book
  refine ⟨rfl, fun id => ⟨book.find?_eq_find? id, ?_, ?_, find?_eq_none_iff⟩⟩
  · intro i
    exact position?_eq_some_iff
  · intro rule
    exact find?_eq_some_iff_isLeast

example :
    let book : RuleBook := { rules := [{ id := "A" }, {}, { id := "A", active := false }, {}] }
    ["A", "", "B"].map book.position? = [some 0, some 1, none] := by
  decide

end RuleBook

end LintTriage
