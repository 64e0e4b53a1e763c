import Std.Data.ExtTreeMap
import LintTriage.Severity

namespace LintTriage

open Std

structure Rule where
  id : String := ""
  name : String := ""
  active : Bool := true
  severityText : String := ""
  tags : List String := []
  overrides : List String := []
  appliesTo : List String := []
  description : String := ""
  recommendation : String := ""
  guidancePage : String := ""
  filePath : String := ""
deriving DecidableEq

namespace Rule

def severity (rule : Rule) : Severity :=
  .ofText rule.severityText

def isEnabled (rule : Rule) (settings : Settings) : Bool :=
  rule.active && rule.severity.isEnabled settings && !settings.ignoredRules.contains rule.id

theorem isEnabled_iff {rule : Rule} {settings : Settings} :
    rule.isEnabled settings = true ↔
      rule.active = true ∧ rule.severity.isEnabled settings = true ∧
        rule.id ∉ settings.ignoredRules := by
  simp [isEnabled, and_assoc]

end Rule

def Rule.positions (rules : List Rule) : ExtTreeMap String Nat :=
  rules.zipIdx.foldl (fun index entry => index.insertIfNew entry.1.id entry.2) ∅

theorem Rule.getElem?_insertIfNew (index : ExtTreeMap String Nat) (rule : Rule) (n : Nat)
    (id : String) :
    (index.insertIfNew rule.id n)[id]? =
      (index[id]?).or (if rule.id = id then some n else none) := by
  rw [ExtTreeMap.getElem?_insertIfNew]
  by_cases h : rule.id = id
  · subst h
    by_cases hm : rule.id ∈ index <;> simp [hm]
  · simp [h]

theorem Rule.getElem?_foldl_positions (rules : List Rule) (n : Nat)
    (index : ExtTreeMap String Nat) (id : String) :
    ((rules.zipIdx n).foldl (fun index entry => index.insertIfNew entry.1.id entry.2) index)[id]? =
      (index[id]?).or ((rules.findIdx? (·.id = id)).map (n + ·)) := by
  induction rules generalizing n index with
  | nil => simp
  | cons rule rest ih =>
    rw [List.zipIdx_cons, List.foldl_cons, ih, getElem?_insertIfNew, Option.or_assoc,
      List.findIdx?_cons]
    by_cases h : rule.id = id
    · simp [h]
    · simp [h, Function.comp_def, Nat.add_assoc, Nat.add_comm 1]

theorem Rule.getElem?_positions (rules : List Rule) (id : String) :
    (positions rules)[id]? = rules.findIdx? (·.id = id) := by
  simp [positions, getElem?_foldl_positions]

structure RuleBook where
  rules : List Rule := []
  generation : Nat := 0
  index : ExtTreeMap String Nat := Rule.positions rules
  index_eq : index = Rule.positions rules := by rfl

namespace RuleBook

def position? (book : RuleBook) (id : String) : Option Nat :=
  book.index[id]?

theorem position?_eq_findIdx? (book : RuleBook) (id : String) :
    book.position? id = book.rules.findIdx? (·.id = id) := by
  rw [position?, book.index_eq, Rule.getElem?_positions]

def find? (book : RuleBook) (id : String) : Option Rule :=
  (book.position? id).bind fun i => book.rules[i]?

def enabledEntries (book : RuleBook) (settings : Settings) : List (Rule × Nat) :=
  book.rules.zipIdx.filter fun entry => entry.1.isEnabled settings

def enabledRules (book : RuleBook) (settings : Settings) : List Rule :=
  (book.enabledEntries settings).map Prod.fst

end RuleBook

structure Publisher where
  current : RuleBook := {}
  nextGeneration : Nat := 1

def Publisher.publish (publisher : Publisher) (rules : List Rule) : Nat × Publisher :=
  (publisher.nextGeneration,
    { current := { rules, generation := publisher.nextGeneration }
      nextGeneration := publisher.nextGeneration + 1 })

end LintTriage
