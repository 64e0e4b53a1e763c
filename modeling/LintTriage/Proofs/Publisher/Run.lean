import LintTriage.Finding
import LintTriage.Proofs.RuleBook.Lookup
import LintTriage.RuleBook

/-!
A publisher in use: publications and snapshots in any order. The book in force is the one published
last, and a book that was handed out stays what it was, so it goes on answering for the rules of its
own generation.
-/

namespace LintTriage

structure RuleBook.AnswersFor (book : RuleBook) (rules : List Rule) : Prop where
  find? : ∀ id, book.find? id = rules.find? (·.id = id)
  enabledRules : ∀ settings, book.enabledRules settings = rules.filter (·.isEnabled settings)
  findings : ∀ hits settings revision, book.findings hits settings revision =
    ({ rules } : RuleBook).findings hits settings revision

theorem RuleBook.answersFor_rules (book : RuleBook) : book.AnswersFor book.rules where
  find? := book.find?_eq_find?
  enabledRules := book.enabledRules_eq_filter
  findings hits settings revision := by
    simp only [RuleBook.findings]
    congr 1
    funext hit
    simp only [finding?, find?_eq_find?]

namespace Publisher

inductive Step where
  | publish (rules : List Rule)
  | snapshot

namespace Step

def rules? : Step → Option (List Rule)
  | publish rules => some rules
  | snapshot => none

def isSnapshot : Step → Bool
  | publish _ => false
  | snapshot => true

end Step

def published (steps : List Step) : List (List Rule) :=
  steps.filterMap Step.rules?

structure Run where
  publisher : Publisher := {}
  answers : List Nat := []
  held : List RuleBook := []

def Run.step (run : Run) : Step → Run
  | .publish rules =>
    { run with
      publisher := (run.publisher.publish rules).2
      answers := run.answers ++ [(run.publisher.publish rules).1] }
  | .snapshot => { run with held := run.held ++ [run.publisher.current] }

def run (steps : List Step) : Run :=
  steps.foldl Run.step {}

def rulesOf (lists : List (List Rule)) : (generation : Nat) → List Rule
  | 0 => []
  | generation + 1 => lists[generation]?.getD []

def bookOf (lists : List (List Rule)) (generation : Nat) : RuleBook :=
  { rules := rulesOf lists generation, generation }

theorem rulesOf_append {lists : List (List Rule)} {generation : Nat}
    (h : generation ≤ lists.length) (more : List (List Rule)) :
    rulesOf (lists ++ more) generation = rulesOf lists generation := by
  cases generation with
  | zero => rfl
  | succ n => rw [rulesOf, rulesOf, List.getElem?_append_left h]

theorem bookOf_append {lists : List (List Rule)} {generation : Nat}
    (h : generation ≤ lists.length) (more : List (List Rule)) :
    bookOf (lists ++ more) generation = bookOf lists generation := by
  simp only [bookOf, rulesOf_append h]

theorem bookOf_concat (lists : List (List Rule)) (rules : List Rule) :
    bookOf (lists ++ [rules]) (lists.length + 1) = { rules, generation := lists.length + 1 } := by
  have h : rulesOf (lists ++ [rules]) (lists.length + 1) = rules := by simp [rulesOf]
  simp only [bookOf, h]

namespace Run

structure Records (run : Run) (lists : List (List Rule)) : Prop where
  nextGeneration_eq : run.publisher.nextGeneration = lists.length + 1
  current_eq : run.publisher.current = bookOf lists lists.length
  answers_eq : run.answers = List.range' 1 lists.length
  held_eq : ∀ book ∈ run.held, book.generation ≤ lists.length ∧ book = bookOf lists book.generation
  sorted : run.held.Pairwise fun a b => a.generation ≤ b.generation

theorem records_empty : Records {} [] where
  nextGeneration_eq := rfl
  current_eq := rfl
  answers_eq := rfl
  held_eq := by simp
  sorted := .nil

variable {run : Run} {lists : List (List Rule)}

theorem Records.publish (h : run.Records lists) (rules : List Rule) :
    (run.step (.publish rules)).Records (lists ++ [rules]) where
  nextGeneration_eq := by
    rw [List.length_append, List.length_singleton, ← h.nextGeneration_eq]
    rfl
  current_eq := by
    rw [List.length_append, List.length_singleton, bookOf_concat, ← h.nextGeneration_eq]
    rfl
  answers_eq := by
    rw [List.length_append, List.length_singleton, List.range'_concat, ← h.answers_eq, Nat.one_mul,
      Nat.add_comm, ← h.nextGeneration_eq]
    rfl
  held_eq book hm := by
    obtain ⟨hle, he⟩ := h.held_eq book hm
    refine ⟨?_, ?_⟩
    · rw [List.length_append]
      omega
    · rw [bookOf_append hle]
      exact he
  sorted := h.sorted

theorem Records.snapshot (h : run.Records lists) : (run.step .snapshot).Records lists where
  nextGeneration_eq := h.nextGeneration_eq
  current_eq := h.current_eq
  answers_eq := h.answers_eq
  held_eq book hm := by
    rcases List.mem_append.mp hm with hm | hm
    · exact h.held_eq book hm
    · rw [List.mem_singleton.mp hm, h.current_eq]
      exact ⟨Nat.le_refl _, rfl⟩
  sorted := by
    apply List.pairwise_append.mpr
    refine ⟨h.sorted, List.pairwise_singleton _ _, ?_⟩
    intro a ha b hb
    rw [List.mem_singleton.mp hb, h.current_eq]
    exact (h.held_eq a ha).1

theorem Records.foldl (h : run.Records lists) (steps : List Step) :
    (steps.foldl step run).Records (lists ++ published steps) := by
  induction steps generalizing run lists with
  | nil => simpa [published] using h
  | cons step rest ih =>
    cases step with
    | publish rules =>
      have hr := ih (h.publish rules)
      rwa [List.append_assoc] at hr
    | snapshot => exact ih h.snapshot

theorem held_prefix_step (run : Run) (step : Step) : run.held <+: (run.step step).held := by
  cases step with
  | publish rules => exact List.prefix_rfl
  | snapshot => exact List.prefix_append _ _

theorem held_prefix_foldl (run : Run) (steps : List Step) :
    run.held <+: (steps.foldl step run).held := by
  induction steps generalizing run with
  | nil => exact List.prefix_rfl
  | cons step rest ih => exact (held_prefix_step run step).trans (ih _)

theorem length_held_foldl (run : Run) (steps : List Step) :
    (steps.foldl step run).held.length = run.held.length + steps.countP Step.isSnapshot := by
  induction steps generalizing run with
  | nil => rfl
  | cons step rest ih =>
    rw [List.foldl_cons, ih]
    cases step with
    | publish rules => rfl
    | snapshot =>
      rw [Run.step, List.length_append, List.countP_cons_of_pos rfl]
      simp only [List.length_singleton]
      omega

end Run

theorem records_run (steps : List Step) : (run steps).Records (published steps) := by
  simpa [run] using Run.records_empty.foldl steps

theorem run_append (steps more : List Step) :
    run (steps ++ more) = more.foldl Run.step (run steps) :=
  List.foldl_append

theorem length_held_run (steps : List Step) :
    (run steps).held.length = steps.countP Step.isSnapshot := by
  simpa [run] using Run.length_held_foldl {} steps

theorem published_append (steps more : List Step) :
    published (steps ++ more) = published steps ++ published more :=
  List.filterMap_append

theorem getElem?_held_run (before after : List Step) :
    (run (before ++ .snapshot :: after)).held[before.countP Step.isSnapshot]? =
      some (bookOf (published (before ++ .snapshot :: after)) (published before).length) := by
  obtain ⟨later, hl⟩ := Run.held_prefix_foldl ((run before).step .snapshot) after
  have hcurrent : (run before).publisher.current =
      bookOf (published (before ++ .snapshot :: after)) (published before).length := by
    rw [published_append, bookOf_append (Nat.le_refl _)]
    exact (records_run before).current_eq
  rw [run_append, List.foldl_cons, ← hl, ← length_held_run, ← hcurrent, Run.step,
    List.append_assoc, List.getElem?_append_right (Nat.le_refl _), Nat.sub_self]
  rfl

theorem held_through_publications :
    (∀ steps, (run steps).answers = List.range' 1 (published steps).length) ∧
    (∀ steps, (run steps).held.length = steps.countP Step.isSnapshot) ∧
    (∀ before after,
      let steps := before ++ .snapshot :: after
      ∃ book, (run steps).held[before.countP Step.isSnapshot]? = some book ∧
        book.generation = (published before).length ∧
        book.rules = rulesOf (published steps) book.generation ∧
        book.AnswersFor (rulesOf (published steps) book.generation)) ∧
    (∀ steps, (run steps).held.Pairwise fun a b =>
      a.generation ≤ b.generation ∧ (a.generation = b.generation ↔ a = b)) ∧
    ∀ steps more, (run steps).held <+: (run (steps ++ more)).held := by
  refine ⟨fun steps => (records_run steps).answers_eq, length_held_run, ?_, ?_, ?_⟩
  · intro before after steps
    exact ⟨_, getElem?_held_run before after, rfl, rfl, RuleBook.answersFor_rules _⟩
  · intro steps
    have h := records_run steps
    refine h.sorted.imp_of_mem fun {a b} ha hb hle => ⟨hle, ?_, congrArg RuleBook.generation⟩
    intro he
    rw [(h.held_eq a ha).2, (h.held_eq b hb).2, he]
  · intro steps more
    rw [run_append]
    exact Run.held_prefix_foldl _ _

example :
    (run [.snapshot, .publish [{ id := "A" }], .snapshot, .publish [], .snapshot]).held.map
      (fun book => (book.generation, book.rules.map Rule.id)) =
        [(0, []), (1, ["A"]), (2, [])] := rfl

end Publisher

end LintTriage
