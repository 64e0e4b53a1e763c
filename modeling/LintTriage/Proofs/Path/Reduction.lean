import Mathlib.Data.List.Induction
import Mathlib.Logic.Relation
import LintTriage.RulesFolder

/-!
Normalisation on lists of names. A list shortens by rules that may be applied in any order and at any
place; a walk takes the names from left to right, once. From every list both lead to one and the same
list, the one that normalisation computes, and no rule shortens that one further.
-/

namespace LintTriage.Path

open Relation

def IsOrdinary (name : String) : Prop :=
  name ≠ "" ∧ name ≠ "." ∧ name ≠ ".."

instance : DecidablePred IsOrdinary :=
  fun name => inferInstanceAs (Decidable (name ≠ "" ∧ name ≠ "." ∧ name ≠ ".."))

theorem name_cases (name : String) :
    (name = "" ∨ name = ".") ∨ name = ".." ∨ IsOrdinary name := by
  by_cases h : name = "" ∨ name = "."
  · exact .inl h
  · rw [not_or] at h
    by_cases hu : name = ".."
    · exact .inr (.inl hu)
    · exact .inr (.inr ⟨h.1, h.2, hu⟩)

inductive Shortens (absolute : Bool) : List String → List String → Prop
  | skip (front rest : List String) {name : String} (h : name = "" ∨ name = ".") :
      Shortens absolute (front ++ name :: rest) (front ++ rest)
  | back (front rest : List String) {name : String} (h : IsOrdinary name) :
      Shortens absolute (front ++ name :: ".." :: rest) (front ++ rest)
  | root (rest : List String) (h : absolute = true) : Shortens absolute (".." :: rest) rest

inductive Walk (absolute : Bool) : List String → List String → Prop
  | start : Walk absolute [] []
  | stay {passed l : List String} {name : String} (h : name = "" ∨ name = ".")
      (hw : Walk absolute passed l) : Walk absolute (passed ++ [name]) l
  | down {passed l : List String} {name : String} (h : IsOrdinary name)
      (hw : Walk absolute passed l) : Walk absolute (passed ++ [name]) (l ++ [name])
  | back {passed l : List String} {last : String} (h : IsOrdinary last)
      (hw : Walk absolute passed (l ++ [last])) : Walk absolute (passed ++ [".."]) l
  | root {passed : List String} (h : absolute = true) (hw : Walk absolute passed []) :
      Walk absolute (passed ++ [".."]) []
  | up {passed l : List String} (h : absolute = false) (hl : ∀ name ∈ l, name = "..")
      (hw : Walk absolute passed l) : Walk absolute (passed ++ [".."]) (l ++ [".."])

def reduced (absolute : Bool) (l : List String) : List String :=
  (l.foldl (enter absolute) []).reverse

/-- The names so far, the last one first: ordinary ones, and below them those that lead up. -/
def IsTrail (absolute : Bool) (trail : List String) : Prop :=
  ∃ down ups, trail = down ++ List.replicate ups ".." ∧ (∀ name ∈ down, IsOrdinary name) ∧
    (absolute = true → ups = 0)

variable {absolute : Bool} {trail : List String} {name : String}

theorem enter_skip (h : name = "" ∨ name = ".") : enter absolute trail name = trail := by
  rw [enter, if_pos h]

theorem enter_ordinary (h : IsOrdinary name) : enter absolute trail name = name :: trail := by
  have hs : ¬(name = "" ∨ name = ".") := not_or.mpr ⟨h.1, h.2.1⟩
  rw [enter, if_neg hs, if_neg h.2.2]

theorem enter_up (absolute : Bool) (trail : List String) :
    enter absolute trail ".." = leave absolute trail := by
  rw [enter, if_neg (by decide), if_pos rfl]

theorem leave_ordinary (h : IsOrdinary name) : leave absolute (name :: trail) = trail := by
  rw [leave, if_neg h.2.2]

theorem leave_replicate (n : Nat) :
    leave false (List.replicate n "..") = List.replicate (n + 1) ".." := by
  cases n <;> rfl

theorem isTrail_nil (absolute : Bool) : IsTrail absolute [] :=
  ⟨[], 0, rfl, by simp, fun _ => rfl⟩

theorem IsTrail.ordinary_cons (ht : IsTrail absolute trail) (h : IsOrdinary name) :
    IsTrail absolute (name :: trail) := by
  obtain ⟨down, ups, rfl, hd, hu⟩ := ht
  exact ⟨name :: down, ups, rfl, List.forall_mem_cons.mpr ⟨h, hd⟩, hu⟩

theorem IsTrail.leave_cases (ht : IsTrail absolute trail) :
    (∃ last rest, trail = last :: rest ∧ IsOrdinary last ∧ IsTrail absolute rest) ∨
      trail = [] ∧ absolute = true ∨ ∃ n, trail = List.replicate n ".." ∧ absolute = false := by
  obtain ⟨down, ups, rfl, hd, hu⟩ := ht
  cases down with
  | cons last down =>
    obtain ⟨hl, hd⟩ := List.forall_mem_cons.mp hd
    exact .inl ⟨last, _, rfl, hl, down, ups, rfl, hd, hu⟩
  | nil =>
    cases absolute with
    | true => exact .inr (.inl ⟨by rw [hu rfl]; rfl, rfl⟩)
    | false => exact .inr (.inr ⟨ups, rfl, rfl⟩)

theorem IsTrail.leave (ht : IsTrail absolute trail) : IsTrail absolute (leave absolute trail) := by
  obtain ⟨last, rest, rfl, hl, hr⟩ | ⟨rfl, rfl⟩ | ⟨n, rfl, rfl⟩ := ht.leave_cases
  · rwa [leave_ordinary hl]
  · exact isTrail_nil true
  · exact ⟨[], n + 1, leave_replicate n, by simp, by simp⟩

theorem IsTrail.enter (ht : IsTrail absolute trail) (name : String) :
    IsTrail absolute (enter absolute trail name) := by
  rcases name_cases name with h | rfl | h
  · rwa [enter_skip h]
  · rw [enter_up]
    exact ht.leave
  · rw [enter_ordinary h]
    exact ht.ordinary_cons h

theorem IsTrail.foldl_enter (ht : IsTrail absolute trail) (l : List String) :
    IsTrail absolute (l.foldl (Path.enter absolute) trail) := by
  induction l generalizing trail with
  | nil => exact ht
  | cons name l ih => exact ih (ht.enter name)

theorem foldl_enter_ordinary {down : List String} (h : ∀ name ∈ down, IsOrdinary name)
    (trail : List String) : down.foldl (enter absolute) trail = down.reverse ++ trail := by
  induction down generalizing trail with
  | nil => rfl
  | cons name down ih =>
    obtain ⟨hn, hd⟩ := List.forall_mem_cons.mp h
    rw [List.foldl_cons, enter_ordinary hn, ih hd, List.reverse_cons, List.append_assoc]
    rfl

theorem foldl_enter_replicate (m n : Nat) :
    (List.replicate m "..").foldl (enter false) (List.replicate n "..") =
      List.replicate (m + n) ".." := by
  induction m generalizing n with
  | zero => rw [Nat.zero_add]; rfl
  | succ m ih =>
    rw [List.replicate_succ, List.foldl_cons, enter_up, leave_replicate, ih, Nat.add_right_comm,
      Nat.add_assoc]

theorem IsTrail.foldl_enter_reverse (ht : IsTrail absolute trail) :
    trail.reverse.foldl (Path.enter absolute) [] = trail := by
  obtain ⟨down, ups, rfl, hd, hu⟩ := ht
  have hups : (List.replicate ups "..").foldl (Path.enter absolute) [] =
      List.replicate ups ".." := by
    cases absolute with
    | true => rw [hu rfl]; rfl
    | false => exact foldl_enter_replicate ups 0
  have hdown : ∀ name ∈ down.reverse, IsOrdinary name := by simpa using hd
  rw [List.reverse_append, List.reverse_replicate, List.foldl_append, hups,
    foldl_enter_ordinary hdown, List.reverse_reverse]

theorem reduced_reduced (absolute : Bool) (l : List String) :
    reduced absolute (reduced absolute l) = reduced absolute l :=
  congrArg List.reverse ((isTrail_nil absolute).foldl_enter l).foldl_enter_reverse

theorem reduced_eq_of_shortens {l m : List String} (h : Shortens absolute l m) :
    reduced absolute l = reduced absolute m := by
  cases h with
  | skip front rest h =>
    rw [reduced, reduced, List.foldl_append, List.foldl_append, List.foldl_cons, enter_skip h]
  | back front rest h =>
    rw [reduced, reduced, List.foldl_append, List.foldl_append, List.foldl_cons, List.foldl_cons,
      enter_ordinary h, enter_up, leave_ordinary h]
  | root rest h =>
    subst h
    rfl

theorem reduced_append_skip {middle : List String}
    (h : ∀ name ∈ middle, name = "" ∨ name = ".") (front rest : List String) :
    reduced absolute (front ++ (middle ++ rest)) = reduced absolute (front ++ rest) := by
  induction middle with
  | nil => rfl
  | cons name middle ih =>
    obtain ⟨hn, hm⟩ := List.forall_mem_cons.mp h
    exact (reduced_eq_of_shortens (.skip front (middle ++ rest) hn)).trans (ih hm)

theorem Shortens.sublist {l m : List String} (h : Shortens absolute l m) : m.Sublist l := by
  cases h with
  | skip front rest => exact (List.sublist_cons_self _ rest).append_left front
  | back front rest =>
    exact ((List.sublist_cons_self _ rest).trans (List.sublist_cons_self _ _)).append_left front
  | root => exact List.sublist_cons_self _ _

theorem Shortens.length_lt {l m : List String} (h : Shortens absolute l m) :
    m.length < l.length := by
  cases h <;> simp only [List.length_append, List.length_cons] <;> omega

theorem reflTransGen_shortens_enter (ht : IsTrail absolute trail) (name : String)
    (l : List String) :
    ReflTransGen (Shortens absolute) (trail.reverse ++ name :: l)
      ((enter absolute trail name).reverse ++ l) := by
  rcases name_cases name with h | rfl | h
  · rw [enter_skip h]
    exact .single (.skip _ _ h)
  · rw [enter_up]
    obtain ⟨last, rest, rfl, hl, -⟩ | ⟨rfl, rfl⟩ | ⟨n, rfl, rfl⟩ := ht.leave_cases
    · rw [leave_ordinary hl, List.reverse_cons, List.append_assoc]
      exact .single (.back _ _ hl)
    · exact .single (.root _ rfl)
    · rw [leave_replicate, List.reverse_replicate, List.reverse_replicate, List.replicate_succ',
        List.append_assoc]
      exact .refl
  · rw [enter_ordinary h, List.reverse_cons, List.append_assoc]
    exact .refl

theorem reflTransGen_shortens_foldl_enter (ht : IsTrail absolute trail) (l : List String) :
    ReflTransGen (Shortens absolute) (trail.reverse ++ l)
      (l.foldl (enter absolute) trail).reverse := by
  induction l generalizing trail with
  | nil =>
    rw [List.append_nil]
    exact .refl
  | cons name l ih => exact (reflTransGen_shortens_enter ht name l).trans (ih (ht.enter name))

theorem reflTransGen_shortens_reduced (absolute : Bool) (l : List String) :
    ReflTransGen (Shortens absolute) l (reduced absolute l) :=
  reflTransGen_shortens_foldl_enter (isTrail_nil absolute) l

theorem sublist_of_reflTransGen {l m : List String} (h : ReflTransGen (Shortens absolute) l m) :
    m.Sublist l := by
  induction h with
  | refl => exact List.Sublist.refl l
  | tail _ h ih => exact h.sublist.trans ih

theorem reduced_eq_of_reflTransGen {l m : List String}
    (h : ReflTransGen (Shortens absolute) l m) : reduced absolute l = reduced absolute m := by
  induction h with
  | refl => rfl
  | tail _ h ih => exact ih.trans (reduced_eq_of_shortens h)

theorem reduced_sublist (absolute : Bool) (l : List String) : (reduced absolute l).Sublist l :=
  sublist_of_reflTransGen (reflTransGen_shortens_reduced absolute l)

theorem not_shortens_reduced (l m : List String) : ¬Shortens absolute (reduced absolute l) m := by
  intro h
  -- a shorter list has the same reduced list, which cannot be longer than it
  have he : reduced absolute l = reduced absolute m := by
    rw [← reduced_reduced, reduced_eq_of_shortens h]
  have hle : (reduced absolute m).length ≤ m.length := (reduced_sublist absolute m).length_le
  have hlt : m.length < (reduced absolute l).length := h.length_lt
  rw [he] at hlt
  omega

theorem reduced_append_ordinary {down : List String} (h : ∀ name ∈ down, IsOrdinary name)
    (l : List String) : reduced absolute (l ++ down) = reduced absolute l ++ down := by
  rw [reduced, reduced, List.foldl_append, foldl_enter_ordinary h, List.reverse_append,
    List.reverse_reverse]

theorem reduced_shape (absolute : Bool) (l : List String) :
    ∃ ups down, reduced absolute l = List.replicate ups ".." ++ down ∧
      (∀ name ∈ down, IsOrdinary name) ∧ (absolute = true → ups = 0) := by
  obtain ⟨down, ups, ht, hd, hu⟩ := (isTrail_nil absolute).foldl_enter l
  refine ⟨ups, down.reverse, ?_, by simpa using hd, hu⟩
  rw [reduced, ht, List.reverse_append, List.reverse_replicate]

theorem eq_reduced_iff_shortens {l m : List String} :
    m = reduced absolute l ↔
      ReflTransGen (Shortens absolute) l m ∧ ∀ k, ¬Shortens absolute m k := by
  constructor
  · rintro rfl
    exact ⟨reflTransGen_shortens_reduced absolute l, not_shortens_reduced l⟩
  · rintro ⟨h, hn⟩
    have he : reduced absolute l = reduced absolute m := reduced_eq_of_reflTransGen h
    rcases (reflTransGen_shortens_reduced absolute m).cases_head with hm | ⟨k, hk, -⟩
    · rw [he]
      exact hm
    · exact absurd hk (hn k)

theorem reduced_concat (l : List String) (name : String) :
    reduced absolute (l ++ [name]) = (enter absolute (reduced absolute l).reverse name).reverse := by
  rw [reduced, reduced, List.foldl_append, List.reverse_reverse]
  rfl

theorem walk_reduced (absolute : Bool) (l : List String) :
    Walk absolute l (reduced absolute l) := by
  induction l using List.reverseRecOn with
  | nil => exact .start
  | append_singleton l name ih =>
    have ht : IsTrail absolute (l.foldl (enter absolute) []) := (isTrail_nil absolute).foldl_enter l
    rw [reduced_concat, reduced, List.reverse_reverse]
    rw [reduced] at ih
    generalize l.foldl (enter absolute) [] = trail at ht ih ⊢
    rcases name_cases name with h | rfl | h
    · rw [enter_skip h]
      exact .stay h ih
    · rw [enter_up]
      obtain ⟨last, rest, rfl, hl, -⟩ | ⟨rfl, rfl⟩ | ⟨n, rfl, rfl⟩ := ht.leave_cases
      · rw [leave_ordinary hl]
        rw [List.reverse_cons] at ih
        exact .back hl ih
      · exact .root rfl ih
      · rw [leave_replicate, List.reverse_replicate, List.replicate_succ']
        rw [List.reverse_replicate] at ih
        exact .up rfl (fun name => List.eq_of_mem_replicate) ih
    · rw [enter_ordinary h, List.reverse_cons]
      exact .down h ih

theorem eq_reduced_of_walk {l m : List String} (h : Walk absolute l m) :
    m = reduced absolute l := by
  induction h with
  | start => rfl
  | stay h _ ih => rw [reduced_concat, ← ih, enter_skip h, List.reverse_reverse]
  | down h _ ih => rw [reduced_concat, ← ih, enter_ordinary h, List.reverse_cons, List.reverse_reverse]
  | back h _ ih =>
    rw [reduced_concat, ← ih, List.reverse_concat, enter_up, leave_ordinary h, List.reverse_reverse]
  | root h _ ih =>
    rw [reduced_concat, ← ih, enter_up, h]
    rfl
  | @up passed l h hl _ ih =>
    have hr : l = List.replicate l.length ".." := List.eq_replicate_of_mem hl
    rw [reduced_concat, ← ih, enter_up, h, hr, List.reverse_replicate, leave_replicate,
      List.reverse_replicate, List.replicate_succ']

theorem eq_reduced_iff_walk {l m : List String} :
    m = reduced absolute l ↔ Walk absolute l m := by
  constructor
  · rintro rfl
    exact walk_reduced absolute l
  · exact eq_reduced_of_walk

end LintTriage.Path
