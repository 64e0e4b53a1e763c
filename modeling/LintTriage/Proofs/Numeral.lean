import Mathlib.Data.List.Induction
import Std.Data.String.ToInt

/-!
Decimal numerals behind a text. Where a numeral is cut in two, the front is again the numeral of a
positive number, at most a tenth of the whole; so two texts that agree once numbers are written
behind them are equal, or one is the other with such a front behind it. A numeral that stands beside
a separator can be read back.
-/

namespace LintTriage.Numeral

theorem toString_ten_mul {j : Nat} (hj : 0 < j) :
    toString (10 * j) = toString j ++ toString 0 := by
  have hd : 10 * j / 10 = j := by omega
  have hm : 10 * j % 10 = 0 := by omega
  simpa [hd, hm] using Nat.repr_eq_repr_append_repr (n := 10 * j) (by omega)

theorem front_of_toDigits {front back : List Char} {n : Nat} (hf : front ≠ []) (hb : back ≠ [])
    (h : front ++ back = Nat.toDigits 10 n) :
    ∃ j, 0 < j ∧ 10 * j ≤ n ∧ front = Nat.toDigits 10 j := by
  induction back using List.reverseRecOn generalizing n with
  | nil => contradiction
  | append_singleton back c ih =>
    have hn : 10 ≤ n := by
      by_contra hlt
      rw [Nat.toDigits_of_lt_base (by omega), ← List.append_assoc] at h
      simp [List.append_eq_singleton_iff, hf] at h
    rw [Nat.toDigits_of_base_le (by omega) hn, ← List.append_assoc] at h
    obtain ⟨h, -⟩ := List.append_inj' h rfl
    cases back with
    | nil => exact ⟨n / 10, by omega, by omega, by simpa using h⟩
    | cons d rest =>
      obtain ⟨j, hj, hle, he⟩ := ih (by simp) h
      exact ⟨j, hj, by omega, he⟩

theorem front_of_toString {front : String} {m n : Nat} (hf : front ≠ "")
    (h : toString m = front ++ toString n) :
    ∃ j, 0 < j ∧ 10 * j ≤ m ∧ front = toString j := by
  have hl : front.toList ++ Nat.toDigits 10 n = Nat.toDigits 10 m := by
    simpa [← String.toList_inj] using h.symm
  obtain ⟨j, hj, hle, he⟩ := front_of_toDigits (by simpa using hf) (by simp) hl
  exact ⟨j, hj, hle, by simpa [← String.toList_inj] using he⟩

theorem eq_or_front {a b : String} {front : List Char} {m n : Nat}
    (hb : b.toList = a.toList ++ front) (hm : (toString m).toList = front ++ (toString n).toList) :
    (a = b ∧ m = n) ∨ ∃ j, 0 < j ∧ 10 * j ≤ m ∧ b = a ++ toString j := by
  have hb : b = a ++ String.ofList front := by simp [← String.toList_inj, hb]
  have hm : toString m = String.ofList front ++ toString n := by
    simpa [← String.toList_inj] using hm
  rcases eq_or_ne (String.ofList front) "" with he | hne
  · rw [he] at hm hb
    exact .inl ⟨by simpa using hb.symm, Nat.repr_inj.mp (by simpa using hm)⟩
  · obtain ⟨j, hj, hle, hf⟩ := front_of_toString hne hm
    exact .inr ⟨j, hj, hle, hf ▸ hb⟩

theorem append_toString_cases {a b : String} {m n : Nat}
    (h : a ++ toString m = b ++ toString n) :
    (a = b ∧ m = n) ∨ (∃ j, 0 < j ∧ 10 * j ≤ m ∧ b = a ++ toString j) ∨
      ∃ j, 0 < j ∧ 10 * j ≤ n ∧ a = b ++ toString j := by
  have hl : a.toList ++ (toString m).toList = b.toList ++ (toString n).toList := by
    simpa [← String.toList_inj] using h
  rcases List.append_eq_append_iff.mp hl with ⟨front, hb, hm⟩ | ⟨front, ha, hn⟩
  · rcases eq_or_front hb hm with he | hf
    · exact .inl he
    · exact .inr (.inl hf)
  · rcases eq_or_front ha hn with ⟨he, hn⟩ | hf
    · exact .inl ⟨he.symm, hn.symm⟩
    · exact .inr (.inr hf)

theorem isDigit_of_mem_toString {c : Char} {n : Nat} (h : c ∈ (toString n).toList) :
    c.isDigit = true := by
  apply Nat.isDigit_of_mem_toDigits (b := 10) (by decide) (by decide)
  simpa using h

structure IsPositive (text : String) : Prop where
  ne_empty : text ≠ ""
  isDigit : ∀ c ∈ text.toList, c.isDigit = true
  head_ne_zero : text.toList.head? ≠ some '0'

theorem head_toDigits_ne_zero {n : Nat} (hn : 0 < n) :
    (Nat.toDigits 10 n).head? ≠ some '0' := by
  induction n using Nat.strongRecOn with
  | ind n ih =>
    by_cases hlt : n < 10
    · rw [Nat.toDigits_of_lt_base hlt, List.head?_cons, ne_eq, Option.some_inj,
        Nat.digitChar_eq_zero]
      omega
    · have hh := ih (n / 10) (by omega) (by omega)
      rw [Nat.toDigits_of_base_le (by omega) (by omega), List.head?_append]
      cases hd : Nat.toDigits 10 (n / 10) with
      | nil => exact absurd hd Nat.toDigits_ne_nil
      | cons c rest => simpa [hd] using hh

theorem isPositive_toString {n : Nat} (hn : 0 < n) : IsPositive (toString n) where
  ne_empty := by simp
  isDigit c hc := isDigit_of_mem_toString hc
  head_ne_zero := by simpa using head_toDigits_ne_zero hn

theorem append_toString_eq_iff {a b : String} {m n : Nat} :
    a ++ toString m = b ++ toString n ↔
      (a = b ∧ m = n) ∨ ∃ digits, IsPositive digits ∧
        ((b = a ++ digits ∧ toString m = digits ++ toString n) ∨
          (a = b ++ digits ∧ toString n = digits ++ toString m)) := by
  constructor
  · intro h
    rcases append_toString_cases h with he | ⟨j, hj, -, rfl⟩ | ⟨j, hj, -, rfl⟩
    · exact .inl he
    · rw [String.append_assoc, String.append_right_inj] at h
      exact .inr ⟨toString j, isPositive_toString hj, .inl ⟨rfl, h⟩⟩
    · rw [String.append_assoc, String.append_right_inj] at h
      exact .inr ⟨toString j, isPositive_toString hj, .inr ⟨rfl, h.symm⟩⟩
  · rintro (⟨rfl, rfl⟩ | ⟨digits, -, ⟨rfl, hm⟩ | ⟨rfl, hn⟩⟩)
    · rfl
    · rw [hm, String.append_assoc]
    · rw [hn, String.append_assoc]

theorem mem_toString {c : Char} {i : Int} (h : c ∈ (toString i).toList) :
    c = '-' ∨ c.isDigit = true := by
  rw [Int.toString_eq_repr, Int.repr_eq_if] at h
  split at h
  · exact .inr (isDigit_of_mem_toString (by simpa using h))
  · rw [String.toList_append, List.mem_append] at h
    exact h.imp (by simp) fun h => isDigit_of_mem_toString (by simpa using h)

theorem eq_of_append_cons {α : Type} {c : α} {u v x y : List α} (hu : c ∉ u) (hv : c ∉ v)
    (h : u ++ c :: x = v ++ c :: y) : u = v ∧ x = y := by
  rcases List.append_eq_append_iff.mp h with ⟨w, hw, hx⟩ | ⟨w, hw, hx⟩ <;> cases w <;> simp_all

theorem eq_of_append_cons_right {α : Type} {c : α} {u v x y : List α} (hx : c ∉ x) (hy : c ∉ y)
    (h : u ++ c :: x = v ++ c :: y) : u = v ∧ x = y := by
  have hr : x.reverse ++ c :: u.reverse = y.reverse ++ c :: v.reverse := by
    simpa using congrArg List.reverse h
  obtain ⟨hx, hu⟩ := eq_of_append_cons (by simpa using hx) (by simpa using hy) hr
  exact ⟨List.reverse_inj.mp hu, List.reverse_inj.mp hx⟩

theorem eq_of_toString_append_cons {c : Char} {i k : Int} {x y : List Char} (hm : c ≠ '-')
    (hd : c.isDigit = false)
    (h : (toString i).toList ++ c :: x = (toString k).toList ++ c :: y) : i = k ∧ x = y := by
  have hc (l : Int) : c ∉ (toString l).toList := by
    intro hl
    rcases mem_toString hl with rfl | hl
    · exact hm rfl
    · simp [hd] at hl
  obtain ⟨hi, hx⟩ := eq_of_append_cons (hc i) (hc k) h
  exact ⟨Int.repr_inj.mp (String.toList_inj.mp hi), hx⟩

theorem eq_of_append_cons_toString {c : Char} {m n : Nat} {u v : List Char}
    (hd : c.isDigit = false)
    (h : u ++ c :: (toString m).toList = v ++ c :: (toString n).toList) : u = v ∧ m = n := by
  have hc (k : Nat) : c ∉ (toString k).toList := by
    intro hk
    simp [isDigit_of_mem_toString hk] at hd
  obtain ⟨hu, hm⟩ := eq_of_append_cons_right (hc m) (hc n) h
  exact ⟨hu, Nat.repr_inj.mp (String.toList_inj.mp hm)⟩

end LintTriage.Numeral
