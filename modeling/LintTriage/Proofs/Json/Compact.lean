import Mathlib.Data.List.Forall2
import LintTriage.Json
import LintTriage.Proofs.Numeral

namespace LintTriage.Json

structure IsFraction (negative : Bool) (s : String) : Prop where
  mem : ∀ c ∈ s.toList, c.isDigit = true ∨ c ∈ ['-', '+', '.', 'e']
  marked : '.' ∈ s.toList ∨ 'e' ∈ s.toList
  sign : s.toList.head? = some '-' ↔ negative = true

inductive Escaped : Char → List Char → Prop
  | plain {c : Char} (h : 0x20 ≤ c.toNat) (hc : c ∉ ['"', '\\']) : Escaped c [c]
  | named {c e : Char}
      (h : (c, e) ∈ [('"', '"'), ('\\', '\\'), ('\x08', 'b'), ('\x0c', 'f'), ('\n', 'n'),
        ('\r', 'r'), ('\t', 't')]) : Escaped c ['\\', e]
  | numbered {c : Char} (h : c.toNat < 0x20) (hc : c ∉ ['\x08', '\x0c', '\n', '\r', '\t']) :
      Escaped c ['\\', 'u', '0', '0', Nat.digitChar (c.toNat / 16), Nat.digitChar (c.toNat % 16)]

def Quoted (s t : String) : Prop :=
  ∃ parts, List.Forall₂ Escaped s.toList parts ∧ t = "\"" ++ String.ofList parts.flatten ++ "\""

inductive CompactText : Json → String → Prop
  | null : CompactText null "null"
  | bool (value : Bool) : CompactText (bool value) (toString value)
  | signed (value : Int) : CompactText (signed value) (toString value)
  | unsigned (value : Nat) : CompactText (unsigned value) (toString value)
  | decimal {negative : Bool} {s : String} (digits places : Nat) (h : IsFraction negative s) :
      CompactText (decimal negative digits places) s
  | text {value s : String} (h : Quoted value s) : CompactText (text value) s
  | array {items : List Json} {texts : List String} (h : List.Forall₂ CompactText items texts) :
      CompactText (array items) ("[" ++ ",".intercalate texts ++ "]")
  | object {members inOrder : List (String × Json)} {texts : List (String × String)}
      (hp : inOrder.Perm members) (ho : inOrder.Pairwise fun a b => a.1 ≤ b.1)
      (hk : List.Forall₂ Quoted (inOrder.map Prod.fst) (texts.map Prod.fst))
      (hv : List.Forall₂ CompactText (inOrder.map Prod.snd) (texts.map Prod.snd)) :
      CompactText (object members)
        ("\x7b" ++ ",".intercalate (texts.map fun t => t.1 ++ ":" ++ t.2) ++ "\x7d")

/-- What is relied on of a writer: no blanks, members by their keys, and integers as integers. -/
structure WritesCompactly (dump : Json → String) : Prop where
  null : dump null = "null"
  bool (value : Bool) : dump (bool value) = toString value
  signed (value : Int) : dump (signed value) = toString value
  unsigned (value : Nat) : dump (unsigned value) = toString value
  decimal (negative : Bool) (digits places : Nat) :
    IsFraction negative (dump (decimal negative digits places))
  text (value : String) : Quoted value (dump (text value))
  array (items : List Json) :
    dump (array items) = "[" ++ ",".intercalate (items.map dump) ++ "]"
  object (members : List (String × Json)) :
    ∃ inOrder : List (String × Json), inOrder.Perm members ∧
      (inOrder.Pairwise fun a b => a.1 ≤ b.1) ∧
      dump (object members) = "\x7b" ++ ",".intercalate
        (inOrder.map fun m => dump (.text m.1) ++ ":" ++ dump m.2) ++ "\x7d"

theorem compactText_dump {dump : Json → String} (hdump : WritesCompactly dump) :
    (j : Json) → j.CompactText (dump j)
  | .null => hdump.null ▸ .null
  | .bool value => hdump.bool value ▸ .bool value
  | .signed value => hdump.signed value ▸ .signed value
  | .unsigned value => hdump.unsigned value ▸ .unsigned value
  | .decimal negative digits places => .decimal digits places (hdump.decimal negative digits places)
  | .text value => .text (hdump.text value)
  | .array items => by
    rw [hdump.array]
    apply CompactText.array
    rw [List.forall₂_map_right_iff, List.forall₂_same]
    intro item hi
    have hlt : sizeOf item < sizeOf items := List.sizeOf_lt_of_mem hi
    exact compactText_dump hdump item
  | .object members => by
    obtain ⟨inOrder, hp, ho, hd⟩ := hdump.object members
    have ht : (inOrder.map fun m => dump (.text m.1) ++ ":" ++ dump m.2) =
        (inOrder.map fun m => (dump (.text m.1), dump m.2)).map fun t => t.1 ++ ":" ++ t.2 := by
      rw [List.map_map]
      rfl
    rw [hd, ht]
    refine .object hp ho ?_ ?_
    · rw [List.map_map, List.forall₂_map_left_iff, List.forall₂_map_right_iff, List.forall₂_same]
      intro m _
      exact hdump.text m.1
    · rw [List.map_map, List.forall₂_map_left_iff, List.forall₂_map_right_iff, List.forall₂_same]
      intro m hm
      have hlt : sizeOf m < sizeOf members := List.sizeOf_lt_of_mem (hp.mem_iff.mp hm)
      have hv : sizeOf m = 1 + sizeOf m.1 + sizeOf m.2 := rfl
      exact compactText_dump hdump m.2

theorem toList_decimalText (negative : Bool) (digits places : Nat) :
    (decimalText negative digits places).toList =
      (if negative then ['-'] else []) ++ ((toString (digits / Nat.pow 10 places)).toList ++
        '.' :: (toString (digits % Nat.pow 10 places)).toList.leftpad places '0') := by
  cases negative <;> simp [decimalText]

theorem isFraction_decimalText (negative : Bool) (digits places : Nat) :
    IsFraction negative (decimalText negative digits places) where
  mem c hc := by
    rw [toList_decimalText, List.mem_append, List.mem_append, List.mem_cons, List.leftpad,
      List.mem_append] at hc
    rcases hc with hc | hc | rfl | hc | hc
    · cases negative <;> simp_all
    · exact .inl (Numeral.isDigit_of_mem_toString hc)
    · simp
    · obtain rfl := List.eq_of_mem_replicate hc
      exact .inl rfl
    · exact .inl (Numeral.isDigit_of_mem_toString hc)
  marked := by
    rw [toList_decimalText]
    simp
  sign := by
    rw [toList_decimalText]
    cases negative with
    | true => simp
    | false =>
      cases hd : (toString (digits / Nat.pow 10 places)).toList with
      | nil => simp
      | cons c rest =>
        have hc : c.isDigit = true := Numeral.isDigit_of_mem_toString (hd ▸ List.mem_cons_self)
        have hne : c ≠ '-' := by
          rintro rfl
          contradiction
        simp [hne]

theorem escaped_escape (c : Char) : Escaped c (escape c) := by
  unfold escape
  split
  iterate 7 exact .named (by decide)
  next =>
    split
    next hlt => exact .numbered hlt (by simp_all)
    next hle => exact .plain (Nat.le_of_not_lt hle) (by simp_all)

theorem quoted_quote (s : String) : Quoted s (quote s) := by
  refine ⟨s.toList.map escape, ?_, by rw [quote, List.flatMap_def]⟩
  rw [List.forall₂_map_right_iff, List.forall₂_same]
  intro c _
  exact escaped_escape c

theorem compact_text (value : String) : compact (text value) = quote value := by
  rw [compact]

theorem writesCompactly_compact : WritesCompactly compact where
  null := by rw [compact]
  bool value := by rw [compact]
  signed value := by rw [compact]
  unsigned value := by rw [compact]
  decimal negative digits places := by
    rw [compact]
    exact isFraction_decimalText negative digits places
  text value := by
    rw [compact]
    exact quoted_quote value
  array items := by rw [compact, compactItems_eq_map, bracketed]
  object members := by
    refine ⟨members.mergeSort fun a b => a.1 ≤ b.1, List.mergeSort_perm _ _, ?_, ?_⟩
    · have htrans (a b c : String × Json) (hab : decide (a.1 ≤ b.1) = true)
          (hbc : decide (b.1 ≤ c.1) = true) : decide (a.1 ≤ c.1) = true :=
        decide_eq_true (String.le_trans (of_decide_eq_true hab) (of_decide_eq_true hbc))
      have htotal (a b : String × Json) : (decide (a.1 ≤ b.1) || decide (b.1 ≤ a.1)) = true := by
        simpa using String.le_total a.1 b.1
      exact (List.pairwise_mergeSort htrans htotal members).imp of_decide_eq_true
    · have hm : (members.map fun m => (m.1, compact m.2)).mergeSort (fun a b => a.1 ≤ b.1) =
          (members.mergeSort fun a b => a.1 ≤ b.1).map fun m => (m.1, compact m.2) := by
        rw [List.map_mergeSort]
        intros
        rfl
      rw [compact, compactMembers_eq_map, hm, braced, List.map_map]
      simp only [Function.comp_def, compact_text]

end LintTriage.Json
