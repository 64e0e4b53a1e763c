import LintTriage.Json

/-!
Equality of documents as values, written `≈`. Numbers are compared as numbers, arrays element by
element, and objects by what they hold under each key, in whatever order their members are written.
-/

namespace LintTriage.Json

def rational? : Json → Option Rat
  | signed value => some (.ofInt value)
  | unsigned value => some (.ofInt value)
  | decimal negative digits places =>
    some (mkRat (if negative then -digits else digits) (Nat.pow 10 places))
  | _ => none

inductive Same : Json → Json → Prop
  | null : Same null null
  | bool (value : Bool) : Same (bool value) (bool value)
  | number {x y : Json} {value : Rat} (hx : x.rational? = some value)
      (hy : y.rational? = some value) : Same x y
  | text (value : String) : Same (text value) (text value)
  | array {xs ys : List Json} (hl : xs.length = ys.length)
      (h : ∀ (i : Nat) (v w : Json), xs[i]? = some v → ys[i]? = some w → Same v w) :
      Same (array xs) (array ys)
  | object {xs ys : List (String × Json)}
      (hk : ∀ key, xs.lookup key = none ↔ ys.lookup key = none)
      (h : ∀ key v w, xs.lookup key = some v → ys.lookup key = some w → Same v w) :
      Same (object xs) (object ys)

theorem sizeOf_lt_of_lookup {members : List (String × Json)} {key : String} {v : Json}
    (h : members.lookup key = some v) : sizeOf v < sizeOf members := by
  obtain ⟨before, after, rfl, -⟩ := List.lookup_eq_some_iff.mp h
  have hm : sizeOf (key, v) < sizeOf (before ++ (key, v) :: after) :=
    List.sizeOf_lt_of_mem (by simp)
  have hv : sizeOf (key, v) = 1 + sizeOf key + sizeOf v := rfl
  omega

theorem rational?_of_integer? {j : Json} {n : Int} (h : j.integer? = some n) :
    j.rational? = some (.ofInt n) := by
  cases j <;> simp_all [integer?, rational?]

theorem member?_of_rational? {j : Json} {value : Rat} (h : j.rational? = some value)
    (key : String) : j.member? key = none := by
  cases j with
  | object => simp [rational?] at h
  | _ => rfl

namespace Same

variable {x y z : Json}

-- The recursion ends because what an array or an object holds is smaller than it.
theorem refl : (j : Json) → j.Same j
  | .null => .null
  | .bool value => .bool value
  | .signed _ => .number rfl rfl
  | .unsigned _ => .number rfl rfl
  | .decimal _ _ _ => .number rfl rfl
  | .text value => .text value
  | .array items => .array rfl fun i v w hv hw => by
    obtain rfl := Option.some.inj (hv.symm.trans hw)
    have hlt : sizeOf v < sizeOf items := List.sizeOf_lt_of_mem (List.mem_of_getElem? hv)
    exact refl v
  | .object members => .object (fun _ => Iff.rfl) fun key v w hv hw => by
    obtain rfl := Option.some.inj (hv.symm.trans hw)
    have hlt : sizeOf v < sizeOf members := sizeOf_lt_of_lookup hv
    exact refl v

theorem symm (h : x.Same y) : y.Same x := by
  induction h with
  | null => exact .null
  | bool value => exact .bool value
  | number hx hy => exact .number hy hx
  | text value => exact .text value
  | array hl _ ih => exact .array hl.symm fun i v w hv hw => ih i w v hw hv
  | object hk _ ih => exact .object (fun key => (hk key).symm) fun key v w hv hw => ih key w v hw hv

theorem trans (h : x.Same y) (hz : y.Same z) : x.Same z := by
  induction h generalizing z with
  | null => exact hz
  | bool => exact hz
  | text => exact hz
  | number hx hy =>
    -- What is the same as a number is a number.
    cases hz with
    | number hy' hz =>
      obtain rfl := Option.some.inj (hy.symm.trans hy')
      exact .number hx hz
    | _ => simp [rational?] at hy
  | @array xs ys hl _ ih =>
    cases hz with
    | number hy => simp [rational?] at hy
    | array hl' hz =>
      refine .array (hl.trans hl') fun i v w hv hw => ?_
      obtain ⟨hi, -⟩ := List.getElem?_eq_some_iff.mp hw
      have hu : ys[i]? = some ys[i] := List.getElem?_eq_getElem (hl' ▸ hi)
      exact ih i v _ hv hu (hz i _ w hu hw)
  | @object xs ys hk _ ih =>
    cases hz with
    | number hy => simp [rational?] at hy
    | object hk' hz =>
      refine .object (fun key => (hk key).trans (hk' key)) fun key v w hv hw => ?_
      cases hu : ys.lookup key with
      | none => simp [(hk key).mpr hu] at hv
      | some u => exact ih key v u hv hu (hz key u w hu hw)

theorem member?_eq_none_iff (h : x.Same y) (key : String) :
    x.member? key = none ↔ y.member? key = none := by
  cases h with
  | object hk _ => exact hk key
  | number hx hy => rw [member?_of_rational? hx, member?_of_rational? hy]
  | _ => exact Iff.rfl

theorem of_member? (h : x.Same y) (key : String) {v w : Json} (hv : x.member? key = some v)
    (hw : y.member? key = some w) : v.Same w := by
  cases h with
  | object _ h => exact h key v w hv hw
  | number hx => simp [member?_of_rational? hx] at hv
  | _ => cases hv

theorem text_inj {s t : String} (h : (Json.text s).Same (.text t)) : s = t := by
  cases h with
  | number h => simp [rational?] at h
  | text => rfl

theorem integer_inj (h : x.Same y) {m n : Int} (hx : x.integer? = some m)
    (hy : y.integer? = some n) : m = n := by
  cases h with
  | number hm hn =>
    rw [rational?_of_integer? hx, Option.some.injEq] at hm
    rw [rational?_of_integer? hy, Option.some.injEq] at hn
    exact congrArg Rat.num (hm.trans hn.symm)
  | _ => cases hx

end Same

instance : Setoid Json where
  r := Same
  iseqv := ⟨.refl, .symm, .trans⟩

end LintTriage.Json
