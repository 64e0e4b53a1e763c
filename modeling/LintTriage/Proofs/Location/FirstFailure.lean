import Mathlib.Data.List.Nodup
import LintTriage.Proofs.Location.Decoding

/-!
Which error a failed decoding reports. The checks stand in one order, and the first of them that a
document does not pass is reported. What only later checks look at can be anything, and members that
no check looks at do not matter at all.
-/

namespace LintTriage

namespace RangeError

theorem mem_inOrder (error : RangeError) : error ∈ inOrder := by
  cases error with
  | rangeNotObject => decide
  | endpointNotObject e => cases e <;> decide
  | missing e c | notInteger e c | outOfRange e c => cases e <;> cases c <;> decide

theorem nodup_map_message_inOrder : (inOrder.map message).Nodup := by
  rw [map_message_inOrder]
  decide

theorem message_inj {a b : RangeError} : a.message = b.message ↔ a = b := by
  refine ⟨fun h => ?_, congrArg message⟩
  exact List.inj_on_of_nodup_map nodup_map_message_inOrder (mem_inOrder a) (mem_inOrder b) h

end RangeError

namespace Json

def coordinate? (j : Json) (endpoint : Endpoint) (coordinate : Coordinate) : Option Json :=
  (j.member? endpoint.name).bind (·.member? coordinate.name)

def Passes (j : Json) : RangeError → Prop
  | .rangeNotObject => ∃ members, j = .object members
  | .endpointNotObject e => ∃ members, j.member? e.name = some (.object members)
  | .missing e c => ∃ v, j.coordinate? e c = some v
  | .notInteger e c => ∃ n, (j.coordinate? e c).bind integer? = some n
  | .outOfRange e c => ∃ n : Int64, (j.coordinate? e c).bind integer? = some n.toInt

theorem passes_outOfRange_iff {j : Json} {endpoint : Endpoint} {coordinate : Coordinate} {n : Int}
    (h : (j.coordinate? endpoint coordinate).bind integer? = some n) :
    j.Passes (.outOfRange endpoint coordinate) ↔
      Int64.minValue.toInt ≤ n ∧ n ≤ Int64.maxValue.toInt := by
  constructor
  · rintro ⟨word, hw⟩
    rw [h, Option.some.injEq] at hw
    rw [hw]
    exact ⟨Int64.minValue_le_toInt word, Int64.toInt_le word⟩
  · rintro ⟨hmin, hmax⟩
    have hn : (Int64.ofInt n).toInt = n := Int64.toInt_ofInt_of_le hmin (Int.lt_add_one_of_le hmax)
    exact ⟨.ofInt n, by rw [hn, h]⟩

def SameFor (j k : Json) : RangeError → Prop
  | .rangeNotObject => j.isObject = k.isObject
  | .endpointNotObject e => (j.member? e.name).any isObject = (k.member? e.name).any isObject
  | .missing e c | .notInteger e c | .outOfRange e c => j.coordinate? e c = k.coordinate? e c

theorem isObject_iff {j : Json} : j.isObject = true ↔ ∃ members, j = .object members := by
  cases j <;> simp [isObject]

theorem any_isObject_iff {v : Option Json} :
    v.any isObject = true ↔ ∃ members, v = some (.object members) := by
  cases v <;> simp [isObject_iff]

theorem SameFor.passes_iff {j k : Json} {check : RangeError} (h : j.SameFor k check) :
    j.Passes check ↔ k.Passes check := by
  cases check with
  | rangeNotObject =>
    have h : j.isObject = k.isObject := h
    rw [Passes, Passes, ← isObject_iff, ← isObject_iff, h]
  | endpointNotObject e =>
    have h : (j.member? e.name).any isObject = (k.member? e.name).any isObject := h
    rw [Passes, Passes, ← any_isObject_iff, ← any_isObject_iff, h]
  | missing e c | notInteger e c | outOfRange e c =>
    have h : j.coordinate? e c = k.coordinate? e c := h
    simp only [Passes, h]

def Adds (j : Json) (key : String) (k : Json) : Prop :=
  ∃ before after v, j = .object (before ++ after) ∧ k = .object (before ++ (key, v) :: after)

theorem Adds.isObject_eq {key : String} {j k : Json} (h : j.Adds key k) :
    k.isObject = j.isObject := by
  obtain ⟨before, after, v, rfl, rfl⟩ := h
  rfl

theorem Adds.member?_eq {key other : String} {j k : Json} (h : j.Adds key k) (hne : other ≠ key) :
    k.member? other = j.member? other := by
  obtain ⟨before, after, v, rfl, rfl⟩ := h
  have hb : (other == key) = false := by simpa using hne
  rw [member?_object, member?_object, List.lookup_append, List.lookup_append, List.lookup_cons, hb]

def FirstFailure (j : Json) (checks : List RangeError) (error : RangeError) : Prop :=
  ∃ before after, checks = before ++ error :: after ∧ (∀ check ∈ before, j.Passes check) ∧
    ¬j.Passes error

theorem not_firstFailure_nil {j : Json} {error : RangeError} : ¬j.FirstFailure [] error := by
  rintro ⟨before, after, h, -⟩
  simp at h

theorem firstFailure_cons_iff {j : Json} {check error : RangeError} {rest : List RangeError} :
    j.FirstFailure (check :: rest) error ↔
      check = error ∧ ¬j.Passes check ∨ j.Passes check ∧ j.FirstFailure rest error := by
  constructor
  · rintro ⟨before, after, h, hb, he⟩
    cases before with
    | nil =>
      obtain ⟨rfl, -⟩ := List.cons.inj h
      exact .inl ⟨rfl, he⟩
    | cons first before =>
      obtain ⟨rfl, hr⟩ := List.cons.inj h
      obtain ⟨hc, hb⟩ := List.forall_mem_cons.mp hb
      exact .inr ⟨hc, before, after, hr, hb, he⟩
  · rintro (⟨rfl, he⟩ | ⟨hc, before, after, rfl, hb, he⟩)
    · exact ⟨[], rest, rfl, by simp, he⟩
    · exact ⟨check :: before, after, rfl, List.forall_mem_cons.mpr ⟨hc, hb⟩, he⟩

inductive Reports (j : Json) {α : Type} : List RangeError → Except RangeError α → Prop
  | done (a : α) : Reports j [] (.ok a)
  | fail {check : RangeError} {rest : List RangeError} (h : ¬j.Passes check) :
      Reports j (check :: rest) (.error check)
  | pass {check : RangeError} {rest : List RangeError} {x : Except RangeError α}
      (h : j.Passes check) (hx : Reports j rest x) : Reports j (check :: rest) x

namespace Reports

variable {j : Json} {α β : Type} {checks others : List RangeError} {x : Except RangeError α}

theorem bind {f : α → Except RangeError β} (hx : Reports j checks x)
    (hf : ∀ a, x = .ok a → Reports j others (f a)) : Reports j (checks ++ others) (x >>= f) := by
  induction hx with
  | done a => exact hf a rfl
  | fail h => exact .fail h
  | pass h _ ih => exact .pass h (ih hf)

theorem eq_error_iff {error : RangeError} (hx : Reports j checks x) :
    x = .error error ↔ j.FirstFailure checks error := by
  induction hx with
  | done a => simp [not_firstFailure_nil]
  | fail h => simp [firstFailure_cons_iff, h]
  | pass h _ ih => simp [firstFailure_cons_iff, h, ih]

end Reports

end Json

theorem Position.reports_coordinateOfJson {j v : Json} {endpoint : Endpoint}
    (h : j.member? endpoint.name = some v) (coordinate : Coordinate) :
    j.Reports (RangeError.ofCoordinate endpoint coordinate)
      (coordinateOfJson endpoint v coordinate) := by
  have hc : j.coordinate? endpoint coordinate = v.member? coordinate.name := by
    rw [Json.coordinate?, h, Option.bind_some]
  rw [coordinateOfJson, ← hc]
  cases hw : j.coordinate? endpoint coordinate with
  | none => exact .fail (by simp [Json.Passes, hw])
  | some w =>
    refine .pass ⟨w, hw⟩ ?_
    dsimp only
    cases hn : w.integer? with
    | none => exact .fail (by simp [Json.Passes, hw, hn])
    | some n =>
      have hi : (j.coordinate? endpoint coordinate).bind Json.integer? = some n := by
        rw [hw, Option.bind_some, hn]
      have hr := Json.passes_outOfRange_iff hi
      refine .pass ⟨n, hi⟩ ?_
      dsimp only
      split
      next hb => exact .pass (hr.mpr hb) (.done _)
      next hb => exact .fail (mt hr.mp hb)

theorem Position.ofJson_of_adds {v w : Json} {key : String} (h : v.Adds key w)
    (hkey : ∀ coordinate : Coordinate, coordinate.name ≠ key) (endpoint : Endpoint) :
    ofJson endpoint w = ofJson endpoint v := by
  have hc (coordinate : Coordinate) :
      coordinateOfJson endpoint w coordinate = coordinateOfJson endpoint v coordinate := by
    rw [coordinateOfJson, coordinateOfJson, h.member?_eq (hkey coordinate)]
  rw [ofJson, ofJson, h.isObject_eq, hc, hc]

namespace Range

open RangeError

theorem reports_endpointOfJson (j : Json) (endpoint : Endpoint) :
    j.Reports (ofEndpoint endpoint) (endpointOfJson j endpoint) := by
  rw [endpointOfJson, Position.ofJson]
  split
  next ho =>
    -- null stands for a missing endpoint, and is no object
    obtain ⟨v, hv⟩ : ∃ v, j.member? endpoint.name = some v := by
      cases hm : j.member? endpoint.name with
      | none => simp [hm, Json.isObject] at ho
      | some v => exact ⟨v, rfl⟩
    rw [hv, Option.getD_some] at ho ⊢
    obtain ⟨members, rfl⟩ := Json.isObject_iff.mp ho
    have hp : j.Passes (.endpointNotObject endpoint) := ⟨members, hv⟩
    refine .pass hp ((Position.reports_coordinateOfJson hv .line).bind fun line _ => ?_)
    rw [← List.append_nil (ofCoordinate endpoint .character)]
    exact (Position.reports_coordinateOfJson hv .character).bind fun character _ => .done _
  next ho =>
    apply Json.Reports.fail
    rintro ⟨members, hm⟩
    rw [hm] at ho
    exact ho rfl

theorem reports_ofJson (j : Json) : j.Reports inOrder (ofJson j) := by
  rw [ofJson]
  split
  next ho =>
    have hp : j.Passes .rangeNotObject := Json.isObject_iff.mp ho
    refine .pass hp ((reports_endpointOfJson j .start).bind fun start _ => ?_)
    rw [← List.append_nil (ofEndpoint .stop)]
    exact (reports_endpointOfJson j .stop).bind fun stop _ => .done _
  next ho =>
    apply Json.Reports.fail
    exact fun hp => ho (Json.isObject_iff.mpr hp)

theorem ofJson_eq_error_iff {j : Json} {error : RangeError} :
    ofJson j = .error error ↔ j.FirstFailure inOrder error :=
  (reports_ofJson j).eq_error_iff

theorem endpointOfJson_congr {j k : Json} {endpoint : Endpoint}
    (h : k.member? endpoint.name = j.member? endpoint.name) :
    endpointOfJson k endpoint = endpointOfJson j endpoint := by
  rw [endpointOfJson, endpointOfJson, h]

theorem ofJson_congr {j k : Json} (h : k.isObject = j.isObject)
    (he : ∀ endpoint, endpointOfJson k endpoint = endpointOfJson j endpoint) :
    ofJson k = ofJson j := by
  rw [ofJson, ofJson, h, he, he]

theorem ofJson_of_bad_start {j k : Json} {error : RangeError}
    (hbad : endpointOfJson j .start = .error error) (h : k.isObject = j.isObject)
    (hs : k.member? "start" = j.member? "start") : ofJson k = ofJson j := by
  have hk : endpointOfJson k .start = .error error := (endpointOfJson_congr hs).trans hbad
  rw [ofJson, ofJson, h, hk, hbad]
  rfl

theorem ofJson_of_adds {j k : Json} {key : String} (h : j.Adds key k)
    (hkey : ∀ endpoint : Endpoint, endpoint.name ≠ key) : ofJson k = ofJson j :=
  ofJson_congr h.isObject_eq fun endpoint => endpointOfJson_congr (h.member?_eq (hkey endpoint))

theorem ofJson_of_endpoint_adds {v w : Json} {key : String} (h : v.Adds key w)
    (hkey : ∀ coordinate : Coordinate, coordinate.name ≠ key) (endpoint : Endpoint)
    (before after : List (String × Json)) :
    ofJson (.object (before ++ (endpoint.name, w) :: after)) =
      ofJson (.object (before ++ (endpoint.name, v) :: after)) := by
  apply ofJson_congr
  · rfl
  intro other
  rw [endpointOfJson, endpointOfJson, Json.member?_object, Json.member?_object,
    List.lookup_append, List.lookup_append, List.lookup_cons, List.lookup_cons]
  cases before.lookup other.name with
  | some u => rfl
  | none =>
    split
    · exact Position.ofJson_of_adds h hkey other
    · rfl

theorem ofJson_first_failure :
    (∀ (j : Json) (error : RangeError),
      ofJson j = .error error ↔ j.FirstFailure inOrder error) ∧
    (∀ a b : RangeError, a.message = b.message → a = b) ∧
    (∀ (j k : Json) (error : RangeError), ofJson j = .error error →
      (∀ check ∈ inOrder.takeWhile (· ≠ error) ++ [error], j.SameFor k check) →
        ofJson k = .error error) ∧
    (∀ (j k : Json) (error : RangeError), endpointOfJson j .start = .error error →
      k.isObject = j.isObject → k.member? "start" = j.member? "start" → ofJson k = ofJson j) ∧
    (∀ (j k : Json) (key : String), j.Adds key k → key ∉ ["start", "end"] →
      ofJson k = ofJson j) ∧
    ∀ (v w : Json) (key : String), v.Adds key w → key ∉ ["line", "character"] →
      ∀ (endpoint : Endpoint) (before after : List (String × Json)),
        ofJson (.object (before ++ (endpoint.name, w) :: after)) =
          ofJson (.object (before ++ (endpoint.name, v) :: after)) := by
  refine ⟨fun j error => ofJson_eq_error_iff, fun a b h => message_inj.mp h, ?_, ?_, ?_, ?_⟩
  · intro j k error h hsame
    obtain ⟨before, after, ho, hb, he⟩ := ofJson_eq_error_iff.mp h
    -- the error is not among the checks before it, which pass
    have hne : ∀ check ∈ before, decide (check ≠ error) = true := by
      intro check hc
      exact decide_eq_true fun heq => he (heq ▸ hb check hc)
    have hw : inOrder.takeWhile (· ≠ error) = before := by
      rw [ho, List.takeWhile_append_of_pos hne]
      simp
    rw [hw, List.forall_mem_append, List.forall_mem_singleton] at hsame
    refine ofJson_eq_error_iff.mpr ⟨before, after, ho, fun check hc => ?_, ?_⟩
    · exact (hsame.1 check hc).passes_iff.mp (hb check hc)
    · exact mt hsame.2.passes_iff.mpr he
  · intro j k error hbad h hs
    exact ofJson_of_bad_start hbad h hs
  · intro j k key h hkey
    apply ofJson_of_adds h
    rintro endpoint rfl
    exact hkey (by cases endpoint <;> decide)
  · intro v w key h hkey
    apply ofJson_of_endpoint_adds h
    rintro coordinate rfl
    exact hkey (by cases coordinate <;> decide)

-- the document fails both checks of integers at the start, and the end is no object
example : ofJson (.object [("end", .null),
    ("start", .object [("character", .text "1"), ("line", .unsigned 9223372036854775808)])]) =
    .error (.outOfRange .start .line) := by
  decide

end Range

end LintTriage
