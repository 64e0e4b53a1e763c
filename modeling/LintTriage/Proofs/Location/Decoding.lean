import LintTriage.Location

namespace LintTriage

theorem bind_eq_ok_iff {ε α β : Type} {x : Except ε α} {f : α → Except ε β} {b : β} :
    (x >>= f) = .ok b ↔ ∃ a, x = .ok a ∧ f a = .ok b := by
  cases x <;> simp [bind, Except.bind]

namespace Json

theorem member?_eq_some_iff {j v : Json} {key : String} :
    j.member? key = some v ↔ ∃ members, j = .object members ∧ members.lookup key = some v := by
  cases j <;> simp [member?]

def asSigned : Json → Json
  | unsigned value => signed value
  | j => j

theorem asSigned_eq_signed_iff {j : Json} {n : Int} :
    j.asSigned = .signed n ↔ j.integer? = some n := by
  cases j <;> simp [asSigned, integer?]

def only (f : Json → Json) (keys : List String) (j : Json) : Json :=
  .object (keys.filterMap fun key => (j.member? key).map fun v => (key, f v))

theorem only_eq_object_iff {f : Json → Json} {j v w : Json} {a b : String} :
    j.only f [a, b] = .object [(a, v), (b, w)] ↔
      (j.member? a).map f = some v ∧ (j.member? b).map f = some w := by
  cases ha : j.member? a <;> cases hb : j.member? b <;> simp [only, ha, hb]

end Json

namespace Position

def StandsIn (position : Position) (j : Json) : Prop :=
  ∃ members, j = .object members ∧
    (members.lookup "line").bind Json.integer? = some position.line.toInt ∧
    (members.lookup "character").bind Json.integer? = some position.character.toInt

theorem standsIn_iff {position : Position} {j : Json} :
    position.StandsIn j ↔
      (j.member? "line").bind Json.integer? = some position.line.toInt ∧
        (j.member? "character").bind Json.integer? = some position.character.toInt := by
  cases j <;> simp [StandsIn, Json.member?]

theorem coordinateOfJson_eq_ok_iff {endpoint : Endpoint} {j : Json} {coordinate : Coordinate}
    {n : Int64} :
    coordinateOfJson endpoint j coordinate = .ok n ↔
      (j.member? coordinate.name).bind Json.integer? = some n.toInt := by
  rw [coordinateOfJson]
  cases j.member? coordinate.name with
  | none => simp
  | some value =>
    dsimp only
    rw [Option.bind_some]
    cases value.integer? with
    | none => simp
    | some m =>
      dsimp only
      rw [Option.some.injEq]
      split
      next hb =>
        have hi : (Int64.ofInt m).toInt = m :=
          Int64.toInt_ofInt_of_le hb.1 (Int.lt_add_one_of_le hb.2)
        rw [Except.ok.injEq, ← Int64.toInt_inj, hi]
      next hb =>
        simp only [reduceCtorEq, false_iff]
        rintro rfl
        exact hb ⟨Int64.minValue_le_toInt n, Int64.toInt_le n⟩

theorem ofJson_eq_ok_iff {endpoint : Endpoint} {j : Json} {position : Position} :
    ofJson endpoint j = .ok position ↔ position.StandsIn j := by
  rw [standsIn_iff, ofJson]
  constructor
  · intro h
    split at h
    next =>
      obtain ⟨line, hl, h⟩ := bind_eq_ok_iff.mp h
      obtain ⟨character, hc, h⟩ := bind_eq_ok_iff.mp h
      obtain rfl := Except.ok.inj h
      exact ⟨coordinateOfJson_eq_ok_iff.mp hl, coordinateOfJson_eq_ok_iff.mp hc⟩
    next => contradiction
  · rintro ⟨hl, hc⟩
    have hline : coordinateOfJson endpoint j .line = .ok position.line :=
      coordinateOfJson_eq_ok_iff.mpr hl
    have hcharacter : coordinateOfJson endpoint j .character = .ok position.character :=
      coordinateOfJson_eq_ok_iff.mpr hc
    obtain ⟨v, hm, -⟩ := Option.bind_eq_some_iff.mp hl
    rw [if_pos (Json.isObject_of_member? hm), hline, hcharacter]
    rfl

theorem only_eq_toJson_iff {j : Json} {position : Position} :
    j.only Json.asSigned ["character", "line"] = position.toJson ↔ position.StandsIn j := by
  have hv (v : Option Json) (n : Int) :
      v.map Json.asSigned = some (.signed n) ↔ v.bind Json.integer? = some n := by
    simp only [Option.map_eq_some_iff, Json.asSigned_eq_signed_iff, Option.bind_eq_some_iff]
  rw [standsIn_iff, ← hv, ← hv, and_comm]
  exact Json.only_eq_object_iff

end Position

namespace Range

def strip (j : Json) : Json :=
  j.only (Json.only Json.asSigned ["character", "line"]) ["end", "start"]

def StandsIn (range : Range) (j : Json) : Prop :=
  ∃ members start stop, j = .object members ∧
    members.lookup "start" = some start ∧ members.lookup "end" = some stop ∧
    range.start.StandsIn start ∧ range.stop.StandsIn stop

theorem standsIn_iff {range : Range} {j : Json} :
    range.StandsIn j ↔
      (∃ start, j.member? "start" = some start ∧ range.start.StandsIn start) ∧
        ∃ stop, j.member? "end" = some stop ∧ range.stop.StandsIn stop := by
  constructor
  · rintro ⟨members, start, stop, rfl, hs, he, hstart, hstop⟩
    exact ⟨⟨start, hs, hstart⟩, stop, he, hstop⟩
  · rintro ⟨⟨start, hs, hstart⟩, stop, he, hstop⟩
    obtain ⟨members, rfl, hs⟩ := Json.member?_eq_some_iff.mp hs
    exact ⟨members, start, stop, rfl, hs, he, hstart, hstop⟩

theorem endpointOfJson_eq_ok_iff {j : Json} {endpoint : Endpoint} {position : Position} :
    endpointOfJson j endpoint = .ok position ↔
      ∃ v, j.member? endpoint.name = some v ∧ position.StandsIn v := by
  rw [endpointOfJson, Position.ofJson_eq_ok_iff]
  cases j.member? endpoint.name with
  | none => simp [Position.StandsIn]
  | some v => simp

theorem ofJson_eq_ok_iff {j : Json} {range : Range} : ofJson j = .ok range ↔ range.StandsIn j := by
  rw [standsIn_iff, ofJson]
  constructor
  · intro h
    split at h
    next =>
      obtain ⟨start, hs, h⟩ := bind_eq_ok_iff.mp h
      obtain ⟨stop, he, h⟩ := bind_eq_ok_iff.mp h
      obtain rfl := Except.ok.inj h
      exact ⟨endpointOfJson_eq_ok_iff.mp hs, endpointOfJson_eq_ok_iff.mp he⟩
    next => contradiction
  · rintro ⟨hs, he⟩
    have hstart : endpointOfJson j .start = .ok range.start := endpointOfJson_eq_ok_iff.mpr hs
    have hstop : endpointOfJson j .stop = .ok range.stop := endpointOfJson_eq_ok_iff.mpr he
    obtain ⟨v, hm, -⟩ := hs
    rw [if_pos (Json.isObject_of_member? hm), hstart, hstop]
    rfl

theorem strip_eq_toJson_iff {j : Json} {range : Range} :
    strip j = range.toJson ↔ range.StandsIn j := by
  rw [standsIn_iff, and_comm]
  apply Json.only_eq_object_iff.trans
  simp only [Option.map_eq_some_iff, Position.only_eq_toJson_iff]

theorem ofJson_exact :
    (∀ range : Range, ofJson range.toJson = .ok range) ∧
    ∀ (j : Json) (range : Range),
      (ofJson j = .ok range ↔ range.StandsIn j) ∧
      (ofJson j = .ok range ↔ strip j = range.toJson) := by
  refine ⟨fun range => ?_, fun j range => ⟨ofJson_eq_ok_iff, ?_⟩⟩
  · rw [ofJson_eq_ok_iff, ← strip_eq_toJson_iff]
    rfl
  · rw [ofJson_eq_ok_iff, strip_eq_toJson_iff]

end Range

end LintTriage
