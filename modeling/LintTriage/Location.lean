import LintTriage.Json

namespace LintTriage

structure Position where
  line : Int64 := 0
  character : Int64 := 0
deriving DecidableEq

instance : Ord Position :=
  ⟨compareLex (compareOn Position.line) (compareOn Position.character)⟩

structure Range where
  start : Position := {}
  stop : Position := {}
deriving DecidableEq

instance : Ord Range :=
  ⟨compareLex (compareOn Range.start) (compareOn Range.stop)⟩

/-- A `stop` of zero marks an insertion at `start`. -/
structure Span where
  start : Nat := 0
  stop : Nat := 0
deriving DecidableEq

instance : Ord Span :=
  ⟨compareLex (compareOn Span.start) (compareOn Span.stop)⟩

namespace Span

def isInsertion (span : Span) : Bool :=
  span.stop = 0

def positionOrder : Span → Span → Ordering :=
  compareLex (compareOn start)
    (compareLex (compareOn fun span => if span.isInsertion then 0 else 1) (compareOn stop))

def overlaps (kept candidate : Span) : Bool :=
  kept.stop > candidate.start

theorem positionOrder_eq_compare (a b : Span) : a.positionOrder b = compare a b := by
  change (compare a.start b.start).then ((compare (if a.isInsertion then 0 else 1)
    (if b.isInsertion then 0 else 1)).then (compare a.stop b.stop)) =
      (compare a.start b.start).then (compare a.stop b.stop)
  congr 1
  by_cases ha : a.stop = 0 <;> by_cases hb : b.stop = 0
  · simp [isInsertion, ha, hb]
  · have hlt : compare 0 b.stop = .lt := Nat.compare_eq_lt.mpr (Nat.pos_of_ne_zero hb)
    simp only [isInsertion, ha, hb, hlt, decide_true, decide_false, if_true, Bool.false_eq_true,
      if_false]
    rfl
  · have hgt : compare a.stop 0 = .gt := Nat.compare_eq_gt.mpr (Nat.pos_of_ne_zero ha)
    simp only [isInsertion, ha, hb, hgt, decide_true, decide_false, if_true, Bool.false_eq_true,
      if_false]
    rfl
  · simp [isInsertion, ha, hb]

theorem overlaps_iff (kept candidate : Span) :
    kept.overlaps candidate = true ↔ candidate.start < kept.stop := by
  simp [overlaps]

end Span

inductive Endpoint where
  | start
  | stop
deriving DecidableEq

def Endpoint.name : Endpoint → String
  | start => "start"
  | stop => "end"

inductive Coordinate where
  | line
  | character
deriving DecidableEq

def Coordinate.name : Coordinate → String
  | line => "line"
  | character => "character"

inductive RangeError where
  | rangeNotObject
  | endpointNotObject (endpoint : Endpoint)
  | missing (endpoint : Endpoint) (coordinate : Coordinate)
  | notInteger (endpoint : Endpoint) (coordinate : Coordinate)
  | outOfRange (endpoint : Endpoint) (coordinate : Coordinate)
deriving DecidableEq

namespace RangeError

def message : RangeError → String
  | rangeNotObject => "range must be an object"
  | endpointNotObject e => e.name ++ " must be an object"
  | missing e c => e.name ++ "." ++ c.name ++ " is missing"
  | notInteger e c => e.name ++ "." ++ c.name ++ " must be an integer"
  | outOfRange e c => e.name ++ "." ++ c.name ++ " is out of range"

def ofCoordinate (endpoint : Endpoint) (coordinate : Coordinate) : List RangeError :=
  [.missing endpoint coordinate, .notInteger endpoint coordinate, .outOfRange endpoint coordinate]

def ofEndpoint (endpoint : Endpoint) : List RangeError :=
  .endpointNotObject endpoint :: (ofCoordinate endpoint .line ++ ofCoordinate endpoint .character)

def inOrder : List RangeError :=
  .rangeNotObject :: (ofEndpoint .start ++ ofEndpoint .stop)

theorem map_message_inOrder :
    inOrder.map message =
      ["range must be an object",
        "start must be an object",
        "start.line is missing", "start.line must be an integer", "start.line is out of range",
        "start.character is missing", "start.character must be an integer",
        "start.character is out of range",
        "end must be an object",
        "end.line is missing", "end.line must be an integer", "end.line is out of range",
        "end.character is missing", "end.character must be an integer",
        "end.character is out of range"] := by
  decide

end RangeError

namespace Position

def toJson (position : Position) : Json :=
  .object [("character", .signed position.character.toInt), ("line", .signed position.line.toInt)]

def coordinateOfJson (endpoint : Endpoint) (j : Json) (coordinate : Coordinate) :
    Except RangeError Int64 :=
  match j.member? coordinate.name with
  | none => .error (.missing endpoint coordinate)
  | some value =>
    match value.integer? with
    | none => .error (.notInteger endpoint coordinate)
    | some n =>
      if Int64.minValue.toInt ≤ n ∧ n ≤ Int64.maxValue.toInt then .ok (Int64.ofInt n)
      else .error (.outOfRange endpoint coordinate)

def ofJson (endpoint : Endpoint) (j : Json) : Except RangeError Position :=
  if j.isObject then do
    let line ← coordinateOfJson endpoint j .line
    let character ← coordinateOfJson endpoint j .character
    return { line, character }
  else .error (.endpointNotObject endpoint)

end Position

namespace Range

def toJson (range : Range) : Json :=
  .object [("end", range.stop.toJson), ("start", range.start.toJson)]

/-- A missing endpoint is read as `null`, and so is not an object. -/
def endpointOfJson (j : Json) (endpoint : Endpoint) : Except RangeError Position :=
  Position.ofJson endpoint ((j.member? endpoint.name).getD .null)

def ofJson (j : Json) : Except RangeError Range :=
  if j.isObject then do
    let start ← endpointOfJson j .start
    let stop ← endpointOfJson j .stop
    return { start, stop }
  else .error .rangeNotObject

end Range

end LintTriage
