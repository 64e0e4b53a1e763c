namespace LintTriage

inductive Json where
  | null
  | bool (value : Bool)
  | signed (value : Int)
  | unsigned (value : Nat)
  /-- Any other number: `digits / 10 ^ places` with its sign, which a zero has as well. -/
  | decimal (negative : Bool) (digits places : Nat)
  | text (value : String)
  | array (items : List Json)
  | object (members : List (String × Json))
deriving Inhabited

namespace Json

def isObject : Json → Bool
  | object _ => true
  | _ => false

def integer? : Json → Option Int
  | signed value => some value
  | unsigned value => some value
  | _ => none

def member? : Json → String → Option Json
  | object members, key => members.lookup key
  | _, _ => none

theorem member?_object (members : List (String × Json)) (key : String) :
    (object members).member? key = members.lookup key := rfl

theorem isObject_of_member? {j v : Json} {key : String} (h : j.member? key = some v) :
    j.isObject = true := by
  cases j <;> simp_all [member?, isObject]

def escape (c : Char) : List Char :=
  match c with
  | '"' => ['\\', '"']
  | '\\' => ['\\', '\\']
  | '\x08' => ['\\', 'b']
  | '\x0c' => ['\\', 'f']
  | '\n' => ['\\', 'n']
  | '\r' => ['\\', 'r']
  | '\t' => ['\\', 't']
  | c =>
    if c.toNat < 0x20 then
      ['\\', 'u', '0', '0', Nat.digitChar (c.toNat / 16), Nat.digitChar (c.toNat % 16)]
    else [c]

def quote (s : String) : String :=
  "\"" ++ String.ofList (s.toList.flatMap escape) ++ "\""

def bracketed (items : List String) : String :=
  "[" ++ ",".intercalate items ++ "]"

def braced (members : List (String × String)) : String :=
  "\x7b" ++ ",".intercalate (members.map fun m => quote m.1 ++ ":" ++ m.2) ++ "\x7d"

def decimalText (negative : Bool) (digits places : Nat) : String :=
  let unit := Nat.pow 10 places
  (if negative then "-" else "") ++ toString (digits / unit) ++ "." ++
    String.ofList ((toString (digits % unit)).toList.leftpad places '0')

mutual

/-- One way to write compact texts: numbers that are no integers have a point and no exponent. -/
def compact : Json → String
  | null => "null"
  | bool value => toString value
  | signed value => toString value
  | unsigned value => toString value
  | decimal negative digits places => decimalText negative digits places
  | text value => quote value
  | array items => bracketed (compactItems items)
  | object members => braced ((compactMembers members).mergeSort fun a b => a.1 ≤ b.1)

def compactItems : List Json → List String
  | [] => []
  | item :: rest => compact item :: compactItems rest

def compactMembers : List (String × Json) → List (String × String)
  | [] => []
  | (key, value) :: rest => (key, compact value) :: compactMembers rest

end

theorem compactItems_eq_map (items : List Json) : compactItems items = items.map compact := by
  induction items with
  | nil => rfl
  | cons item rest ih => simp [compactItems, ih]

theorem compactMembers_eq_map (members : List (String × Json)) :
    compactMembers members = members.map fun m => (m.1, compact m.2) := by
  induction members with
  | nil => rfl
  | cons m rest ih => simp [compactMembers, ih]

end Json

end LintTriage
