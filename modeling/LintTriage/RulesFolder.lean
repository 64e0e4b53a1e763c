namespace LintTriage.Text

def trim (s : String) : String :=
  String.ofList ((s.toList.dropWhile Char.isWhitespace).reverse.dropWhile Char.isWhitespace).reverse

theorem toList_trim (s : String) : (trim s).toList =
    ((s.toList.dropWhile Char.isWhitespace).reverse.dropWhile Char.isWhitespace).reverse := by
  simp [trim]

end LintTriage.Text

namespace LintTriage.Path

def join (base tail : String) : String :=
  if base.toList.getLast?.all (· = '/') then base ++ tail else base ++ "/" ++ tail

def names (path : String) : List String :=
  (path.toList.splitOn '/').map String.ofList

def isAbsolute (path : String) : Bool :=
  path.toList.head? = some '/'

def leave (absolute : Bool) : List String → List String
  | [] => if absolute then [] else [".."]
  | last :: trail => if last = ".." then ".." :: last :: trail else trail

def enter (absolute : Bool) (trail : List String) (name : String) : List String :=
  if name = "" ∨ name = "." then trail
  else if name = ".." then leave absolute trail
  else name :: trail

def normalNames (path : String) : List String :=
  ((names path).foldl (enter (isAbsolute path)) []).reverse

def normal (path : String) : String :=
  (if isAbsolute path then "/" else "") ++ "/".intercalate (normalNames path)

end LintTriage.Path

namespace LintTriage

inductive Origin where
  | override
  | install
deriving DecidableEq

def Origin.name : Origin → String
  | override => "override"
  | install => "install"

structure RulesFolder where
  path : String
  origin : Origin
deriving DecidableEq

namespace RulesFolder

def variableName : String := "SECLINT_RULES_DIRECTORY"

/-- The text of a variable of the environment ends before the first null character. -/
def overrideFrom (environment : List (String × String)) : Option String :=
  (environment.lookup variableName).map fun value =>
    String.ofList (value.toList.takeWhile (· ≠ '\x00'))

/-- Some launchers export the word `undefined` for a variable without a value. -/
def usable? (override : String) : Option String :=
  let path := Text.trim override
  if path = "" ∨ path = "undefined" then none else some path

def installed (installDir : String) : String :=
  Path.normal (Path.join installDir "../data/rules")

def resolve (override : Option String) (installDir : String) : RulesFolder :=
  match override.bind usable? with
  | some path => { path, origin := .override }
  | none => { path := installed installDir, origin := .install }

def logLine (folder : RulesFolder) : String :=
  "rules directory: " ++ folder.path ++ " (" ++ folder.origin.name ++ ")"

end RulesFolder

end LintTriage
