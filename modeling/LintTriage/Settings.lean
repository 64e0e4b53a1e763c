import LintTriage.Json

namespace LintTriage

structure Settings where
  bestPractice : Bool := false
  manualReview : Bool := true
  guidanceUrl : String := ""
  ignoredFiles : List String := []
  ignoredRules : List String := []
  reviewer : String := ""
  removeOnClose : Bool := true
  suppressionDays : Int32 := 30
  commentStyle : String := "line"
  commentPlacement : String := "same line as finding"
  checkRuleFiles : Bool := false
  consoleLog : Bool := false
deriving DecidableEq

def Settings.shippedIgnoredFiles : List String :=
  ["out/*", "bin/*", "node_modules/*", ".vscode/*", "*.lock", "*-lock", "logs/*", "*.log", "*.git",
    "*.sarif", ".cache/*", "NuGet/*", "*.exe", "tests/*", "test/*", "_tests_/*", "_mocks_/*",
    "*.test", "rulesValidationLog.json"]

def Settings.shipped : Settings where
  guidanceUrl := "https://github.com/Microsoft/DevSkim/blob/master/guidance/"
  ignoredFiles := shippedIgnoredFiles

inductive Setting where
  | bestPractice
  | manualReview
  | guidanceUrl
  | ignoredFiles
  | ignoredRules
  | reviewer
  | removeOnClose
  | suppressionDays
  | commentStyle
  | commentPlacement
  | checkRuleFiles
  | consoleLog
deriving DecidableEq

/-- The text of an element of a list. What is no text itself is written by `dump`. -/
def Json.asText (dump : Json → String) : Json → String
  | text value => value
  | j => dump j

namespace Setting

inductive Kind where
  | flag
  | filledText
  | commentStyle
  | dayCount
  | textList

namespace Kind

@[reducible] def Value : Kind → Type
  | flag => Bool
  | filledText => String
  | commentStyle => String
  | dayCount => Int32
  | textList => List String

instance : (kind : Kind) → DecidableEq kind.Value
  | flag => inferInstanceAs (DecidableEq Bool)
  | filledText => inferInstanceAs (DecidableEq String)
  | commentStyle => inferInstanceAs (DecidableEq String)
  | dayCount => inferInstanceAs (DecidableEq Int32)
  | textList => inferInstanceAs (DecidableEq (List String))

def ofJson? (dump : Json → String) : (kind : Kind) → Json → Option kind.Value
  | flag, .bool value => some value
  | filledText, .text value => if value = "" then none else some value
  | commentStyle, .text value => if value = "line" ∨ value = "block" then some value else none
  | dayCount, .unsigned value =>
    if value ≤ Int32.maxValue.toNatClampNeg then some (Int32.ofNat value) else none
  | dayCount, .signed value =>
    if 0 ≤ value ∧ value ≤ Int32.maxValue.toInt then some (Int32.ofInt value) else none
  | textList, .array items => some (items.map (Json.asText dump))
  | _, _ => none

theorem ofJson?_dayCount_unsigned (dump : Json → String) (n : Nat) :
    dayCount.ofJson? dump (.unsigned n) = dayCount.ofJson? dump (.signed n) := by
  have hmax : Int32.maxValue.toInt = Int32.maxValue.toNatClampNeg := rfl
  have hn : n ≤ Int32.maxValue.toNatClampNeg ↔ (0 : Int) ≤ n ∧ (n : Int) ≤ Int32.maxValue.toInt := by
    omega
  simp only [ofJson?, hn]
  rfl

def toJson : (kind : Kind) → kind.Value → Json
  | flag, value => .bool value
  | filledText, value => .text value
  | commentStyle, value => .text value
  | dayCount, value => .signed value.toInt
  | textList, items => .array (items.map .text)

end Kind

@[reducible] def kind : Setting → Kind
  | bestPractice | manualReview | removeOnClose | checkRuleFiles | consoleLog => .flag
  | guidanceUrl | reviewer | commentPlacement => .filledText
  | commentStyle => .commentStyle
  | suppressionDays => .dayCount
  | ignoredFiles | ignoredRules => .textList

def key : Setting → String
  | bestPractice => "enableBestPracticeRules"
  | manualReview => "enableManualReviewRules"
  | guidanceUrl => "guidanceBaseURL"
  | ignoredFiles => "ignoreFilesList"
  | ignoredRules => "ignoreRulesList"
  | reviewer => "manualReviewerName"
  | removeOnClose => "removeFindingsOnClose"
  | suppressionDays => "suppressionDurationInDays"
  | commentStyle => "suppressionCommentStyle"
  | commentPlacement => "suppressionCommentPlacement"
  | checkRuleFiles => "validateRulesFiles"
  | consoleLog => "logToConsole"

def all : List Setting :=
  [bestPractice, manualReview, guidanceUrl, ignoredFiles, ignoredRules, reviewer, removeOnClose,
    suppressionDays, commentStyle, commentPlacement, checkRuleFiles, consoleLog]

theorem mem_all (setting : Setting) : setting ∈ all := by
  cases setting <;> decide

theorem key_inj {s t : Setting} : s.key = t.key ↔ s = t := by
  cases s <;> cases t <;> decide

def given? (dump : Json → String) (setting : Setting) (config : Json) :
    Option setting.kind.Value :=
  (config.member? setting.key).bind (setting.kind.ofJson? dump)

end Setting

structure Validation where
  settings : Settings
  fallbacks : List Setting

namespace Settings

def get (settings : Settings) : (setting : Setting) → setting.kind.Value
  | .bestPractice => settings.bestPractice
  | .manualReview => settings.manualReview
  | .guidanceUrl => settings.guidanceUrl
  | .ignoredFiles => settings.ignoredFiles
  | .ignoredRules => settings.ignoredRules
  | .reviewer => settings.reviewer
  | .removeOnClose => settings.removeOnClose
  | .suppressionDays => settings.suppressionDays
  | .commentStyle => settings.commentStyle
  | .commentPlacement => settings.commentPlacement
  | .checkRuleFiles => settings.checkRuleFiles
  | .consoleLog => settings.consoleLog

def ofValues (value : (setting : Setting) → setting.kind.Value) : Settings where
  bestPractice := value .bestPractice
  manualReview := value .manualReview
  guidanceUrl := value .guidanceUrl
  ignoredFiles := value .ignoredFiles
  ignoredRules := value .ignoredRules
  reviewer := value .reviewer
  removeOnClose := value .removeOnClose
  suppressionDays := value .suppressionDays
  commentStyle := value .commentStyle
  commentPlacement := value .commentPlacement
  checkRuleFiles := value .checkRuleFiles
  consoleLog := value .consoleLog

theorem get_ofValues (value : (setting : Setting) → setting.kind.Value) (setting : Setting) :
    (ofValues value).get setting = value setting := by
  cases setting <;> rfl

theorem ofValues_get (settings : Settings) : ofValues settings.get = settings := rfl

def toJson (settings : Settings) : Json :=
  .object
    [("enableBestPracticeRules", .bool settings.bestPractice),
      ("enableManualReviewRules", .bool settings.manualReview),
      ("guidanceBaseURL", .text settings.guidanceUrl),
      ("ignoreFilesList", .array (settings.ignoredFiles.map .text)),
      ("ignoreRulesList", .array (settings.ignoredRules.map .text)),
      ("logToConsole", .bool settings.consoleLog),
      ("manualReviewerName", .text settings.reviewer),
      ("removeFindingsOnClose", .bool settings.removeOnClose),
      ("suppressionCommentPlacement", .text settings.commentPlacement),
      ("suppressionCommentStyle", .text settings.commentStyle),
      ("suppressionDurationInDays", .signed settings.suppressionDays.toInt),
      ("validateRulesFiles", .bool settings.checkRuleFiles)]

theorem map_key_toJson_get (settings : Settings) :
    (Setting.all.map fun setting => (setting.key, setting.kind.toJson (settings.get setting))) =
      [("enableBestPracticeRules", .bool settings.bestPractice),
        ("enableManualReviewRules", .bool settings.manualReview),
        ("guidanceBaseURL", .text settings.guidanceUrl),
        ("ignoreFilesList", .array (settings.ignoredFiles.map .text)),
        ("ignoreRulesList", .array (settings.ignoredRules.map .text)),
        ("manualReviewerName", .text settings.reviewer),
        ("removeFindingsOnClose", .bool settings.removeOnClose),
        ("suppressionDurationInDays", .signed settings.suppressionDays.toInt),
        ("suppressionCommentStyle", .text settings.commentStyle),
        ("suppressionCommentPlacement", .text settings.commentPlacement),
        ("validateRulesFiles", .bool settings.checkRuleFiles),
        ("logToConsole", .bool settings.consoleLog)] := rfl

theorem member?_toJson (settings : Settings) (setting : Setting) :
    settings.toJson.member? setting.key = some (setting.kind.toJson (settings.get setting)) := by
  cases setting <;> rfl

def validate (dump : Json → String) (config : Json) : Validation where
  settings := ofValues fun setting => (setting.given? dump config).getD (shipped.get setting)
  fallbacks := Setting.all.filter fun setting => (setting.given? dump config).isNone

def ofJson (dump : Json → String) (config : Json) : Settings :=
  (validate dump config).settings

theorem get_validate (dump : Json → String) (config : Json) (setting : Setting) :
    (validate dump config).settings.get setting =
      (setting.given? dump config).getD (shipped.get setting) := by
  simp [validate, get_ofValues]

theorem mem_fallbacks_validate {dump : Json → String} {config : Json} {setting : Setting} :
    setting ∈ (validate dump config).fallbacks ↔ setting.given? dump config = none := by
  simp [validate, Setting.mem_all]

end Settings

end LintTriage
