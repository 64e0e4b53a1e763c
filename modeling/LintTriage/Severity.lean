import LintTriage.Settings

namespace LintTriage.Text

def lower (s : String) : String :=
  String.ofList (s.toList.map Char.toLower)

theorem toList_lower (s : String) : (lower s).toList = s.toList.map Char.toLower := by
  simp [lower]

end LintTriage.Text

namespace LintTriage

inductive Severity where
  | critical
  | important
  | moderate
  | bestPractice
  | warningInfo
  | manualReview
  | unlisted (code : Int32) (isUnlisted : code < 0 ∨ 5 < code)
deriving DecidableEq

inductive Gate where
  | alwaysOn
  | bestPractice
  | manualReview
deriving DecidableEq

inductive Level where
  | error
  | warning
  | information
  | unlisted (code : Int32) (isUnlisted : code < 1 ∨ 3 < code)
deriving DecidableEq

def Gate.isOpen (settings : Settings) : Gate → Bool
  | alwaysOn => true
  | bestPractice => settings.bestPractice
  | manualReview => settings.manualReview

namespace Level

def ofCode (code : Int32) : Level :=
  if h : code < 1 ∨ 3 < code then .unlisted code h
  else if code = 1 then .error
  else if code = 2 then .warning
  else .information

def code : Level → Int32
  | error => 1
  | warning => 2
  | information => 3
  | unlisted code _ => code

end Level

namespace Severity

def ofCode (code : Int32) : Severity :=
  if h : code < 0 ∨ 5 < code then .unlisted code h
  else if code = 0 then .critical
  else if code = 1 then .important
  else if code = 2 then .moderate
  else if code = 3 then .bestPractice
  else if code = 4 then .warningInfo
  else .manualReview

def code : Severity → Int32
  | critical => 0
  | important => 1
  | moderate => 2
  | bestPractice => 3
  | warningInfo => 4
  | manualReview => 5
  | unlisted code _ => code

def gate : Severity → Gate
  | bestPractice => .bestPractice
  | manualReview => .manualReview
  | critical | important | moderate | warningInfo | unlisted _ _ => .alwaysOn

def isEnabled (severity : Severity) (settings : Settings) : Bool :=
  severity.gate.isOpen settings

def level : Severity → Level
  | critical | important | moderate | unlisted _ _ => .error
  | bestPractice => .warning
  | warningInfo | manualReview => .information

def ofText (s : String) : Severity :=
  match Text.lower s with
  | "critical" => .critical
  | "important" => .important
  | "moderate" => .moderate
  | "manual-review" => .manualReview
  | _ => .bestPractice

def toText : Severity → String
  | critical => "critical"
  | important => "important"
  | moderate => "moderate"
  | bestPractice | unlisted _ _ => "best-practice"
  | warningInfo => "warning-info"
  | manualReview => "manual-review"

def label : Severity → String
  | critical => "[Critical]"
  | important => "[Important]"
  | moderate => "[Moderate]"
  | manualReview => "[Review]"
  | bestPractice | warningInfo | unlisted _ _ => "[Best Practice]"

end Severity

end LintTriage
