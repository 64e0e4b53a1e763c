import LintTriage.Location
import LintTriage.RuleBook

namespace LintTriage

structure Site where
  range : Range := {}
  code : String := ""
deriving DecidableEq

def Range.bracketed (range : Range) : String :=
  "[" ++ toString range.start.line.toInt ++ "," ++ toString range.start.character.toInt ++ "," ++
    toString range.stop.line.toInt ++ "," ++ toString range.stop.character.toInt ++ "]"

namespace Site

def key (site : Site) : String :=
  site.range.bracketed ++ "-" ++ site.code

def numberedKey (site : Site) (number : Nat) : String :=
  site.key ++ toString number

end Site

structure Edit where
  range : Range := {}
  span : Span := {}
  name : Option String := none
  text : String := ""
deriving DecidableEq

structure Fix where
  label : String := ""
  version : Int := 0
  ruleId : String := ""
  edit : Edit := {}
deriving DecidableEq

def Span.toJson (span : Span) : Json :=
  .object [("end", .unsigned span.stop), ("start", .unsigned span.start)]

def Edit.toJson (edit : Edit) : Json :=
  .object ([("range", edit.range.toJson), ("span", edit.span.toJson)] ++
    edit.name.toList.map (fun name => ("fixName", .text name)) ++ [("newText", .text edit.text)])

def Fix.toJson (fix : Fix) : Json :=
  .object [("label", .text fix.label), ("documentVersion", .signed fix.version),
    ("ruleId", .text fix.ruleId), ("edit", fix.edit.toJson)]

def Fix.overlaps (kept candidate : Fix) : Bool :=
  kept.edit.span.overlaps candidate.edit.span

structure Finding where
  range : Range := {}
  source : String := ""
  severity : Severity := .bestPractice
  ruleId : String := ""
  message : String := ""
  issueUrl : String := ""
  replacement : String := ""
  fixes : List Fix := []
  suppressedBy : Option Range := none
  filePath : String := ""
  overrides : List String := []
  snippet : String := ""
deriving DecidableEq

namespace Finding

def site (finding : Finding) : Site where
  range := finding.range
  code := finding.ruleId

structure Draft where
  message : Option String := none
  source : Option String := none
  ruleId : Option String := none
  severity : Severity := .bestPractice
  replacement : Option String := none
  issueUrl : Option String := none
  range : Option Range := none
  snippet : Option String := none

def ofDraft (draft : Draft) : Finding where
  range := draft.range.getD {}
  source := draft.source.getD ""
  severity := draft.severity
  ruleId := draft.ruleId.getD ""
  message := draft.message.getD ""
  issueUrl := draft.issueUrl.getD ""
  replacement := draft.replacement.getD ""
  snippet := draft.snippet.getD ""

end Finding

structure Hit where
  ruleId : String := ""
  range : Range := {}
  matchedText : String := ""
  edits : List Edit := []
deriving DecidableEq

structure Revision where
  filePath : String := ""
  version : Int := 0
deriving DecidableEq

namespace Finding

def ofHit (rule : Rule) (hit : Hit) (filePath : String) : Finding :=
  { ofDraft
      { message := rule.description
        source := rule.name
        ruleId := rule.id
        severity := rule.severity
        replacement := rule.recommendation
        issueUrl := rule.guidancePage
        range := hit.range
        snippet := hit.matchedText } with
    overrides := rule.overrides
    filePath }

end Finding

def Edit.toFix (edit : Edit) (rule : Rule) (version : Int) : Fix where
  label := edit.name.getD rule.name
  version
  ruleId := rule.id
  edit

def Finding.attach (finding : Finding) (rule : Rule) (hit : Hit) (version : Int) : Finding :=
  { finding with fixes := finding.fixes ++ hit.edits.map fun edit => edit.toFix rule version }

theorem Finding.fixes_attach_ofHit (rule : Rule) (hit : Hit) (revision : Revision) :
    ((ofHit rule hit revision.filePath).attach rule hit revision.version).fixes =
      hit.edits.map fun edit => edit.toFix rule revision.version :=
  List.nil_append _

namespace RuleBook

def finding? (book : RuleBook) (settings : Settings) (revision : Revision) (hit : Hit) :
    Option Finding :=
  match book.find? hit.ruleId with
  | some rule =>
    if rule.isEnabled settings then
      some ((Finding.ofHit rule hit revision.filePath).attach rule hit revision.version)
    else none
  | none => none

def findings (book : RuleBook) (hits : List Hit) (settings : Settings) (revision : Revision) :
    List Finding :=
  hits.filterMap (book.finding? settings revision)

variable {book : RuleBook} {hits : List Hit} {settings : Settings} {revision : Revision}
  {finding : Finding}

theorem finding?_eq_some_iff {hit : Hit} :
    book.finding? settings revision hit = some finding ↔
      ∃ rule, book.find? hit.ruleId = some rule ∧ rule.isEnabled settings = true ∧
        (Finding.ofHit rule hit revision.filePath).attach rule hit revision.version = finding := by
  rw [finding?]
  cases book.find? hit.ruleId with
  | none => simp
  | some rule => simp

theorem mem_findings_iff :
    finding ∈ book.findings hits settings revision ↔
      ∃ hit ∈ hits, ∃ rule, book.find? hit.ruleId = some rule ∧ rule.isEnabled settings = true ∧
        (Finding.ofHit rule hit revision.filePath).attach rule hit revision.version = finding := by
  rw [findings, List.mem_filterMap]
  simp only [finding?_eq_some_iff]

end RuleBook

structure Diagnostic where
  message : String := ""
  code : String := ""
  source : String := ""
  range : Range := {}
  level : Level := .error
deriving DecidableEq

namespace Diagnostic

def site (diagnostic : Diagnostic) : Site where
  range := diagnostic.range
  code := diagnostic.code

def toJson (diagnostic : Diagnostic) : Json :=
  .object [("code", .text diagnostic.code), ("message", .text diagnostic.message),
    ("range", diagnostic.range.toJson), ("severity", .signed diagnostic.level.code.toInt),
    ("source", .text diagnostic.source)]

end Diagnostic

namespace Finding

def guidance (finding : Finding) : String :=
  if finding.replacement = "" then "" else "\n\nFix Guidance: " ++ finding.replacement

def moreInfo (finding : Finding) (settings : Settings) : String :=
  if finding.issueUrl = "" then ""
  else "\n\nMore Info:\n" ++ settings.guidanceUrl ++ finding.issueUrl ++ "\n"

def diagnostic (finding : Finding) (settings : Settings) : Diagnostic where
  message := finding.source ++ "\nSeverity: " ++ finding.severity.label ++ "\n\n" ++
    finding.message ++ finding.guidance ++ finding.moreInfo settings
  code := finding.ruleId
  source := "Seclint: Finding " ++ finding.ruleId
  range := finding.range
  level := finding.severity.level

theorem site_diagnostic (finding : Finding) (settings : Settings) :
    (finding.diagnostic settings).site = finding.site := rfl

end Finding

end LintTriage
