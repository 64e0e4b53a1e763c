import Std.Data.ExtTreeMap
import LintTriage.Finding

/-!
The fixes of one document under their keys. The fixes of a site are those under its keys numbered 0,
1, 2 and so on up to the first key that is missing. A plan takes fixes in position order, and drops
one that overlaps the last one kept.
-/

namespace LintTriage

open Std

structure FixTable where
  entries : ExtTreeMap String Fix := ∅

namespace FixTable

def ofList (entries : List (String × Fix)) : FixTable :=
  ⟨entries.foldl (fun table entry => table.insert entry.1 entry.2) ∅⟩

def isEmpty (table : FixTable) : Bool :=
  table.entries.isEmpty

def size (table : FixTable) : Nat :=
  table.entries.size

def fixes (table : FixTable) : List Fix :=
  table.entries.toList.map Prod.snd

def version? (table : FixTable) : Option Int :=
  table.fixes.head?.map Fix.version

def hasSingleVersion (table : FixTable) : Bool :=
  table.version?.all fun version => table.fixes.all fun fix => fix.version = version

def run (table : FixTable) (site : Site) : (limit number : Nat) → List Fix
  | 0, _ => []
  | limit + 1, number =>
    match table.entries[site.numberedKey number]? with
    | some fix => fix :: table.run site limit (number + 1)
    | none => []

theorem run_of_some {table : FixTable} {site : Site} {number : Nat} {fix : Fix}
    (h : table.entries[site.numberedKey number]? = some fix) (limit : Nat) :
    table.run site (limit + 1) number = fix :: table.run site limit (number + 1) := by
  simp [run, h]

theorem run_of_none {table : FixTable} {site : Site} {number : Nat}
    (h : table.entries[site.numberedKey number]? = none) (limit : Nat) :
    table.run site limit number = [] := by
  cases limit <;> simp [run, h]

/-- All keys of a site are different, so a run is over after as many fixes as the table holds. -/
def offered (table : FixTable) (site : Site) : List Fix :=
  table.run site (table.size + 1) 0

def forDiagnostics (table : FixTable) (diagnostics : List Diagnostic) : List Fix :=
  diagnostics.flatMap fun diagnostic => table.offered diagnostic.site

def forFindings (table : FixTable) (findings : List Finding) : List Fix :=
  findings.flatMap fun finding => table.offered finding.site

end FixTable

structure Dropped where
  fix : Fix
  conflictsWith : Fix
deriving DecidableEq

def Dropped.reason (dropped : Dropped) : String :=
  "overlaps kept fix '" ++ dropped.conflictsWith.label ++ "' spanning [" ++
    toString dropped.conflictsWith.edit.span.start ++ "," ++
    toString dropped.conflictsWith.edit.span.stop ++ ")"

structure Plan where
  kept : List Fix := []
  dropped : List Dropped := []
deriving DecidableEq

namespace Plan

def keeping (fix : Fix) (plan : Plan) : Plan :=
  { plan with kept := fix :: plan.kept }

def dropping (dropped : Dropped) (plan : Plan) : Plan :=
  { plan with dropped := dropped :: plan.dropped }

def sweep (last : Fix) : List Fix → Plan
  | [] => {}
  | fix :: rest =>
    if last.overlaps fix then (sweep last rest).dropping ⟨fix, last⟩
    else (sweep fix rest).keeping fix

def ofOrdered : List Fix → Plan
  | [] => {}
  | first :: rest => (sweep first rest).keeping first

end Plan

namespace FixTable

def entryOrder : String × Fix → String × Fix → Ordering :=
  compareLex (fun a b => Span.positionOrder a.2.edit.span b.2.edit.span) (compareOn Prod.fst)

def byPosition (table : FixTable) : List Fix :=
  (table.entries.toList.mergeSort fun a b => (entryOrder a b).isLE).map Prod.snd

def plan (table : FixTable) : Plan :=
  .ofOrdered table.byPosition

def planFor (table : FixTable) (version : Int) : List Fix :=
  if table.hasSingleVersion ∧ table.version? = some version then table.plan.kept else []

end FixTable

end LintTriage
