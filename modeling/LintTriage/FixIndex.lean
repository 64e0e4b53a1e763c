import LintTriage.FixTable

/-!
Filing fixes under the numbered keys of their sites. A key that holds a fix of another code is not
given away: the fix that comes later is rejected, and the number of its site does not advance.
-/

namespace LintTriage

open Std

structure Filing where
  site : Site
  fix : Fix
deriving DecidableEq

structure FixIndex where
  table : FixTable := {}
  next : ExtTreeMap String Nat := ∅
  rejected : List Fix := []

namespace FixIndex

def nextNumber (index : FixIndex) (site : Site) : Nat :=
  index.next.getD site.key 0

/-- The key that the fix was filed under, `none` for a rejected one, and the index after it. -/
def file (index : FixIndex) (filing : Filing) : Option String × FixIndex :=
  let key := filing.site.numberedKey (index.nextNumber filing.site)
  if key ∈ index.table.entries then
    (none, { index with rejected := index.rejected ++ [filing.fix] })
  else
    (some key,
      { index with
        table := ⟨index.table.entries.insert key filing.fix⟩
        next := index.next.insert filing.site.key (index.nextNumber filing.site + 1) })

theorem file_of_mem {index : FixIndex} {filing : Filing}
    (h : filing.site.numberedKey (index.nextNumber filing.site) ∈ index.table.entries) :
    index.file filing = (none, { index with rejected := index.rejected ++ [filing.fix] }) := by
  simp [file, h]

theorem file_of_not_mem {index : FixIndex} {filing : Filing}
    (h : filing.site.numberedKey (index.nextNumber filing.site) ∉ index.table.entries) :
    index.file filing =
      (some (filing.site.numberedKey (index.nextNumber filing.site)),
        { index with
          table := ⟨index.table.entries.insert
            (filing.site.numberedKey (index.nextNumber filing.site)) filing.fix⟩
          next := index.next.insert filing.site.key (index.nextNumber filing.site + 1) }) := by
  simp [file, h]

def fileAll (index : FixIndex) : List Filing → List (Option String) × FixIndex
  | [] => ([], index)
  | filing :: rest =>
    let (key, index) := index.file filing
    let (keys, index) := index.fileAll rest
    (key :: keys, index)

theorem fileAll_cons (index : FixIndex) (filing : Filing) (rest : List Filing) :
    index.fileAll (filing :: rest) =
      ((index.file filing).1 :: ((index.file filing).2.fileAll rest).1,
        ((index.file filing).2.fileAll rest).2) := rfl

end FixIndex

def Finding.filings (finding : Finding) : List Filing :=
  finding.fixes.map fun fix => { site := finding.site, fix }

def FixIndex.ofFindings (findings : List Finding) : FixIndex :=
  (FixIndex.fileAll {} (findings.flatMap Finding.filings)).2

end LintTriage
