import LintTriage.FixIndex
import LintTriage.Proofs.FixTable.Offered

namespace LintTriage

namespace FixTable

def Within (table larger : FixTable) : Prop :=
  ∀ (key : String) (fix : Fix), table.entries[key]? = some fix → larger.entries[key]? = some fix

namespace Within

variable {a b c : FixTable}

theorem refl (a : FixTable) : a.Within a := by
  intro key fix h
  exact h

theorem trans (hab : a.Within b) (hbc : b.Within c) : a.Within c := by
  intro key fix h
  exact hbc key fix (hab key fix h)

theorem mem (h : a.Within b) {key : String} (hk : key ∈ a.entries) : key ∈ b.entries := by
  rw [Std.ExtTreeMap.mem_iff_isSome_getElem?, Option.isSome_iff_exists] at hk ⊢
  obtain ⟨fix, hf⟩ := hk
  exact ⟨fix, h key fix hf⟩

theorem insert {key : String} (hk : key ∉ a.entries) (fix : Fix) :
    a.Within ⟨a.entries.insert key fix⟩ := by
  intro other value h
  have hne : key ≠ other := by
    rintro rfl
    simp [Std.ExtTreeMap.getElem?_eq_none hk] at h
  simp [Std.ExtTreeMap.getElem?_insert, hne, h]

theorem length_offered_le (h : a.Within b) (site : Site) :
    (a.offered site).length ≤ (b.offered site).length := by
  by_contra hlt
  have hm := (offered_spec a site).2.1 (b.offered site).length (by omega)
  exact numberedKey_length_offered_notMem b site (h.mem hm)

theorem offered_prefix (h : a.Within b) (site : Site) : a.offered site <+: b.offered site := by
  rw [List.prefix_iff_getElem?]
  intro n hn
  rw [getElem?_offered (Nat.lt_of_lt_of_le hn (h.length_offered_le site))]
  apply h
  rw [← getElem?_offered hn, List.getElem?_eq_getElem hn]

end Within

end FixTable

namespace FixIndex

structure Extends (index later : FixIndex) : Prop where
  within : index.table.Within later.table
  rejected_prefix : index.rejected <+: later.rejected

namespace Extends

variable {a b c : FixIndex}

theorem refl (a : FixIndex) : Extends a a :=
  ⟨.refl a.table, List.prefix_refl a.rejected⟩

theorem trans (hab : Extends a b) (hbc : Extends b c) : Extends a c :=
  ⟨hab.within.trans hbc.within, hab.rejected_prefix.trans hbc.rejected_prefix⟩

theorem file (index : FixIndex) (filing : Filing) : Extends index (index.file filing).2 := by
  by_cases hk : filing.site.numberedKey (index.nextNumber filing.site) ∈ index.table.entries
  · rw [file_of_mem hk]
    exact ⟨.refl index.table, List.prefix_append _ _⟩
  · rw [file_of_not_mem hk]
    exact ⟨.insert hk filing.fix, List.prefix_refl index.rejected⟩

theorem fileAll (index : FixIndex) (filings : List Filing) :
    Extends index (index.fileAll filings).2 := by
  induction filings generalizing index with
  | nil => exact .refl index
  | cons filing rest ih =>
    rw [fileAll_cons]
    exact (file index filing).trans (ih _)

end Extends

theorem fileAll_append (index : FixIndex) (filings later : List Filing) :
    (index.fileAll (filings ++ later)).2 = ((index.fileAll filings).2.fileAll later).2 := by
  induction filings generalizing index with
  | nil => rfl
  | cons filing rest ih => rw [List.cons_append, fileAll_cons, fileAll_cons, ih]

theorem selection_grows (filings later : List Filing) :
    let before := (FixIndex.fileAll {} filings).2
    let after := (before.fileAll later).2
    after = (FixIndex.fileAll {} (filings ++ later)).2 ∧
    (∀ diagnostic, before.table.forDiagnostics [diagnostic] <+:
      after.table.forDiagnostics [diagnostic]) ∧
    (∀ (key : String) (fix : Fix), before.table.entries[key]? = some fix →
      after.table.entries[key]? = some fix) ∧
    before.rejected <+: after.rejected := by
  intro before after
  have h : Extends before after := .fileAll before later
  refine ⟨(fileAll_append {} filings later).symm, ?_, h.within, h.rejected_prefix⟩
  intro diagnostic
  rw [FixTable.forDiagnostics_singleton, FixTable.forDiagnostics_singleton]
  exact h.within.offered_prefix diagnostic.site

end FixIndex

end LintTriage
