import LintTriage.Proofs.FixTable.Search

namespace LintTriage.FixTable

variable {table : FixTable} {site : Site}

theorem forDiagnostics_singleton (table : FixTable) (diagnostic : Diagnostic) :
    table.forDiagnostics [diagnostic] = table.offered diagnostic.site := by
  rw [forDiagnostics, List.flatMap_singleton]

theorem forFindings_singleton (table : FixTable) (finding : Finding) :
    table.forFindings [finding] = table.offered finding.site := by
  rw [forFindings, List.flatMap_singleton]

theorem offered_spec (table : FixTable) (site : Site) :
    site.numberedKey (table.offered site).length ∉ table.entries ∧
      (∀ m < (table.offered site).length, site.numberedKey m ∈ table.entries) ∧
      (table.offered site).map some =
        (List.range (table.offered site).length).map fun m =>
          table.entries[site.numberedKey m]? := by
  obtain ⟨lookups, found, h⟩ := exists_search table site
  have hs : found.map Prod.snd = table.offered site := h.map_snd_eq_offered
  have hl : (table.offered site).length = found.length := by rw [← hs, List.length_map]
  rw [hl]
  refine ⟨by simpa using h.notMem, fun m hm => by simpa using h.mem hm, ?_⟩
  calc (table.offered site).map some
      = found.map fun entry => table.entries[entry.1]? := by
        rw [← hs, List.map_map]
        exact List.map_congr_left fun entry he => (h.stored entry he).symm
    _ = (found.map Prod.fst).map fun key => table.entries[key]? := by
        rw [List.map_map]
        rfl
    _ = _ := by
        rw [h.map_fst_eq, List.map_map, List.range_eq_range']
        rfl

theorem numberedKey_length_offered_notMem (table : FixTable) (site : Site) :
    site.numberedKey (table.offered site).length ∉ table.entries :=
  (offered_spec table site).1

theorem getElem?_offered {m : Nat} (h : m < (table.offered site).length) :
    (table.offered site)[m]? = table.entries[site.numberedKey m]? := by
  have hm := congrArg (·[m]?) (offered_spec table site).2.2
  simp only [List.getElem?_map, List.getElem?_range h] at hm
  simpa [List.getElem?_eq_getElem h] using hm

theorem lt_length_offered {n : Nat} (h : ∀ m ≤ n, site.numberedKey m ∈ table.entries) :
    n < (table.offered site).length := by
  by_contra hn
  exact numberedKey_length_offered_notMem table site (h _ (by omega))

theorem mem_offered_iff {fix : Fix} :
    fix ∈ table.offered site ↔ ∃ n, table.entries[site.numberedKey n]? = some fix ∧
      ∀ m < n, site.numberedKey m ∈ table.entries := by
  constructor
  · intro h
    obtain ⟨n, hn⟩ := List.mem_iff_getElem?.mp h
    have hl : n < (table.offered site).length := (List.getElem?_eq_some_iff.mp hn).1
    refine ⟨n, (getElem?_offered hl).symm.trans hn, ?_⟩
    intro m hm
    exact (offered_spec table site).2.1 m (by omega)
  · rintro ⟨n, hn, hp⟩
    have hm : site.numberedKey n ∈ table.entries := by
      simp [Std.ExtTreeMap.mem_iff_isSome_getElem?, hn]
    have hl : n < (table.offered site).length := by
      apply lt_length_offered
      intro m hle
      rcases Nat.lt_or_eq_of_le hle with hlt | rfl
      · exact hp m hlt
      · exact hm
    exact List.mem_of_getElem? ((getElem?_offered hl).trans hn)

end LintTriage.FixTable
