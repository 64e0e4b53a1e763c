import Mathlib.Data.Set.Operations
import LintTriage.Proofs.FixIndex.Accounting
import LintTriage.Proofs.FixIndex.Offered

namespace LintTriage.FixIndex

def acceptedAt (log : Log) (site : Site) : List Fix :=
  (accepted (log.filter fun entry => entry.1.site = site)).map Prod.snd

namespace Records

variable {index : FixIndex} {log : Log} {site : Site}

theorem map_fst_accepted_at (h : Records index log) (site : Site) :
    (accepted (log.filter fun entry => entry.1.site = site)).map Prod.fst =
      (List.range (index.nextNumber site)).map site.numberedKey := by
  obtain ⟨refusals, ha, -⟩ := h.answersAt_eq site
  have hf : (log.filter fun entry => entry.1.site = site).filterMap Prod.snd =
      (answersAt log site).filterMap id := by
    rw [answersAt, List.filterMap_map]
    rfl
  rw [map_fst_accepted, hf, ha, List.filterMap_append, List.filterMap_map,
    List.filterMap_replicate_of_none rfl, List.append_nil]
  exact congrFun List.filterMap_eq_map _

theorem map_some_acceptedAt (h : Records index log) (site : Site) :
    (acceptedAt log site).map some =
      (List.range (index.nextNumber site)).map fun n =>
        index.table.entries[site.numberedKey n]? := by
  have hlook : ∀ entry ∈ accepted (log.filter fun entry => entry.1.site = site),
      some entry.2 = index.table.entries[entry.1]? := by
    rintro ⟨key, fix⟩ hm
    obtain ⟨filing, hf, hfix⟩ := mem_accepted_iff.mp hm
    exact ((h.getElem?_iff key fix).mpr ⟨filing, (List.mem_filter.mp hf).1, hfix⟩).symm
  calc (acceptedAt log site).map some
      = (accepted (log.filter fun entry => entry.1.site = site)).map
          fun entry => index.table.entries[entry.1]? := by
        rw [acceptedAt, List.map_map]
        exact List.map_congr_left hlook
    _ = ((accepted (log.filter fun entry => entry.1.site = site)).map Prod.fst).map
          fun key => index.table.entries[key]? := by
        rw [List.map_map]
        rfl
    _ = _ := by
        rw [h.map_fst_accepted_at, List.map_map]
        rfl

theorem length_acceptedAt (h : Records index log) (site : Site) :
    (acceptedAt log site).length = index.nextNumber site := by
  simpa using congrArg List.length (h.map_some_acceptedAt site)

theorem nextNumber_le_length_offered (h : Records index log) (site : Site) :
    index.nextNumber site ≤ (index.table.offered site).length := by
  by_contra hlt
  apply FixTable.numberedKey_length_offered_notMem index.table site
  exact h.numberedKey_mem (by omega)

theorem acceptedAt_prefix (h : Records index log) (site : Site) :
    acceptedAt log site <+: index.table.offered site := by
  have hle := h.nextNumber_le_length_offered site
  have htake : (acceptedAt log site).map some =
      ((index.table.offered site).take (index.nextNumber site)).map some := by
    rw [h.map_some_acceptedAt, List.map_take, (FixTable.offered_spec index.table site).2.2,
      ← List.map_take, List.take_range, Nat.min_eq_left hle]
  rw [List.prefix_iff_eq_take, h.length_acceptedAt]
  exact (List.map_inj_right fun _ _ => Option.some.inj).mp htake

theorem offered_eq_acceptedAt (h : Records index log) (he : index.endsFree site) :
    index.table.offered site = acceptedAt log site := by
  apply ((h.acceptedAt_prefix site).eq_of_length_le _).symm
  rw [h.length_acceptedAt]
  by_contra hlt
  exact he ((FixTable.offered_spec index.table site).2.1 _ (by omega))

theorem none_notMem_answersAt (h : Records index log)
    (hf : index.nextNumber site < (answersAt log site).length → index.endsFree site) :
    none ∉ answersAt log site := by
  obtain ⟨refusals, ha, hb⟩ := h.answersAt_eq site
  intro hm
  have hp : 0 < refusals := by
    rw [ha, List.mem_append, List.mem_replicate] at hm
    rcases hm with hm | ⟨hne, -⟩
    · simp at hm
    · exact Nat.pos_of_ne_zero hne
  apply hf _ (hb hp)
  simp [ha, hp]

theorem rejected_eq_nil (h : Records index log)
    (hn : ∀ entry ∈ log, none ∉ answersAt log entry.1.site) : index.rejected = [] := by
  rw [h.rejected_eq, rejections, List.map_eq_nil_iff, List.filter_eq_nil_iff]
  rintro ⟨filing, answer⟩ hm hnone
  obtain rfl : answer = none := by simpa using hnone
  exact hn _ hm (mem_answersAt_of_mem hm)

theorem offered_eq_filed (h : Records index log) (he : index.endsFree site) :
    index.table.offered site =
      ((log.map Prod.fst).filter fun filing => filing.site = site).map Filing.fix := by
  rw [h.offered_eq_acceptedAt he, ← map_fix_filter_log]
  apply (sublist_map_snd_accepted _).eq_of_length
  have hl := h.nextNumber_eq_of_endsFree he
  rw [answersAt, List.length_map] at hl
  exact (h.length_acceptedAt site).trans (hl.trans (List.length_map _).symm)

end Records

theorem Records.endsFree_of_le_ten {index : FixIndex} {log : Log} (h : Records index log)
    (hten : ∀ site, (answersAt log site).length ≤ 10) {site : Site}
    (hn : index.nextNumber site ≤ 9) : index.endsFree site := by
  intro hk
  obtain ⟨holder, m, -, hm, he⟩ := h.exists_holder hk
  have hle := h.nextNumber_le holder.site
  have hh := hten holder.site
  -- both numbers have one digit, and a longer code would need a second one
  rcases Site.numberedKey_cases he with ⟨rfl, rfl⟩ | ⟨j, hj, hle, -⟩ | ⟨j, hj, hle, -⟩ <;> omega

def ExtensionFree (codes : Set String) : Prop :=
  ∀ a ∈ codes, ∀ b ∈ codes, ∀ digits, Numeral.IsPositive digits → b ≠ a ++ digits

theorem extensionFree_of_length (n : Nat) : ExtensionFree {code | code.length = n} := by
  rintro a rfl b hb digits hd rfl
  apply hd.ne_empty
  simpa using hb

theorem Records.endsFree_of_extensionFree {index : FixIndex} {log : Log} {codes : Set String}
    (h : Records index log) (hfree : ExtensionFree codes)
    (hcodes : ∀ entry ∈ log, entry.1.site.code ∈ codes) {site : Site} (hs : site.code ∈ codes) :
    index.endsFree site := by
  apply h.endsFree_of_lengths (fun site => site.code ∈ codes) ?_ ?_ hs
  · intro other ha
    obtain ⟨answer, hm⟩ := List.exists_mem_of_ne_nil _ ha
    obtain ⟨filing, hl, rfl⟩ := mem_answersAt_iff.mp hm
    exact hcodes _ hl
  · intro other j hj hc hx
    exact absurd rfl (hfree _ hc _ hx _ (Numeral.isPositive_toString hj))

theorem selection_of_fileAll (filings : List Filing) (diagnostic : Diagnostic) :
    let log := FixIndex.log {} filings
    let selection := (FixIndex.fileAll {} filings).2.table.forDiagnostics [diagnostic]
    acceptedAt log diagnostic.site <+: selection ∧
    ∀ n fix, selection[n]? = some fix →
      ∃ filing, (filing, some (diagnostic.site.numberedKey n)) ∈ log ∧ filing.fix = fix ∧
        filing.site.range = diagnostic.range ∧
        ((acceptedAt log diagnostic.site).length ≤ n →
          filing.site.code ≠ diagnostic.code ∧
          ∃ digits, Numeral.IsPositive digits ∧
            (filing.site.code = diagnostic.code ++ digits ∨
              diagnostic.code = filing.site.code ++ digits)) := by
  intro log selection
  have h : Records (FixIndex.fileAll {} filings).2 log := records_fileAll filings
  have hsel : selection = (FixIndex.fileAll {} filings).2.table.offered diagnostic.site :=
    FixTable.forDiagnostics_singleton _ _
  rw [hsel]
  refine ⟨h.acceptedAt_prefix _, ?_⟩
  intro n fix hn
  have hlt := (List.getElem?_eq_some_iff.mp hn).1
  rw [FixTable.getElem?_offered hlt] at hn
  obtain ⟨filing, hm, hfix⟩ := (h.getElem?_iff _ _).mp hn
  refine ⟨filing, hm, hfix, h.range_of_holder hm, ?_⟩
  intro hle
  rw [h.length_acceptedAt] at hle
  obtain ⟨j, hj, hs⟩ := h.extend_of_holder hm hle
  refine ⟨h.code_ne_of_holder hm hle, toString j, Numeral.isPositive_toString hj, ?_⟩
  exact hs.imp (congrArg Site.code) (congrArg Site.code)

theorem selection_of_extensionFree {codes : Set String} (hfree : ExtensionFree codes)
    {filings : List Filing} (hcodes : ∀ filing ∈ filings, filing.site.code ∈ codes) :
    let index := (FixIndex.fileAll {} filings).2
    index.rejected = [] ∧
    ∀ diagnostic : Diagnostic, diagnostic.code ∈ codes →
      index.table.forDiagnostics [diagnostic] =
        (filings.filter fun filing => filing.site = diagnostic.site).map Filing.fix := by
  intro index
  have h : Records index (FixIndex.log {} filings) := records_fileAll filings
  have hlog : ∀ entry ∈ FixIndex.log {} filings, entry.1.site.code ∈ codes := by
    intro entry he
    apply hcodes
    rw [← map_fst_log {} filings]
    exact List.mem_map_of_mem he
  constructor
  · apply h.rejected_eq_nil
    intro entry he
    exact h.none_notMem_answersAt fun _ => h.endsFree_of_extensionFree hfree hlog (hlog entry he)
  · intro diagnostic hd
    rw [FixTable.forDiagnostics_singleton,
      h.offered_eq_filed (h.endsFree_of_extensionFree hfree hlog hd), map_fst_log]

theorem selection_of_codes_of_length_two :
    let codes : Set String := {code | code.length = 2}
    let filings : List Filing :=
      (List.range 12).map (fun n => { site := { code := "A1" }, fix := { version := n } }) ++
        [{ site := { code := "A2" }, fix := { version := 12 } }]
    let index := (FixIndex.fileAll {} filings).2
    ExtensionFree codes ∧ (∀ filing ∈ filings, filing.site.code ∈ codes) ∧ index.rejected = [] ∧
      index.table.forDiagnostics [{ code := "A1" }] =
        (List.range 12).map (fun n => { version := n }) ∧
      index.table.forDiagnostics [{ code := "A3" }] = [] := by
  intro codes filings index
  have hfree : ExtensionFree codes := extensionFree_of_length 2
  have hcodes : ∀ filing ∈ filings, filing.site.code.length = 2 := by decide
  obtain ⟨hr, hs⟩ := selection_of_extensionFree hfree hcodes
  exact ⟨hfree, hcodes, hr, hs { code := "A1" } rfl, hs { code := "A3" } rfl⟩

end LintTriage.FixIndex
