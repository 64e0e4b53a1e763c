import Mathlib.Data.List.Pairwise
import LintTriage.Proofs.FixIndex.Log

namespace LintTriage.FixIndex

open Std

theorem mem_answersAt_iff {log : Log} {site : Site} {answer : Option String} :
    answer ∈ answersAt log site ↔ ∃ filing, (filing, answer) ∈ log ∧ filing.site = site := by
  simp [answersAt]

theorem mem_answersAt_of_mem {log : Log} {filing : Filing} {answer : Option String}
    (h : (filing, answer) ∈ log) : answer ∈ answersAt log filing.site :=
  mem_answersAt_iff.mpr ⟨filing, h, rfl⟩

namespace Records

variable {index : FixIndex} {log : Log}

theorem exists_number (h : Records index log) {filing : Filing} {key : String}
    (hm : (filing, some key) ∈ log) :
    ∃ n < index.nextNumber filing.site, key = filing.site.numberedKey n := by
  obtain ⟨refusals, ha, -⟩ := h.answersAt_eq filing.site
  have hk := mem_answersAt_of_mem hm
  rw [ha, List.mem_append] at hk
  rcases hk with hk | hk
  · obtain ⟨n, hn, he⟩ := List.mem_map.mp hk
    exact ⟨n, List.mem_range.mp hn, (Option.some.inj he).symm⟩
  · simp at hk

theorem exists_filing (h : Records index log) {site : Site} {n : Nat}
    (hn : n < index.nextNumber site) :
    ∃ filing, filing.site = site ∧ (filing, some (site.numberedKey n)) ∈ log := by
  obtain ⟨refusals, ha, -⟩ := h.answersAt_eq site
  have hk : some (site.numberedKey n) ∈ answersAt log site := by
    rw [ha, List.mem_append]
    exact .inl (List.mem_map.mpr ⟨n, List.mem_range.mpr hn, rfl⟩)
  obtain ⟨filing, hm, hs⟩ := mem_answersAt_iff.mp hk
  exact ⟨filing, hs, hm⟩

theorem numberedKey_mem (h : Records index log) {site : Site} {n : Nat}
    (hn : n < index.nextNumber site) : site.numberedKey n ∈ index.table.entries := by
  obtain ⟨filing, -, hm⟩ := h.exists_filing hn
  exact h.mem_entries_of_mem hm

theorem filing_unique (h : Records index log) {f g : Filing} {key : String}
    (hf : (f, some key) ∈ log) (hg : (g, some key) ∈ log) : f = g := by
  by_contra hne
  have hp := List.pairwise_filterMap.mp h.keys_nodup
  have hsymm : Std.Symm fun a b : Filing × Option String =>
      ∀ k, a.2 = some k → ∀ l, b.2 = some l → k ≠ l :=
    ⟨fun a b hab k hk l hl => (hab l hl k hk).symm⟩
  exact hp.forall hf hg (by simpa using hne) key rfl key rfl rfl

theorem exists_holder (h : Records index log) {site : Site} {n : Nat}
    (hk : site.numberedKey n ∈ index.table.entries) :
    ∃ holder m, (holder, some (site.numberedKey n)) ∈ log ∧ m < index.nextNumber holder.site ∧
      site.numberedKey n = holder.site.numberedKey m := by
  obtain ⟨fix, hfix⟩ := mem_entries_iff.mp hk
  obtain ⟨holder, hm, -⟩ := (h.getElem?_iff _ _).mp hfix
  obtain ⟨m, hlt, he⟩ := h.exists_number hm
  exact ⟨holder, m, hm, hlt, he⟩

theorem extend_of_holder (h : Records index log) {holder : Filing} {site : Site} {n : Nat}
    (hm : (holder, some (site.numberedKey n)) ∈ log) (hn : index.nextNumber site ≤ n) :
    ∃ j, 0 < j ∧ (holder.site = site.extend j ∨ site = holder.site.extend j) := by
  obtain ⟨m, hlt, he⟩ := h.exists_number hm
  rcases Site.numberedKey_cases he with ⟨hs, rfl⟩ | ⟨j, hj, -, hs⟩ | ⟨j, hj, -, hs⟩
  · rw [← hs] at hlt
    omega
  · exact ⟨j, hj, .inl hs⟩
  · exact ⟨j, hj, .inr hs⟩

theorem range_of_holder (h : Records index log) {holder : Filing} {site : Site} {n : Nat}
    (hm : (holder, some (site.numberedKey n)) ∈ log) : holder.site.range = site.range := by
  obtain ⟨m, -, he⟩ := h.exists_number hm
  exact (Site.numberedKey_eq_iff.mp he).1.symm

theorem code_ne_of_holder (h : Records index log) {holder : Filing} {site : Site} {n : Nat}
    (hm : (holder, some (site.numberedKey n)) ∈ log) (hn : index.nextNumber site ≤ n) :
    holder.site.code ≠ site.code := by
  obtain ⟨j, -, hs | hs⟩ := h.extend_of_holder hm hn
  · rw [hs]
    exact site.code_extend_ne j
  · rw [hs]
    exact (holder.site.code_extend_ne j).symm

theorem exists_other_code (h : Records index log) {site : Site}
    (hk : site.numberedKey (index.nextNumber site) ∈ index.table.entries) :
    ∃ holder, (holder, some (site.numberedKey (index.nextNumber site))) ∈ log ∧
      holder.site.range = site.range ∧ holder.site.code ≠ site.code := by
  obtain ⟨holder, -, hm, -⟩ := h.exists_holder hk
  exact ⟨holder, hm, h.range_of_holder hm, h.code_ne_of_holder hm (Nat.le_refl _)⟩

theorem getElem?_of_later (h : Records index log) {filing : Filing} {key : String}
    (hm : (filing, some key) ∈ log) (later : List Filing) :
    (index.fileAll later).2.table.entries[key]? = some filing.fix :=
  ((h.fileAll later).getElem?_iff _ _).mpr ⟨filing, List.mem_append_left _ hm, rfl⟩

end Records

theorem mem_of_file_eq_none {index : FixIndex} {filing : Filing}
    (h : (index.file filing).1 = none) :
    filing.site.numberedKey (index.nextNumber filing.site) ∈ index.table.entries := by
  by_contra hk
  rw [file_of_not_mem hk] at h
  contradiction

theorem answers_of_fileAll (filings : List Filing) :
    let index := (FixIndex.fileAll {} filings).2
    let log := FixIndex.log {} filings
    log.unzip = (filings, (FixIndex.fileAll {} filings).1) ∧
    (∀ site, ∃ refusals, answersAt log site =
      (List.range (index.nextNumber site)).map (fun n => some (site.numberedKey n)) ++
        List.replicate refusals none) ∧
    (log.filterMap Prod.snd).Nodup ∧
    (∀ filing key, (filing, some key) ∈ log →
      ∀ later, (index.fileAll later).2.table.entries[key]? = some filing.fix) ∧
    index.rejected = rejections log ∧
    ∀ filing, (index.file filing).1 = none →
      ∃ holder, (holder, some (filing.site.numberedKey (index.nextNumber filing.site))) ∈ log ∧
        holder.site.range = filing.site.range ∧ holder.site.code ≠ filing.site.code ∧
        index.table.entries[filing.site.numberedKey (index.nextNumber filing.site)]? =
          some holder.fix := by
  intro index log
  have h : Records index log := records_fileAll filings
  refine ⟨unzip_log {} filings, ?_, h.keys_nodup, ?_, h.rejected_eq, ?_⟩
  · intro site
    obtain ⟨refusals, ha, -⟩ := h.answersAt_eq site
    exact ⟨refusals, ha⟩
  · intro filing key hm later
    exact h.getElem?_of_later hm later
  · intro filing hnone
    obtain ⟨holder, hm, hr, hc⟩ := h.exists_other_code (mem_of_file_eq_none hnone)
    exact ⟨holder, hm, hr, hc, (h.getElem?_iff _ _).mpr ⟨holder, hm, rfl⟩⟩

end LintTriage.FixIndex
