import LintTriage.Proofs.FixIndex.Run
import LintTriage.Proofs.FixTable.Offered

namespace LintTriage.FixIndex

def endsFree (index : FixIndex) (site : Site) : Prop :=
  site.numberedKey (index.nextNumber site) ∉ index.table.entries

namespace Records

variable {index : FixIndex} {log : Log}

theorem lt_nextNumber_of_endsFree {site : Site} {n : Nat} (he : index.endsFree site)
    (hp : ∀ m ≤ n, site.numberedKey m ∈ index.table.entries) : n < index.nextNumber site := by
  by_contra hn
  exact he (hp _ (by omega))

theorem own_of_mem_offered (h : Records index log) {site : Site} (he : index.endsFree site)
    {fix : Fix} (hf : fix ∈ index.table.offered site) :
    ∃ filing key, (filing, some key) ∈ log ∧ filing.site = site ∧ filing.fix = fix := by
  obtain ⟨n, hn, hp⟩ := FixTable.mem_offered_iff.mp hf
  have hlt : n < index.nextNumber site := by
    apply lt_nextNumber_of_endsFree he
    intro m hm
    rcases Nat.lt_or_eq_of_le hm with hm | rfl
    · exact hp m hm
    · exact mem_entries_iff.mpr ⟨fix, hn⟩
  obtain ⟨filing, hs, hm⟩ := h.exists_filing hlt
  have hfix := (h.getElem?_iff _ _).mpr ⟨filing, hm, rfl⟩
  exact ⟨filing, _, hm, hs, Option.some.inj (hfix.symm.trans hn)⟩

theorem exists_other_offered (h : Records index log) {site : Site} (he : ¬index.endsFree site) :
    ∃ filing key, (filing, some key) ∈ log ∧ filing.site.range = site.range ∧
      filing.site.code ≠ site.code ∧ filing.fix ∈ index.table.offered site := by
  obtain ⟨filing, hm, hr, hc⟩ := h.exists_other_code (not_not.mp he)
  have hfix := (h.getElem?_iff _ _).mpr ⟨filing, hm, rfl⟩
  refine ⟨filing, _, hm, hr, hc, FixTable.mem_offered_iff.mpr ⟨index.nextNumber site, hfix, ?_⟩⟩
  intro m hlt
  exact h.numberedKey_mem hlt

theorem nextNumber_le (h : Records index log) (site : Site) :
    index.nextNumber site ≤ (answersAt log site).length := by
  obtain ⟨refusals, ha, -⟩ := h.answersAt_eq site
  simp [ha]

theorem nextNumber_eq_of_endsFree (h : Records index log) {site : Site}
    (he : index.endsFree site) : index.nextNumber site = (answersAt log site).length := by
  obtain ⟨refusals, ha, hb⟩ := h.answersAt_eq site
  have hz : refusals = 0 := Nat.eq_zero_of_not_pos fun hp => he (hb hp)
  simp [ha, hz]

theorem numberedKey_mem_of_lt (h : Records index log) {site : Site} {n : Nat}
    (he : index.endsFree site) (hn : n < (answersAt log site).length) :
    site.numberedKey n ∈ index.table.entries :=
  h.numberedKey_mem (h.nextNumber_eq_of_endsFree he ▸ hn)

/-- The code with a number behind it has its first key where the shorter code counts ten times as
far, so the shorter one must stop before, or just there while the longer one has no fix. -/
theorem length_answersAt_of_endsFree (h : Records index log) {site : Site} {j : Nat} (hj : 0 < j)
    (hs : index.endsFree site) (hl : index.endsFree (site.extend j)) :
    (answersAt log site).length < 10 * j ∨
      ((answersAt log site).length = 10 * j ∧ answersAt log (site.extend j) = []) := by
  have hkey := Site.numberedKey_extend site hj
  have hempty : answersAt log (site.extend j) = [] ∨ 0 < (answersAt log (site.extend j)).length :=
    (eq_or_ne _ []).imp_right List.length_pos_iff.mpr
  rcases Nat.lt_trichotomy (answersAt log site).length (10 * j) with hlt | heq | hgt
  · exact .inl hlt
  · refine .inr ⟨heq, hempty.resolve_right fun hpos => hs ?_⟩
    rw [h.nextNumber_eq_of_endsFree hs, heq, ← hkey]
    exact h.numberedKey_mem_of_lt hl hpos
  · exfalso
    have hm := h.numberedKey_mem_of_lt hs hgt
    rw [← hkey] at hm
    rcases hempty with hnil | hpos
    · have hz : index.nextNumber (site.extend j) = 0 := by
        rw [h.nextNumber_eq_of_endsFree hl, hnil, List.length_nil]
      rw [← hz] at hm
      exact hl hm
    · rw [← h.nextNumber_eq_of_endsFree hl] at hpos
      rw [← h.nextNumber_eq_of_endsFree hs] at hgt
      obtain ⟨f, hf, hfm⟩ := h.exists_filing hpos
      obtain ⟨g, hg, hgm⟩ := h.exists_filing hgt
      rw [hkey] at hfm
      have hfg : f = g := h.filing_unique hfm hgm
      exact Site.extend_ne site j (by rw [← hf, ← hg, hfg])

theorem endsFree_of_lengths (h : Records index log) (sites : Site → Prop)
    (hs : ∀ site, answersAt log site ≠ [] → sites site)
    (hc : ∀ site j, 0 < j → sites site → sites (site.extend j) →
      (answersAt log site).length < 10 * j ∨
        ((answersAt log site).length = 10 * j ∧ answersAt log (site.extend j) = []))
    {site : Site} (hsite : sites site) : index.endsFree site := by
  intro hk
  obtain ⟨holder, n, hm, hn, he⟩ := h.exists_holder hk
  have hanswers : answersAt log holder.site ≠ [] :=
    List.ne_nil_of_mem (mem_answersAt_of_mem hm)
  have hpos := List.length_pos_iff.mpr hanswers
  have hsle := h.nextNumber_le site
  have hhle := h.nextNumber_le holder.site
  have hholder := hs _ hanswers
  rcases Site.numberedKey_cases he with ⟨rfl, rfl⟩ | ⟨j, hj, hle, heq⟩ | ⟨j, hj, hle, heq⟩
  · omega
  · rcases hc site j hj hsite (heq ▸ hholder) with hlt | ⟨-, hnil⟩
    · omega
    · exact hanswers (heq ▸ hnil)
  · rcases hc holder.site j hj hholder (heq ▸ hsite) with hlt | ⟨hlen, -⟩ <;> omega

end Records

end LintTriage.FixIndex
