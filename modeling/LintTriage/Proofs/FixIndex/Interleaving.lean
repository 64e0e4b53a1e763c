import LintTriage.FixTable
import LintTriage.Proofs.FixIndex.Log

namespace LintTriage.FixIndex

open Std

structure AgreeAt (range : Range) (a b : FixIndex) : Prop where
  nextNumber_eq : ∀ site : Site, site.range = range → a.nextNumber site = b.nextNumber site
  mem_iff : ∀ site : Site, site.range = range → ∀ n,
    (site.numberedKey n ∈ a.table.entries ↔ site.numberedKey n ∈ b.table.entries)

namespace AgreeAt

variable {range : Range} {a b c : FixIndex}

theorem refl (range : Range) (a : FixIndex) : AgreeAt range a a :=
  ⟨fun _ _ => rfl, fun _ _ _ => Iff.rfl⟩

theorem trans (hab : AgreeAt range a b) (hbc : AgreeAt range b c) : AgreeAt range a c where
  nextNumber_eq site hs := (hab.nextNumber_eq site hs).trans (hbc.nextNumber_eq site hs)
  mem_iff site hs n := (hab.mem_iff site hs n).trans (hbc.mem_iff site hs n)

theorem file_of_ne {filing : Filing} (h : filing.site.range ≠ range) :
    AgreeAt range (a.file filing).2 a := by
  by_cases hk : filing.site.numberedKey (a.nextNumber filing.site) ∈ a.table.entries
  · rw [file_of_mem hk]
    exact ⟨fun _ _ => rfl, fun _ _ _ => Iff.rfl⟩
  · rw [file_of_not_mem hk]
    constructor
    · rintro site rfl
      rw [nextNumber_insert, if_neg]
      rintro rfl
      exact h rfl
    · rintro site rfl n
      have hne : filing.site.numberedKey (a.nextNumber filing.site) ≠ site.numberedKey n :=
        fun he => h (Site.numberedKey_eq_iff.mp he).1
      simp [hne]

theorem file (h : AgreeAt range a b) {filing : Filing} (hr : filing.site.range = range) :
    (a.file filing).1 = (b.file filing).1 ∧ AgreeAt range (a.file filing).2 (b.file filing).2 := by
  have hn := h.nextNumber_eq filing.site hr
  have hm := h.mem_iff filing.site hr (b.nextNumber filing.site)
  by_cases hk : filing.site.numberedKey (b.nextNumber filing.site) ∈ b.table.entries
  · rw [file_of_mem hk, file_of_mem (hn ▸ hm.mpr hk)]
    exact ⟨rfl, h.nextNumber_eq, h.mem_iff⟩
  · rw [file_of_not_mem hk, file_of_not_mem (hn ▸ mt hm.mp hk), hn]
    refine ⟨rfl, ?_, ?_⟩
    · intro site hs
      rw [nextNumber_insert, nextNumber_insert, h.nextNumber_eq site hs]
    · intro site hs n
      simp [h.mem_iff site hs n]

end AgreeAt

def logAt (log : Log) (range : Range) : Log :=
  log.filter fun entry => entry.1.site.range = range

theorem logAt_log {range : Range} {a b : FixIndex} (h : AgreeAt range a b)
    (filings : List Filing) : logAt (a.log filings) range =
      b.log (filings.filter fun filing => filing.site.range = range) := by
  induction filings generalizing a b with
  | nil => rfl
  | cons filing rest ih =>
    by_cases hr : filing.site.range = range
    · obtain ⟨he, hf⟩ := h.file hr
      have hrest := ih hf
      rw [logAt] at hrest ⊢
      rw [List.filter_cons_of_pos (by simpa using hr), log_cons, log_cons,
        List.filter_cons_of_pos (by simpa using hr), hrest, he]
    · have hrest := ih ((AgreeAt.file_of_ne hr).trans h)
      rw [logAt] at hrest ⊢
      rw [List.filter_cons_of_neg (by simpa using hr), log_cons,
        List.filter_cons_of_neg (by simpa using hr), hrest]

theorem mem_of_logAt_eq {a b : Log} (h : ∀ range, logAt a range = logAt b range)
    {entry : Filing × Option String} (he : entry ∈ a) : entry ∈ b := by
  have hm : entry ∈ logAt a entry.1.site.range := List.mem_filter.mpr ⟨he, by simp⟩
  rw [h] at hm
  exact (List.mem_filter.mp hm).1

theorem Records.table_eq {a b : FixIndex} {la lb : Log} (ha : Records a la) (hb : Records b lb)
    (h : ∀ entry, entry ∈ la ↔ entry ∈ lb) : a.table = b.table := by
  have he : a.table.entries = b.table.entries := by
    apply ExtTreeMap.ext_getElem?
    intro key
    apply Option.ext
    intro fix
    rw [ha.getElem?_iff, hb.getElem?_iff]
    simp only [h]
  exact congrArg FixTable.mk he

theorem filter_append_comm {near far : List Filing}
    (h : ∀ a ∈ near, ∀ b ∈ far, a.site.range ≠ b.site.range) (range : Range) :
    ((near ++ far).filter fun filing => filing.site.range = range) =
      (far ++ near).filter fun filing => filing.site.range = range := by
  rw [List.filter_append, List.filter_append]
  by_cases hn : ∃ a ∈ near, a.site.range = range
  · obtain ⟨a, ha, rfl⟩ := hn
    have hf : (far.filter fun filing => filing.site.range = a.site.range) = [] := by
      rw [List.filter_eq_nil_iff]
      intro b hb
      simpa using (h a ha b hb).symm
    simp [hf]
  · have hf : (near.filter fun filing => filing.site.range = range) = [] := by
      rw [List.filter_eq_nil_iff]
      intro a ha he
      exact hn ⟨a, ha, by simpa using he⟩
    simp [hf]

theorem fileAll_interleaved {filings others : List Filing}
    (h : ∀ range : Range, (filings.filter fun filing => filing.site.range = range) =
      others.filter fun filing => filing.site.range = range) :
    let a := (FixIndex.fileAll {} filings).2
    let b := (FixIndex.fileAll {} others).2
    let la := FixIndex.log {} filings
    let lb := FixIndex.log {} others
    a.table = b.table ∧
    (∀ range, logAt la range = logAt lb range) ∧
    a.rejected = rejections la ∧ b.rejected = rejections lb ∧
    (∀ range, rejections (logAt la range) = rejections (logAt lb range)) ∧
    a.table.plan = b.table.plan ∧
    (∀ version, a.table.planFor version = b.table.planFor version) ∧
    (∀ diagnostics, a.table.forDiagnostics diagnostics = b.table.forDiagnostics diagnostics) ∧
    ∀ findings, a.table.forFindings findings = b.table.forFindings findings := by
  intro a b la lb
  have ha : Records a la := records_fileAll filings
  have hb : Records b lb := records_fileAll others
  have hlog (range : Range) : logAt la range = logAt lb range := by
    rw [logAt_log (AgreeAt.refl range {}), logAt_log (AgreeAt.refl range {}), h]
  have ht : a.table = b.table :=
    ha.table_eq hb fun _ => ⟨mem_of_logAt_eq hlog, mem_of_logAt_eq fun range => (hlog range).symm⟩
  rw [ht]
  refine ⟨rfl, hlog, ha.rejected_eq, hb.rejected_eq, ?_, rfl, fun _ => rfl, fun _ => rfl,
    fun _ => rfl⟩
  intro range
  rw [hlog]

theorem interleaved_beside_taken_key :
    let far : Range := { start := { line := -1 } }
    let near : List Filing :=
      List.replicate 10 { site := { code := "A" }, fix := {} } ++
        [{ site := { code := "A1" }, fix := {} }, { site := { code := "A" }, fix := {} }]
    let rest : List Filing :=
      [{ site := { range := far, code := "A" }, fix := {} },
        { site := { range := far, code := "A1" }, fix := {} }]
    (∀ range : Range, ((near ++ rest).filter fun filing => filing.site.range = range) =
      (rest ++ near).filter fun filing => filing.site.range = range) ∧
    (FixIndex.fileAll {} (near ++ rest)).2.table = (FixIndex.fileAll {} (rest ++ near)).2.table ∧
    logAt (FixIndex.log {} (near ++ rest)) {} = logAt (FixIndex.log {} (rest ++ near)) {} := by
  intro far near rest
  have h (range : Range) : ((near ++ rest).filter fun filing => filing.site.range = range) =
      (rest ++ near).filter fun filing => filing.site.range = range :=
    filter_append_comm (by decide) range
  obtain ⟨ht, hl, -⟩ := fileAll_interleaved h
  exact ⟨h, ht, hl {}⟩

end LintTriage.FixIndex
