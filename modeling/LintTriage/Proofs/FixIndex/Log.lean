import Mathlib.Data.List.Nodup
import LintTriage.FixIndex
import LintTriage.Proofs.SiteKey

/-!
The log of a run of filings: every filing with its answer. What an index holds is what its log says
was accepted, each site was answered with its keys from number 0 on and then with rejections only,
and each answered key was free until then.
-/

namespace LintTriage.FixIndex

open Std

abbrev Log := List (Filing × Option String)

def log (index : FixIndex) (filings : List Filing) : Log :=
  filings.zip (index.fileAll filings).1

def answersAt (log : Log) (site : Site) : List (Option String) :=
  (log.filter fun entry => entry.1.site = site).map Prod.snd

def rejections (log : Log) : List Fix :=
  (log.filter fun entry => entry.2 = none).map fun entry => entry.1.fix

structure Records (index : FixIndex) (log : Log) : Prop where
  getElem?_iff : ∀ key fix, index.table.entries[key]? = some fix ↔
    ∃ filing, (filing, some key) ∈ log ∧ filing.fix = fix
  keys_nodup : (log.filterMap Prod.snd).Nodup
  answersAt_eq : ∀ site, ∃ refusals, answersAt log site =
      (List.range (index.nextNumber site)).map (fun n => some (site.numberedKey n)) ++
        List.replicate refusals none ∧
    (0 < refusals → site.numberedKey (index.nextNumber site) ∈ index.table.entries)
  rejected_eq : index.rejected = rejections log

theorem log_cons (index : FixIndex) (filing : Filing) (rest : List Filing) :
    index.log (filing :: rest) =
      (filing, (index.file filing).1) :: (index.file filing).2.log rest := by
  simp [log, fileAll_cons]

theorem length_fileAll (index : FixIndex) (filings : List Filing) :
    (index.fileAll filings).1.length = filings.length := by
  induction filings generalizing index with
  | nil => rfl
  | cons filing rest ih => rw [fileAll_cons, List.length_cons, List.length_cons, ih]

theorem unzip_log (index : FixIndex) (filings : List Filing) :
    (index.log filings).unzip = (filings, (index.fileAll filings).1) :=
  List.unzip_zip (length_fileAll index filings).symm

theorem map_fst_log (index : FixIndex) (filings : List Filing) :
    (index.log filings).map Prod.fst = filings := by
  rw [← List.unzip_fst, unzip_log]

theorem map_fix_filter_log (log : Log) (site : Site) :
    ((log.filter fun entry => entry.1.site = site).map fun entry => entry.1.fix) =
      ((log.map Prod.fst).filter fun filing => filing.site = site).map Filing.fix := by
  rw [List.filter_map, List.map_map]
  rfl

theorem answersAt_append (a b : Log) (site : Site) :
    answersAt (a ++ b) site = answersAt a site ++ answersAt b site := by
  simp [answersAt]

theorem answersAt_singleton (filing : Filing) (answer : Option String) (site : Site) :
    answersAt [(filing, answer)] site = if filing.site = site then [answer] else [] := by
  by_cases h : filing.site = site <;> simp [answersAt, h]

theorem mem_entries_iff {index : FixIndex} {key : String} :
    key ∈ index.table.entries ↔ ∃ fix, index.table.entries[key]? = some fix := by
  rw [ExtTreeMap.mem_iff_isSome_getElem?, Option.isSome_iff_exists]

theorem nextNumber_insert (index : FixIndex) (table : FixTable) (site other : Site) (n : Nat) :
    ({ index with table, next := index.next.insert site.key n } : FixIndex).nextNumber other =
      if site = other then n else index.nextNumber other := by
  simp [nextNumber, ExtTreeMap.getD_insert, Site.key_inj]

theorem records_empty : Records {} [] where
  getElem?_iff := by simp
  keys_nodup := by simp
  answersAt_eq := by simp [answersAt, nextNumber]
  rejected_eq := rfl

namespace Records

variable {index : FixIndex} {log : Log}

theorem mem_entries_of_mem (h : Records index log) {filing : Filing} {key : String}
    (hm : (filing, some key) ∈ log) : key ∈ index.table.entries :=
  mem_entries_iff.mpr ⟨filing.fix, (h.getElem?_iff _ _).mpr ⟨filing, hm, rfl⟩⟩

theorem file_rejected (h : Records index log) {filing : Filing}
    (hk : filing.site.numberedKey (index.nextNumber filing.site) ∈ index.table.entries) :
    Records { index with rejected := index.rejected ++ [filing.fix] }
      (log ++ [(filing, none)]) where
  getElem?_iff key fix := by simp [h.getElem?_iff]
  keys_nodup := by simpa using h.keys_nodup
  answersAt_eq site := by
    obtain ⟨refusals, ha, hb⟩ := h.answersAt_eq site
    by_cases hs : filing.site = site
    · subst hs
      refine ⟨refusals + 1, ?_, fun _ => hk⟩
      rw [answersAt_append, answersAt_singleton, ha, if_pos rfl, List.replicate_add,
        List.append_assoc]
      rfl
    · refine ⟨refusals, ?_, hb⟩
      rw [answersAt_append, answersAt_singleton, ha, if_neg hs, List.append_nil]
      rfl
  rejected_eq := by simp [rejections, h.rejected_eq]

theorem file_accepted (h : Records index log) {filing : Filing}
    (hk : filing.site.numberedKey (index.nextNumber filing.site) ∉ index.table.entries) :
    Records
      { index with
        table := ⟨index.table.entries.insert
          (filing.site.numberedKey (index.nextNumber filing.site)) filing.fix⟩
        next := index.next.insert filing.site.key (index.nextNumber filing.site + 1) }
      (log ++ [(filing, some (filing.site.numberedKey (index.nextNumber filing.site)))]) where
  getElem?_iff key fix := by
    simp only [ExtTreeMap.getElem?_insert, Std.compare_eq_iff_eq]
    split
    next he =>
      subst he
      constructor
      · intro hf
        exact ⟨filing, by simp, by simpa using hf⟩
      · rintro ⟨other, hm, rfl⟩
        rcases List.mem_append.mp hm with hm | hm
        · exact absurd (h.mem_entries_of_mem hm) hk
        · simp_all
    next hne =>
      rw [h.getElem?_iff]
      simp [Ne.symm hne]
  keys_nodup := by
    rw [List.filterMap_append, List.nodup_append]
    refine ⟨h.keys_nodup, by simp, ?_⟩
    rintro key hm _ hn rfl
    obtain ⟨⟨other, answer⟩, hm, rfl⟩ := List.mem_filterMap.mp hm
    obtain rfl : key = _ := by simpa using hn
    exact hk (h.mem_entries_of_mem hm)
  answersAt_eq site := by
    obtain ⟨refusals, ha, hb⟩ := h.answersAt_eq site
    rw [nextNumber_insert, answersAt_append, answersAt_singleton, ha]
    by_cases hs : filing.site = site
    · -- a site that was refused once is refused for good, so there was no refusal yet
      subst hs
      have hz : refusals = 0 := Nat.eq_zero_of_not_pos fun hp => hk (hb hp)
      exact ⟨0, by simp [hz, List.range_succ], by simp⟩
    · refine ⟨refusals, by simp [hs], fun hp => ?_⟩
      simpa [hs] using .inr (hb hp)
  rejected_eq := by simp [rejections, h.rejected_eq]

theorem file (h : Records index log) (filing : Filing) :
    Records (index.file filing).2 (log ++ [(filing, (index.file filing).1)]) := by
  by_cases hk : filing.site.numberedKey (index.nextNumber filing.site) ∈ index.table.entries
  · rw [file_of_mem hk]
    exact h.file_rejected hk
  · rw [file_of_not_mem hk]
    exact h.file_accepted hk

theorem fileAll (h : Records index log) (filings : List Filing) :
    Records (index.fileAll filings).2 (log ++ index.log filings) := by
  induction filings generalizing index log with
  | nil => simpa [FixIndex.fileAll, FixIndex.log] using h
  | cons filing rest ih =>
    rw [log_cons, fileAll_cons, List.append_cons]
    exact ih (h.file filing)

end Records

theorem records_fileAll (filings : List Filing) :
    Records (FixIndex.fileAll {} filings).2 (FixIndex.log {} filings) := by
  simpa using records_empty.fileAll filings

def logOfFindings (findings : List Finding) : Log :=
  log {} (findings.flatMap Finding.filings)

theorem records_ofFindings (findings : List Finding) :
    Records (ofFindings findings) (logOfFindings findings) :=
  records_fileAll _

theorem map_fst_logOfFindings (findings : List Finding) :
    (logOfFindings findings).map Prod.fst = findings.flatMap Finding.filings :=
  map_fst_log _ _

end LintTriage.FixIndex
