import Mathlib.Data.List.Nodup
import Mathlib.Data.List.Perm.Subperm
import Mathlib.Data.List.Range
import Mathlib.Tactic.ByContra
import LintTriage.FixTable
import LintTriage.Proofs.SiteKey

namespace LintTriage.FixTable

inductive Search (table : FixTable) (site : Site) :
    (number lookups : Nat) → List (String × Fix) → Prop where
  | missing {number : Nat} (h : table.entries[site.numberedKey number]? = none) :
      Search table site number 1 []
  | found {number lookups : Nat} {fix : Fix} {rest : List (String × Fix)}
      (h : table.entries[site.numberedKey number]? = some fix)
      (hr : Search table site (number + 1) lookups rest) :
      Search table site number (lookups + 1) ((site.numberedKey number, fix) :: rest)

variable {table : FixTable} {site : Site} {number lookups : Nat} {found : List (String × Fix)}

theorem nodup_keys_range (site : Site) (n : Nat) : ((List.range n).map site.numberedKey).Nodup :=
  List.Nodup.map (fun _ _ he => Site.numberedKey_inj.mp he) List.nodup_range

theorem le_size_of_forall_mem {n : Nat} (h : ∀ m < n, site.numberedKey m ∈ table.entries) :
    n ≤ table.size := by
  have hs : (List.range n).map site.numberedKey ⊆ table.entries.keys := by
    intro key hk
    obtain ⟨m, hm, rfl⟩ := List.mem_map.mp hk
    exact Std.ExtTreeMap.mem_keys.mpr (h m (List.mem_range.mp hm))
  simpa [size] using (List.Nodup.subperm (nodup_keys_range site n) hs).length_le

theorem exists_missing (table : FixTable) (site : Site) :
    ∃ n, site.numberedKey n ∉ table.entries := by
  by_contra h
  simp only [not_exists, not_not] at h
  have hle : table.size + 1 ≤ table.size := le_size_of_forall_mem fun m _ => h m
  omega

namespace Search

theorem unique (h : Search table site number lookups found) {others : Nat}
    {entries : List (String × Fix)} (ho : Search table site number others entries) :
    others = lookups ∧ entries = found := by
  induction h generalizing others entries with
  | missing hn =>
    cases ho with
    | missing => exact ⟨rfl, rfl⟩
    | found hs => simp [hn] at hs
  | found hs hr ih =>
    cases ho with
    | missing hn => simp [hn] at hs
    | found ht ho =>
      obtain ⟨rfl, rfl⟩ := ih ho
      obtain rfl := Option.some.inj (ht.symm.trans hs)
      exact ⟨rfl, rfl⟩

theorem lookups_eq (h : Search table site number lookups found) : lookups = found.length + 1 := by
  induction h with
  | missing => rfl
  | found hs hr ih => rw [ih, List.length_cons]

theorem map_fst_eq (h : Search table site number lookups found) :
    found.map Prod.fst = (List.range' number found.length).map site.numberedKey := by
  induction h with
  | missing => rfl
  | found hs hr ih => rw [List.map_cons, ih, List.length_cons, List.range'_succ, List.map_cons]

theorem stored (h : Search table site number lookups found) :
    ∀ entry ∈ found, table.entries[entry.1]? = some entry.2 := by
  induction h with
  | missing => simp
  | found hs hr ih => exact List.forall_mem_cons.mpr ⟨hs, ih⟩

theorem mem (h : Search table site number lookups found) {m : Nat} (hm : m < found.length) :
    site.numberedKey (number + m) ∈ table.entries := by
  have hk : site.numberedKey (number + m) ∈ found.map Prod.fst := by
    rw [h.map_fst_eq]
    exact List.mem_map_of_mem (List.mem_range'_1.mpr (by omega))
  obtain ⟨entry, he, heq⟩ := List.mem_map.mp hk
  simp [← heq, Std.ExtTreeMap.mem_iff_isSome_getElem?, h.stored entry he]

theorem notMem (h : Search table site number lookups found) :
    site.numberedKey (number + found.length) ∉ table.entries := by
  induction h with
  | missing hn => simpa using hn
  | found hs hr ih => simpa [Nat.add_comm, Nat.add_left_comm] using ih

theorem map_snd_eq_run (h : Search table site number lookups found) {limit : Nat}
    (hl : lookups ≤ limit) : found.map Prod.snd = table.run site limit number := by
  induction h generalizing limit with
  | missing hn => exact (run_of_none hn limit).symm
  | found hs hr ih =>
    obtain ⟨limit, rfl⟩ : ∃ l, limit = l + 1 := ⟨limit - 1, by omega⟩
    rw [run_of_some hs, List.map_cons, ih (Nat.le_of_succ_le_succ hl)]

theorem length_le_size (h : Search table site 0 lookups found) : found.length ≤ table.size := by
  apply le_size_of_forall_mem
  intro m hm
  simpa using h.mem hm

theorem map_snd_eq_offered (h : Search table site 0 lookups found) :
    found.map Prod.snd = table.offered site := by
  have hle := h.length_le_size
  have hl := h.lookups_eq
  exact h.map_snd_eq_run (by omega)

end Search

theorem exists_search_of_notMem {n : Nat}
    (h : site.numberedKey (number + n) ∉ table.entries) :
    ∃ lookups found, Search table site number lookups found := by
  -- on the distance to the missing key, though the search may end before it
  induction n generalizing number with
  | zero => exact ⟨1, [], .missing (Std.ExtTreeMap.getElem?_eq_none h)⟩
  | succ n ih =>
    cases hk : table.entries[site.numberedKey number]? with
    | none => exact ⟨1, [], .missing hk⟩
    | some fix =>
      rw [Nat.add_comm n, ← Nat.add_assoc] at h
      obtain ⟨lookups, found, hr⟩ := ih h
      exact ⟨lookups + 1, _, .found hk hr⟩

theorem exists_search (table : FixTable) (site : Site) :
    ∃ lookups found, Search table site 0 lookups found := by
  obtain ⟨n, hn⟩ := exists_missing table site
  rw [← Nat.zero_add n] at hn
  exact exists_search_of_notMem hn

theorem search_ends (table : FixTable) (site : Site) :
    ∃ n ≤ table.size, ∃ found : List (String × Fix),
      (∀ lookups entries, Search table site 0 lookups entries ↔
        lookups = n + 1 ∧ entries = found) ∧
      site.numberedKey n ∉ table.entries ∧ (∀ m < n, site.numberedKey m ∈ table.entries) ∧
      found.map Prod.fst = (List.range n).map site.numberedKey ∧
      (∀ entry ∈ found, table.entries[entry.1]? = some entry.2) ∧
      (found.map Prod.fst).Nodup ∧
      (∀ m ≥ n, site.numberedKey m ∉ found.map Prod.fst) ∧
      found.map Prod.snd = table.offered site ∧
      ∀ limit > n, table.run site limit 0 = table.offered site := by
  obtain ⟨lookups, found, h⟩ := exists_search table site
  obtain rfl := h.lookups_eq
  have hp (m : Nat) (hm : m < found.length) : site.numberedKey m ∈ table.entries := by
    simpa using h.mem hm
  have hk : found.map Prod.fst = (List.range found.length).map site.numberedKey := by
    rw [h.map_fst_eq, List.range_eq_range']
  refine ⟨found.length, h.length_le_size, found, ?_, by simpa using h.notMem, hp, hk, h.stored, ?_,
    ?_, h.map_snd_eq_offered, ?_⟩
  · intro lookups entries
    constructor
    · exact h.unique
    · rintro ⟨rfl, rfl⟩
      exact h
  · rw [hk]
    exact nodup_keys_range site found.length
  · intro m hm hmem
    rw [hk] at hmem
    obtain ⟨i, hi, he⟩ := List.mem_map.mp hmem
    have hlt : i < found.length := List.mem_range.mp hi
    have him : i = m := Site.numberedKey_inj.mp he
    omega
  · intro limit hlimit
    rw [← h.map_snd_eq_run hlimit]
    exact h.map_snd_eq_offered

end LintTriage.FixTable
