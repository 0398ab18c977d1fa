import DegreeProgress.Sorted.Map
import DegreeProgress.Sorted.Set
import Mathlib.Algebra.GroupWithZero.Nat
import Mathlib.Data.List.Basic
import Mathlib.Data.List.Nodup
import Mathlib.Data.List.Perm.Subperm

/-!
# What sorted containers hold

Members of a sorted set, and the value under a key of a sorted map, after each operation:

* `SortedSet.mem_ofList`     a set made from a list holds the members of the list;
* `SortedSet.eq_of_mem_iff`  sets with the same members are equal;
* `SortedSet.size_eq_one`    a set of one member;
* `SortedMap.get?_alter`     writing under a key changes the value under that key only;
* `SortedMap.get?_erase`     leaving out a key leaves the other values alone;
* `SortedMap.map_get?_keys`  every key has its own value;
* `SortedMap.entries_ofList` a map made from entries in order has these entries;
* `SortedMap.get?_ofList`    a map made from any entries has the last one under each key,
* `SortedMap.size_ofList_eq_length_iff` and as many as there are iff no two share a key.
-/

set_option linter.unusedSectionVars false

namespace DegreeProgress

theorem length_le_one_iff {ι : Type} {l : List ι} (hnd : l.Nodup) {k : ι} (hk : k ∈ l) :
    l.length ≤ 1 ↔ ∀ a ∈ l, a = k := by
  constructor
  · intro h a ha
    have hpos : 0 < l.length := List.length_pos_of_mem hk
    obtain ⟨b, rfl⟩ := List.length_eq_one_iff.mp (show l.length = 1 by omega)
    rw [List.mem_singleton] at ha hk
    rw [ha, hk]
  · intro h
    rw [List.eq_replicate_of_mem h, List.nodup_replicate] at hnd
    exact hnd

theorem mem_positions_iff {ι : Type} (l : List ι) (p : ι → Bool) (i : Nat) :
    i ∈ (l.zipIdx.filter fun e => p e.1).map (·.2) ↔ ∃ x, l[i]? = some x ∧ p x = true := by
  rw [List.mem_map]
  constructor
  · rintro ⟨⟨x, j⟩, he, rfl⟩
    obtain ⟨hj, hp⟩ := List.mem_filter.mp he
    exact ⟨x, List.mem_zipIdx_iff_getElem?.mp hj, hp⟩
  · rintro ⟨x, hx, hp⟩
    exact ⟨(x, i), List.mem_filter.mpr ⟨List.mem_zipIdx_iff_getElem?.mpr hx, hp⟩, rfl⟩

theorem positions_increasing {ι : Type} (l : List ι) (p : ι × Nat → Bool) :
    ((l.zipIdx.filter p).map (·.2)).Pairwise (· < ·) := by
  have hall : (l.zipIdx.map (·.2)).Pairwise (· < ·) := by
    rw [List.zipIdx_map_snd]
    exact List.pairwise_lt_range'
  exact hall.sublist (List.filter_sublist.map _)

/-! ### sets -/

namespace SortedSet

variable {κ : Type} [LT κ]

theorem contains_iff [DecidableEq κ] (s : SortedSet κ) (k : κ) : s.contains k = true ↔ k ∈ s := by
  unfold contains
  rw [decide_eq_true_iff]

theorem mem_toList (s : SortedSet κ) (k : κ) : k ∈ s.toList ↔ k ∈ s := Iff.rfl

theorem not_mem_empty (k : κ) : k ∉ (empty : SortedSet κ) := List.not_mem_nil

section
variable [DecidableLT κ] [StrictOrder κ]

theorem mem_insertAll (s : SortedSet κ) (l : List κ) (k : κ) :
    k ∈ s.insertAll l ↔ k ∈ s ∨ k ∈ l := by
  unfold insertAll
  induction l generalizing s with
  | nil => simp
  | cons a as ih =>
    rw [List.foldl_cons, ih, mem_insert, List.mem_cons]
    tauto

theorem mem_ofList (l : List κ) (k : κ) : k ∈ ofList l ↔ k ∈ l := by
  unfold ofList
  rw [mem_insertAll]
  exact or_iff_right (not_mem_empty k)

theorem nodup (s : SortedSet κ) : s.toList.Nodup := by
  refine s.sorted.imp ?_
  rintro a b h rfl
  exact StrictOrder.irrefl a h

theorem eq_of_mem_iff {s t : SortedSet κ} (h : ∀ k, k ∈ s ↔ k ∈ t) : s = t := by
  have hperm : s.toList.Perm t.toList := (List.perm_ext_iff_of_nodup s.nodup t.nodup).mpr h
  have hlist : s.toList = t.toList :=
    hperm.eq_of_pairwise (fun a b _ _ hab hba => absurd hba (StrictOrder.asymm hab)) s.sorted
      t.sorted
  cases s
  cases t
  cases hlist
  rfl

theorem toList_eq_of_mem_iff {s : SortedSet κ} {l : List κ} (hl : l.Pairwise (· < ·))
    (h : ∀ k, k ∈ s ↔ k ∈ l) : s.toList = l :=
  congrArg toList (eq_of_mem_iff (t := ⟨l, hl⟩) h)

theorem size_eq_one (s : SortedSet κ) {k : κ} (hk : k ∈ s) : s.size = 1 ↔ ∀ a ∈ s, a = k := by
  have hpos : 0 < s.toList.length := List.length_pos_of_mem hk
  unfold size
  exact (show s.toList.length = 1 ↔ s.toList.length ≤ 1 by omega).trans
    (length_le_one_iff s.nodup hk)

end

end SortedSet

/-! ### maps -/

namespace SortedMap

variable {κ ν : Type} [LT κ] [DecidableEq κ]

theorem mem_keys_iff (m : SortedMap κ ν) (k : κ) : k ∈ m.keys ↔ (m.get? k).isSome = true := by
  unfold keys get?
  rw [List.lookup_isSome_iff, List.mem_map]
  constructor
  · rintro ⟨e, he, rfl⟩
    exact ⟨e, he, beq_self_eq_true _⟩
  · rintro ⟨e, he, hk⟩
    exact ⟨e, he, (eq_of_beq hk).symm⟩

theorem mem_entries_of_get? {m : SortedMap κ ν} {k : κ} {v : ν} (h : m.get? k = some v) :
    (k, v) ∈ m.entries := by
  obtain ⟨before, after, hentries, _⟩ := List.lookup_eq_some_iff.mp h
  rw [hentries]
  exact List.mem_append_right _ List.mem_cons_self

theorem mem_values_of_get? {m : SortedMap κ ν} {k : κ} {v : ν} (h : m.get? k = some v) :
    v ∈ m.values := by
  unfold values
  exact List.mem_map_of_mem (mem_entries_of_get? h)

section
variable [StrictOrder κ]

theorem nodup_keys (m : SortedMap κ ν) : m.keys.Nodup := by
  refine (List.pairwise_map.mpr m.sorted).imp ?_
  rintro a b h rfl
  exact StrictOrder.irrefl a h

theorem get?_of_mem_entries {m : SortedMap κ ν} {k : κ} {v : ν} (h : (k, v) ∈ m.entries) :
    m.get? k = some v := by
  obtain ⟨before, after, hentries⟩ := List.append_of_mem h
  refine List.lookup_eq_some_iff.mpr ⟨before, after, hentries, fun e he => ?_⟩
  have hsorted := m.sorted
  rw [hentries] at hsorted
  have hlt : e.1 < k := (List.pairwise_append.mp hsorted).2.2 e he (k, v) List.mem_cons_self
  rw [bne_iff_ne]
  rintro rfl
  exact StrictOrder.irrefl _ hlt

theorem map_get?_keys (m : SortedMap κ ν) : m.keys.map m.get? = m.values.map some := by
  unfold keys values
  rw [List.map_map, List.map_map]
  exact List.map_congr_left fun e he => get?_of_mem_entries he

end

theorem lookup_cons_ite (k a : κ) (v : ν) (l : List (κ × ν)) :
    ((a, v) :: l).lookup k = if k = a then some v else l.lookup k := by
  rw [List.lookup_cons]
  by_cases h : k = a
  · rw [if_pos h, beq_iff_eq.mpr h]
  · rw [if_neg h, beq_eq_false_iff_ne.mpr h]

/-- the map without a key -/
def erase (m : SortedMap κ ν) (k : κ) : SortedMap κ ν where
  entries := m.entries.filter fun e => e.1 ≠ k
  sorted := m.sorted.filter _

theorem get?_erase (m : SortedMap κ ν) (k j : κ) :
    (m.erase k).get? j = if j = k then none else m.get? j := by
  show (m.entries.filter fun e => decide (e.1 ≠ k)).lookup j
    = if j = k then none else m.entries.lookup j
  induction m.entries with
  | nil => exact (ite_self _).symm
  | cons e rest ih =>
    obtain ⟨a, v⟩ := e
    rw [List.filter_cons, lookup_cons_ite]
    by_cases ha : a = k
    · subst ha
      rw [if_neg (by simp), ih]
      by_cases hj : j = a
      · rw [if_pos hj, if_pos hj]
      · rw [if_neg hj, if_neg hj, if_neg hj]
    · rw [if_pos (decide_eq_true ha), lookup_cons_ite, ih]
      by_cases hj : j = a
      · rw [if_pos hj, if_pos hj, if_neg (hj ▸ ha)]
      · rw [if_neg hj, if_neg hj]

theorem get?_mapValues {μ : Type} (m : SortedMap κ ν) (f : κ → ν → μ) (k : κ) :
    (m.mapValues f).get? k = (m.get? k).map (f k) := by
  show (m.entries.map fun e => (e.1, f e.1 e.2)).lookup k = (m.entries.lookup k).map (f k)
  induction m.entries with
  | nil => rfl
  | cons e rest ih =>
    obtain ⟨a, v⟩ := e
    rw [List.map_cons, lookup_cons_ite, lookup_cons_ite, ih]
    by_cases h : k = a
    · rw [if_pos h, if_pos h, h, Option.map_some]
    · rw [if_neg h, if_neg h]

section
variable [DecidableLT κ] [StrictOrder κ]

theorem lookup_eq_none_of_lt {l : List (κ × ν)} {k : κ} (h : ∀ e ∈ l, k < e.1) :
    l.lookup k = none := by
  rw [List.lookup_eq_none_iff]
  intro e he
  rw [bne_iff_ne]
  rintro rfl
  exact StrictOrder.irrefl _ (h e he)

theorem lookup_alterEntries (k j : κ) (f : Option ν → ν) {l : List (κ × ν)}
    (hl : l.Pairwise (·.1 < ·.1)) :
    (alterEntries k f l).lookup j = if j = k then some (f (l.lookup k)) else l.lookup j := by
  induction l with
  | nil => rw [alterEntries, lookup_cons_ite, List.lookup_nil, List.lookup_nil]
  | cons e rest ih =>
    obtain ⟨a, v⟩ := e
    obtain ⟨ha, hrest⟩ := List.pairwise_cons.mp hl
    rw [alterEntries]
    split
    · rename_i hka
      have hnone : ((a, v) :: rest).lookup k = none := by
        apply lookup_eq_none_of_lt
        intro e he
        rcases List.mem_cons.mp he with rfl | he
        · exact hka
        · exact StrictOrder.trans hka (ha e he)
      rw [hnone, lookup_cons_ite]
    · rename_i hka
      split
      · rename_i hak
        have hne : k ≠ a := fun e => StrictOrder.irrefl a (e ▸ hak)
        rw [lookup_cons_ite, ih hrest, lookup_cons_ite, lookup_cons_ite, if_neg hne]
        by_cases h : j = k
        · rw [if_pos h, if_neg (h ▸ hne), if_pos h]
        · rw [if_neg h, if_neg h]
      · rename_i hak
        cases StrictOrder.eq_of_not_lt hka hak
        rw [lookup_cons_ite, lookup_cons_ite, lookup_cons_ite, if_pos rfl]
        by_cases h : j = k
        · rw [if_pos h, if_pos h]
        · rw [if_neg h, if_neg h, if_neg h]

theorem get?_alter (m : SortedMap κ ν) (k j : κ) (f : Option ν → ν) :
    (m.alter k f).get? j = if j = k then some (f (m.get? k)) else m.get? j :=
  lookup_alterEntries k j f m.sorted

theorem alterEntries_of_forall_lt {k : κ} (f : Option ν → ν) {l : List (κ × ν)}
    (h : ∀ e ∈ l, e.1 < k) : alterEntries k f l = l ++ [(k, f none)] := by
  induction l with
  | nil => rfl
  | cons e rest ih =>
    obtain ⟨a, v⟩ := e
    have ha : a < k := h (a, v) List.mem_cons_self
    rw [alterEntries, if_neg (StrictOrder.asymm ha), if_pos ha,
      ih fun e he => h e (List.mem_cons_of_mem _ he), List.cons_append]

theorem entries_foldl_insert (m : SortedMap κ ν) {l : List (κ × ν)}
    (h : (m.entries ++ l).Pairwise (·.1 < ·.1)) :
    (l.foldl (fun m e => m.insert e.1 e.2) m).entries = m.entries ++ l := by
  induction l generalizing m with
  | nil => rw [List.foldl_nil, List.append_nil]
  | cons e l ih =>
    have hlast : (m.insert e.1 e.2).entries = m.entries ++ [e] :=
      alterEntries_of_forall_lt _ fun x hx =>
        (List.pairwise_append.mp h).2.2 x hx e List.mem_cons_self
    rw [List.append_cons, ← hlast] at h
    rw [List.foldl_cons, ih _ h, hlast, ← List.append_cons]

theorem entries_ofList {l : List (κ × ν)} (h : l.Pairwise (·.1 < ·.1)) :
    (ofList l).entries = l :=
  entries_foldl_insert empty h

theorem eq_of_entries {m m' : SortedMap κ ν} (h : m.entries = m'.entries) : m = m' := by
  cases m
  cases m'
  cases h
  rfl

theorem ofList_entries (m : SortedMap κ ν) : ofList m.entries = m :=
  eq_of_entries (entries_ofList m.sorted)

/-- of several entries with one key the last one counts -/
theorem get?_foldl_insert (m : SortedMap κ ν) (l : List (κ × ν)) (k : κ) :
    (l.foldl (fun m e => m.insert e.1 e.2) m).get? k = (l.reverse.lookup k).or (m.get? k) := by
  induction l generalizing m with
  | nil => rfl
  | cons e l ih =>
    have hinsert : (m.insert e.1 e.2).get? k = if k = e.1 then some e.2 else m.get? k :=
      get?_alter m e.1 k fun _ => e.2
    rw [List.foldl_cons, ih, hinsert, List.reverse_cons, List.lookup_append, lookup_cons_ite,
      List.lookup_nil, Option.or_assoc]
    by_cases h : k = e.1
    · rw [if_pos h, if_pos h, Option.some_or]
    · rw [if_neg h, if_neg h, Option.none_or]

theorem get?_ofList (l : List (κ × ν)) (k : κ) : (ofList l).get? k = l.reverse.lookup k := by
  unfold ofList
  rw [get?_foldl_insert]
  exact Option.or_none

theorem mem_keys_ofList (l : List (κ × ν)) (k : κ) : k ∈ (ofList l).keys ↔ k ∈ l.map (·.1) := by
  rw [mem_keys_iff, get?_ofList, List.lookup_isSome_iff, List.mem_map]
  constructor
  · rintro ⟨e, he, hk⟩
    exact ⟨e, List.mem_reverse.mp he, (eq_of_beq hk).symm⟩
  · rintro ⟨e, he, rfl⟩
    exact ⟨e, List.mem_reverse.mpr he, beq_self_eq_true _⟩

/-- no entry replaces another one iff no two of them have one key -/
theorem size_ofList_eq_length_iff (l : List (κ × ν)) :
    (ofList l).size = l.length ↔ (l.map (·.1)).Nodup := by
  have hsize : (ofList l).size = (ofList l).keys.length := (List.length_map _).symm
  have hlength : l.length = (l.map (·.1)).length := (List.length_map _).symm
  have hmem := mem_keys_ofList l
  rw [hsize, hlength]
  constructor
  · intro h
    have hsub := (nodup_keys (ofList l)).subperm fun k hk => (hmem k).mp hk
    exact (hsub.perm_of_length_le (Nat.le_of_eq h.symm)).nodup_iff.mp (nodup_keys _)
  · intro h
    exact ((List.perm_ext_iff_of_nodup (nodup_keys _) h).mpr hmem).length_eq

theorem size_ofList_le (l : List (κ × ν)) : (ofList l).size ≤ l.length := by
  have hsub := (nodup_keys (ofList l)).subperm fun k hk =>
    (mem_keys_ofList l k).mp hk
  have hle := hsub.length_le
  rwa [keys, List.length_map, List.length_map] at hle

theorem get?_ofList_of_mem {l : List (κ × ν)} (hnd : (l.map (·.1)).Nodup) {k : κ} {v : ν}
    (h : (k, v) ∈ l) : (ofList l).get? k = some v := by
  have hreverse : (l.reverse.map (·.1)).Nodup := by
    rw [List.map_reverse]
    exact List.nodup_reverse.mpr hnd
  obtain ⟨before, after, hl⟩ := List.append_of_mem (List.mem_reverse.mpr h)
  rw [get?_ofList]
  refine List.lookup_eq_some_iff.mpr ⟨before, after, hl, fun e he => ?_⟩
  rw [hl, List.map_append, List.map_cons] at hreverse
  rw [bne_iff_ne]
  rintro rfl
  exact List.disjoint_of_nodup_append hreverse (List.mem_map_of_mem he) List.mem_cons_self

theorem mem_keys_alter (m : SortedMap κ ν) (k j : κ) (f : Option ν → ν) :
    j ∈ (m.alter k f).keys ↔ j = k ∨ j ∈ m.keys := by
  rw [mem_keys_iff, mem_keys_iff, get?_alter]
  by_cases h : j = k
  · simp [h]
  · simp [h]

theorem sum_values_alter (m : SortedMap κ ν) (k : κ) {f : Option ν → ν} (w : ν → Nat) {d : Nat}
    (hnone : w (f none) = d) (hsome : ∀ v, w (f (some v)) = w v + d) :
    ((m.alter k f).values.map w).sum = (m.values.map w).sum + d := by
  show (((alterEntries k f m.entries).map (·.2)).map w).sum = ((m.entries.map (·.2)).map w).sum + d
  induction m.entries with
  | nil => simp [alterEntries, hnone]
  | cons e rest ih =>
    obtain ⟨a, v⟩ := e
    rw [alterEntries]
    split
    · simp only [List.map_cons, List.sum_cons, hnone]
      omega
    · split
      · simp only [List.map_cons, List.sum_cons, ih]
        omega
      · simp only [List.map_cons, List.sum_cons, hsome]
        omega

end

end SortedMap

end DegreeProgress
