import DegreeProgress.Sorted.Order

/-!
# Sorted maps

A finite map as the list of its entries in increasing key order, so that two maps with the same
entries are equal and walking one shows its keys in order.
-/

namespace DegreeProgress

structure SortedMap (κ ν : Type) [LT κ] where
  entries : List (κ × ν)
  sorted : entries.Pairwise (·.1 < ·.1)
  deriving DecidableEq

namespace SortedMap

variable {κ ν : Type} [LT κ]

def empty : SortedMap κ ν := ⟨[], .nil⟩

instance : EmptyCollection (SortedMap κ ν) := ⟨empty⟩
instance : Inhabited (SortedMap κ ν) := ⟨empty⟩

def keys (m : SortedMap κ ν) : List κ := m.entries.map (·.1)
def values (m : SortedMap κ ν) : List ν := m.entries.map (·.2)
def size (m : SortedMap κ ν) : Nat := m.entries.length

def get? [DecidableEq κ] (m : SortedMap κ ν) (k : κ) : Option ν := m.entries.lookup k

/-! ### writing one entry -/

/-- puts `f` of the old value (if any) under `k`, keeping the order -/
def alterEntries [DecidableLT κ] (k : κ) (f : Option ν → ν) : List (κ × ν) → List (κ × ν)
  | [] => [(k, f none)]
  | (a, v) :: rest =>
    if k < a then (k, f none) :: (a, v) :: rest
    else if a < k then (a, v) :: alterEntries k f rest
    else (k, f (some v)) :: rest

theorem mem_alterEntries [DecidableLT κ] {k : κ} {f : Option ν → ν} {l : List (κ × ν)}
    {e : κ × ν} (h : e ∈ alterEntries k f l) : e.1 = k ∨ e ∈ l := by
  induction l with
  | nil => simp_all [alterEntries]
  | cons x rest ih =>
    obtain ⟨a, v⟩ := x
    rw [alterEntries] at h
    split at h
    · rcases List.mem_cons.1 h with rfl | h
      · exact .inl rfl
      · exact .inr h
    · split at h
      · rcases List.mem_cons.1 h with rfl | h
        · simp
        · rcases ih h with h | h
          · exact .inl h
          · exact .inr (List.mem_cons_of_mem _ h)
      · rcases List.mem_cons.1 h with rfl | h
        · exact .inl rfl
        · exact .inr (List.mem_cons_of_mem _ h)

theorem alterEntries_sorted [DecidableLT κ] [StrictOrder κ] {k : κ} {f : Option ν → ν}
    {l : List (κ × ν)} (h : l.Pairwise (·.1 < ·.1)) : (alterEntries k f l).Pairwise (·.1 < ·.1) := by
  induction l with
  | nil => simp [alterEntries]
  | cons x rest ih =>
    obtain ⟨a, v⟩ := x
    obtain ⟨hx, hr⟩ := List.pairwise_cons.1 h
    rw [alterEntries]
    split
    · rename_i hk
      refine List.pairwise_cons.2 ⟨fun e he => ?_, h⟩
      rcases List.mem_cons.1 he with rfl | he
      · exact hk
      · exact StrictOrder.trans hk (hx e he)
    · split
      · rename_i hk
        refine List.pairwise_cons.2 ⟨fun e he => ?_, ih hr⟩
        rcases mem_alterEntries he with he | he
        · exact he ▸ hk
        · exact hx e he
      · rename_i hk ha
        cases StrictOrder.eq_of_not_lt hk ha
        exact List.pairwise_cons.2 ⟨hx, hr⟩

/-- the map with `f` of the old value (if any) under `k` -/
def alter [DecidableLT κ] [StrictOrder κ] (m : SortedMap κ ν) (k : κ) (f : Option ν → ν) :
    SortedMap κ ν :=
  ⟨alterEntries k f m.entries, alterEntries_sorted m.sorted⟩

/-- a later write to a key replaces the earlier one -/
def insert [DecidableLT κ] [StrictOrder κ] (m : SortedMap κ ν) (k : κ) (v : ν) : SortedMap κ ν :=
  m.alter k fun _ => v

def ofList [DecidableLT κ] [StrictOrder κ] (l : List (κ × ν)) : SortedMap κ ν :=
  l.foldl (fun m e => m.insert e.1 e.2) empty

/-! ### values under the same keys -/

/-- the map with `f` of every value -/
def mapValues {μ : Type} (m : SortedMap κ ν) (f : κ → ν → μ) : SortedMap κ μ where
  entries := m.entries.map fun e => (e.1, f e.1 e.2)
  sorted := List.pairwise_map.2 m.sorted

end SortedMap

end DegreeProgress
