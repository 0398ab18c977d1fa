import DegreeProgress.Sorted.Order

/-!
# Sorted sets

A finite set as the increasing list of its members.
-/

namespace DegreeProgress

structure SortedSet (κ : Type) [LT κ] where
  toList : List κ
  sorted : toList.Pairwise (· < ·)
  deriving DecidableEq

namespace SortedSet

variable {κ : Type} [LT κ]

def empty : SortedSet κ := ⟨[], .nil⟩

instance : EmptyCollection (SortedSet κ) := ⟨empty⟩
instance : Inhabited (SortedSet κ) := ⟨empty⟩

instance : Membership κ (SortedSet κ) := ⟨fun s k => k ∈ s.toList⟩

instance [DecidableEq κ] (k : κ) (s : SortedSet κ) : Decidable (k ∈ s) :=
  inferInstanceAs (Decidable (k ∈ s.toList))

def contains [DecidableEq κ] (s : SortedSet κ) (k : κ) : Bool := decide (k ∈ s)
def isEmpty (s : SortedSet κ) : Bool := s.toList.isEmpty
def size (s : SortedSet κ) : Nat := s.toList.length

/-! ### adding members -/

def insertList [DecidableLT κ] (k : κ) : List κ → List κ
  | [] => [k]
  | a :: rest =>
    if k < a then k :: a :: rest
    else if a < k then a :: insertList k rest
    else a :: rest

theorem mem_of_mem_insertList [DecidableLT κ] {k x : κ} {l : List κ} (h : x ∈ insertList k l) :
    x = k ∨ x ∈ l := by
  induction l with
  | nil => simp_all [insertList]
  | cons a rest ih =>
    rw [insertList] at h
    split at h
    · exact List.mem_cons.1 h
    · split at h
      · rcases List.mem_cons.1 h with rfl | h
        · simp
        · rcases ih h with h | h
          · exact .inl h
          · exact .inr (List.mem_cons_of_mem _ h)
      · exact .inr h

theorem insertList_sorted [DecidableLT κ] [StrictOrder κ] {k : κ} {l : List κ}
    (h : l.Pairwise (· < ·)) : (insertList k l).Pairwise (· < ·) := by
  induction l with
  | nil => simp [insertList]
  | cons a rest ih =>
    obtain ⟨ha, hr⟩ := List.pairwise_cons.1 h
    rw [insertList]
    split
    · rename_i hk
      refine List.pairwise_cons.2 ⟨fun x hx => ?_, h⟩
      rcases List.mem_cons.1 hx with rfl | hx
      · exact hk
      · exact StrictOrder.trans hk (ha x hx)
    · split
      · rename_i hk
        refine List.pairwise_cons.2 ⟨fun x hx => ?_, ih hr⟩
        rcases mem_of_mem_insertList hx with rfl | hx
        · exact hk
        · exact ha x hx
      · exact h

def insert [DecidableLT κ] [StrictOrder κ] (s : SortedSet κ) (k : κ) : SortedSet κ :=
  ⟨insertList k s.toList, insertList_sorted s.sorted⟩

/-- adds the members of a list -/
def insertAll [DecidableLT κ] [StrictOrder κ] (s : SortedSet κ) (l : List κ) : SortedSet κ :=
  l.foldl insert s

def ofList [DecidableLT κ] [StrictOrder κ] (l : List κ) : SortedSet κ := empty.insertAll l

/-- the members of which `p` holds -/
def filter (s : SortedSet κ) (p : κ → Bool) : SortedSet κ := ⟨s.toList.filter p, s.sorted.filter p⟩

theorem mem_insertList [DecidableLT κ] [StrictOrder κ] {k x : κ} {l : List κ} :
    x ∈ insertList k l ↔ x = k ∨ x ∈ l := by
  refine ⟨mem_of_mem_insertList, ?_⟩
  induction l with
  | nil => simp [insertList]
  | cons a rest ih =>
    intro h
    rw [insertList]
    split
    · exact List.mem_cons.2 h
    · split
      · rcases h with h | h
        · exact List.mem_cons_of_mem _ (ih (.inl h))
        · rcases List.mem_cons.1 h with h | h
          · exact List.mem_cons.2 (.inl h)
          · exact List.mem_cons_of_mem _ (ih (.inr h))
      · rename_i hk ha
        cases StrictOrder.eq_of_not_lt hk ha
        rcases h with h | h
        · exact List.mem_cons.2 (.inl h)
        · exact h

@[simp] theorem mem_insert [DecidableLT κ] [StrictOrder κ] {s : SortedSet κ} {k x : κ} :
    x ∈ s.insert k ↔ x = k ∨ x ∈ s := mem_insertList

@[simp] theorem mem_filter {s : SortedSet κ} {p : κ → Bool} {k : κ} :
    k ∈ s.filter p ↔ k ∈ s ∧ p k = true := List.mem_filter

end SortedSet

end DegreeProgress
