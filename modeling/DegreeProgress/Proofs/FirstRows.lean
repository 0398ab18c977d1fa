import Mathlib.Data.List.Induction
import Mathlib.Data.List.Nodup

/-!
# The first row of every key

`firstPer key rows` keeps the first of all rows with the same key.  It is what remains of a list of
rows in a container that ignores a key that it already has:

* `firstPer_append`             of more rows those with new keys are kept;
* `firstPer_perm`               rows that are told apart may come in any order;
* `firstPer_flatMap`            over parts that share no keys, each part is kept once;
* `firstPer_filter`             choosing rows by their keys may happen before or after;
* `mem_map_firstPer`            no key is lost, and `nodup_map_firstPer` none occurs twice;
* `filter_key_firstPer`         of the rows with one key the first is left;
* `filter_firstPer_eq`          a loop that remembers the keys it has seen keeps these rows;
* `mem_numberedFirst`           which rows of a choice are kept, by their numbers.
-/

namespace DegreeProgress

variable {ι κ : Type} [DecidableEq κ]

/-- the rows without those whose key an earlier row has -/
def firstPer (key : ι → κ) : List ι → List ι
  | [] => []
  | x :: xs => x :: (firstPer key xs).filter fun y => key y ≠ key x

theorem firstPer_sublist (key : ι → κ) (rows : List ι) : (firstPer key rows).Sublist rows := by
  induction rows with
  | nil => exact List.Sublist.refl []
  | cons x xs ih => exact (List.filter_sublist.trans ih).cons_cons x

theorem mem_map_firstPer (key : ι → κ) (rows : List ι) (k : κ) :
    k ∈ (firstPer key rows).map key ↔ k ∈ rows.map key := by
  induction rows with
  | nil => rfl
  | cons x xs ih =>
    rw [List.map_cons, List.mem_cons, ← ih, firstPer, List.map_cons, List.mem_cons]
    by_cases h : k = key x
    · simp [h]
    · simp only [h, false_or, List.mem_map, List.mem_filter, ne_eq, decide_not, Bool.not_eq_true',
        decide_eq_false_iff_not]
      constructor
      · rintro ⟨y, ⟨hy, _⟩, rfl⟩
        exact ⟨y, hy, rfl⟩
      · rintro ⟨y, hy, rfl⟩
        exact ⟨y, ⟨hy, h⟩, rfl⟩

theorem nodup_map_firstPer (key : ι → κ) (rows : List ι) : ((firstPer key rows).map key).Nodup := by
  induction rows with
  | nil => exact List.nodup_nil
  | cons x xs ih =>
    rw [firstPer, List.map_cons, List.nodup_cons]
    constructor
    · intro h
      obtain ⟨y, hy, hk⟩ := List.mem_map.mp h
      have hne := (List.mem_filter.mp hy).2
      rw [hk] at hne
      simp at hne
    · exact ih.sublist (List.filter_sublist.map key)

/-- rows can be chosen by their keys before or after the later rows of every key are left out -/
theorem firstPer_filter (key : ι → κ) (p : ι → Bool) (rows : List ι)
    (h : ∀ x ∈ rows, ∀ y ∈ rows, key x = key y → p x = p y) :
    firstPer key (rows.filter p) = (firstPer key rows).filter p := by
  induction rows with
  | nil => rfl
  | cons x xs ih =>
    have hxs := ih fun y hy z hz => h y (List.mem_cons_of_mem x hy) z (List.mem_cons_of_mem x hz)
    cases hp : p x with
    | true =>
      rw [List.filter_cons_of_pos hp, firstPer, firstPer, List.filter_cons_of_pos hp, hxs,
        List.filter_filter, List.filter_filter]
      simp only [Bool.and_comm]
    | false =>
      have hx : ¬p x = true := by rw [hp]; exact Bool.false_ne_true
      rw [List.filter_cons_of_neg hx, firstPer, List.filter_cons_of_neg hx, hxs,
        List.filter_filter]
      apply List.filter_congr
      intro y hy
      have hmem := (firstPer_sublist key xs).subset hy
      by_cases hk : key y = key x
      · have hpy := h y (List.mem_cons_of_mem x hmem) x List.mem_cons_self hk
        rw [hpy, hp, Bool.false_and]
      · simp [hk]

theorem filter_key_firstPer (key : ι → κ) (rows : List ι) (k : κ) :
    (firstPer key rows).filter (fun x => key x = k) = (rows.find? fun x => key x = k).toList := by
  induction rows with
  | nil => rfl
  | cons x xs ih =>
    rw [firstPer]
    by_cases hx : key x = k
    · have hpos : decide (key x = k) = true := decide_eq_true hx
      rw [List.filter_cons, if_pos hpos, List.find?_cons, hpos, List.filter_filter,
        Option.toList_some, List.cons.injEq, List.filter_eq_nil_iff]
      refine ⟨rfl, fun y _ hy => ?_⟩
      rw [Bool.and_eq_true, decide_eq_true_eq, decide_eq_true_eq] at hy
      exact hy.2 (hy.1.trans hx.symm)
    · have hneg : decide (key x = k) = false := decide_eq_false hx
      rw [List.filter_cons, hneg, if_neg Bool.false_ne_true, List.find?_cons, hneg, ← ih,
        List.filter_filter]
      apply List.filter_congr
      intro y _
      by_cases hy : key y = k
      · have hyx : key y ≠ key x := fun h => hx (h.symm.trans hy)
        rw [decide_eq_true hyx, Bool.and_true]
      · rw [decide_eq_false hy, Bool.false_and]

theorem mem_firstPer_of_unique (key : ι → κ) {rows : List ι} {x : ι} (hx : x ∈ rows)
    (h : ∀ y ∈ rows, key y = key x → y = x) : x ∈ firstPer key rows := by
  have hkey := (mem_map_firstPer key rows (key x)).mpr (List.mem_map_of_mem hx)
  obtain ⟨y, hy, hyx⟩ := List.mem_map.mp hkey
  have heq := h y ((firstPer_sublist key rows).subset hy) hyx
  exact heq ▸ hy

theorem find?_of_mem_firstPer (key : ι → κ) {rows : List ι} {x : ι}
    (h : x ∈ firstPer key rows) : rows.find? (fun y => key y = key x) = some x := by
  have hx : x ∈ (firstPer key rows).filter fun y => key y = key x :=
    List.mem_filter.mpr ⟨h, decide_eq_true rfl⟩
  rw [filter_key_firstPer, Option.mem_toList] at hx
  exact hx

theorem firstPer_append (key : ι → κ) (xs ys : List ι) :
    firstPer key (xs ++ ys)
      = firstPer key xs ++ (firstPer key ys).filter fun y => key y ∉ xs.map key := by
  induction xs with
  | nil => simp [firstPer]
  | cons x xs ih =>
    rw [List.cons_append, firstPer, ih, List.filter_append, List.filter_filter, firstPer,
      List.cons_append]
    congr 2
    apply List.filter_congr
    intro y _
    simp only [List.map_cons, List.mem_cons, not_or, Bool.decide_and, ne_eq]

theorem firstPer_append_of_new (key : ι → κ) {xs ys : List ι} (h : ∀ y ∈ ys, key y ∉ xs.map key) :
    firstPer key (xs ++ ys) = firstPer key xs ++ firstPer key ys := by
  have hnew : ∀ y ∈ firstPer key ys, decide (key y ∉ xs.map key) = true := fun y hy =>
    decide_eq_true (h y ((firstPer_sublist key ys).subset hy))
  rw [firstPer_append, List.filter_eq_self.mpr hnew]

/-- what later rows add depends only on the keys that came before them -/
theorem exists_firstPer_append (key : ι → κ) {xs xs' : List ι}
    (h : ∀ k, k ∈ xs.map key ↔ k ∈ xs'.map key) (ys : List ι) : ∃ rest,
    firstPer key (xs ++ ys) = firstPer key xs ++ rest ∧
      firstPer key (xs' ++ ys) = firstPer key xs' ++ rest := by
  refine ⟨_, firstPer_append key xs ys, ?_⟩
  simp only [firstPer_append, h]

/-- rows that are told apart by their keys may come in another order -/
theorem firstPer_perm (key : ι → κ) {rows rows' : List ι} (h : rows.Perm rows')
    (hinj : ∀ x ∈ rows, ∀ y ∈ rows, key x = key y → x = y) :
    (firstPer key rows).Perm (firstPer key rows') := by
  have hmem : ∀ x, x ∈ firstPer key rows ↔ x ∈ rows := fun x =>
    ⟨fun hx => (firstPer_sublist key rows).subset hx, fun hx =>
      mem_firstPer_of_unique key hx fun y hy => hinj y hy x hx⟩
  have hmem' : ∀ x, x ∈ firstPer key rows' ↔ x ∈ rows' := fun x =>
    ⟨fun hx => (firstPer_sublist key rows').subset hx, fun hx =>
      mem_firstPer_of_unique key hx fun y hy => hinj y (h.mem_iff.mpr hy) x (h.mem_iff.mpr hx)⟩
  have hnd : (firstPer key rows).Nodup := List.Nodup.of_map key (nodup_map_firstPer key rows)
  have hnd' : (firstPer key rows').Nodup := List.Nodup.of_map key (nodup_map_firstPer key rows')
  rw [List.perm_ext_iff_of_nodup hnd hnd']
  intro x
  rw [hmem, hmem', h.mem_iff]

theorem firstPer_append_singleton (key : ι → κ) (rows : List ι) (x : ι) :
    firstPer key (rows ++ [x])
      = if key x ∈ rows.map key then firstPer key rows else firstPer key rows ++ [x] := by
  have hone : firstPer key [x] = [x] := rfl
  rw [firstPer_append, hone, List.filter_singleton]
  by_cases h : key x ∈ rows.map key
  · rw [decide_eq_false (not_not_intro h), if_pos h, cond_false, List.append_nil]
  · rw [decide_eq_true h, if_neg h, cond_true]

theorem firstPer_append_cons_of_mem (key : ι → κ) {xs : List ι} {x : ι} (h : key x ∈ xs.map key)
    (ys : List ι) : firstPer key (xs ++ x :: ys) = firstPer key (xs ++ ys) := by
  have hkeys : ∀ k, k ∈ (xs ++ [x]).map key ↔ k ∈ xs.map key := by
    intro k
    rw [List.map_append, List.mem_append, List.map_singleton, List.mem_singleton]
    exact ⟨fun hk => hk.elim id fun e => e ▸ h, Or.inl⟩
  obtain ⟨rest, hwith, hwithout⟩ := exists_firstPer_append key hkeys ys
  rw [List.append_cons, hwith, hwithout, firstPer_append_singleton, if_pos h]

theorem firstPer_eq_self (key : ι → κ) {rows : List ι} (h : (rows.map key).Nodup) :
    firstPer key rows = rows := by
  induction rows with
  | nil => rfl
  | cons x xs ih =>
    rw [List.map_cons, List.nodup_cons] at h
    rw [firstPer, ih h.2, List.filter_eq_self.mpr]
    intro y hy
    rw [decide_eq_true_eq]
    exact fun hk => h.1 (hk ▸ List.mem_map_of_mem hy)

/-- where keys identify rows, a row is found by its key -/
theorem find?_of_nodup_map (key : ι → κ) {rows : List ι} (h : (rows.map key).Nodup) {x : ι}
    (hx : x ∈ rows) : rows.find? (fun y => key y = key x) = some x := by
  apply find?_of_mem_firstPer
  rw [firstPer_eq_self key h]
  exact hx

theorem flatMap_eq_flatMap_filter {π : Type} (parts : List π) (p : π → Bool) (f g : π → List ι)
    (h : ∀ a ∈ parts, g a = if p a then f a else []) :
    parts.flatMap g = (parts.filter p).flatMap f := by
  induction parts with
  | nil => rfl
  | cons a parts ih =>
    have hrest := ih fun b hb => h b (List.mem_cons_of_mem a hb)
    rw [List.flatMap_cons, hrest, h a List.mem_cons_self, List.filter_cons]
    split
    · rw [List.flatMap_cons]
    · rfl

/-- over parts that share no keys, each part is kept once -/
theorem firstPer_flatMap {π : Type} [DecidableEq π] (key : ι → κ) (f : π → List ι) (parts : List π)
    (h : ∀ a ∈ parts, ∀ b ∈ parts, ∀ x ∈ f a, ∀ y ∈ f b, key x = key y → a = b) :
    firstPer key (parts.flatMap f) = (firstPer id parts).flatMap fun a => firstPer key (f a) := by
  induction parts with
  | nil => rfl
  | cons a parts ih =>
    have hrest := ih fun b hb c hc =>
      h b (List.mem_cons_of_mem a hb) c (List.mem_cons_of_mem a hc)
    rw [List.flatMap_cons, firstPer_append, hrest, List.filter_flatMap, firstPer, List.flatMap_cons]
    congr 1
    apply flatMap_eq_flatMap_filter
    intro b hb
    have hmem : b ∈ parts := (firstPer_sublist id parts).subset hb
    -- the first part again adds nothing, and any other one has none of its keys
    by_cases hba : b = a
    · subst hba
      simp only [id, ne_eq, not_true_eq_false, decide_false, if_neg Bool.false_ne_true]
      rw [List.filter_eq_nil_iff]
      intro y hy
      rw [decide_eq_true_eq, not_not]
      exact List.mem_map_of_mem ((firstPer_sublist key (f b)).subset hy)
    · simp only [id, ne_eq, hba, not_false_eq_true, decide_true, if_pos]
      rw [List.filter_eq_self]
      intro y hy
      rw [decide_eq_true_eq]
      intro hk
      obtain ⟨x, hx, hxy⟩ := List.mem_map.mp hk
      exact hba (h b (List.mem_cons_of_mem a hmem) a List.mem_cons_self y
        ((firstPer_sublist key (f b)).subset hy) x hx hxy.symm)

theorem firstPer_flatMap_firstPer {π : Type} [DecidableEq π] (key : ι → κ) (f : π → List ι)
    (parts : List π) :
    firstPer key ((firstPer id parts).flatMap f) = firstPer key (parts.flatMap f) := by
  induction parts using List.reverseRecOn with
  | nil => rfl
  | append_singleton parts a ih =>
    have hmem : ∀ b, b ∈ firstPer id parts ↔ b ∈ parts := fun b => by
      simpa using mem_map_firstPer id parts b
    have hkeys : ∀ k, k ∈ ((firstPer id parts).flatMap f).map key
        ↔ k ∈ (parts.flatMap f).map key := fun k => by
      simp only [List.mem_map, List.mem_flatMap, hmem]
    obtain ⟨rest, honce, hagain⟩ := exists_firstPer_append key hkeys (f a)
    rw [firstPer_append_singleton, List.map_id, id]
    by_cases ha : a ∈ parts
    · have hnone : (firstPer key (f a)).filter (fun y => key y ∉ (parts.flatMap f).map key)
          = [] := by
        rw [List.filter_eq_nil_iff]
        intro y hy
        rw [decide_eq_true_eq, not_not]
        have hya : y ∈ f a := (firstPer_sublist key (f a)).subset hy
        exact List.mem_map_of_mem (List.mem_flatMap_of_mem ha hya)
      rw [if_pos ha, ih, List.flatMap_append, List.flatMap_singleton, firstPer_append, hnone,
        List.append_nil]
    · rw [if_neg ha, List.flatMap_append, List.flatMap_append, List.flatMap_singleton, honce,
        hagain, ih]

/-- a loop that keeps the rows whose key it has not seen, and then has seen their keys -/
theorem filter_firstPer_eq {σ : Type} (key : ι → κ) (seen : σ → κ → Prop)
    [∀ s k, Decidable (seen s k)] (see : σ → κ → σ)
    (hsee : ∀ s k k', seen (see s k) k' ↔ k' = k ∨ seen s k') (loop : σ → List ι → List ι)
    (hnil : ∀ s, loop s [] = [])
    (hcons : ∀ s x xs, loop s (x :: xs)
      = if seen s (key x) then loop s xs else x :: loop (see s (key x)) xs)
    (s : σ) (rows : List ι) :
    loop s rows = (firstPer key rows).filter fun x => ¬seen s (key x) := by
  induction rows generalizing s with
  | nil => exact hnil s
  | cons x xs ih =>
    rw [hcons, firstPer, List.filter_cons, List.filter_filter]
    by_cases hx : seen s (key x)
    · rw [if_pos hx, ih, decide_eq_false (not_not_intro hx), if_neg Bool.false_ne_true]
      apply List.filter_congr
      intro y _
      by_cases hy : seen s (key y)
      · simp [hy]
      · have hne : key y ≠ key x := fun h => hy (h ▸ hx)
        simp [hy, hne]
    · rw [if_neg hx, ih, decide_eq_true hx, if_pos rfl]
      congr 1
      apply List.filter_congr
      intro y _
      simp only [hsee, not_or, Bool.decide_and, Bool.and_comm, ne_eq]

theorem eraseDups_eq_firstPer [BEq κ] [LawfulBEq κ] : ∀ l : List κ, l.eraseDups = firstPer id l
  | [] => rfl
  | a :: as => by
    have hlt : (as.filter fun b => !b == a).length < (a :: as).length :=
      Nat.lt_succ_of_le (List.length_filter_le _ _)
    rw [List.eraseDups_cons, eraseDups_eq_firstPer, firstPer_filter, firstPer]
    · congr 1
      apply List.filter_congr
      intro b _
      rw [Bool.eq_iff_iff, Bool.not_eq_true', beq_eq_false_iff_ne, decide_eq_true_eq]
      rfl
    · rintro x _ y _ rfl
      rfl
termination_by l => l.length
decreasing_by exact hlt

theorem firstPer_map {μ : Type} (key : μ → κ) (f : ι → μ) (rows : List ι) :
    firstPer key (rows.map f) = (firstPer (fun x => key (f x)) rows).map f := by
  induction rows with
  | nil => rfl
  | cons x xs ih => rw [List.map_cons, firstPer, ih, List.filter_map, firstPer, List.map_cons]; rfl

theorem firstPer_congr {μ : Type} [DecidableEq μ] (key : ι → κ) (key' : ι → μ)
    (h : ∀ x y, key x = key y ↔ key' x = key' y) (rows : List ι) :
    firstPer key rows = firstPer key' rows := by
  induction rows with
  | nil => rfl
  | cons x xs ih =>
    rw [firstPer, firstPer, ih]
    congr 1
    apply List.filter_congr
    intro y _
    rw [decide_eq_decide]
    exact not_congr (h y x)

/-! ### first rows by their numbers -/

section
variable (key : ι → κ) (p : ι → Bool) (rows : List ι)

/-- of the rows with `p` the first one of every key, with its number -/
def numberedFirst : List (ι × Nat) :=
  rows.zipIdx.filter fun e => p e.1 && key e.1 ∉ ((rows.take e.2).filter p).map key

theorem map_fst_numberedFirst :
    (numberedFirst key p rows).map (·.1) = firstPer key (rows.filter p) := by
  induction rows using List.reverseRecOn with
  | nil => rfl
  | append_singleton rows x ih =>
    -- an earlier row looks at rows before it only, so not at `x`
    have hold : (rows.zipIdx.filter fun e =>
          p e.1 && key e.1 ∉ (((rows ++ [x]).take e.2).filter p).map key)
        = numberedFirst key p rows := by
      apply List.filter_congr
      rintro ⟨y, i⟩ he
      have hi : i < rows.length := (List.getElem?_eq_some_iff.mp
        (List.mem_zipIdx_iff_getElem?.mp he)).1
      rw [List.take_append_of_le_length (Nat.le_of_lt hi)]
    unfold numberedFirst
    rw [List.zipIdx_append, List.filter_append, hold, List.map_append, ih, List.filter_append,
      Nat.zero_add, List.zipIdx_singleton, List.filter_singleton, List.filter_singleton,
      List.take_left]
    cases hp : p x with
    | false => simp
    | true =>
      rw [cond_true, firstPer_append_singleton, Bool.true_and]
      by_cases hx : key x ∈ (rows.filter p).map key
      · rw [if_pos hx, decide_eq_false (not_not_intro hx), cond_false, List.map_nil,
          List.append_nil]
      · rw [if_neg hx, decide_eq_true hx, cond_true, List.map_singleton]

variable {key p rows}

theorem mem_numberedFirst {x : ι} {i : Nat} : (x, i) ∈ numberedFirst key p rows
    ↔ rows[i]? = some x ∧ p x = true ∧
      ∀ j < i, ∀ y, rows[j]? = some y → p y = true → key y ≠ key x := by
  unfold numberedFirst
  rw [List.mem_filter, List.mem_zipIdx_iff_getElem?, Bool.and_eq_true, decide_eq_true_eq,
    List.mem_map]
  refine and_congr_right fun _ => and_congr_right fun _ => ?_
  constructor
  · intro h j hj y hy hp hkey
    have htake : (rows.take i)[j]? = some y := (List.getElem?_take_of_lt hj).trans hy
    exact h ⟨y, List.mem_filter.mpr ⟨List.mem_of_getElem? htake, hp⟩, hkey⟩
  · rintro h ⟨y, hy, hkey⟩
    obtain ⟨hmem, hp⟩ := List.mem_filter.mp hy
    obtain ⟨j, hj, rfl⟩ := List.mem_take_iff_getElem.mp hmem
    exact h j (by omega) _ (List.getElem?_eq_getElem _) hp hkey

end

end DegreeProgress
