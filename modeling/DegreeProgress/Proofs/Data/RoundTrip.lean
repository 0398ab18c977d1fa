import DegreeProgress.Document.Basic
import DegreeProgress.Proofs.FirstRows
import DegreeProgress.Proofs.Sorted.Views
import Mathlib.Data.List.Forall2

/-!
# Values that are read back

Which values are read again from the documents that are written for them:

* `decode_float_iff`        the finite numbers;
* `decode_name`             what is known by a name of its own;
* `decode_list_iff`         lists of such values,
* `decode_entries_iff`      maps from keys that texts stand for to such values;
* `decode_record_iff`       a structure, where this can be told from its fields.
-/

namespace DegreeProgress

/-! ### simple values -/

@[simp] theorem decode_bool (b : Bool) : decode .plain (encode b) = some b := rfl

@[simp] theorem decode_text (s : String) : decode .plain (encode s) = some s := rfl

theorem encode_of_isFinite {x : Float} (h : isFinite x = true) : encode x = .real x := if_pos h

theorem encode_of_not_isFinite {x : Float} (h : ¬isFinite x = true) : encode x = .null := if_neg h

@[simp] theorem decode_float_iff {x : Float} :
    decode .plain (encode x) = some x ↔ isFinite x = true := by
  by_cases h : isFinite x = true
  · rw [encode_of_isFinite h]
    exact iff_of_true rfl h
  · rw [encode_of_not_isFinite h]
    exact iff_of_false (fun h => nomatch h) h

theorem decodeBelow_integer {bound n : Nat} (dialect : Dialect) (h : n < bound) :
    decodeBelow bound dialect (.integer n) = some n := by
  show (some n).filter (· < bound) = some n
  rw [Option.filter_some, if_pos (decide_eq_true h)]

theorem decodeBelow_integer_of_le {bound n : Nat} (dialect : Dialect) (h : bound ≤ n) :
    decodeBelow bound dialect (.integer n) = none := by
  show (some n).filter (· < bound) = none
  rw [Option.filter_some, if_neg (by simpa using h)]

@[simp] theorem decode_uint8 (n : UInt8) : decode .plain (encode n) = some n := by
  show (decodeBelow UInt8.size .plain (.integer n.toNat)).map UInt8.ofNat = some n
  rw [decodeBelow_integer _ n.toNat_lt, Option.map_some, UInt8.ofNat_toNat]

@[simp] theorem decode_uint16 (n : UInt16) : decode .plain (encode n) = some n := by
  show (decodeBelow UInt16.size .plain (.integer n.toNat)).map UInt16.ofNat = some n
  rw [decodeBelow_integer _ n.toNat_lt, Option.map_some, UInt16.ofNat_toNat]

@[simp] theorem decode_uint32 (n : UInt32) : decode .plain (encode n) = some n := by
  show (decodeBelow UInt32.size .plain (.integer n.toNat)).map UInt32.ofNat = some n
  rw [decodeBelow_integer _ n.toNat_lt, Option.map_some, UInt32.ofNat_toNat]

@[simp] theorem decode_uint64 (n : UInt64) : decode .plain (encode n) = some n := by
  show (decodeBelow UInt64.size .plain (.integer n.toNat)).map UInt64.ofNat = some n
  rw [decodeBelow_integer _ n.toNat_lt, Option.map_some, UInt64.ofNat_toNat]

@[simp] theorem decode_optionText (s : Option String) : decode .plain (encode s) = some s := by
  cases s <;> rfl

/-! ### counts

A count is any natural number here, and it is read as one of 64 bits. -/

theorem exists_decode_count {n : Nat} (h : n < UInt64.size) :
    ∃ m : UInt64, decode .plain (encode n) = some m ∧ m.toNat = n := by
  refine ⟨UInt64.ofNat n, ?_, UInt64.toNat_ofNat_of_lt' h⟩
  show (decodeBelow UInt64.size .plain (.integer n)).map UInt64.ofNat = _
  rw [decodeBelow_integer _ h, Option.map_some]

theorem decode_count_of_le {n : Nat} (h : UInt64.size ≤ n) :
    (decode .plain (encode n) : Option UInt64) = none := by
  show (decodeBelow UInt64.size .plain (.integer n)).map UInt64.ofNat = _
  rw [decodeBelow_integer_of_le _ h, Option.map_none]

theorem decode_optionCount_iff {n : Option Nat} :
    (do
      let m : Option UInt64 ← decode .plain (encode n)
      return m.map UInt64.toNat) = some n ↔ ∀ m ∈ n, m < UInt64.size := by
  cases n with
  | none => exact iff_of_true rfl (by simp)
  | some n =>
    have hread : (decode .plain (encode (some n)) : Option (Option UInt64)) =
        (decode .plain (encode n) : Option UInt64).map some := rfl
    rw [hread]
    by_cases h : n < UInt64.size
    · obtain ⟨m, hm, rfl⟩ := exists_decode_count h
      rw [hm]
      simp [h]
    · rw [decode_count_of_le (Nat.le_of_not_lt h)]
      simp [h]

/-! ### names -/

/-- names that differ tell the values of an enumeration apart -/
theorem decode_name {α : Type} [Enumeration α] {x : α}
    (hmem : x ∈ (Enumeration.values : List α))
    (hnames : ((Enumeration.values : List α).map Enumeration.name).Nodup) :
    decode .plain (encode x) = some x := by
  show (Enumeration.values : List α).find? (fun y => Enumeration.name y == Enumeration.name x) = _
  exact find?_of_nodup_map Enumeration.name hnames hmem

/-! ### lists and maps -/

section
variable {α : Type} [Encode α] [Decode α]

@[simp] theorem decode_list_iff {xs : List α} :
    decode .plain (encode xs) = some xs ↔ ∀ x ∈ xs, decode .plain (encode x) = some x := by
  show (xs.map encode).mapM (decode .plain) = some xs ↔ _
  induction xs with
  | nil => simp
  | cons x xs ih =>
    rw [List.map_cons, List.mapM_cons, List.forall_mem_cons, ← ih]
    simp [Option.bind_eq_some_iff]

@[simp] theorem decode_list {xs : List α} (h : ∀ x : α, decode .plain (encode x) = some x) :
    decode .plain (encode xs) = some xs :=
  decode_list_iff.mpr fun x _ => h x

variable {κ : Type}

theorem mapM_entries_eq_some_iff {write : κ → String} {key : String → κ}
    (hkey : ∀ k, key (write k) = k) {es es' : List (κ × α)} :
    ((es.map fun e => (write e.1, encode e.2)).mapM fun e =>
        (decode .plain e.2).map (key e.1, ·)) = some es' ↔
      List.Forall₂ (fun e e' => e'.1 = e.1 ∧ decode .plain (encode e.2) = some e'.2) es es' := by
  induction es generalizing es' with
  | nil => simp [eq_comm]
  | cons e es ih =>
    rw [List.map_cons, List.mapM_cons, List.forall₂_cons_left_iff]
    simp only [Option.bind_eq_bind, Option.bind_eq_some_iff, Option.map_eq_some_iff, ih, hkey,
      Option.pure_def, Option.some_inj]
    constructor
    · rintro ⟨_, ⟨v, hv, rfl⟩, rest, hrest, rfl⟩
      exact ⟨(e.1, v), rest, ⟨rfl, hv⟩, hrest, rfl⟩
    · rintro ⟨⟨k, v⟩, rest, ⟨hk, hv⟩, hrest, rfl⟩
      cases hk
      exact ⟨_, ⟨v, hv, rfl⟩, rest, hrest, rfl⟩

variable [LT κ] [DecidableLT κ] [DecidableEq κ] [StrictOrder κ]

/-- a map is read back iff its values are -/
theorem decode_entries_iff (write : κ → String) (key : String → κ) (hkey : ∀ k, key (write k) = k)
    {m : SortedMap κ α} :
    (do
      let es ← (m.entries.map fun e => (write e.1, encode e.2)).mapM fun e =>
        (decode .plain e.2).map (key e.1, ·)
      return SortedMap.ofList es) = some m ↔
      ∀ x ∈ m.values, decode .plain (encode x) = some x := by
  unfold SortedMap.values
  simp only [Option.bind_eq_bind, Option.bind_eq_some_iff, Option.pure_def, Option.some_inj,
    mapM_entries_eq_some_iff hkey]
  rw [List.forall_mem_map]
  constructor
  · -- the entries that were read have the keys of the map, so they are its entries
    rintro ⟨es, hes, hm⟩
    have hkeys : es.map (·.1) = m.entries.map (·.1) := by
      rw [← List.forall₂_eq_eq_eq, List.forall₂_map_left_iff, List.forall₂_map_right_iff]
      exact (hes.imp fun _ _ h => h.1).flip
    have hsorted : es.Pairwise (·.1 < ·.1) := by
      have hm' := List.pairwise_map.mpr m.sorted
      rw [← hkeys] at hm'
      exact List.pairwise_map.mp hm'
    have hsame : es = m.entries := by
      rw [← SortedMap.entries_ofList hsorted, hm]
    rw [hsame, List.forall₂_same] at hes
    exact fun e he => (hes e he).2
  · intro h
    exact ⟨m.entries, List.forall₂_same.mpr fun e he => ⟨rfl, h e he⟩, m.ofList_entries⟩

@[simp] theorem decode_map_iff {m : SortedMap String α} :
    decode .plain (encode m) = some m ↔ ∀ x ∈ m.values, decode .plain (encode x) = some x := by
  rw [← decode_entries_iff id id fun _ => rfl]
  rfl

end

/-! ### structures -/

/-- fields with different names, all known, are taken as they are -/
theorem fields?_object {known : List String} {ms : List (String × Document)} (dialect : Dialect)
    (hkeys : (ms.map (·.1)).Sublist known) (hknown : known.Nodup) :
    (Document.object ms).fields? dialect known false = some ms := by
  have hnamed : ms.filter (known.contains ·.1) = ms := by
    refine List.filter_eq_self.mpr fun e he => List.contains_iff_mem.mpr ?_
    exact hkeys.subset (List.mem_map_of_mem he)
  have hnodup : (ms.map (·.1)).Nodup := hkeys.nodup hknown
  unfold Document.fields? Document.members?
  dsimp only [Option.bind_eq_bind, Option.bind_some]
  rw [hnamed, eraseDups_eq_firstPer, firstPer_eq_self _ (by simpa using hnodup)]
  simp

/-- a structure is read back iff its fields give it again -/
theorem decode_record_iff {α : Type} [Encode α] [Decode α] {x : α} (known : List String)
    {ms : List (String × Document)} {read : List (String × Document) → Option α}
    (hwritten : encode x = .object ms)
    (hread : ∀ d, decode .plain d = (d.fields? .plain known false).bind read)
    (hkeys : (ms.map (·.1)).Sublist known) (hknown : known.Nodup) :
    decode .plain (encode x) = some x ↔ read ms = some x := by
  rw [hwritten, hread, fields?_object .plain hkeys hknown, Option.bind_some]

end DegreeProgress
