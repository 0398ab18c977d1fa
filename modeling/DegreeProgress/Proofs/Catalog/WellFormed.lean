import DegreeProgress.Proofs.Catalog.Listings
import DegreeProgress.Proofs.FirstFault
import Mathlib.Algebra.Order.Field.Power
import Mathlib.Data.Rat.Cast.Order
import Mathlib.Tactic.MkIffOfInductiveProp
import Mathlib.Tactic.Positivity

/-!
# Well-formed catalogs

Which declared catalogs compile, and which error the others end with.  Requirements are listed in
the order of the catalog, options in the order of their requirement and slots in the order of their
columns; the first that is not well formed, or that repeats an id or a name, is at fault.

* `Declared.Slots.WellFormed`, `Declared.Slots.Fault`     the slots of a requirement or option,
* `Declared.Requirement.WellFormed`, `.Fault`             requirements and their options,
* `Declared.Catalog.WellFormed`, `.Fault`                 catalogs;
* `Catalog.decides_compileSlots` and so on                compiling decides which it is,
* `Catalog.compile_eq_ok_iff_and_eq_error_iff`            for whole catalogs too.
-/

namespace DegreeProgress

open Catalog (requirementId universityCode)

namespace Declared

/-! ### slots -/

/-- a minimum count that courses can reach: a finite number that is not negative -/
def MinimumFine (minCount : Float) : Prop := isFinite minCount = true ∧ 0 ≤ exactValue minCount

/-- one slot, across the columns -/
structure Row where
  checker : CheckerSource
  minCount : Float
  name : String

@[mk_iff]
structure Row.WellFormed (r : Row) : Prop where
  minimum : MinimumFine r.minCount
  compiles : ∃ checker, Checker.compile r.checker = .ok checker

/-- the minimum of a slot is looked at before its checker -/
@[mk_iff]
inductive Row.Fault (place : CatalogPlace) (r : Row) : CatalogError → Prop where
  | minimum (h : ¬MinimumFine r.minCount) : Fault place r (.invalidMinCount place r.name)
  | checker (h : MinimumFine r.minCount) {e} (he : Checker.compile r.checker = .error e) :
    Fault place r (.checker place r.name e)

def rowsOf : List CheckerSource → List Float → List String → List Row
  | checker :: checkers, minCount :: minCounts, name :: names =>
    ⟨checker, minCount, name⟩ :: rowsOf checkers minCounts names
  | _, _, _ => []

namespace Slots

def rows (d : Slots) : List Row := rowsOf d.checkers d.minCounts d.names

/-- the columns are equally long -/
@[mk_iff]
structure SameLengths (d : Slots) : Prop where
  minCounts : d.minCounts.length = d.checkers.length
  names : d.names.length = d.checkers.length

/-- not less than one and not more than all slots are asked for -/
def MinSlotsFine (d : Slots) : Prop :=
  ∀ min, d.minSlots = some min → 1 ≤ min ∧ min ≤ d.checkers.length

@[mk_iff]
structure WellFormed (d : Slots) : Prop where
  sameLengths : d.SameLengths
  ne_nil : d.checkers ≠ []
  minSlots : d.MinSlotsFine
  minimums : ∀ minCount ∈ d.minCounts, MinimumFine minCount
  compile : ∀ source ∈ d.checkers, ∃ checker, Checker.compile source = .ok checker

@[mk_iff]
inductive Fault (place : CatalogPlace) (d : Slots) : CatalogError → Prop where
  | arity (h : ¬d.SameLengths) :
    Fault place d (.slotArity place d.checkers.length d.minCounts.length d.names.length)
  | noSlots (hlengths : d.SameLengths) (h : d.checkers = []) : Fault place d (.noSlots place)
  | minSlots (hlengths : d.SameLengths) (hne : d.checkers ≠ []) {min}
    (hmin : d.minSlots = some min) (h : ¬d.MinSlotsFine) :
    Fault place d (.invalidMinSlots place min d.checkers.length)
  | slot (hlengths : d.SameLengths) (hne : d.checkers ≠ []) (hmin : d.MinSlotsFine) {e}
    (h : FirstFault (fun _ r => r.WellFormed) (fun _ r => r.Fault place) [] d.rows e) :
    Fault place d e

end Slots

/-! ### requirements -/

/-- no option before it has its name, and its slots are well formed -/
def Choice.FineAfter (before : List Choice) (d : Choice) : Prop :=
  d.name ∉ before.map (·.name) ∧ d.slots.WellFormed

@[mk_iff]
inductive Choice.Fault (id : RequirementId) (before : List Choice) (d : Choice) :
    CatalogError → Prop where
  | name (h : d.name ∈ before.map (·.name)) : Fault id before d (.duplicateOption ⟨id, none⟩ d.name)
  | slots (hnew : d.name ∉ before.map (·.name)) {e} (h : d.slots.Fault ⟨id, some d.name⟩ e) :
    Fault id before d e

namespace Requirement

def WellFormed (d : Requirement) : Prop :=
  match d.fulfilledBy with
  | .selfCheck => True
  | .courses | .credits => d.slots.WellFormed
  | .toggleable => d.choices ≠ [] ∧ (d.choices.map (·.name)).Nodup ∧
      ∀ choice ∈ d.choices, choice.slots.WellFormed

@[mk_iff]
inductive Fault (id : RequirementId) (d : Requirement) : CatalogError → Prop where
  | slots (hby : d.fulfilledBy = .courses ∨ d.fulfilledBy = .credits) {e}
    (h : d.slots.Fault ⟨id, none⟩ e) : Fault id d e
  | noOptions (hby : d.fulfilledBy = .toggleable) (h : d.choices = []) :
    Fault id d (.noOptions ⟨id, none⟩)
  | option (hby : d.fulfilledBy = .toggleable) {e}
    (h : FirstFault Choice.FineAfter (Choice.Fault id) [] d.choices e) : Fault id d e

end Requirement

/-! ### catalogs -/

namespace Listing

/-- no requirement before it has its id, and it is well formed -/
def FineAfter (before : List Listing) (l : Listing) : Prop :=
  l.id ∉ before.map id ∧ l.requirement.WellFormed

@[mk_iff]
inductive Fault (before : List Listing) (l : Listing) : CatalogError → Prop where
  | id (h : l.id ∈ before.map id) : Fault before l (.duplicateRequirement l.id)
  | requirement (hnew : l.id ∉ before.map Listing.id) {e} (h : l.requirement.Fault l.id e) :
    Fault before l e

end Listing

namespace Catalog

@[mk_iff]
structure WellFormed (d : Catalog) : Prop where
  nodup_ids : (d.listings.map (·.id)).Nodup
  requirements : ∀ l ∈ d.listings, l.requirement.WellFormed

/-- the first requirement that is at fault, after well-formed ones with other ids -/
def Fault (d : Catalog) : CatalogError → Prop :=
  FirstFault Listing.FineAfter Listing.Fault [] d.listings

end Catalog

end Declared

namespace Catalog

open Declared (MinimumFine Row rowsOf Listing listingsOf programListings)

/-! ### slots are compiled -/

theorem isFiniteNonneg_iff (x : Float) : isFiniteNonneg x = true ↔ MinimumFine x := by
  unfold isFiniteNonneg MinimumFine isFinite exactValue
  cases unpack x with
  | nan => simp
  | infinite negative => simp
  | finite negative m q narrow =>
    have hpow : (0 : Rat) < 2 ^ q := zpow_pos (by norm_num) q
    cases negative with
    | false =>
      have hnonneg : (0 : Rat) ≤ 1 * m * 2 ^ q := by positivity
      simpa using hnonneg
    | true =>
      have hzero : (0 : Rat) ≤ -1 * m * 2 ^ q ↔ m = 0 := by
        rw [mul_nonneg_iff_of_pos_right hpow, neg_one_mul, neg_nonneg, Nat.cast_nonpos]
      simpa using hzero.symm

theorem decides_compileSlot (place : CatalogPlace) (source : CheckerSource) (minCount : Float)
    (name : String) :
    Decides (compileSlot place source minCount name) (Row.WellFormed ⟨source, minCount, name⟩)
      (Row.Fault place ⟨source, minCount, name⟩) := by
  have hmin : (!isFiniteNonneg minCount) = true ↔ ¬MinimumFine minCount := by
    simp [← isFiniteNonneg_iff]
  unfold compileSlot
  refine (Decides.guard (p := ∃ checker, Checker.compile source = .ok checker)
    (q := fun e => ∃ e', Checker.compile source = .error e' ∧ e = .checker place name e')
    rfl fun _ => ?_).congr ?_ fun e => ?_
  · cases Checker.compile source with
    | ok checker => exact (Decides.ok _).congr (by simp) (by simp)
    | error e => exact (Decides.error _).congr (by simp) (by simp)
  · rw [Row.wellFormed_iff, hmin, not_not]
  · rw [Row.fault_iff, hmin, not_not]

theorem decides_compileSlotList (place : CatalogPlace) (pre : List Row)
    (sources : List CheckerSource) (minCounts : List Float) (names : List String) :
    Decides (compileSlotList place sources minCounts names)
      (AllFine (fun _ r => r.WellFormed) pre (rowsOf sources minCounts names))
      (FirstFault (fun _ r => r.WellFormed) (fun _ r => r.Fault place) pre
        (rowsOf sources minCounts names)) := by
  induction sources generalizing pre minCounts names with
  | nil => exact .nil []
  | cons source sources ih =>
    cases minCounts with
    | nil => exact .nil []
    | cons minCount minCounts =>
      cases names with
      | nil => exact .nil []
      | cons name names =>
        refine Decides.cons (decides_compileSlot place source minCount name) fun slot _ => ?_
        exact (ih _ minCounts names).map (slot :: ·)

theorem map_rowsOf {sources : List CheckerSource} {minCounts : List Float} {names : List String}
    (hminCounts : minCounts.length = sources.length) (hnames : names.length = sources.length) :
    (rowsOf sources minCounts names).map (·.checker) = sources ∧
      (rowsOf sources minCounts names).map (·.minCount) = minCounts := by
  induction sources generalizing minCounts names with
  | nil =>
    rw [List.length_eq_zero_iff.mp hminCounts]
    exact ⟨rfl, rfl⟩
  | cons source sources ih =>
    obtain ⟨minCount, minCounts, rfl⟩ := List.exists_cons_of_length_eq_add_one hminCounts
    obtain ⟨name, names, rfl⟩ := List.exists_cons_of_length_eq_add_one hnames
    simp only [List.length_cons, Nat.add_right_cancel_iff] at hminCounts hnames
    obtain ⟨hsources, hmins⟩ := ih hminCounts hnames
    rw [rowsOf, List.map_cons, List.map_cons, hsources, hmins]
    exact ⟨rfl, rfl⟩

theorem map_rows {d : Declared.Slots} (h : d.SameLengths) :
    d.rows.map (·.checker) = d.checkers ∧ d.rows.map (·.minCount) = d.minCounts :=
  map_rowsOf h.minCounts h.names

theorem forall_mem_rows {d : Declared.Slots} (h : d.SameLengths) :
    (∀ r ∈ d.rows, r.WellFormed) ↔
      (∀ minCount ∈ d.minCounts, MinimumFine minCount) ∧
        ∀ source ∈ d.checkers, ∃ checker, Checker.compile source = .ok checker := by
  obtain ⟨hsources, hmins⟩ := map_rows h
  rw [← hsources, ← hmins, List.forall_mem_map, List.forall_mem_map]
  simp only [Row.wellFormed_iff, forall_and]

theorem minSlotsFine_iff {d : Declared.Slots} {min : Nat} (h : d.minSlots = some min) :
    d.MinSlotsFine ↔ ¬(min = 0 ∨ d.checkers.length < min) := by
  unfold Declared.Slots.MinSlotsFine
  rw [h]
  simp only [Option.some.injEq, forall_eq']
  omega

theorem decides_compileSlots (place : CatalogPlace) (counting : Counting) (d : Declared.Slots) :
    Decides (compileSlots place counting d) d.WellFormed (d.Fault place) := by
  have hrows : Decides _ (∀ r ∈ d.rows, r.WellFormed)
      (FirstFault (fun _ r => r.WellFormed) (fun _ r => r.Fault place) [] d.rows) :=
    ((decides_compileSlotList place [] d.checkers d.minCounts d.names).map fun slots =>
      (⟨counting, d.progress, slots, d.minSlots⟩ : SlotGroup)).congr allFine_const fun _ => Iff.rfl
  have harity : d.minCounts.length ≠ d.checkers.length ∨ d.names.length ≠ d.checkers.length ↔
      ¬d.SameLengths := by
    rw [Declared.Slots.sameLengths_iff]
    tauto
  unfold compileSlots
  -- the lengths and the number of slots first, then what is asked of them, then row by row
  refine (Decides.guard rfl fun _ => Decides.guard
    (p := d.MinSlotsFine ∧ ∀ r ∈ d.rows, r.WellFormed)
    (q := fun e => (∃ min, d.minSlots = some min ∧ ¬d.MinSlotsFine ∧
        e = .invalidMinSlots place min d.checkers.length) ∨
      d.MinSlotsFine ∧ FirstFault (fun _ r => r.WellFormed) (fun _ r => r.Fault place) [] d.rows e)
    rfl fun _ => ?_).congr ?_ fun e => ?_
  · split
    · rename_i min hmin
      have hfine := minSlotsFine_iff hmin
      refine (Decides.guard rfl fun _ => hrows).congr ?_ fun e => ?_
      · rw [hfine]
      · simp only [hfine, hmin, not_not, Option.some.injEq, exists_eq_left']
    · rename_i hnone
      have hfine : d.MinSlotsFine := fun min hmin => absurd hmin (hnone min)
      refine hrows.congr (and_iff_right hfine).symm fun e => ?_
      rw [and_iff_right hfine, or_iff_right fun ⟨min, hmin, _⟩ => hnone min hmin]
  · rw [harity, not_not, List.length_eq_zero_iff, Declared.Slots.wellFormed_iff]
    refine and_congr_right fun hlengths => and_congr_right fun _ => and_congr_right fun _ => ?_
    exact forall_mem_rows hlengths
  · rw [harity, not_not, List.length_eq_zero_iff, Declared.Slots.fault_iff]
    simp only [and_or_left, ne_eq]

/-! ### requirements are compiled -/

theorem decides_compileChoices (id : RequirementId) (pre : List Declared.Choice)
    (seen : List String) (hseen : ∀ name, name ∈ seen ↔ name ∈ pre.map (·.name))
    (ds : List Declared.Choice) :
    Decides (compileChoices id seen ds) (AllFine Declared.Choice.FineAfter pre ds)
      (FirstFault Declared.Choice.FineAfter (Declared.Choice.Fault id) pre ds) := by
  induction ds generalizing pre seen with
  | nil => exact .nil []
  | cons d ds ih =>
    have hseen' : ∀ name, name ∈ d.name :: seen ↔ name ∈ (pre ++ [d]).map (·.name) := by
      intro name
      rw [List.mem_cons, hseen, List.map_append, List.mem_append, List.map_singleton,
        List.mem_singleton, or_comm]
    have hgroup := decides_compileSlots ⟨id, some d.name⟩ d.counting d.slots
    have hrest := fun group => (ih _ _ hseen').map fun choices =>
      (⟨d.name, d.description, group⟩ : Choice) :: choices
    rw [compileChoices]
    refine (Decides.guard rfl fun _ => hgroup.bind fun group _ => hrest group).congr ?_ fun e => ?_
    · rw [allFine_cons, hseen, Declared.Choice.FineAfter, and_assoc]
    · rw [firstFault_cons, hseen, Declared.Choice.fault_iff, Declared.Choice.FineAfter, and_or_left,
        or_assoc, and_assoc]

theorem decides_compileFulfillment (id : RequirementId) (d : Declared.Requirement) :
    Decides (compileFulfillment id d) d.WellFormed (d.Fault id) := by
  unfold compileFulfillment Declared.Requirement.WellFormed
  cases hby : d.fulfilledBy with
  | selfCheck =>
    refine (Decides.ok _).congr Iff.rfl fun e => ?_
    simp [Declared.Requirement.fault_iff, hby]
  | courses =>
    refine ((decides_compileSlots ⟨id, none⟩ .courses d.slots).map _).congr Iff.rfl fun e => ?_
    simp [Declared.Requirement.fault_iff, hby]
  | credits =>
    refine ((decides_compileSlots ⟨id, none⟩ .credits d.slots).map _).congr Iff.rfl fun e => ?_
    simp [Declared.Requirement.fault_iff, hby]
  | toggleable =>
    have hoptions := (decides_compileChoices id [] [] (fun _ => Iff.rfl) d.choices).map
      Fulfillment.options
    refine (Decides.guard rfl fun _ => hoptions).congr ?_ fun e => ?_
    · rw [List.isEmpty_iff, ← ne_eq]
      exact and_congr_right fun _ => allFine_distinct
    · have hfault : d.Fault id e ↔ d.choices = [] ∧ e = .noOptions ⟨id, none⟩ ∨
          FirstFault Declared.Choice.FineAfter (Declared.Choice.Fault id) [] d.choices e := by
        simp [Declared.Requirement.fault_iff, hby]
      rw [hfault, List.isEmpty_iff]
      refine or_congr_right (and_iff_right_of_imp fun hoption hnil => ?_)
      rw [hnil] at hoption
      exact not_firstFault_nil hoption

theorem decides_compileRequirement (kind : ProgramKind) (code : String)
    (d : Declared.Requirement) :
    Decides (compileRequirement kind code d) d.WellFormed
      (d.Fault (requirementId kind code d.name)) :=
  (decides_compileFulfillment (requirementId kind code d.name) d).map _

/-! ### catalogs are compiled -/

/-- `seen` are the ids of the listings -/
def IdsOf (pre : List Listing) (seen : SortedSet RequirementId) : Prop :=
  ∀ id, id ∈ seen ↔ id ∈ pre.map (·.id)

section
variable {kind : ProgramKind} {code : String} {pre : List Listing}
  {seen seen' : SortedSet RequirementId}

theorem IdsOf.insert (h : IdsOf pre seen) (l : Listing) :
    IdsOf (pre ++ [l]) (seen.insert l.id) := by
  intro id
  rw [SortedSet.mem_insert, h, List.map_append, List.mem_append, List.map_singleton,
    List.mem_singleton, or_comm]

theorem IdsOf.append (h : IdsOf pre seen) {ls : List Listing} {rs : List Requirement}
    (hadds : Adds seen (rs.map (·.id)) seen') (hls : List.Forall₂ Listing.CompilesTo ls rs) :
    IdsOf (pre ++ ls) seen' := by
  intro id
  rw [hadds.mem, h, Listing.ids_of_forall₂ hls, List.map_append, List.mem_append]

theorem IdsOf.requirements (h : IdsOf pre seen) {ds : List Declared.Requirement}
    {rs : List Requirement} (hok : compileRequirements kind code seen ds = .ok (rs, seen')) :
    IdsOf (pre ++ listingsOf kind code ds) seen' :=
  h.append (compileRequirements_adds hok).1 (compileRequirements_forall₂ hok)

theorem IdsOf.programs (h : IdsOf pre seen) {ds : List (String × Declared.Program)}
    {programs : List (String × Program)}
    (hok : compilePrograms kind seen ds = .ok (programs, seen')) :
    IdsOf (pre ++ programListings kind ds) seen' := by
  have hadds := (compilePrograms_adds hok).1
  rw [← List.map_flatMap] at hadds
  exact h.append hadds (compilePrograms_forall₂ hok)

theorem decides_compileRequirements (h : IdsOf pre seen) (ds : List Declared.Requirement) :
    Decides (compileRequirements kind code seen ds)
      (AllFine Listing.FineAfter pre (listingsOf kind code ds))
      (FirstFault Listing.FineAfter Listing.Fault pre (listingsOf kind code ds)) := by
  induction ds generalizing pre seen with
  | nil => exact .nil _
  | cons d ds ih =>
    have hrequirement := decides_compileRequirement kind code d
    have hrest := fun r => (ih (h.insert ⟨kind, code, d⟩)).map
      fun rest : List Requirement × SortedSet RequirementId => (r :: rest.1, rest.2)
    rw [compileRequirements]
    refine (Decides.guard rfl fun _ => hrequirement.bind fun r _ => hrest r).congr ?_ fun e => ?_
    · rw [h, Declared.listingsOf_cons, allFine_cons, Listing.FineAfter, and_assoc]
      rfl
    · rw [h, Declared.listingsOf_cons, firstFault_cons, Listing.fault_iff, Listing.FineAfter,
        and_or_left, or_assoc, and_assoc]
      rfl

theorem decides_compilePrograms (h : IdsOf pre seen) (ds : List (String × Declared.Program)) :
    Decides (compilePrograms kind seen ds)
      (AllFine Listing.FineAfter pre (programListings kind ds))
      (FirstFault Listing.FineAfter Listing.Fault pre (programListings kind ds)) := by
  induction ds generalizing pre seen with
  | nil => exact .nil _
  | cons d ds ih =>
    obtain ⟨code, d⟩ := d
    rw [compilePrograms]
    refine (decides_compileRequirements h d.requirements).append fun first hrs => ?_
    obtain ⟨rs, seen₁⟩ := first
    exact (ih (h.requirements hrs)).map
      fun rest : List (String × Program) × SortedSet RequirementId =>
        ((code, (⟨code, d.name, d.schools, rs⟩ : Program)) :: rest.1, rest.2)

end

theorem decides_compile (d : Declared.Catalog) : Decides (compile d) d.WellFormed d.Fault := by
  have hnone : IdsOf [] {} := fun id => iff_of_false (SortedSet.not_mem_empty id) List.not_mem_nil
  unfold compile
  refine Decides.congr (p := AllFine Listing.FineAfter [] d.listings) (q := d.Fault) ?_ ?_
    fun _ => Iff.rfl
  · refine (decides_compileRequirements hnone d.university).append fun first h₁ => ?_
    obtain ⟨university, seen₁⟩ := first
    have hids₁ := hnone.requirements h₁
    refine (decides_compilePrograms hids₁ d.colleges.entries).append fun second h₂ => ?_
    obtain ⟨colleges, seen₂⟩ := second
    have hids₂ := hids₁.programs h₂
    refine (decides_compilePrograms hids₂ d.majors.entries).append fun third h₃ => ?_
    obtain ⟨majors, seen₃⟩ := third
    have hids₃ := hids₂.programs h₃
    refine (decides_compilePrograms hids₃ d.minors.entries).append fun fourth h₄ => ?_
    obtain ⟨minors, seen₄⟩ := fourth
    have hids₄ := hids₃.programs h₄
    exact (decides_compilePrograms hids₄ d.grad.entries).map fun grad =>
      (⟨university, .ofList colleges, .ofList majors, .ofList minors, .ofList grad.1⟩ : Catalog)
  · rw [Declared.Catalog.wellFormed_iff]
    exact allFine_distinct

/-- **Exactly the well-formed catalogs compile, and the others end with their first fault.** -/
theorem compile_eq_ok_iff_and_eq_error_iff (d : Declared.Catalog) :
    ((∃ c, compile d = .ok c) ↔ d.WellFormed) ∧ ∀ e, compile d = .error e ↔ d.Fault e :=
  ⟨(decides_compile d).ok_iff, (decides_compile d).error_iff⟩

end Catalog

end DegreeProgress
