import DegreeProgress.Data.Catalog
import DegreeProgress.Data.Report
import DegreeProgress.Data.Student
import DegreeProgress.Proofs.Catalog.Listings
import DegreeProgress.Proofs.Data.Rules
import DegreeProgress.Proofs.Student.Exams
import Mathlib.Tactic.MkIffOfInductiveProp

/-!
# Data files that are read back

Catalogs, exam tables, students and reports are read again from the documents that are written for
them.  What a document cannot hold is a number that is not finite, a count of more than 64 bits, and
an empty list of course ids, which looks like an empty list of codes; everything else is restored.

* `CheckerSource.decode_checker_iff`      the forms of a checker, and
* `PlanEntry.decode_entry_iff`            the forms of a plan entry, are told apart;
* `Declared.Requirement.decode_requirement_iff`, `Semester.decode_semester_iff`,
  `ReportEntry.decode_reportEntry_iff`    the parts of the files;
* `decode_files_iff`                      the files.
-/

namespace DegreeProgress

/-! ### identities -/

@[simp] theorem decode_requirementId (id : RequirementId) : decode .plain (encode id) = some id :=
  rfl

@[simp] theorem decode_uniqueId (id : UniqueId) : decode .plain (encode id) = some id := by
  cases id with
  | numeric n =>
    show (decode .plain (encode n)).map UniqueId.numeric = some (.numeric n)
    rw [decode_uint64, Option.map_some]
  | named s => rfl

@[simp] theorem decode_byRequirement_iff {α : Type} [Encode α] [Decode α]
    {m : SortedMap RequirementId α} :
    decode .plain (encode m) = some m ↔ ∀ x ∈ m.values, decode .plain (encode x) = some x := by
  rw [← decode_entries_iff RequirementId.text RequirementId.mk fun _ => rfl]
  rfl

/-! ### names -/

@[simp] theorem decode_counting (x : Counting) : decode .plain (encode x) = some x :=
  decode_name (by cases x <;> decide) (by decide)

@[simp] theorem decode_progress (x : Progress) : decode .plain (encode x) = some x :=
  decode_name (by cases x <;> decide) (by decide)

@[simp] theorem decode_fulfilledBy (x : Declared.FulfilledBy) :
    decode .plain (encode x) = some x :=
  decode_name (by cases x <;> decide) (by decide)

@[simp] theorem decode_examProgram (x : ExamProgram) : decode .plain (encode x) = some x :=
  decode_name (by cases x <;> decide) (by decide)

@[simp] theorem decode_season (x : Season) : decode .plain (encode x) = some x :=
  decode_name (by cases x <;> decide) (by decide)

@[simp] theorem decode_programKind (x : ProgramKind) : decode .plain (encode x) = some x :=
  decode_name (by cases x <;> decide) (by decide)

@[simp] theorem decode_countedBy (x : CountedBy) : decode .plain (encode x) = some x :=
  decode_name (by cases x <;> decide) (by decide)

/-! ### catalogs -/

theorem Document.isSound_list {ds : List Document} (h : ∀ d ∈ ds, d.isSound = true) :
    (Document.list ds).isSound = true := by
  show Document.allSound ds = true
  induction ds with
  | nil => rfl
  | cons d ds ih =>
    obtain ⟨hd, hds⟩ := List.forall_mem_cons.mp h
    rw [Document.allSound, hd, ih hds]
    rfl

namespace CheckerSource

/-- a list is read as one of texts, and where that fails as one of course ids -/
theorem decode_listed {ds : List Document} (h : ∀ d ∈ ds, d.isSound = true) :
    (decode .plain (.list ds) : Option CheckerSource) =
      ((decode .plain (.list ds)).map codes).or ((decode .plain (.list ds)).map courseIds) := by
  show (if !(Document.list ds).isSound then none else _) = _
  rw [Document.isSound_list h]
  rfl

/-- each form of a checker is read as that form, but for the empty list of course ids -/
@[simp] theorem decode_checker_iff {c : CheckerSource} :
    decode .plain (encode c) = some c ↔ c ≠ courseIds [] := by
  cases c with
  | expression text => exact iff_of_true rfl (by simp)
  | codes patterns =>
    have hread : decode .plain (encode patterns) = some patterns := decode_list decode_text
    refine iff_of_true ?_ (by simp)
    show decode .plain (Document.list (patterns.map encode)) = _
    rw [decode_listed (List.forall_mem_map.mpr fun _ _ => rfl)]
    show ((decode .plain (encode patterns)).map codes).or _ = _
    rw [hread, Option.map_some, Option.some_or]
  | courseIds ids =>
    have hread : decode .plain (encode ids) = some ids := decode_list decode_courseId
    show decode .plain (Document.list (ids.map encode)) = _ ↔ _
    rw [decode_listed (List.forall_mem_map.mpr fun _ _ => rfl)]
    show ((decode .plain (encode ids)).map codes).or
      ((decode .plain (encode ids)).map courseIds) = _ ↔ _
    rw [hread]
    cases ids with
    | nil => exact iff_of_false (fun h => nomatch h) fun h => h rfl
    | cons id ids => exact iff_of_true rfl (by simp)

end CheckerSource

namespace Declared

namespace Slots

/-- what a document can hold of slots -/
@[mk_iff]
structure Storable (s : Slots) : Prop where
  /-- there is no empty list of course ids -/
  checkers : ∀ c ∈ s.checkers, c ≠ .courseIds []
  minCounts : ∀ x ∈ s.minCounts, isFinite x = true
  /-- the number of slots fits into 64 bits -/
  minSlots : ∀ n ∈ s.minSlots, n < UInt64.size

theorem minSlots?_iff {fs : List (String × Document)} {n : Option Nat}
    (h : fs.lookup "min_number_of_slots" = some (encode n)) :
    minSlots? .plain fs = some n ↔ ∀ m ∈ n, m < UInt64.size := by
  unfold minSlots? Document.optional
  rw [h]
  exact decode_optionCount_iff

end Slots

@[simp] theorem Choice.decode_choice_iff {c : Choice} :
    decode .plain (encode c) = some c ↔ c.slots.Storable := by
  rw [decode_record_iff fieldNames rfl (fun _ => rfl) (List.Sublist.refl _) (by decide)]
  obtain ⟨name, description, counting, ⟨checkers, minCounts, names, progress, minSlots⟩⟩ := c
  simp [Document.required, Document.optional, List.lookup_cons, Option.bind_eq_some_iff,
    Slots.members, Slots.minSlots?_iff, Slots.storable_iff]

/-- what a document can hold of a requirement -/
@[mk_iff]
structure Requirement.Storable (r : Requirement) : Prop where
  slots : r.slots.Storable
  choices : ∀ c ∈ r.choices, c.slots.Storable

@[simp] theorem Requirement.decode_requirement_iff {r : Requirement} :
    decode .plain (encode r) = some r ↔ r.Storable := by
  rw [decode_record_iff fieldNames rfl (fun _ => rfl) (List.Sublist.refl _) (by decide)]
  obtain ⟨name, description, source, fulfilledBy, ⟨checkers, minCounts, names, progress, minSlots⟩,
    choices, doubleCounting⟩ := r
  simp [Document.required, Document.optional, List.lookup_cons, Option.bind_eq_some_iff,
    Slots.members, Slots.minSlots?_iff, Requirement.storable_iff, Slots.storable_iff, and_assoc]

@[simp] theorem Program.decode_program_iff {p : Program} :
    decode .plain (encode p) = some p ↔ ∀ r ∈ p.requirements, r.Storable := by
  rw [decode_record_iff fieldNames rfl (fun _ => rfl) (List.Sublist.refl _) (by decide)]
  obtain ⟨name, schools, requirements⟩ := p
  simp [Document.required, Document.optional, List.lookup_cons, Option.bind_eq_some_iff]

theorem forall_mem_listingsOf {kind : ProgramKind} {code : String} {ds : List Requirement}
    {p : Requirement → Prop} :
    (∀ l ∈ listingsOf kind code ds, p l.requirement) ↔ ∀ d ∈ ds, p d := by
  unfold listingsOf
  rw [List.forall_mem_map]

theorem forall_mem_programListings {kind : ProgramKind} {m : SortedMap String Program}
    {p : Requirement → Prop} :
    (∀ l ∈ programListings kind m.entries, p l.requirement) ↔
      ∀ q ∈ m.values, ∀ r ∈ q.requirements, p r := by
  unfold programListings SortedMap.values
  rw [List.forall_mem_flatMap, List.forall_mem_map]
  exact forall₂_congr fun e _ => forall_mem_listingsOf

theorem Catalog.decode_catalog_iff {c : Catalog} :
    decode .plain (encode c) = some c ↔ ∀ l ∈ c.listings, l.requirement.Storable := by
  rw [decode_record_iff fieldNames rfl (fun _ => rfl) (List.Sublist.refl _) (by decide)]
  obtain ⟨university, colleges, majors, minors, grad⟩ := c
  simp only [listings, List.forall_mem_append, forall_mem_listingsOf, forall_mem_programListings]
  simp [Document.optional, List.lookup_cons, Option.bind_eq_some_iff]

end Declared

/-! ### exam tables -/

@[simp] theorem ExamRule.decode_examRule_iff {r : ExamRule} :
    decode .plain (encode r) = some r ↔ isFinite r.credits = true := by
  rw [decode_record_iff fieldNames rfl (fun _ => rfl) (List.Sublist.refl _) (by decide)]
  obtain ⟨name, minimumScore, credits, equivalents, excludedMajors⟩ := r
  simp [Document.required, Document.optional, List.lookup_cons, Option.bind_eq_some_iff]

theorem ExamTable.decode_examTable_iff {t : ExamTable} :
    decode .plain (encode t) = some t ↔ ∀ r ∈ t.ap ++ t.ib, isFinite r.credits = true := by
  rw [decode_record_iff fieldNames rfl (fun _ => rfl) (List.Sublist.refl _) (by decide),
    List.forall_mem_append]
  obtain ⟨ap, ib⟩ := t
  simp [Document.optional, List.lookup_cons, Option.bind_eq_some_iff]

/-! ### plans -/

theorem Document.isSound_float (x : Float) : (encode x).isSound = true := by
  by_cases h : isFinite x = true
  · rw [encode_of_isFinite h]
    rfl
  · rw [encode_of_not_isFinite h]
    rfl

@[simp] theorem PlannedCourse.decode_planned_iff {c : PlannedCourse} :
    decode .plain (encode c) = some c ↔ isFinite c.credits = true := by
  rw [decode_record_iff Course.fieldNames rfl (fun _ => rfl) (List.Sublist.refl _) (by decide)]
  obtain ⟨uniqueId, courseId, code, credits⟩ := c
  simp [Document.required, List.lookup_cons, Option.bind_eq_some_iff]

namespace PlanEntry

theorem decode_of_isSound {d : Document} (h : d.isSound = true) :
    (decode .plain d : Option PlanEntry) =
      ((decode .plain d).map course).or (placeholder? d) :=
  if_pos h

/-- no placeholder is read as a course, which has to have a course id -/
theorem decode_course_placeholder (uniqueId : UInt64) (name : String) :
    (decode .plain (encode (placeholder uniqueId name)) : Option PlannedCourse) = none := by
  show ((decode .plain (encode uniqueId) : Option UInt64).bind fun _ => none) = none
  rw [decode_uint64, Option.bind_some]

theorem placeholder?_placeholder (uniqueId : UInt64) (name : String) :
    placeholder? (encode (placeholder uniqueId name)) = some (placeholder uniqueId name) := by
  show ((decode .plain (encode uniqueId) : Option UInt64).bind fun id =>
    (some name).bind fun name => some (placeholder id name)) = _
  rw [decode_uint64, Option.bind_some, Option.bind_some]

/-- no course is read as a placeholder, which has to have a name -/
theorem placeholder?_course (c : PlannedCourse) : placeholder? (encode c) = none := by
  show ((decode .plain (encode c.uniqueId) : Option UInt64).bind fun _ => none) = none
  rw [decode_uint64, Option.bind_some]

theorem isSound_course (c : PlannedCourse) : (encode c).isSound = true := by
  show ((encode c.credits).isSound && true) = true
  rw [Document.isSound_float, Bool.true_and]

@[simp] theorem decode_entry_iff {e : PlanEntry} :
    decode .plain (encode e) = some e ↔ ∀ c ∈ e.taken?, isFinite c.credits = true := by
  cases e with
  | course c =>
    have hread : (decode .plain (encode (course c)) : Option PlanEntry) =
        (decode .plain (encode c)).map course := by
      show decode .plain (encode c) = _
      rw [decode_of_isSound (isSound_course c), placeholder?_course, Option.or_none]
    rw [hread, Option.map_eq_some_iff]
    simp [taken?]
  | placeholder uniqueId name =>
    refine iff_of_true ?_ (by simp [taken?])
    rw [decode_of_isSound rfl, decode_course_placeholder, Option.map_none, Option.none_or,
      placeholder?_placeholder]

end PlanEntry

@[simp] theorem Semester.decode_semester_iff {s : Semester} :
    decode .plain (encode s) = some s ↔
      ∀ e ∈ s.entries, ∀ c ∈ e.taken?, isFinite c.credits = true := by
  rw [decode_record_iff fieldNames rfl (fun _ => rfl) (List.Sublist.refl _) (by decide)]
  obtain ⟨year, season, entries⟩ := s
  simp [Document.required, Document.optional, List.lookup_cons, Option.bind_eq_some_iff]

/-! ### students -/

@[simp] theorem ExamRecord.decode_examRecord (e : ExamRecord) :
    decode .plain (encode e) = some e := by
  rw [decode_record_iff fieldNames rfl (fun _ => rfl) (List.Sublist.refl _) (by decide)]
  simp [Document.required, List.lookup_cons]

@[simp] theorem Profile.decode_profile (p : Profile) : decode .plain (encode p) = some p := by
  rw [decode_record_iff fieldNames rfl (fun _ => rfl) (List.Sublist.refl _) (by decide)]
  simp [Document.optional, List.lookup_cons]

@[simp] theorem SlotOverride.decode_override (o : SlotOverride) :
    decode .plain (encode o) = some o := by
  rw [decode_record_iff fieldNames rfl (fun _ => rfl) (List.Sublist.refl _) (by decide)]
  simp [Document.optional, List.lookup_cons]

theorem Student.decode_student_iff {s : Student} :
    decode .plain (encode s) = some s ↔ ∀ c ∈ s.planned, isFinite c.credits = true := by
  rw [decode_record_iff fieldNames rfl (fun _ => rfl) (List.Sublist.refl _) (by decide)]
  have hplanned : (∀ c ∈ s.planned, isFinite c.credits = true) ↔
      ∀ t ∈ s.semesters, ∀ e ∈ t.entries, ∀ c ∈ e.taken?, isFinite c.credits = true := by
    unfold planned
    rw [List.forall_mem_filterMap, List.forall_mem_flatMap]
    rfl
  obtain ⟨semesters, profile, choices, overrides⟩ := s
  rw [hplanned]
  simp [Document.optional, List.lookup_cons, Option.bind_eq_some_iff]

/-! ### reports -/

@[simp] theorem Course.decode_course_iff {c : Course} :
    decode .plain (encode c) = some c ↔ isFinite c.credits = true := by
  rw [decode_record_iff fieldNames rfl (fun _ => rfl) (List.Sublist.refl _) (by decide)]
  obtain ⟨uniqueId, courseId, code, credits⟩ := c
  simp [Document.required, List.lookup_cons, Option.bind_eq_some_iff]

/-- what a document can hold of statistics -/
@[mk_iff]
structure Statistics.Storable (s : Statistics Float) : Prop where
  fulfilled : isFinite s.fulfilled = true
  required : isFinite s.required = true
  perSlot : ∀ cs ∈ s.perSlot, ∀ c ∈ cs, isFinite c.credits = true
  /-- the number of slots fits into 64 bits -/
  slotsSatisfied : s.slotsSatisfied < UInt64.size

@[simp] theorem Statistics.decode_statistics_iff {s : Statistics Float} :
    decode .plain (encode s) = some s ↔ s.Storable := by
  rw [decode_record_iff fieldNames rfl (fun _ => rfl) (List.Sublist.refl _) (by decide),
    storable_iff]
  obtain ⟨countedBy, fulfilled, required, perSlot, slotsSatisfied, isFulfilled⟩ := s
  by_cases h : slotsSatisfied < UInt64.size
  · obtain ⟨m, hm, rfl⟩ := exists_decode_count h
    simp only [Document.required, List.lookup_cons, String.reduceBEq, Option.bind_some, hm,
      Option.bind_eq_bind, Option.bind_eq_some_iff, Option.pure_def, Option.some_inj, mk.injEq]
    simp [h]
  · simp only [Document.required, List.lookup_cons, String.reduceBEq, Option.bind_some,
      decode_count_of_le (Nat.le_of_not_lt h), Option.bind_eq_bind, Option.bind_none]
    simp [h]

/-- what a document can hold of a summary -/
@[mk_iff]
structure Summary.Storable (s : Summary) : Prop where
  minCounts : ∀ x ∈ s.minCounts, isFinite x = true
  /-- the number of slots fits into 64 bits -/
  minSlots : ∀ n ∈ s.minSlots, n < UInt64.size

theorem encodeField_sublist {α : Type} [Encode α] (key : String) (x : Option α) :
    ((encodeField key x).map (·.1)).Sublist [key] := by
  cases x with
  | none => exact List.nil_sublist _
  | some x => exact List.Sublist.refl _

@[simp] theorem Summary.decode_summary_iff {s : Summary} :
    decode .plain (encode s) = some s ↔ s.Storable := by
  rw [decode_record_iff fieldNames rfl (fun _ => rfl) ?_ (by decide), storable_iff]
  · obtain ⟨id, name, description, source, programKind, programCode, countedBy, chosenOption,
      slotNames, minCounts, minSlots, doubleCounting⟩ := s
    have hsome (text : String) : (decode .plain (encode text) : Option (Option String)) =
        some (some text) := rfl
    have hcount (n : Nat) : (decode .plain (encode n) : Option (Option UInt64)) =
        (decode .plain (encode n)).map some := rfl
    cases minSlots with
    | none =>
      cases chosenOption <;>
        simp [Document.required, Document.optional, List.lookup_cons, encodeField, hsome,
          Option.bind_eq_some_iff]
    | some n =>
      by_cases h : n < UInt64.size
      · obtain ⟨m, hm, rfl⟩ := exists_decode_count h
        cases chosenOption <;>
          simp [Document.required, Document.optional, List.lookup_cons, encodeField, hsome, hcount,
            hm, h, Option.bind_eq_some_iff]
      · cases chosenOption <;>
          simp [Document.required, Document.optional, List.lookup_cons, encodeField, hsome, hcount,
            decode_count_of_le (Nat.le_of_not_lt h), h]
  · simp only [List.map_append]
    exact ((((List.Sublist.refl _).append (encodeField_sublist _ _)).append
      (List.Sublist.refl _)).append (encodeField_sublist _ _)).append (List.Sublist.refl _)

/-- what a document can hold of an entry of a report -/
@[mk_iff]
structure ReportEntry.Storable (e : ReportEntry Float) : Prop where
  requirement : e.requirement.Storable
  safe : e.fulfillment.safe.Storable
  dangerous : e.fulfillment.dangerous.Storable

theorem Bounds.decode_bounds_iff {β : Type} [Encode β] [Decode β] {b : Bounds β} :
    decode .plain (encode b) = some b ↔
      decode .plain (encode b.safe) = some b.safe ∧
        decode .plain (encode b.dangerous) = some b.dangerous := by
  rw [decode_record_iff fieldNames rfl (fun _ => rfl) (List.Sublist.refl _) (by decide)]
  obtain ⟨safe, dangerous⟩ := b
  simp [Document.required, List.lookup_cons, Option.bind_eq_some_iff]

@[simp] theorem ReportEntry.decode_reportEntry_iff {e : ReportEntry Float} :
    decode .plain (encode e) = some e ↔ e.Storable := by
  rw [decode_record_iff fieldNames rfl (fun _ => rfl) (List.Sublist.refl _) (by decide),
    storable_iff]
  obtain ⟨requirement, fulfillment⟩ := e
  simp [Document.required, List.lookup_cons, Option.bind_eq_some_iff, Bounds.decode_bounds_iff]

@[simp] theorem ReportGroup.decode_reportGroup_iff {g : ReportGroup Float} :
    decode .plain (encode g) = some g ↔ ∀ e ∈ g.entries, e.Storable := by
  rw [decode_record_iff fieldNames rfl (fun _ => rfl) (List.Sublist.refl _) (by decide)]
  obtain ⟨kind, code, entries⟩ := g
  simp [Document.required, List.lookup_cons, Option.bind_eq_some_iff]

theorem Report.decode_report_iff {r : Report Float} :
    decode .plain (encode r) = some r ↔ ∀ e ∈ r.entries, e.Storable := by
  rw [decode_record_iff fieldNames rfl (fun _ => rfl) (List.Sublist.refl _) (by decide)]
  obtain ⟨groups, doubleCounted⟩ := r
  have hset : SortedSet.ofList doubleCounted.toList = doubleCounted :=
    SortedSet.eq_of_mem_iff (SortedSet.mem_ofList doubleCounted.toList)
  simp only [Document.required, List.lookup_cons, String.reduceBEq, Option.bind_some,
    Option.bind_eq_bind, Option.bind_eq_some_iff, Option.pure_def, Option.some_inj, mk.injEq,
    decode_list decode_uniqueId, hset, entries, List.forall_mem_flatMap]
  simp

/-! ### all files -/

/-- Each file is read back from what is written for it, up to what a document cannot hold:
`Storable` asks for finite numbers, for counts of 64 bits, which is the range of a count in a file,
and for no checker that is an empty list of course ids.  This is so although a checker, an entry of
a plan and an identity are read without a tag, by the first of their forms that fits. -/
theorem decode_files_iff :
    (∀ c : Declared.Catalog,
      decode .plain (encode c) = some c ↔ ∀ l ∈ c.listings, l.requirement.Storable) ∧
    (∀ t : ExamTable,
      decode .plain (encode t) = some t ↔ ∀ r ∈ t.ap ++ t.ib, isFinite r.credits = true) ∧
    (∀ s : Student,
      decode .plain (encode s) = some s ↔ ∀ c ∈ s.planned, isFinite c.credits = true) ∧
    (∀ r : Report Float, decode .plain (encode r) = some r ↔ ∀ e ∈ r.entries, e.Storable) ∧
    (∀ c : CheckerSource, decode .plain (encode c) = some c ↔ c ≠ .courseIds []) ∧
    (∀ e : PlanEntry,
      decode .plain (encode e) = some e ↔ ∀ c ∈ e.taken?, isFinite c.credits = true) ∧
    (∀ id : UniqueId, decode .plain (encode id) = some id) ∧
    ∀ s : Summary, decode .plain (encode s) = some s ↔ s.Storable :=
  ⟨fun _ => Declared.Catalog.decode_catalog_iff, fun _ => ExamTable.decode_examTable_iff,
    fun _ => Student.decode_student_iff, fun _ => Report.decode_report_iff,
    fun _ => CheckerSource.decode_checker_iff, fun _ => PlanEntry.decode_entry_iff,
    decode_uniqueId, fun _ => Summary.decode_summary_iff⟩

/-- the form of an empty list of course ids is that of an empty list of codes -/
example : decode .plain (encode (CheckerSource.courseIds [])) = some (CheckerSource.codes []) := rfl

end DegreeProgress
