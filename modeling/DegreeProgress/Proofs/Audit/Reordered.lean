import DegreeProgress.Proofs.Allocation.Reordered
import DegreeProgress.Proofs.Audit.CountedOnce
import DegreeProgress.Proofs.Student.Exams

/-!
# Plans in another order

The rows of a plan may come in any order.  The rows from exams come after them in an order of their
own, so two course lists are compared that differ in a first part only (`DifferInFront`).

* `sum_firstPer_append_perm`               first rows are worth the same together, if all rows of a
                                           key in the first part are worth the same;
* `Statistics.of_sameProgress`             then the numbers of a requirement are the same;
* `Allocation.coursesOf_graph_reordered`   the courses of a requirement differ in what the plan
                                           gives them only;
* `Audit.reordered_differs`                rows of one course that are worth different credits can
                                           make a difference;
* `Audit.agree_of_reordered`               and nothing else can.
-/

namespace DegreeProgress

open Finset

/-! ### the worth of first rows -/

section
variable {ι κ : Type} [DecidableEq κ] {key : ι → κ} {value : ι → Rat} {rows rows' : List ι}

/-- where all rows of a key are worth the same, so is its first row -/
theorem firstValue_of_mem
    (hsame : ∀ x ∈ rows, ∀ y ∈ rows, key x = key y → value x = value y) {x : ι} (hx : x ∈ rows) :
    firstValue key value rows (key x) = value x := by
  have hkey := (mem_map_firstPer key rows (key x)).mpr (List.mem_map_of_mem hx)
  obtain ⟨y, hy, hyx⟩ := List.mem_map.mp hkey
  have hmem : y ∈ rows := (firstPer_sublist key rows).subset hy
  rw [← hyx, firstValue_of_mem_firstPer key value hy]
  exact hsame y hmem x hx hyx

variable (h : rows.Perm rows')
  (hsame : ∀ x ∈ rows, ∀ y ∈ rows, key x = key y → value x = value y)
include h hsame

theorem sum_firstPer_perm :
    ((firstPer key rows).map value).sum = ((firstPer key rows').map value).sum := by
  have hsame' : ∀ x ∈ rows', ∀ y ∈ rows', key x = key y → value x = value y := fun x hx y hy =>
    hsame x (h.mem_iff.mpr hx) y (h.mem_iff.mpr hy)
  have hkeys : (rows.map key).toFinset = (rows'.map key).toFinset :=
    List.toFinset_eq_of_perm _ _ (h.map key)
  rw [sum_firstPer, sum_firstPer, ← hkeys]
  apply sum_congr rfl
  intro k hk
  obtain ⟨x, hx, rfl⟩ := List.mem_map.mp (List.mem_toFinset.mp hk)
  rw [firstValue_of_mem hsame hx, firstValue_of_mem hsame' (h.mem_iff.mp hx)]

theorem sum_firstPer_append_perm (rest : List ι) :
    ((firstPer key (rows ++ rest)).map value).sum
      = ((firstPer key (rows' ++ rest)).map value).sum := by
  obtain ⟨added, hadded, hadded'⟩ := exists_firstPer_append key (fun k => (h.map key).mem_iff) rest
  rw [hadded, hadded', List.map_append, List.map_append, List.sum_append, List.sum_append,
    sum_firstPer_perm h hsame]

end

/-! ### progress -/

/-- all rows of a catalog course are worth the same credits -/
def OneWorth (courses : List Course) : Prop :=
  ∀ c ∈ courses, ∀ c' ∈ courses,
    c.courseId = c'.courseId → exactValue c.credits = exactValue c'.credits

instance (courses : List Course) : Decidable (OneWorth courses) :=
  inferInstanceAs (Decidable (∀ c ∈ courses, ∀ c' ∈ courses, _ → _))

namespace Statistics

/-- the same courses in every slot, up to their order -/
structure SameCourses (s s' : Statistics Rat) : Prop where
  countedBy : s.countedBy = s'.countedBy
  required : s.required = s'.required
  perSlot : List.Forall₂ List.Perm s.perSlot s'.perSlot

/-- and the same numbers -/
structure SameProgress (s s' : Statistics Rat) : Prop extends SameCourses s s' where
  fulfilled : s.fulfilled = s'.fulfilled
  slotsSatisfied : s.slotsSatisfied = s'.slotsSatisfied
  isFulfilled : s.isFulfilled = s'.isFulfilled

theorem of_sameCourses (r : Resolved) {cs ds : List Course} (h : cs.Perm ds) :
    SameCourses (.of r cs) (.of r ds) where
  countedBy := by
    unfold Statistics.of
    cases r.evaluation <;> rfl
  required := by
    unfold Statistics.of
    cases r.evaluation <;> rfl
  perSlot := perSlot_of_perm r h

/-- the courses of a slot in another order, counting for the same -/
def SameCount (group : SlotGroup) (bucket bucket' : List Course) : Prop :=
  bucket.Perm bucket' ∧ (contribution group bucket : Rat) = contribution group bucket'

section
variable {group : SlotGroup} {bucket bucket' : List Course}

theorem creditSum_perm (h : bucket.Perm bucket') :
    (creditSum bucket : Rat) = creditSum bucket' := by
  unfold creditSum
  rw [Amount.sum_eq, Amount.sum_eq]
  exact (h.map _).sum_eq

theorem contribution_append_perm (h : bucket.Perm bucket')
    (hworth : group.CountsOnce → OneWorth bucket) (rest : List Course) :
    (contribution group (bucket ++ rest) : Rat) = contribution group (bucket' ++ rest) := by
  have hall : (bucket ++ rest).Perm (bucket' ++ rest) := h.append_right rest
  unfold contribution
  cases hc : group.counting with
  | courses =>
    cases group.progress with
    | anyCanCount =>
      show Amount.ofCourses _ = Amount.ofCourses _
      rw [hall.length_eq]
    | everyCourseNeeded =>
      show Amount.ofCourses (if _ then 0 else 1) = Amount.ofCourses (if _ then 0 else 1)
      rw [hall.isEmpty_eq]
  | credits =>
    cases hp : group.progress with
    | anyCanCount => exact creditSum_perm hall
    | everyCourseNeeded =>
      show creditSum (firstRows [] _) = creditSum (firstRows [] _)
      unfold creditSum
      rw [Amount.sum_eq, Amount.sum_eq, firstRows_eq, firstRows_eq]
      exact sum_firstPer_append_perm h (hworth ⟨hc, hp⟩) rest

theorem satisfies_eq (slot : Slot) (h : SameCount group bucket bucket') :
    satisfies (α := Rat) group slot bucket = satisfies (α := Rat) group slot bucket' := by
  unfold satisfies
  rw [h.1.isEmpty_eq, h.2]

theorem countP_satisfies_eq (slots : List Slot) {bs bs' : List (List Course)}
    (h : List.Forall₂ (SameCount group) bs bs') :
    ((slots.zip bs).countP fun (slot, bucket) => satisfies (α := Rat) group slot bucket)
      = (slots.zip bs').countP fun (slot, bucket) => satisfies (α := Rat) group slot bucket := by
  induction h generalizing slots with
  | nil => rfl
  | cons hb _ ih =>
    cases slots with
    | nil => rfl
    | cons slot slots =>
      rw [List.zip_cons_cons, List.zip_cons_cons, List.countP_cons, List.countP_cons, ih slots]
      simp only [satisfies_eq slot hb]

theorem isFulfilled_ofGroup (r : Resolved) (group : SlotGroup) (cs : List Course) :
    (ofGroup r group cs : Statistics Rat).isFulfilled
      = (Amount.reaches (ofGroup r group cs : Statistics Rat).fulfilled (group.required Rat) &&
          group.minSlots.all (· ≤ (ofGroup r group cs : Statistics Rat).slotsSatisfied)) := rfl

theorem ofGroup_sameProgress {r : Resolved} {cs ds : List Course}
    (h : ∀ p, SameCount group (cs.filter p) (ds.filter p)) :
    SameProgress (ofGroup r group cs) (ofGroup r group ds) := by
  have hb : List.Forall₂ (SameCount group) (buckets r group cs) (buckets r group ds) :=
    buckets_forall₂ h
  have hcounts : (buckets r group cs).map (contribution (α := Rat) group)
      = (buckets r group ds).map (contribution group) := by
    rw [← List.forall₂_eq_eq_eq, List.forall₂_map_left_iff, List.forall₂_map_right_iff]
    exact hb.imp fun _ _ hcount => hcount.2
  have hfulfilled : (ofGroup r group cs : Statistics Rat).fulfilled
      = (ofGroup r group ds : Statistics Rat).fulfilled := by
    show List.foldl Amount.add _ _ = List.foldl Amount.add _ _
    rw [hcounts]
  have hslots : (ofGroup r group cs : Statistics Rat).slotsSatisfied
      = (ofGroup r group ds : Statistics Rat).slotsSatisfied :=
    countP_satisfies_eq group.slots hb
  refine ⟨⟨rfl, rfl, hb.imp fun _ _ hcount => hcount.1⟩, hfulfilled, hslots, ?_⟩
  rw [isFulfilled_ofGroup, isFulfilled_ofGroup, hfulfilled, hslots]

end

/-- **The order of a first part does not matter**, unless credits count once and rows of one catalog
course in that part are worth different credits. -/
theorem of_sameProgress (r : Resolved) {front front' : List Course} (h : front.Perm front')
    (hworth : r.evaluation.CountsOnce → OneWorth front) (rest : List Course) :
    SameProgress (.of r (front ++ rest)) (.of r (front' ++ rest)) := by
  unfold Statistics.of
  cases he : r.evaluation with
  | selfCheck => exact ⟨⟨rfl, rfl, List.Forall₂.nil⟩, rfl, rfl, rfl⟩
  | slots group =>
    rw [he] at hworth
    apply ofGroup_sameProgress
    intro p
    have hfilter : group.CountsOnce → OneWorth (front.filter p) := fun honce c hc c' hc' =>
      hworth honce c (List.mem_filter.mp hc).1 c' (List.mem_filter.mp hc').1
    rw [List.filter_append, List.filter_append]
    exact ⟨(h.filter p).append_right _, contribution_append_perm (h.filter p) hfilter _⟩

theorem single_sameProgress (countedBy : CountedBy) {fulfilled fulfilled' : Rat} (required : Rat)
    {cs ds : List Course} (hfulfilled : fulfilled = fulfilled') (h : cs.Perm ds) :
    SameProgress (.single countedBy fulfilled required cs)
      (.single countedBy fulfilled' required ds) := by
  subst hfulfilled
  exact ⟨⟨rfl, rfl, .cons h .nil⟩, rfl, rfl, rfl⟩

end Statistics

/-! ### the courses of a requirement -/

/-- the two lists differ in the order of a first part, whose rows are those of `source` -/
def DifferInFront (source cs ds : List Course) : Prop :=
  ∃ front front' rest, front.Perm front' ∧ front.Sublist source ∧ cs = front ++ rest ∧
    ds = front' ++ rest

theorem DifferInFront.perm {source cs ds : List Course} (h : DifferInFront source cs ds) :
    cs.Perm ds := by
  obtain ⟨front, front', rest, hperm, _, rfl, rfl⟩ := h
  exact hperm.append_right rest

theorem DifferInFront.sameProgress {source cs ds : List Course} (h : DifferInFront source cs ds)
    {r : Resolved} (hworth : r.evaluation.CountsOnce → OneWorth source) :
    Statistics.SameProgress (.of r cs) (.of r ds) := by
  obtain ⟨front, front', rest, hperm, hsub, rfl, rfl⟩ := h
  apply Statistics.of_sameProgress r hperm
  intro honce c hc c' hc'
  exact hworth honce c (hsub.subset hc) c' (hsub.subset hc')

namespace Allocation

variable {requirements : List Resolved} {plan plan' : List Course} (exams : List Course)
  (hids : (requirements.map (·.id)).Nodup) (h : plan.Perm plan')
  (hnd : (plan.map Course.identities).Nodup) {r : Resolved}
include hids h hnd

/-- the plan gives every graph a first part, to which the exams add the same rows in any case -/
theorem coursesOf_graph_reordered {keep keep' : Nat → Contender → Candidate → Bool} {i : Nat}
    (hr : requirements[i]? = some r)
    (hkeep : ∀ x, keep i (Contender.of (plan ++ exams) r) x
      = keep' i (Contender.of (plan' ++ exams) r) x) :
    DifferInFront (plan.filter r.isCandidate)
      ((graph (requirements.map (Contender.of (plan ++ exams))) keep).coursesOf r.id)
      ((graph (requirements.map (Contender.of (plan' ++ exams))) keep').coursesOf r.id) := by
  rw [coursesOf_graph keep _ hids hr, coursesOf_graph keep' _ hids hr]
  simp only [hkeep]
  generalize hchosen : (fun c => r.isCandidate c &&
    keep' i (Contender.of (plan' ++ exams) r) ⟨c, r.isOptedIn c.courseId⟩) = chosen
  -- no row of the plan is left out, since none has the identities of another one
  have hfront : ((plan.filter chosen).map Course.identities).Nodup :=
    hnd.sublist (List.filter_sublist.map _)
  have hperm : (plan.filter chosen).Perm (plan'.filter chosen) := h.filter chosen
  have hfront' : ((plan'.filter chosen).map Course.identities).Nodup :=
    (hperm.map Course.identities).nodup_iff.mp hfront
  obtain ⟨rest, hrest, hrest'⟩ := exists_firstPer_append Course.identities
    (fun k => (hperm.map Course.identities).mem_iff) (exams.filter chosen)
  rw [List.filter_append, List.filter_append, hrest, hrest', firstPer_eq_self _ hfront,
    firstPer_eq_self _ hfront']
  refine ⟨plan.filter chosen, plan'.filter chosen, rest, hperm, ?_, rfl, rfl⟩
  apply List.monotone_filter_right
  intro c hc
  rw [← hchosen, Bool.and_eq_true] at hc
  exact hc.1

theorem coursesOf_safe_reordered (hr : r ∈ requirements) :
    DifferInFront (plan.filter r.isCandidate)
      ((Allocation.of requirements (plan ++ exams)).safe.coursesOf r.id)
      ((Allocation.of requirements (plan' ++ exams)).safe.coursesOf r.id) := by
  obtain ⟨i, hi⟩ := List.getElem?_of_mem hr
  exact coursesOf_graph_reordered exams hids h hnd hi
    (keepsSafely_of_perm (h.append_right exams) i r)

theorem coursesOf_dangerous_reordered (hr : r ∈ requirements) :
    DifferInFront (plan.filter r.isCandidate)
      ((Allocation.of requirements (plan ++ exams)).dangerous.coursesOf r.id)
      ((Allocation.of requirements (plan' ++ exams)).dangerous.coursesOf r.id) := by
  obtain ⟨i, hi⟩ := List.getElem?_of_mem hr
  exact coursesOf_graph_reordered exams hids h hnd hi fun _ => rfl

end Allocation

/-! ### reports -/

namespace Audit

/-- the requirements of an id count credits once only where the plan has rows of one worth -/
def CountsAlike (requirements : List Resolved) (plan : List Course) (id : RequirementId) : Prop :=
  ∀ r ∈ requirements, r.id = id → r.evaluation.CountsOnce → OneWorth (plan.filter r.isCandidate)

/-- two entries for plans in different orders -/
structure SameEntry (requirements : List Resolved) (plan : List Course)
    (e e' : ReportEntry Rat) : Prop where
  requirement : e.requirement = e'.requirement
  safe : Statistics.SameCourses e.fulfillment.safe e'.fulfillment.safe
  dangerous : Statistics.SameCourses e.fulfillment.dangerous e'.fulfillment.dangerous
  progress : CountsAlike requirements plan e.requirement.id →
    Statistics.SameProgress e.fulfillment.safe e'.fulfillment.safe ∧
      Statistics.SameProgress e.fulfillment.dangerous e'.fulfillment.dangerous

/-- two groups for plans in different orders -/
structure SameGroup (requirements : List Resolved) (plan : List Course)
    (g g' : ReportGroup Rat) : Prop where
  kind : g.kind = g'.kind
  code : g.code = g'.code
  entries : List.Forall₂ (SameEntry requirements plan) g.entries g'.entries

section
variable {requirements : List Resolved} {plan plan' : List Course}

theorem sameEntry_of_sameProgress {e e' : ReportEntry Rat}
    (hsummary : e.requirement = e'.requirement)
    (hsafe : e.fulfillment.safe = e.fulfillment.dangerous)
    (hsafe' : e'.fulfillment.safe = e'.fulfillment.dangerous)
    (h : Statistics.SameProgress e.fulfillment.safe e'.fulfillment.safe) :
    SameEntry requirements plan e e' := by
  have hdangerous : Statistics.SameProgress e.fulfillment.dangerous e'.fulfillment.dangerous := by
    rwa [← hsafe, ← hsafe']
  exact ⟨hsummary, h.toSameCourses, hdangerous.toSameCourses, fun _ => ⟨h, hdangerous⟩⟩

theorem sameEntry_swimTest (college : String) {courses courses' : List Course}
    (h : courses.Perm courses') (passed : Bool) :
    SameEntry requirements plan (SwimTest.entry college courses passed)
      (SwimTest.entry college courses' passed) := by
  have hpassed : (SwimTest.passedCourses courses passed).Perm
      (SwimTest.passedCourses courses' passed) := (h.filter _).append_right _
  refine sameEntry_of_sameProgress ?_ ?_ ?_ ?_
  · rfl
  · rfl
  · rfl
  apply Statistics.single_sameProgress _ _ _ hpassed
  rw [hpassed.isEmpty_eq]

theorem sameEntry_totalCredits (policy : CreditPolicy) (college : String)
    {courses courses' : List Course} (h : courses.Perm courses') :
    List.Forall₂ (SameEntry requirements plan) (policy.entry? college courses).toList
      (policy.entry? college courses').toList := by
  unfold CreditPolicy.entry?
  cases policy.enabled with
  | false => exact .nil
  | true =>
    cases policy.colleges.get? college with
    | none => exact .nil
    | some eligibility =>
      have hcounted := h.filter eligibility.admits
      refine .cons (sameEntry_of_sameProgress rfl rfl rfl ?_) .nil
      exact Statistics.single_sameProgress _ _ (Statistics.creditSum_perm hcounted) hcounted

theorem sameEntry_collegeEntries (options : AuditOptions) (p : Profile)
    {courses courses' : List Course} (h : courses.Perm courses') (college : String) :
    List.Forall₂ (SameEntry requirements plan) (collegeEntries options p courses college)
      (collegeEntries options p courses' college) := by
  unfold collegeEntries
  apply List.rel_append (sameEntry_totalCredits options.totalCredits college h)
  cases options.swimTest with
  | false => exact .nil
  | true => exact .cons (sameEntry_swimTest college h p.tookSwimTest) .nil

theorem sameEntry_entry {a a' : Allocation} {r : Resolved} (hr : r ∈ requirements)
    (hsafe : DifferInFront (plan.filter r.isCandidate) (a.safe.coursesOf r.id)
      (a'.safe.coursesOf r.id))
    (hdangerous : DifferInFront (plan.filter r.isCandidate) (a.dangerous.coursesOf r.id)
      (a'.dangerous.coursesOf r.id)) :
    SameEntry requirements plan (entry a r) (entry a' r) where
  requirement := rfl
  safe := Statistics.of_sameCourses r hsafe.perm
  dangerous := Statistics.of_sameCourses r hdangerous.perm
  progress halike :=
    ⟨hsafe.sameProgress (halike r hr rfl), hdangerous.sameProgress (halike r hr rfl)⟩

theorem sameGroup_group (options : AuditOptions) (p : Profile) {courses courses' : List Course}
    (hcourses : courses.Perm courses') {a a' : Allocation}
    (hentries : ∀ r ∈ requirements, SameEntry requirements plan (entry a r) (entry a' r))
    (keys : List (ProgramKind × String)) (key : ProgramKind × String) :
    SameGroup requirements plan (group options p courses a requirements keys key)
      (group options p courses' a' requirements keys key) := by
  refine ⟨rfl, rfl, ?_⟩
  unfold group
  apply List.rel_append
  · split
    · exact sameEntry_collegeEntries options p hcourses key.2
    · exact .nil
  · rw [List.forall₂_map_left_iff, List.forall₂_map_right_iff]
    apply List.forall₂_same.mpr
    intro r hr
    exact hentries r (List.mem_filter.mp hr).1

end

end Audit

/-- the two students differ in the order of their plans only -/
structure Student.Reordered (s s' : Student) : Prop where
  planned : s.planned.Perm s'.planned
  profile : s.profile = s'.profile
  choices : s.choices = s'.choices
  overrides : s.overrides = s'.overrides

namespace Sample

/-- three credits from one course, each course counted once -/
def declaredCredits : Declared.Catalog where
  university := [
    { name := "Research", description := "", source := "", fulfilledBy := .credits
      slots := { checkers := [.courseIds [⟨100⟩]], minCounts := [3.0], names := ["Research"]
                 progress := .everyCourseNeeded }
      choices := [], doubleCounting := false }]
  colleges := {}
  majors := {}
  minors := {}
  grad := {}

/-- the course of `systems` under its other code, for the same credits -/
def seminar : PlannedCourse := { research with credits := systems.credits }

theorem reordered_researcher (p q : PlannedCourse) :
    (researcher [p, q]).Reordered (researcher [q, p]) :=
  ⟨List.Perm.swap _ _ _, rfl, rfl, rfl⟩

end Sample

namespace Audit

open Sample

/-- **Where the order matters.**  With two rows of one course the student has the credits of the
first one, so three credits in one order and one credit in the other. -/
theorem reordered_differs : ∃ catalog, Catalog.compile declaredCredits = .ok catalog ∧
    (researcher [systems, research]).Reordered (researcher [research, systems]) ∧
    ((researcher [systems, research]).planned.map (·.uniqueId)).Nodup ∧
    ∃ e ∈ (run Rat default catalog default (researcher [systems, research])).report.entries,
    ∃ e' ∈ (run Rat default catalog default (researcher [research, systems])).report.entries,
      e.requirement.id = e'.requirement.id ∧ e.requirement.name = "Research" ∧
      e.fulfillment.safe.fulfilled = 1 ∧ e'.fulfillment.safe.fulfilled = 3 ∧
      e.fulfillment.safe.isFulfilled = false ∧ e'.fulfillment.safe.isFulfilled = true := by
  have hnumbers : ∃ catalog, Catalog.compile declaredCredits = .ok catalog ∧
      ∃ e ∈ (run Rat default catalog default (researcher [systems, research])).report.entries,
      ∃ e' ∈ (run Rat default catalog default (researcher [research, systems])).report.entries,
        e.requirement.id = e'.requirement.id ∧ e.requirement.name = "Research" ∧
        e.fulfillment.safe.fulfilled = 1 ∧ e'.fulfillment.safe.fulfilled = 3 ∧
        e.fulfillment.safe.isFulfilled = false ∧ e'.fulfillment.safe.isFulfilled = true :=
    exists_ok_of_any (by decide +kernel)
  obtain ⟨catalog, hcatalog, hnumbers⟩ := hnumbers
  exact ⟨catalog, hcatalog, reordered_researcher systems research, by decide, hnumbers⟩

theorem doubleCounted_run (options : AuditOptions) (catalog : Catalog) (table : ExamTable)
    (s : Student) : (run Rat options catalog table s).report.doubleCounted
      = (Allocation.of (catalog.resolve s.profile s.choices s.overrides)
          (s.courses table)).doubleCounted := by
  dsimp only [run]

/-- **What does not depend on the order of a plan**: the groups, the entries and the courses of
their slots, the warnings, and the numbers of every entry, unless its requirement counts credits
once and could use rows of the plan that are of one catalog course but worth different credits. -/
theorem agree_of_reordered (options : AuditOptions) (catalog : Catalog) (table : ExamTable)
    {s s' : Student} (h : s.Reordered s') (hnd : (s.planned.map (·.uniqueId)).Nodup) :
    let report := (run Rat options catalog table s).report
    let report' := (run Rat options catalog table s').report
    report.doubleCounted = report'.doubleCounted ∧
      List.Forall₂
        (SameGroup (catalog.resolve s.profile s.choices s.overrides) s.planned)
        report.groups report'.groups := by
  have hids := catalog.nodup_ids_resolve s.profile s.choices s.overrides
  have hidentities : (s.planned.map Course.identities).Nodup := by
    apply List.Nodup.of_map Prod.fst
    rw [List.map_map]
    exact hnd
  obtain ⟨semesters, profile, choices, overrides⟩ := s
  obtain ⟨semesters', profile', choices', overrides'⟩ := s'
  obtain ⟨hplan, hprofile, hchoices, hoverrides⟩ := h
  obtain rfl : profile = profile' := hprofile
  obtain rfl : choices = choices' := hchoices
  obtain rfl : overrides = overrides' := hoverrides
  have hcourses : (Student.courses ⟨semesters, profile, choices, overrides⟩ table).Perm
      (Student.courses ⟨semesters', profile, choices, overrides⟩ table) := hplan.append_right _
  constructor
  · rw [doubleCounted_run, doubleCounted_run]
    exact Allocation.doubleCounted_of_perm hcourses
  · show List.Forall₂ _ (List.map _ _) (List.map _ _)
    rw [List.forall₂_map_left_iff, List.forall₂_map_right_iff]
    apply List.forall₂_same.mpr
    intro key _
    apply sameGroup_group options profile hcourses
    intro r hr
    apply sameEntry_entry hr
    · exact Allocation.coursesOf_safe_reordered _ hids hplan hidentities hr
    · exact Allocation.coursesOf_dangerous_reordered _ hids hplan hidentities hr

/-- two rows of one course that are worth the same, in either order -/
theorem agree_of_reordered_researcher : ∃ catalog, Catalog.compile crossListed = .ok catalog ∧
    (researcher [systems, seminar]).Reordered (researcher [seminar, systems]) ∧
    ((researcher [systems, seminar]).planned.map (·.uniqueId)).Nodup ∧
    List.Forall₂ (fun g g' : ReportGroup Rat => List.Forall₂ (fun e e' =>
        Statistics.SameProgress e.fulfillment.safe e'.fulfillment.safe ∧
          Statistics.SameProgress e.fulfillment.dangerous e'.fulfillment.dangerous)
      g.entries g'.entries)
    (run Rat default catalog default (researcher [systems, seminar])).report.groups
    (run Rat default catalog default (researcher [seminar, systems])).report.groups := by
  have halike : ∃ catalog, Catalog.compile crossListed = .ok catalog ∧
      ∀ r ∈ catalog.resolve (researcher []).profile {} {}, r.evaluation.CountsOnce →
        OneWorth ((researcher [systems, seminar]).planned.filter r.isCandidate) :=
    exists_ok_of_any (by decide +kernel)
  obtain ⟨catalog, hcatalog, halike⟩ := halike
  have h := reordered_researcher systems seminar
  have hnd : ((researcher [systems, seminar]).planned.map (·.uniqueId)).Nodup := by decide
  have hagree := agree_of_reordered default catalog default h hnd
  refine ⟨catalog, hcatalog, h, hnd, ?_⟩
  exact hagree.2.imp fun g g' hgroup => hgroup.entries.imp fun e e' hentry =>
    hentry.progress fun r hr _ => halike r hr

end Audit

end DegreeProgress
