import DegreeProgress.Proofs.Audit.Bounds
import DegreeProgress.Proofs.Student.FirstMajor

/-!
# Exams that are listed twice

A course graph leaves out a row that has both identities of an earlier one, while the total credits
are summed over all rows.  All rows of an exam have one identity, so the two may see different exam
credit if an exam is listed more than once.

* `ExamTable.nodup_identities_convert_iff`   rows are told apart by their two identities unless two
                                             records of one exam become the same course;
* `Allocation.exists_coursesOf_graph`        then no graph leaves out a row of an exam;
* `Audit.credited_twice`                     records of one exam can become the same course,
* `Audit.exam_rows_connected`                and that is the only way for rows to be left out.
-/

namespace DegreeProgress

/-! ### one exam -/

namespace ExamRecord

/-- the two records are of one exam, with any scores -/
def SameExam (e e' : ExamRecord) : Prop := e.program = e'.program ∧ e.subject = e'.subject

instance (e e' : ExamRecord) : Decidable (e.SameExam e') :=
  inferInstanceAs (Decidable (_ ∧ _))

theorem toList_code (e : ExamRecord) :
    e.code.toList = e.program.name.toList ++ ' ' :: e.subject.toList := by
  unfold code
  simp [toString]

theorem code_eq_iff (e e' : ExamRecord) : e.code = e'.code ↔ e.SameExam e' := by
  constructor
  · intro hcode
    have hlength : ∀ program : ExamProgram, program.name.toList.length = 2 := by
      rintro (_ | _) <;> decide
    have hname : ∀ program program' : ExamProgram,
        program.name.toList = program'.name.toList → program = program' := by
      rintro (_ | _) (_ | _) <;> decide
    have hlists := congrArg String.toList hcode
    rw [toList_code, toList_code] at hlists
    obtain ⟨hprogram, hsubject⟩ := List.append_inj hlists (by rw [hlength, hlength])
    exact ⟨hname _ _ hprogram, String.toList_inj.mp (List.cons.inj hsubject).2⟩
  · rintro ⟨hprogram, hsubject⟩
    unfold code
    rw [hprogram, hsubject]

end ExamRecord

namespace ExamTable

/-- every list of equivalents names a course once, and not the carrier of credits -/
structure ListsOnce (t : ExamTable) : Prop where
  nodup : ∀ rule ∈ t.ap ++ t.ib, ∀ ids ∈ rule.equivalents.values, ids.Nodup
  credits : t.NeverLists .credits

instance (t : ExamTable) : Decidable t.ListsOnce :=
  decidable_of_iff
    ((∀ rule ∈ t.ap ++ t.ib, ∀ ids ∈ rule.equivalents.values, ids.Nodup) ∧ t.NeverLists .credits)
    ⟨fun h => ⟨h.1, h.2⟩, fun h => ⟨h.nodup, h.credits⟩⟩

section
variable {t : ExamTable} (college : String) (major : Option String)

theorem map_identities_convertExam (e : ExamRecord) :
    (t.convertExam college major e).map Course.identities
      = ((t.convertExam college major e).map (·.courseId)).map (UniqueId.named e.code, ·) := by
  rw [List.map_map]
  refine List.map_congr_left fun c hc => ?_
  obtain ⟨id, credits, rfl⟩ := exists_of_mem_convertExam college major hc
  rfl

/-- two records of one exam that become the same course -/
def CreditsTwice (t : ExamTable) (college : String) (major : Option String) (e e' : ExamRecord) :
    Prop :=
  e.SameExam e' ∧ ∃ k, k ∈ (t.convertExam college major e).map (·.courseId) ∧
    k ∈ (t.convertExam college major e').map (·.courseId)

theorem CreditsTwice.symm {e e' : ExamRecord} (h : t.CreditsTwice college major e e') :
    t.CreditsTwice college major e' e :=
  ⟨⟨h.1.1.symm, h.1.2.symm⟩, h.2.imp fun _ hk => hk.symm⟩

theorem disjoint_identities_iff (e e' : ExamRecord) :
    List.Disjoint ((t.convertExam college major e).map Course.identities)
        ((t.convertExam college major e').map Course.identities)
      ↔ ¬t.CreditsTwice college major e e' := by
  rw [map_identities_convertExam, map_identities_convertExam]
  unfold List.Disjoint CreditsTwice
  rw [← ExamRecord.code_eq_iff]
  constructor
  · rintro hdisjoint ⟨hcode, k, hk, hk'⟩
    refine hdisjoint (List.mem_map_of_mem hk) ?_
    rw [hcode]
    exact List.mem_map_of_mem hk'
  · rintro htwice pair hpair hpair'
    obtain ⟨k, hk, rfl⟩ := List.mem_map.mp hpair
    obtain ⟨k', hk', heq⟩ := List.mem_map.mp hpair'
    obtain ⟨hcode, rfl⟩ := Prod.mk.inj heq
    exact htwice ⟨(UniqueId.named.inj hcode).symm, k', hk, hk'⟩

variable (ht : t.ListsOnce)
include ht

theorem nodup_courseIds_convertExam (e : ExamRecord) :
    ((t.convertExam college major e).map (·.courseId)).Nodup := by
  rcases t.convertExam_cases college major with heq | heq | ⟨b, hb, heq⟩
  · rw [heq]
    exact List.nodup_singleton _
  · rw [heq]
    exact List.nodup_nil
  · obtain ⟨ids, hlists, hids⟩ := (b.grants_grant college e).courseIds
    rw [heq, hids]
    by_cases hnil : ids = []
    · rw [hnil]
      exact List.nodup_singleton _
    · have hvalues := hlists.mem_values hnil
      have hrule := mem_of_mem_rulesFor hb
      have hnodup := ht.nodup b hrule ids hvalues
      split
      · exact hnodup
      · exact List.nodup_cons.mpr ⟨ht.credits b hrule ids hvalues, hnodup⟩

theorem nodup_identities_convertExam (e : ExamRecord) :
    ((t.convertExam college major e).map Course.identities).Nodup := by
  rw [map_identities_convertExam]
  exact (nodup_courseIds_convertExam college major ht e).map fun _ _ heq => (Prod.mk.inj heq).2

end

/-! ### all exams -/

section
variable (t : ExamTable) (college : String)

/-- the records in the order in which they are converted -/
def byProgram (exams : List ExamRecord) : List ExamRecord :=
  exams.filter (·.program == .ap) ++ exams.filter (·.program == .ib)

theorem byProgram_perm (exams : List ExamRecord) : (byProgram exams).Perm exams := by
  have hib : ∀ e : ExamRecord, (e.program == .ib) = !(e.program == .ap) := by
    rintro ⟨_ | _, _, _⟩ <;> rfl
  unfold byProgram
  simp only [hib]
  exact List.filter_append_perm _ exams

theorem convert_eq (majors : List String) (exams : List ExamRecord) :
    t.convert (some college) majors exams
      = (byProgram exams).flatMap (t.convertExam college majors.head?) := by
  have hfor : ∀ major, t.convertFor college major exams
      = (byProgram exams).flatMap (t.convertExam college major) := by
    intro major
    unfold convertFor byProgram
    rw [List.flatMap_append]
    simp only [List.flatMap_cons, List.flatMap_nil, List.append_nil]
  rw [← hfor]
  cases majors with
  | nil => rfl
  | cons major majors => exact t.convert_cons exams (some college) major majors

theorem nodup_identities_convert_iff (ht : t.ListsOnce) (majors : List String)
    (exams : List ExamRecord) :
    ((t.convert (some college) majors exams).map Course.identities).Nodup
      ↔ exams.Pairwise fun e e' => ¬t.CreditsTwice college majors.head? e e' := by
  rw [convert_eq, List.map_flatMap, List.nodup_flatMap]
  have hdisjoint : (byProgram exams).Pairwise (Function.onFun List.Disjoint fun e =>
        (t.convertExam college majors.head? e).map Course.identities)
      ↔ (byProgram exams).Pairwise fun e e' => ¬t.CreditsTwice college majors.head? e e' :=
    List.Pairwise.iff fun {e e'} => disjoint_identities_iff college majors.head? e e'
  rw [hdisjoint, (byProgram_perm exams).pairwise_iff fun htwice h => htwice h.symm]
  exact and_iff_right fun e _ => nodup_identities_convertExam college majors.head? ht e

end

end ExamTable

/-! ### course graphs -/

namespace Allocation

open CourseGraph

variable {requirements : List Resolved} {plan exams : List Course}
  (hids : (requirements.map (·.id)).Nodup)
  (hplan : ∀ c ∈ plan, ∀ c' ∈ exams, c.identities ≠ c'.identities)
  (hexams : (exams.map Course.identities).Nodup)
include hids hplan hexams

/-- where exams are told apart by their two identities, a graph has every row of an exam that it has
an edge for, behind the rows of the plan -/
theorem exists_coursesOf_graph (keep : Nat → Contender → Candidate → Bool) {r : Resolved}
    (hr : r ∈ requirements) :
    let g := graph (requirements.map (Contender.of (plan ++ exams))) keep
    ∃ front, front.Sublist plan ∧
      g.coursesOf r.id = front ++ exams.filter (g.containsEdge r.id) := by
  intro g
  obtain ⟨i, hi⟩ := List.getElem?_of_mem hr
  have hcourses := coursesOf_graph keep (plan ++ exams) hids hi
  generalize hchosen : (fun c => r.isCandidate c &&
    keep i (Contender.of (plan ++ exams) r) ⟨c, r.isOptedIn c.courseId⟩) = chosen at hcourses
  -- an edge of an exam is there for its own row and no other one
  have hedge : ∀ c ∈ exams, g.containsEdge r.id c = chosen c := by
    intro c hc
    rw [Bool.eq_iff_iff, (records_graph keep _).containsEdge_iff_coursesOf, hcourses,
      mem_map_firstPer]
    constructor
    · intro hmem
      obtain ⟨c', hc', heq⟩ := List.mem_map.mp hmem
      obtain ⟨hc', hchosen'⟩ := List.mem_filter.mp hc'
      rcases List.mem_append.mp hc' with hc' | hc'
      · exact absurd heq (hplan c' hc' c hc)
      · rwa [← List.inj_on_of_nodup_map hexams hc' hc heq]
    · intro htrue
      exact List.mem_map_of_mem (List.mem_filter.mpr ⟨List.mem_append_right _ hc, htrue⟩)
  refine ⟨firstPer Course.identities (plan.filter chosen),
    (firstPer_sublist _ _).trans List.filter_sublist, ?_⟩
  have hnodup : ((exams.filter chosen).map Course.identities).Nodup :=
    hexams.sublist (List.filter_sublist.map _)
  have hnew : ∀ c ∈ exams.filter chosen,
      c.identities ∉ (plan.filter chosen).map Course.identities := by
    intro c hc hmem
    obtain ⟨c', hc', heq⟩ := List.mem_map.mp hmem
    exact hplan c' (List.mem_filter.mp hc').1 c (List.mem_filter.mp hc).1 heq
  rw [hcourses, List.filter_append, firstPer_append_of_new _ hnew, firstPer_eq_self _ hnodup,
    List.filter_congr hedge]

end Allocation

/-! ### audits -/

/-- a row of the plan has a number, and a row of an exam has a name -/
theorem Student.identities_planned_ne {s : Student} {table : ExamTable} {c c' : Course}
    (hc : c ∈ s.planned)
    (hc' : c' ∈ table.convert s.profile.college s.profile.majors s.profile.exams) :
    c.identities ≠ c'.identities := by
  obtain ⟨college, major, e, _, hc'⟩ := ExamTable.mem_convert hc'
  obtain ⟨id, credits, rfl⟩ := ExamTable.exists_of_mem_convertExam college major hc'
  obtain ⟨entry, _, hentry⟩ := List.mem_filterMap.mp hc
  intro heq
  cases entry with
  | course p =>
    cases hentry
    cases (Prod.mk.inj heq).1
  | placeholder uniqueId name => cases hentry

namespace Sample

/-- an exam for course 11 -/
def biologyExam : ExamRecord := ⟨.ap, "Biology", 5⟩

def biologyTable : ExamTable := ⟨[⟨"Biology", 4, 8.0, .ofList [("DEFAULT", [⟨11⟩])], []⟩], []⟩

/-- the student of `student` with some exams -/
def examined (ns : List UInt64) (exams : List ExamRecord) : Student :=
  { student ns with profile := { (student ns).profile with exams } }

end Sample

namespace Audit

open Sample

/-- **An exam can be credited twice.**  Listed twice it becomes two rows with the same identities:
the total credits are twice those of the exam, and a graph has one row. -/
theorem credited_twice :
    biologyTable.ListsOnce ∧ biologyTable.NeverLists .noEquivalent ∧
    let rows := biologyTable.convert (some "AS1") [] [biologyExam, biologyExam]
    let graph := (Allocation.of Sample.requirements rows).dangerous
    ¬(rows.map Course.identities).Nodup ∧
    (CreditPolicy.default.entry? "AS1" rows : Option (ReportEntry Rat)).map
      (·.fulfillment.safe.fulfilled) = some 16 ∧
    (Statistics.creditSum (graph.coursesOf ⟨"Elective"⟩) : Rat) = 8 := by
  decide +kernel

/-- **A row of an exam is left out only where an exam is credited twice.**  Rows of exams are told
apart by their two identities iff no two records of one exam become the same course, as in a list of
different exams.  Then both graphs have every row of an exam that they have an edge for, as do the
total credits. -/
theorem exam_rows_connected {table : ExamTable} (ht : table.ListsOnce) (s : Student) :
    let exams := s.profile.exams
    let rows := table.convert s.profile.college s.profile.majors exams
    (∀ college, s.profile.college = some college → ((rows.map Course.identities).Nodup ↔
      exams.Pairwise fun e e' => ¬table.CreditsTwice college s.profile.majors.head? e e')) ∧
    (exams.Pairwise (fun e e' => ¬e.SameExam e') → (rows.map Course.identities).Nodup) ∧
    ((rows.map Course.identities).Nodup →
      ∀ (α : Type) [Amount α] (options : AuditOptions) (catalog : Catalog),
        let a := (run α options catalog table s).allocation
        ∀ r ∈ catalog.resolve s.profile s.choices s.overrides, ∀ g ∈ [a.safe, a.dangerous],
          ∃ front, front.Sublist s.planned ∧
            g.coursesOf r.id = front ++ rows.filter (g.containsEdge r.id)) := by
  intro exams rows
  have hiff : ∀ college, s.profile.college = some college →
      ((rows.map Course.identities).Nodup ↔
        exams.Pairwise fun e e' => ¬table.CreditsTwice college s.profile.majors.head? e e') := by
    intro college hcollege
    show ((table.convert s.profile.college _ _).map _).Nodup ↔ _
    rw [hcollege]
    exact table.nodup_identities_convert_iff college ht s.profile.majors exams
  refine ⟨hiff, fun hdifferent => ?_, ?_⟩
  · cases hcollege : s.profile.college with
    | none =>
      have hnil : rows = [] := by
        show table.convert s.profile.college _ _ = []
        rw [hcollege]
        rfl
      rw [hnil]
      exact List.nodup_nil
    | some college =>
      exact (hiff college hcollege).mpr (hdifferent.imp fun hne htwice => hne htwice.1)
  · intro hnodup α _ options catalog a r hr
    have hids := catalog.nodup_ids_resolve s.profile s.choices s.overrides
    have hgraph := fun keep => Allocation.exists_coursesOf_graph hids
      (fun c hc c' hc' => Student.identities_planned_ne hc hc') hnodup keep hr
    rw [List.forall_mem_cons, List.forall_mem_singleton]
    exact ⟨hgraph _, hgraph _⟩

/-- the exam and another one, beside a course of the plan -/
theorem exam_rows_connected_examined :
    let s := examined [12] [biologyExam, ⟨.ap, "Latin", 5⟩]
    let rows := biologyTable.convert (some "AS1") [] s.profile.exams
    let graph := (run Rat default catalog biologyTable s).allocation.dangerous
    biologyTable.ListsOnce ∧ s.profile.exams.Pairwise (fun e e' => ¬e.SameExam e') ∧
    (graph.coursesOf ⟨"Elective"⟩).map (·.uniqueId) = [.numeric 12, .named "AP Biology"] ∧
    ∃ front, front.Sublist s.planned ∧
      graph.coursesOf ⟨"Elective"⟩ = front ++ rows.filter (graph.containsEdge ⟨"Elective"⟩) := by
  intro s rows graph
  have ht : biologyTable.ListsOnce := by decide +kernel
  have hdifferent : s.profile.exams.Pairwise (fun e e' => ¬e.SameExam e') := by decide
  have hrows : (graph.coursesOf ⟨"Elective"⟩).map (·.uniqueId)
      = [.numeric 12, .named "AP Biology"] := by decide +kernel
  obtain ⟨_, hnodup, hgraphs⟩ := exam_rows_connected ht s
  have hr : elective.resolveDefault ∈ catalog.resolve s.profile s.choices s.overrides :=
    List.mem_cons_of_mem _ List.mem_cons_self
  have hgraph := hgraphs (hnodup hdifferent) Rat default catalog _ hr graph
    (List.mem_cons_of_mem _ List.mem_cons_self)
  exact ⟨ht, hdifferent, hrows, hgraph⟩

end Audit

end DegreeProgress
