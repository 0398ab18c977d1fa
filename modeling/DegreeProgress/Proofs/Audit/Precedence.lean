import DegreeProgress.Proofs.Allocation.Shared
import DegreeProgress.Proofs.Audit.Overrides
import DegreeProgress.Proofs.Audit.Report
import DegreeProgress.Proofs.Audit.Slots

/-!
# Overrides come first

What a student moves by hand is decided by hand, all the way from the overrides to the report:

* a course kept out of a requirement is connected to it in no graph and lies in none of its slots;
* a course put in, and not kept out, is connected to it in both graphs, once for every identity,
  and lies in the slots that are named and in no other one.

Neither checkers nor other requirements have a say (`Audit.override_precedence`).
-/

namespace DegreeProgress

/-! ### graphs -/

namespace Allocation

section
variable {requirements : List Resolved} (courses : List Course)
  (hids : (requirements.map (·.id)).Nodup) {r : Resolved} (hr : r ∈ requirements)
include hids hr

theorem courseId_ne_of_isOptedOut {k : CourseId} (hout : r.isOptedOut k = true) {c : Course}
    (hc : c ∈ (Allocation.of requirements courses).dangerous.coursesOf r.id) : c.courseId ≠ k := by
  rintro rfl
  have hcand := (mem_dangerous courses hids hr hc).2
  unfold Resolved.isCandidate at hcand
  rw [hout, Bool.not_true, Bool.false_and] at hcand
  exact Bool.false_ne_true hcand

variable {x : Course} (hin : r.isOptedIn x.courseId = true)
include hin

/-- of the rows with two identities, the first is connected if the course is put in -/
theorem filter_identities_dangerous (hx : courses.find? (·.identities = x.identities) = some x) :
    ((Allocation.of requirements courses).dangerous.coursesOf r.id).filter
      (·.identities = x.identities) = [x] := by
  rw [coursesOf_dangerous courses hids hr, filter_key_firstPer, List.find?_filter]
  have hcand : ∀ c : Course, c.identities = x.identities → r.isCandidate c = true := fun c h =>
    Resolved.isCandidate_of_isOptedIn (((c.identities_eq_iff x).mp h).2 ▸ hin)
  have hsame : (fun c =>
        decide (r.isCandidate c = true ∧ decide (c.identities = x.identities) = true))
      = fun c => decide (c.identities = x.identities) := by
    funext c
    rw [decide_eq_decide, decide_eq_true_eq]
    exact and_iff_right_of_imp (hcand c)
  rw [hsame, hx, Option.toList_some]

theorem filter_identities_safe (hx : courses.find? (·.identities = x.identities) = some x) :
    ((Allocation.of requirements courses).safe.coursesOf r.id).filter
      (·.identities = x.identities) = [x] := by
  rw [← filter_identities_dangerous courses hids hr hin hx]
  apply filter_coursesOf_eq_of_keeps courses hids hr
  intro c _ _ hc
  have hsame := ((c.identities_eq_iff x).mp (of_decide_eq_true hc)).2
  exact Or.inr (Or.inl (hsame ▸ hin))

end

end Allocation

/-! ### reports -/

/-- the course `x` is placed by hand: it is connected once under its two identities, and lies in
the slots into which it is put and in no other one -/
structure PlacedByHand (r : Resolved) (o : Overrides) (x : Course) (connected : List Course)
    (perSlot : List (List Course)) : Prop where
  once : connected.filter (·.identities = x.identities) = [x]
  slots : perSlot.length = r.slots.length
  inside : ∀ i bucket, perSlot[i]? = some bucket → r.PutInto o i x.courseId →
    bucket.filter (·.identities = x.identities) = [x]
  outside : ∀ i bucket, perSlot[i]? = some bucket → ¬r.PutInto o i x.courseId →
    bucket.filter (·.identities = x.identities) = []

section
variable {catalog : Catalog} {p : Profile} {choices : OptionChoices} {o : Overrides} {r : Resolved}
  (hr : r ∈ catalog.resolve p choices o) {x : Course}
  (hout : ¬r.KeptOut o x.courseId) (hin : r.PutIn o x.courseId)
include hr hout hin

theorem placedByHand_of_once {α : Type} [Amount α] {connected : List Course}
    (honce : connected.filter (·.identities = x.identities) = [x]) :
    PlacedByHand r o x connected (Statistics.of r connected : Statistics α).perSlot := by
  have hopted : r.isOptedIn x.courseId = true := (Resolved.isOptedIn_iff hr _).mpr ⟨hout, hin⟩
  -- what a slot has of these identities is its choice from `[x]`
  have hbucket : ∀ i bucket,
      (Statistics.of r connected : Statistics α).perSlot[i]? = some bucket →
      ∃ slot, bucket.filter (·.identities = x.identities)
        = [x].filter (Statistics.belongs r slot i) := by
    intro i bucket hi
    rw [Statistics.getElem?_perSlot_of, Option.map_eq_some_iff] at hi
    obtain ⟨slot, _, rfl⟩ := hi
    refine ⟨slot, ?_⟩
    rw [← honce, List.filter_filter, List.filter_filter]
    exact List.filter_congr fun c _ => Bool.and_comm _ _
  have hbelongs : ∀ slot i,
      Statistics.belongs r slot i x = true ↔ r.PutInto o i x.courseId := by
    intro slot i
    rw [Statistics.belongs_of_isOptedIn hopted, Resolved.mem_optedInSlots_iff hr,
      and_iff_right hout]
  refine ⟨honce, Statistics.length_perSlot_of r connected, ?_, ?_⟩
  · intro i bucket hi hput
    obtain ⟨slot, hfilter⟩ := hbucket i bucket hi
    rw [hfilter, List.filter_cons, if_pos ((hbelongs slot i).mpr hput), List.filter_nil]
  · intro i bucket hi hput
    obtain ⟨slot, hfilter⟩ := hbucket i bucket hi
    rw [hfilter, List.filter_cons, if_neg fun h => hput ((hbelongs slot i).mp h), List.filter_nil]

end

namespace Audit

/-- **Overrides come first.**  A course kept out of a requirement is connected to it in no graph and
lies in no slot of its entry.  A course put in, and not kept out, is placed by hand in both graphs
and on both ends of its entry, for each of its identities. -/
theorem override_precedence (α : Type) [Amount α] (options : AuditOptions) {catalog : Catalog}
    (table : ExamTable) {s : Student} {r : Resolved}
    (hr : r ∈ catalog.resolve s.profile s.choices s.overrides) (k : CourseId) :
    let a := (run α options catalog table s).allocation
    let e : ReportEntry α := entry a r
    (r.KeptOut s.overrides k →
      (∀ c ∈ a.safe.coursesOf r.id ++ a.dangerous.coursesOf r.id, c.courseId ≠ k) ∧
      ∀ bucket ∈ e.fulfillment.safe.perSlot ++ e.fulfillment.dangerous.perSlot, ∀ c ∈ bucket,
        c.courseId ≠ k) ∧
    (¬r.KeptOut s.overrides k → r.PutIn s.overrides k →
      ∀ u, (∃ c ∈ s.courses table, c.uniqueId = u ∧ c.courseId = k) →
        ∃ x, x.uniqueId = u ∧ x.courseId = k ∧
          PlacedByHand r s.overrides x (a.safe.coursesOf r.id) e.fulfillment.safe.perSlot ∧
          PlacedByHand r s.overrides x (a.dangerous.coursesOf r.id)
            e.fulfillment.dangerous.perSlot) := by
  intro a e
  have hids := catalog.nodup_ids_resolve s.profile s.choices s.overrides
  constructor
  · intro hout
    have hopted := (Resolved.isOptedOut_iff hr k).mpr hout
    have hdangerous : ∀ c ∈ a.dangerous.coursesOf r.id, c.courseId ≠ k := fun c hc =>
      Allocation.courseId_ne_of_isOptedOut (s.courses table) hids hr hopted hc
    have hsafe : ∀ c ∈ a.safe.coursesOf r.id, c.courseId ≠ k := fun c hc =>
      hdangerous c ((Allocation.coursesOf_safe_sublist (s.courses table) hids r.id).subset hc)
    refine ⟨fun c hc => (List.mem_append.mp hc).elim (hsafe c) (hdangerous c), ?_⟩
    intro bucket hbucket c hc
    rcases List.mem_append.mp hbucket with hb | hb
    · exact hsafe c (Statistics.mem_of_mem_perSlot_of hb hc)
    · exact hdangerous c (Statistics.mem_of_mem_perSlot_of hb hc)
  · rintro hout hin u ⟨c, hc, rfl, rfl⟩
    -- the first row with the two identities of `c`
    cases hfind : (s.courses table).find? (·.identities = c.identities) with
    | none => exact absurd (decide_eq_true rfl) (List.find?_eq_none.mp hfind c hc)
    | some x =>
      have hsame : x.identities = c.identities := by simpa using List.find?_some hfind
      obtain ⟨hu, hk⟩ := (x.identities_eq_iff c).mp hsame
      rw [← hsame] at hfind
      rw [← hk] at hout hin
      have hopted := (Resolved.isOptedIn_iff hr x.courseId).mpr ⟨hout, hin⟩
      exact ⟨x, hu, hk,
        placedByHand_of_once hr hout hin
          (Allocation.filter_identities_safe (s.courses table) hids hr hopted hfind),
        placedByHand_of_once hr hout hin
          (Allocation.filter_identities_dangerous (s.courses table) hids hr hopted hfind)⟩

end Audit

namespace Sample

/-- a student who moves course 12 into the core requirement, and course 11 out of it -/
def swapped : Student where
  semesters := (student [11, 12]).semesters
  profile := (student []).profile
  choices := {}
  overrides := .ofList [(⟨"Core"⟩, .ofList [("Core", ⟨[⟨12⟩], [⟨11⟩]⟩)])]

end Sample

namespace Audit

open Sample

/-- the core requirement, which matches course 11 and not course 12 -/
theorem override_precedence_swapped :
    let a := (run Float default catalog default swapped).allocation
    let r := core.resolve {} swapped.overrides
    let e : ReportEntry Float := entry a r
    r.KeptOut swapped.overrides ⟨11⟩ ∧ r.PutIn swapped.overrides ⟨12⟩ ∧
    (∀ c ∈ a.safe.coursesOf r.id ++ a.dangerous.coursesOf r.id, c.courseId ≠ ⟨11⟩) ∧
    ∃ x, x.uniqueId = .numeric 12 ∧
      PlacedByHand r swapped.overrides x (a.safe.coursesOf r.id) e.fulfillment.safe.perSlot := by
  intro a r e
  have hr : r ∈ catalog.resolve swapped.profile swapped.choices swapped.overrides :=
    List.mem_cons_self
  have hslot : ∃ slot ∈ r.slots, slot.name = "Core" := ⟨_, List.mem_cons_self, rfl⟩
  have hgiven : swapped.overrides.under r.id "Core" = some ⟨[⟨12⟩], [⟨11⟩]⟩ := by decide
  obtain ⟨slot, hslot, hname⟩ := hslot
  have hkept : r.KeptOut swapped.overrides ⟨11⟩ :=
    ⟨slot, hslot, _, hname ▸ hgiven, List.mem_singleton_self _⟩
  have hput : r.PutIn swapped.overrides ⟨12⟩ :=
    ⟨slot, hslot, _, hname ▸ hgiven, List.mem_singleton_self _⟩
  have hfree : ¬r.KeptOut swapped.overrides ⟨12⟩ := by
    rw [← Resolved.isOptedOut_iff hr]
    decide
  obtain ⟨hnone, _⟩ := (override_precedence Float default default hr ⟨11⟩).1 hkept
  obtain ⟨x, hu, _, hsafe, _⟩ := (override_precedence Float default default hr ⟨12⟩).2 hfree hput
    (.numeric 12) ⟨course 12, List.mem_cons_of_mem _ List.mem_cons_self, rfl, rfl⟩
  exact ⟨hkept, hput, hnone, x, hu, hsafe⟩

end Audit

end DegreeProgress
