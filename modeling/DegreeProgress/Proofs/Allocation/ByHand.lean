import DegreeProgress.Proofs.Allocation.Shared

/-!
# Identities put in by hand

A requirement owns an identity by hand (`OwnsByHand`) if it does not share its courses and is the
only such one with a row of the identity put in by hand.  In the safe graph

* no other requirement of this kind has a row of the identity (`OwnsByHand.not_keeps`);
* the owner has the rows put in by hand, but those that it matches only if it would be preferred for
  them, had nobody put in anything (`OwnsByHand.keeps_iff`).

An exam can stand for several courses under one identity, so an owner may match some of its rows and
lose them to nobody.
-/

namespace DegreeProgress

namespace Allocation

/-- the only requirement of those that do not share their courses to have the identity by hand -/
structure OwnsByHand (requirements : List Resolved) (courses : List Course) (r : Resolved)
    (u : UniqueId) : Prop where
  mem : r ∈ requirements
  exclusive : r.doubleCounting = false
  optsIn : r.OptsIn courses u
  only : ∀ r' ∈ requirements, r'.doubleCounting = false → r'.OptsIn courses u → r' = r

/-- the requirement alone matches the identity, or is the first that matches nothing else -/
def Preferred (requirements : List Resolved) (courses : List Course) (r : Resolved) (u : UniqueId) :
    Prop :=
  (∀ r' ∈ requirements, r'.doubleCounting = false → r'.MatchesId courses u → r' = r) ∨
    FirstDedicated requirements courses r u

section
variable {requirements : List Resolved} {courses : List Course} {r : Resolved} {u : UniqueId}

theorem OwnsByHand.wins_iff (h : OwnsByHand requirements courses r u) :
    Wins requirements courses r u ↔ Preferred requirements courses r u :=
  ⟨fun hw => hw.preferred, fun hp => ⟨h.only, hp⟩⟩

theorem OwnsByHand.keeps_iff (h : OwnsByHand requirements courses r u) {c : Course}
    (hu : c.uniqueId = u) : Keeps requirements courses r c
      ↔ r.isOptedIn c.courseId = true ∨ Preferred requirements courses r u := by
  have hd : ¬r.doubleCounting = true := by
    rw [h.exclusive]
    exact Bool.false_ne_true
  unfold Keeps
  rw [hu, h.wins_iff]
  exact or_iff_right hd

theorem OwnsByHand.not_keeps (h : OwnsByHand requirements courses r u) {r' : Resolved}
    (hr' : r' ∈ requirements) (hd' : r'.doubleCounting = false) (hne : r' ≠ r) {c : Course}
    (hc : c ∈ courses) (hu : c.uniqueId = u) : ¬Keeps requirements courses r' c := by
  rintro (hshare | hin | hwins)
  · rw [hd'] at hshare
    exact Bool.false_ne_true hshare
  · exact hne (h.only r' hr' hd' ⟨c, hc, hu, hin⟩)
  · rw [hu] at hwins
    exact hne (hwins.unclaimed r h.mem h.exclusive h.optsIn).symm

variable (hids : (requirements.map (·.id)).Nodup) (h : OwnsByHand requirements courses r u)
include hids h

theorem OwnsByHand.uniqueId_ne {r' : Resolved} (hr' : r' ∈ requirements)
    (hd' : r'.doubleCounting = false) (hne : r' ≠ r) {c : Course}
    (hc : c ∈ (Allocation.of requirements courses).safe.coursesOf r'.id) : c.uniqueId ≠ u := by
  intro hu
  obtain ⟨hdang, hkeeps⟩ := (mem_safe courses hids hr' c).mp hc
  have hmem := (mem_dangerous courses hids hr' hdang).1
  exact h.not_keeps hr' hd' hne hmem hu hkeeps

/-- the owner has all its rows for sure, unless it matches one and is not preferred -/
theorem OwnsByHand.filter_eq_iff :
    ((Allocation.of requirements courses).safe.coursesOf r.id).filter (fun c => c.uniqueId = u)
        = ((Allocation.of requirements courses).dangerous.coursesOf r.id).filter
          (fun c => c.uniqueId = u)
      ↔ (r.MatchesId courses u → Preferred requirements courses r u) := by
  constructor
  · rintro heq ⟨c, hc, hu, hmatch⟩
    have hcand := Resolved.isCandidate_of_isMatched hmatch
    -- the dangerous graph connects `c`, or a row with its identities
    obtain ⟨c', hc', hsame⟩ :=
      List.mem_map.mp (identities_mem_dangerous courses hids h.mem hc hcand)
    obtain ⟨hu', hk'⟩ := (c'.identities_eq_iff c).mp hsame
    have hu'' : c'.uniqueId = u := hu'.trans hu
    have hrow : c' ∈ ((Allocation.of requirements courses).dangerous.coursesOf r.id).filter
        (fun c => c.uniqueId = u) := List.mem_filter.mpr ⟨hc', decide_eq_true hu''⟩
    rw [← heq] at hrow
    have hsafe := (List.mem_filter.mp hrow).1
    have hkeeps := ((mem_safe courses hids h.mem c').mp hsafe).2
    have hnot : r.isOptedIn c'.courseId = false := by
      rw [hk']
      exact Resolved.not_isOptedIn_of_isMatched hmatch
    rcases (h.keeps_iff hu'').mp hkeeps with hin | hpref
    · rw [hnot] at hin
      exact absurd hin Bool.false_ne_true
    · exact hpref
  · intro hpref
    apply filter_coursesOf_eq_of_keeps courses hids h.mem
    intro c hc hcand hu
    have hu' : c.uniqueId = u := of_decide_eq_true hu
    rw [h.keeps_iff hu']
    cases hin : r.isOptedIn c.courseId with
    | true => exact Or.inl rfl
    | false => exact Or.inr (hpref ⟨c, hc, hu', Resolved.isMatched_of_isCandidate hcand hin⟩)

end

/-- **What an owner by hand gets.**  No other requirement that does not share its courses has a row
of the identity for sure.  The owner has the rows put in by hand, and the other ones iff it is
preferred; so it has all of them iff it matches none of them or is preferred. -/
theorem safe_of_ownsByHand {requirements : List Resolved} {courses : List Course} {r : Resolved}
    {u : UniqueId} (hids : (requirements.map (·.id)).Nodup)
    (h : OwnsByHand requirements courses r u) :
    let a := Allocation.of requirements courses
    (∀ r' ∈ requirements, r'.doubleCounting = false → r' ≠ r →
      ∀ c ∈ a.safe.coursesOf r'.id, c.uniqueId ≠ u) ∧
    (∀ c ∈ a.dangerous.coursesOf r.id, c.uniqueId = u →
      (c ∈ a.safe.coursesOf r.id
        ↔ r.isOptedIn c.courseId = true ∨ Preferred requirements courses r u)) ∧
    ((a.safe.coursesOf r.id).filter (fun c => c.uniqueId = u)
        = (a.dangerous.coursesOf r.id).filter (fun c => c.uniqueId = u)
      ↔ (r.MatchesId courses u → Preferred requirements courses r u)) := by
  refine ⟨?_, ?_, h.filter_eq_iff hids⟩
  · intro r' hr' hd' hne c hc
    exact h.uniqueId_ne hids hr' hd' hne hc
  · intro c hc hu
    rw [mem_safe courses hids h.mem, h.keeps_iff hu]
    exact and_iff_right hc

end Allocation

/-! ### an exam that stands for two courses -/

namespace Sample

def biology : ExamRecord := ⟨.ap, "Biology", 5⟩

def biologyRule : ExamRule :=
  ⟨"Biology", 4, 8.0, .ofList [(ExamRule.defaultCollege, [⟨200⟩, ⟨300⟩])], []⟩

def biologyRows : List Course := biologyRule.grant "EN" biology

def biologyElective : Resolved := (requirement "Elective" [⟨300⟩]).resolveDefault

/-- a requirement of course 300 with course 200 put in by hand -/
def biologyCore : Resolved :=
  (requirement "Core" [⟨300⟩]).resolve {}
    (.ofList [(⟨"Core"⟩, .ofList [("Core", ⟨[⟨200⟩], []⟩)])])

/-- the elective comes first and matches course 300 too -/
def biologyRequirements : List Resolved :=
  [biologyElective, biologyCore]

theorem biologyCore_ownsByHand :
    Allocation.OwnsByHand biologyRequirements biologyRows biologyCore (.named "AP Biology") where
  mem := List.mem_cons_of_mem _ List.mem_cons_self
  exclusive := rfl
  optsIn := by
    unfold Resolved.OptsIn
    decide +kernel
  only := by
    intro r hr _ hin
    rcases List.mem_cons.mp hr with rfl | hr
    · have hnot : ¬biologyElective.OptsIn biologyRows (.named "AP Biology") := by
        unfold Resolved.OptsIn
        decide +kernel
      exact absurd hin hnot
    · exact List.mem_singleton.mp hr

end Sample

namespace Allocation

open Sample

/-- the elective has no row of the exam -/
theorem safe_of_ownsByHand_biology :
    (biologyRequirements.map (·.id)).Nodup ∧
    OwnsByHand biologyRequirements biologyRows biologyCore (.named "AP Biology") ∧
    ∀ c ∈ (Allocation.of biologyRequirements biologyRows).safe.coursesOf ⟨"Elective"⟩,
      c.uniqueId ≠ .named "AP Biology" := by
  have hids : (biologyRequirements.map (·.id)).Nodup := by decide
  have hne : biologyElective ≠ biologyCore :=
    fun e => absurd (congrArg Resolved.id e) (by decide)
  have hothers := (safe_of_ownsByHand hids biologyCore_ownsByHand).1 biologyElective
    List.mem_cons_self rfl hne
  exact ⟨hids, biologyCore_ownsByHand, hothers⟩

/-- **An owner can lose a row to nobody.**  The core requirement owns the exam by hand, so the
elective does not get course 300; it comes first among the requirements that match nothing else, so
the core requirement does not get it either. -/
theorem owner_loses_row :
    let a := Allocation.of biologyRequirements biologyRows
    (biologyRequirements.map (·.id)).Nodup ∧
    OwnsByHand biologyRequirements biologyRows biologyCore (.named "AP Biology") ∧
    (a.safe.coursesOf biologyCore.id).filter (fun c => c.uniqueId = .named "AP Biology")
      ≠ (a.dangerous.coursesOf biologyCore.id).filter (fun c => c.uniqueId = .named "AP Biology") ∧
    ∀ r ∈ biologyRequirements, ⟨300⟩ ∉ (a.safe.coursesOf r.id).map (·.courseId) := by
  intro a
  refine ⟨by decide, biologyCore_ownsByHand, ?_, ?_⟩
  · intro heq
    have hlen := congrArg List.length heq
    exact absurd hlen (by decide +kernel)
  · decide +kernel

end Allocation

end DegreeProgress
