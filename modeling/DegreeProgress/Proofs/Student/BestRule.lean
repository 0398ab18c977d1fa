import DegreeProgress.Proofs.FirstRows
import DegreeProgress.Student.Exam
import DegreeProgress.Decimal.Binary
import Mathlib.Algebra.BigOperators.Group.List.Basic
import Mathlib.Algebra.Order.Ring.Rat
import Mathlib.Data.List.Infix

/-!
# The best rule for an exam

Of the rules about an exam the one counts that asks for the highest score within reach, and of
several that ask for this score the first (`ExamRule.IsBest`).

* `ExamRule.foldl_better_eq_some_iff`   the program's search finds this rule,
* `ExamRule.foldl_better_eq_none_iff`   or none where no rule is within reach;
* `ExamRule.IsBest.of_reordered`        the order of rules that ask for different scores does not
                                        matter;
* `ExamRule.grants_grant`               the rule gives its credits to one course;
* `ExamTable.convertExam_by_best`       so an exam becomes what its best rule says.
-/

namespace DegreeProgress

theorem occursIn_iff (needle text : List Char) : occursIn needle text = true ↔ needle <:+: text := by
  induction text with
  | nil => rw [occursIn, List.isEmpty_iff, List.infix_nil]
  | cons c cs ih => rw [occursIn, Bool.or_eq_true, ih, List.isPrefixOf_iff_prefix, List.infix_cons_iff]

namespace ExamRule

/-- the rule's name contains the subject of the exam, which is given -/
def IsAbout (r : ExamRule) (e : ExamRecord) : Prop :=
  e.subject ≠ "" ∧ e.subject.toList <:+: r.name.toList

instance (r : ExamRule) (e : ExamRecord) : Decidable (r.IsAbout e) :=
  inferInstanceAs (Decidable (_ ∧ _))

/-- the first rule that asks for its score, with no rule within reach that asks for a higher one -/
structure IsBest (rules : List ExamRule) (score : UInt32) (b : ExamRule) : Prop where
  first : rules.find? (·.minimumScore = b.minimumScore) = some b
  withinReach : b.minimumScore ≤ score
  highest : ∀ r ∈ rules, r.minimumScore ≤ score → r.minimumScore ≤ b.minimumScore

/-- the same rules in another order, where those within reach that ask for one score keep their
order -/
structure Reordered (score : UInt32) (rules rules' : List ExamRule) : Prop where
  perm : rules.Perm rules'
  ties : ∀ m ≤ score, rules.filter (·.minimumScore = m) = rules'.filter (·.minimumScore = m)

/-- the courses that stand for an exam in a college: those listed for the college, and else those
listed for all other colleges, if any -/
inductive Lists (r : ExamRule) (college : String) : List CourseId → Prop where
  | own {ids : List CourseId} : r.equivalents.get? college = some ids → Lists r college ids
  | shared {ids : List CourseId} : r.equivalents.get? college = none →
      r.equivalents.get? defaultCollege = some ids → Lists r college ids
  | nothing : r.equivalents.get? college = none → r.equivalents.get? defaultCollege = none →
      Lists r college []

/-- the rows of an exam that takes its credits from a rule: one row for each course that stands for
it, led by a carrier of credits unless there is just one, and all credits in the first row -/
structure Grants (r : ExamRule) (college : String) (rows : List Course) : Prop where
  courseIds : ∃ ids, r.Lists college ids ∧
    rows.map (·.courseId) = if ids.length = 1 then ids else .credits :: ids
  credits : ∃ first others, rows = first :: others ∧ first.credits = r.credits ∧
    ∀ c ∈ others, c.credits = 0.0
  total : (rows.map (exactValue ·.credits)).sum = exactValue r.credits

/-! ### the search -/

section
variable {rules : List ExamRule} {score : UInt32} {b b' : ExamRule}

theorem IsBest.mem (h : IsBest rules score b) : b ∈ rules := List.mem_of_find?_eq_some h.first

theorem IsBest.unique (h : IsBest rules score b) (h' : IsBest rules score b') : b' = b := by
  have heq : b'.minimumScore = b.minimumScore :=
    UInt32.le_antisymm (h.highest b' h'.mem h'.withinReach) (h'.highest b h.mem h.withinReach)
  have hfirst := h'.first
  rw [heq, h.first] at hfirst
  exact (Option.some.inj hfirst).symm

/-- a later rule changes nothing if it is out of reach or asks for no more -/
theorem IsBest.append (h : IsBest rules score b) {r : ExamRule}
    (hr : r.minimumScore ≤ score → r.minimumScore ≤ b.minimumScore) :
    IsBest (rules ++ [r]) score b := by
  refine ⟨by rw [List.find?_append, h.first, Option.some_or], h.withinReach, fun x hx hreach => ?_⟩
  rcases List.mem_append.mp hx with hx | hx
  · exact h.highest x hx hreach
  · rw [List.mem_singleton.mp hx] at hreach ⊢
    exact hr hreach

theorem isBest_append_self {r : ExamRule} (hr : r.minimumScore ≤ score)
    (h : ∀ x ∈ rules, x.minimumScore ≤ score → x.minimumScore < r.minimumScore) :
    IsBest (rules ++ [r]) score r := by
  have hnone : rules.find? (fun x => x.minimumScore = r.minimumScore) = none := by
    rw [List.find?_eq_none]
    intro x hx heq
    have heq := of_decide_eq_true heq
    have hlt := h x hx (heq ▸ hr)
    rw [heq] at hlt
    exact absurd hlt (UInt32.lt_irrefl _)
  refine ⟨by simp [List.find?_append, hnone], hr, fun x hx hreach => ?_⟩
  rcases List.mem_append.mp hx with hx | hx
  · exact UInt32.le_of_lt (h x hx hreach)
  · rw [List.mem_singleton.mp hx]
    exact UInt32.le_refl _

theorem foldl_better_append (r : ExamRule) (within : List ExamRule) :
    (within ++ [r]).foldl better none = better (within.foldl better none) r := by
  rw [List.foldl_append]
  rfl

theorem foldl_better_eq_none_iff :
    (rules.filter (·.minimumScore ≤ score)).foldl better none = none
      ↔ ∀ r ∈ rules, score < r.minimumScore := by
  have hempty : ∀ within : List ExamRule, within.foldl better none = none ↔ within = [] := by
    intro within
    induction within using List.reverseRecOn with
    | nil => simp
    | append_singleton within r _ =>
      rw [foldl_better_append]
      unfold better
      split
      · split <;> simp
      · simp
  rw [hempty, List.filter_eq_nil_iff]
  simp only [decide_eq_true_eq, UInt32.not_le]

theorem isBest_of_foldl_better
    (h : (rules.filter (·.minimumScore ≤ score)).foldl better none = some b) :
    IsBest rules score b := by
  induction rules using List.reverseRecOn generalizing b with
  | nil => cases h
  | append_singleton rules r ih =>
    rw [List.filter_append] at h
    by_cases hr : r.minimumScore ≤ score
    · rw [List.filter_singleton, decide_eq_true hr, cond_true, foldl_better_append] at h
      unfold better at h
      split at h
      · rename_i current hcurrent
        have hbest := ih hcurrent
        split at h
        · rename_i hle
          exact Option.some.inj h ▸ hbest.append fun _ => hle
        · rename_i hlt
          rw [UInt32.not_le] at hlt
          rw [← Option.some.inj h]
          exact isBest_append_self hr fun x hx hreach =>
            UInt32.lt_of_le_of_lt (hbest.highest x hx hreach) hlt
      · rename_i hnone
        have habove := foldl_better_eq_none_iff.mp hnone
        rw [← Option.some.inj h]
        exact isBest_append_self hr fun x hx hreach =>
          absurd (habove x hx) (UInt32.not_lt.mpr hreach)
    · rw [List.filter_singleton, decide_eq_false hr, cond_false, List.append_nil] at h
      exact (ih h).append fun hreach => absurd hreach hr

theorem foldl_better_eq_some_iff :
    (rules.filter (·.minimumScore ≤ score)).foldl better none = some b ↔ IsBest rules score b := by
  constructor
  · exact isBest_of_foldl_better
  · intro h
    cases hfold : (rules.filter (·.minimumScore ≤ score)).foldl better none with
    | none =>
      have habove := foldl_better_eq_none_iff.mp hfold b h.mem
      exact absurd h.withinReach (UInt32.not_le.mpr habove)
    | some b' => rw [h.unique (isBest_of_foldl_better hfold)]

end

theorem isBest_cases (rules : List ExamRule) (score : UInt32) :
    rules = [] ∨ (rules ≠ [] ∧ ∀ r ∈ rules, score < r.minimumScore) ∨
      ∃ b, IsBest rules score b := by
  by_cases hempty : rules = []
  · exact Or.inl hempty
  · cases hfold : (rules.filter (·.minimumScore ≤ score)).foldl better none with
    | none => exact Or.inr (Or.inl ⟨hempty, foldl_better_eq_none_iff.mp hfold⟩)
    | some b => exact Or.inr (Or.inr ⟨b, isBest_of_foldl_better hfold⟩)

/-! ### reordering -/

section
variable {score : UInt32} {rules rules' : List ExamRule}

theorem Reordered.symm (h : Reordered score rules rules') : Reordered score rules' rules :=
  ⟨h.perm.symm, fun m hm => (h.ties m hm).symm⟩

/-- where no two rules within reach ask for one score, any order will do -/
theorem Reordered.of_untied (hperm : rules.Perm rules')
    (huntied : ((rules.filter (·.minimumScore ≤ score)).map (·.minimumScore)).Nodup) :
    Reordered score rules rules' := by
  refine ⟨hperm, fun m hm => ?_⟩
  have hreach : rules.filter (·.minimumScore = m)
      = (rules.filter (·.minimumScore ≤ score)).filter (·.minimumScore = m) := by
    rw [List.filter_filter]
    apply List.filter_congr
    intro r _
    by_cases hr : r.minimumScore = m
    · simp [hr, hm]
    · simp [hr]
  -- at most one rule asks for the score
  have hone : rules.filter (·.minimumScore = m)
      = ((rules.filter (·.minimumScore ≤ score)).find? (·.minimumScore = m)).toList := by
    rw [hreach, ← filter_key_firstPer, firstPer_eq_self _ huntied]
  have hfilter := hperm.filter (·.minimumScore = m)
  rw [hone] at hfilter ⊢
  cases hfind : (rules.filter (·.minimumScore ≤ score)).find? (·.minimumScore = m) with
  | none =>
    rw [hfind, Option.toList_none] at hfilter
    exact (List.nil_perm.mp hfilter).symm
  | some r =>
    rw [hfind, Option.toList_some] at hfilter
    rw [Option.toList_some, List.perm_singleton.mp hfilter.symm]

theorem IsBest.of_reordered (h : Reordered score rules rules') {b : ExamRule}
    (hb : IsBest rules score b) : IsBest rules' score b := by
  refine ⟨?_, hb.withinReach, fun r hr => hb.highest r (h.perm.mem_iff.mpr hr)⟩
  rw [← List.head?_filter, ← h.ties b.minimumScore hb.withinReach, List.head?_filter]
  exact hb.first

theorem isBest_iff_of_reordered (h : Reordered score rules rules') (b : ExamRule) :
    IsBest rules score b ↔ IsBest rules' score b :=
  ⟨IsBest.of_reordered h, IsBest.of_reordered h.symm⟩

end

/-! ### what a rule grants -/

/-- the rule does not grant credits for the major -/
def Excludes (r : ExamRule) (major : Option String) : Prop := ∃ m ∈ major, m ∈ r.excludedMajors

theorem any_excludedMajors (r : ExamRule) (major : Option String) :
    major.any (r.excludedMajors.contains ·) = true ↔ r.Excludes major := by
  rw [Option.any_eq_true]
  simp only [List.contains_iff_mem]
  rfl

instance (r : ExamRule) (major : Option String) : Decidable (r.Excludes major) :=
  decidable_of_iff _ (r.any_excludedMajors major)

theorem lists_equivalentsFor (r : ExamRule) (college : String) :
    r.Lists college (r.equivalentsFor college) := by
  unfold equivalentsFor
  cases hown : r.equivalents.get? college with
  | some ids => exact .own hown
  | none =>
    rw [Option.none_or]
    cases hshared : r.equivalents.get? defaultCollege with
    | some ids => exact .shared hown hshared
    | none => exact .nothing hown hshared

theorem exactValue_zero : exactValue 0.0 = 0 := by decide +kernel

theorem grants_grant (r : ExamRule) (college : String) (e : ExamRecord) :
    r.Grants college (r.grant college e) := by
  have hlists := r.lists_equivalentsFor college
  unfold grant
  split
  · rename_i id hids
    rw [hids] at hlists
    exact ⟨⟨[id], hlists, rfl⟩, ⟨_, [], rfl, rfl, by simp⟩, by simp [ExamRecord.course]⟩
  · rename_i hne
    generalize r.equivalentsFor college = ids at hlists hne
    have hlength : ids.length ≠ 1 := by
      intro hone
      obtain ⟨id, rfl⟩ := List.length_eq_one_iff.mp hone
      exact hne id rfl
    refine ⟨⟨ids, hlists, ?_⟩, ⟨_, _, rfl, rfl, ?_⟩, ?_⟩
    · rw [if_neg hlength, List.map_cons, List.map_map]
      simp [Function.comp_def, ExamRecord.course]
    · intro c hc
      obtain ⟨id, _, rfl⟩ := List.mem_map.mp hc
      rfl
    · simp [Function.comp_def, ExamRecord.course, exactValue_zero]

theorem grant_ne_nil (r : ExamRule) (college : String) (e : ExamRecord) :
    r.grant college e ≠ [] := by
  obtain ⟨first, others, heq, _⟩ := (r.grants_grant college e).credits
  rw [heq]
  exact List.cons_ne_nil _ _

theorem exists_of_mem_grant {r : ExamRule} {college : String} {e : ExamRecord} {c : Course}
    (h : c ∈ r.grant college e) : ∃ id credits, c = e.course id credits := by
  unfold grant at h
  split at h
  · exact ⟨_, _, List.mem_singleton.mp h⟩
  · rcases List.mem_cons.mp h with rfl | h
    · exact ⟨_, _, rfl⟩
    · obtain ⟨id, _, rfl⟩ := List.mem_map.mp h
      exact ⟨id, _, rfl⟩

end ExamRule

/-! ### one exam -/

namespace ExamTable

variable (t : ExamTable) (college : String) (major : Option String) (e : ExamRecord)

open ExamRule

theorem rulesFor_eq : t.rulesFor e = (t.rules e.program).filter (·.IsAbout e) := by
  unfold rulesFor
  split
  · rename_i hempty
    have hsubject : e.subject = "" := by simpa using hempty
    simp [IsAbout, hsubject]
  · rename_i hgiven
    have hsubject : e.subject ≠ "" := by simpa using hgiven
    apply List.filter_congr
    intro r _
    show r.covers e = decide (r.IsAbout e)
    rw [Bool.eq_iff_iff, decide_eq_true_iff, IsAbout, and_iff_right hsubject]
    exact occursIn_iff _ _

variable {t e}

theorem convertExam_of_unknown (h : t.rulesFor e = []) :
    t.convertExam college major e = [e.course .noEquivalent 0.0] := by
  dsimp only [convertExam]
  rw [h, List.isEmpty_nil, if_pos rfl]

theorem convertExam_of_tooLow (hknown : t.rulesFor e ≠ [])
    (hlow : ∀ r ∈ t.rulesFor e, e.score < r.minimumScore) :
    t.convertExam college major e = [] := by
  dsimp only [convertExam]
  rw [if_neg (by rwa [List.isEmpty_iff]), foldl_better_eq_none_iff.mpr hlow]

theorem convertExam_of_isBest {b : ExamRule} (h : IsBest (t.rulesFor e) e.score b) :
    t.convertExam college major e
      = if b.Excludes major then [e.course .noEquivalent 0.0] else b.grant college e := by
  have hknown := List.ne_nil_of_mem h.mem
  dsimp only [convertExam]
  rw [if_neg (by rwa [List.isEmpty_iff]), foldl_better_eq_some_iff.mpr h]
  simp only [any_excludedMajors]

/-- an exam stays without an equivalent, becomes nothing, or gets what its best rule grants -/
theorem convertExam_cases :
    t.convertExam college major e = [e.course .noEquivalent 0.0] ∨
      t.convertExam college major e = [] ∨
      ∃ b ∈ t.rulesFor e, t.convertExam college major e = b.grant college e := by
  rcases isBest_cases (t.rulesFor e) e.score with hunknown | ⟨hknown, hlow⟩ | ⟨b, hb⟩
  · exact Or.inl (convertExam_of_unknown college major hunknown)
  · exact Or.inr (Or.inl (convertExam_of_tooLow college major hknown hlow))
  · rw [convertExam_of_isBest college major hb]
    split
    · exact Or.inl rfl
    · exact Or.inr (Or.inr ⟨b, hb.mem, rfl⟩)

theorem exists_of_mem_convertExam {c : Course} (h : c ∈ t.convertExam college major e) :
    ∃ id credits, c = e.course id credits := by
  rcases t.convertExam_cases college major with heq | heq | ⟨b, _, heq⟩
  · rw [heq] at h
    exact ⟨_, _, List.mem_singleton.mp h⟩
  · rw [heq] at h
    exact absurd h List.not_mem_nil
  · rw [heq] at h
    exact exists_of_mem_grant h

theorem convertExam_eq_nil_iff : t.convertExam college major e = [] ↔
    t.rulesFor e ≠ [] ∧ ∀ r ∈ t.rulesFor e, e.score < r.minimumScore := by
  rcases isBest_cases (t.rulesFor e) e.score with hunknown | ⟨hknown, hlow⟩ | ⟨b, hb⟩
  · simp [convertExam_of_unknown college major hunknown, hunknown]
  · exact iff_of_true (convertExam_of_tooLow college major hknown hlow) ⟨hknown, hlow⟩
  · refine iff_of_false ?_ fun h => UInt32.not_le.mpr (h.2 b hb.mem) hb.withinReach
    rw [convertExam_of_isBest college major hb]
    split
    · exact List.cons_ne_nil _ _
    · exact b.grant_ne_nil college e

theorem convertExam_of_reordered {t' : ExamTable}
    (h : Reordered e.score (t.rulesFor e) (t'.rulesFor e)) :
    t'.convertExam college major e = t.convertExam college major e := by
  rcases isBest_cases (t.rulesFor e) e.score with hunknown | ⟨hknown, hlow⟩ | ⟨b, hb⟩
  · have hunknown' : t'.rulesFor e = [] := (hunknown ▸ h.perm).nil_eq.symm
    rw [convertExam_of_unknown college major hunknown,
      convertExam_of_unknown college major hunknown']
  · have hknown' : t'.rulesFor e ≠ [] := fun hnil => hknown (hnil ▸ h.perm).eq_nil
    have hlow' : ∀ r ∈ t'.rulesFor e, e.score < r.minimumScore := fun r hr =>
      hlow r (h.perm.mem_iff.mpr hr)
    rw [convertExam_of_tooLow college major hknown hlow,
      convertExam_of_tooLow college major hknown' hlow']
  · rw [convertExam_of_isBest college major hb,
      convertExam_of_isBest college major (hb.of_reordered h)]

/-- **An exam becomes what its best rule says.**  Of the rules about it the first one counts that
asks for the highest score within reach, in whatever order the table has them; it grants its credits
once.  Without any rule, or for a major that the rule excludes, the exam stays a course without an
equivalent, and a score below all rules leaves nothing. -/
theorem convertExam_by_best (t : ExamTable) (college : String) (major : Option String)
    (e : ExamRecord) :
    let known := (t.rules e.program).filter (·.IsAbout e)
    let rows := t.convertExam college major e
    (known = [] → rows = [e.course .noEquivalent 0.0]) ∧
    (known ≠ [] → (∀ r ∈ known, e.score < r.minimumScore) → rows = []) ∧
    ((∃ r ∈ known, r.minimumScore ≤ e.score) → ∃ b, IsBest known e.score b ∧
      (b.Excludes major → rows = [e.course .noEquivalent 0.0]) ∧
      (¬b.Excludes major → b.Grants college rows)) ∧
    (∀ c ∈ rows, c.uniqueId = .named (e.program.name ++ " " ++ e.subject) ∧
      c.code = e.program.name ++ " " ++ e.subject) ∧
    ∀ t' : ExamTable,
      let known' := (t'.rules e.program).filter (·.IsAbout e)
      Reordered e.score known known' →
        (∀ b, IsBest known e.score b ↔ IsBest known' e.score b) ∧
          t'.convertExam college major e = rows := by
  intro known rows
  have hrules : t.rulesFor e = known := t.rulesFor_eq e
  refine ⟨fun h => ?_, fun hknown hlow => ?_, fun ⟨r, hr, hreach⟩ => ?_, fun c hc => ?_,
    fun t' => ?_⟩
  · exact convertExam_of_unknown college major (hrules.trans h)
  · exact (convertExam_eq_nil_iff college major).mpr (hrules ▸ ⟨hknown, hlow⟩)
  · rcases isBest_cases known e.score with hnil | ⟨_, hlow⟩ | ⟨b, hb⟩
    · exact absurd hr (hnil ▸ List.not_mem_nil)
    · exact absurd hreach (UInt32.not_le.mpr (hlow r hr))
    · have heq := convertExam_of_isBest college major (hrules ▸ hb)
      refine ⟨b, hb, fun hmajor => heq.trans (if_pos hmajor), fun hmajor => ?_⟩
      show b.Grants college (t.convertExam college major e)
      rw [heq, if_neg hmajor]
      exact b.grants_grant college e
  · obtain ⟨id, credits, rfl⟩ := exists_of_mem_convertExam college major hc
    exact ⟨rfl, rfl⟩
  · intro known' hreordered
    refine ⟨isBest_iff_of_reordered hreordered, ?_⟩
    apply convertExam_of_reordered
    rw [hrules, t'.rulesFor_eq e]
    exact hreordered

end ExamTable

namespace Sample

/-- a rule for which two courses stand -/
def systemsRule : ExamRule :=
  ⟨"Chemical and Physical Systems", 6, 8.0, .ofList [("DEFAULT", [⟨355142⟩, ⟨355143⟩])], []⟩

/-- a rule that asks for less, and not for majors in chemistry -/
def basicSystemsRule : ExamRule :=
  ⟨"Chemical and Physical Systems", 5, 4.0, .ofList [("EN", [⟨355142⟩])], ["CHEM"]⟩

def systemsTable : ExamTable := ⟨[], [basicSystemsRule, systemsRule]⟩

def systemsExam (score : UInt32) : ExamRecord := ⟨.ib, "Physical Systems", score⟩

end Sample

namespace ExamTable

open ExamRule Sample

/-- with a score of six the second rule counts for a major in chemistry, also where it comes first;
four is too low, and Latin is not in the table -/
theorem convertExam_by_best_systems :
    let known := (systemsTable.rules .ib).filter (·.IsAbout (systemsExam 6))
    let known' := ([systemsRule, basicSystemsRule]).filter (·.IsAbout (systemsExam 6))
    let rows := systemsTable.convertExam "EN" (some "CHEM") (systemsExam 6)
    (∃ b, IsBest known 6 b ∧ ¬b.Excludes (some "CHEM") ∧ b.Grants "EN" rows) ∧
    (Reordered 6 known known' ∧
      ExamTable.convertExam ⟨[], [systemsRule, basicSystemsRule]⟩ "EN" (some "CHEM")
        (systemsExam 6) = rows) ∧
    (systemsTable.rules .ib).filter (·.IsAbout (systemsExam 4)) ≠ [] ∧
    systemsTable.convertExam "EN" none (systemsExam 4) = [] ∧
    systemsTable.convertExam "EN" none ⟨.ap, "Latin", 5⟩
      = [ExamRecord.course ⟨.ap, "Latin", 5⟩ .noEquivalent 0.0] := by
  intro known known' rows
  have hspec := convertExam_by_best systemsTable "EN" (some "CHEM") (systemsExam 6)
  have hreach : ∃ r ∈ known, r.minimumScore ≤ 6 := by decide +kernel
  have htaken : ∀ b ∈ known, 6 ≤ b.minimumScore → "CHEM" ∉ b.excludedMajors := by decide +kernel
  have huntied : ((known.filter (·.minimumScore ≤ 6)).map (·.minimumScore)).Nodup := by
    decide +kernel
  have hreordered : Reordered 6 known known' :=
    .of_untied ((List.Perm.swap systemsRule basicSystemsRule []).filter _) huntied
  have hknown : (systemsTable.rules .ib).filter (·.IsAbout (systemsExam 4)) ≠ [] :=
    List.length_pos_iff.mp (by decide +kernel)
  have hlow : ∀ r ∈ (systemsTable.rules .ib).filter (·.IsAbout (systemsExam 4)),
      4 < r.minimumScore := by
    decide +kernel
  obtain ⟨b, hb, _, hgranted⟩ := hspec.2.2.1 hreach
  obtain ⟨sixth, hsixth, hsix⟩ : ∃ r ∈ known, r.minimumScore = 6 := by decide +kernel
  have hexcluded : ¬b.Excludes (some "CHEM") := by
    rintro ⟨m, hchem, hm⟩
    have hsixb : 6 ≤ b.minimumScore := hsix ▸ hb.highest sixth hsixth (hsix ▸ UInt32.le_refl _)
    exact htaken b hb.mem hsixb (Option.mem_some.mp hchem ▸ hm)
  exact ⟨⟨b, hb, hexcluded, hgranted hexcluded⟩,
    ⟨hreordered, (hspec.2.2.2.2 ⟨[], [systemsRule, basicSystemsRule]⟩ hreordered).2⟩, hknown,
    (convertExam_by_best systemsTable "EN" none (systemsExam 4)).2.1 hknown hlow,
    (convertExam_by_best systemsTable "EN" none ⟨.ap, "Latin", 5⟩).1 rfl⟩

end ExamTable

end DegreeProgress
