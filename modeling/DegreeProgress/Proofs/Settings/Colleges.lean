import DegreeProgress.Proofs.Sorted.Views
import DegreeProgress.Settings.Basic

/-!
# The colleges of a credit policy

Settings list colleges with their rules, and the policy made from them looks rules up by the trimmed
name of a college.

* `Settings.collegesFault?_eq_none_iff`   lists without a fault: the trimmed names are neither empty
                                          nor repeated;
* `Settings.creditsFault?_eq_none_iff`    so no fault is found iff, apart from the amount and the
                                          number of entries, no name is blank and none is lost;
* `CreditSettings.keeps_colleges`         without a fault every entry is found in the policy.
-/

namespace DegreeProgress

namespace CollegeCredits

/-- the name under which a policy keeps the rule -/
def key (c : CollegeCredits) : String := trimmed c.college

end CollegeCredits

/-! ### faults -/

namespace Settings

/-- the names seen so far take part in the search for a repeated one -/
theorem collegesFault?_eq_none_iff {seen : List String} {cs : List CollegeCredits} :
    collegesFault? seen cs = none ↔
      (∀ c ∈ cs, c.key ≠ "") ∧ (cs.map (·.key)).Nodup ∧ ∀ c ∈ cs, c.key ∉ seen := by
  induction cs generalizing seen with
  | nil => simp [collegesFault?]
  | cons c cs ih =>
    have hstep : collegesFault? seen (c :: cs) =
        if c.key.isEmpty then some .blankCollege
        else if seen.contains c.key then some (.repeatedCollege c.key)
        else collegesFault? (c.key :: seen) cs := rfl
    rw [hstep, List.map_cons, List.nodup_cons, List.forall_mem_cons, List.forall_mem_cons]
    by_cases hblank : c.key = ""
    · rw [if_pos (String.isEmpty_iff.mpr hblank)]
      simp [hblank]
    · rw [if_neg (mt String.isEmpty_iff.mp hblank)]
      by_cases hseen : c.key ∈ seen
      · rw [if_pos (List.contains_iff_mem.mpr hseen)]
        simp [hseen]
      · -- the rest is searched with this name among those seen
        have hfresh : (∀ d ∈ cs, d.key ∉ c.key :: seen) ↔
            c.key ∉ cs.map (·.key) ∧ ∀ d ∈ cs, d.key ∉ seen := by
          simp only [List.mem_cons, not_or, List.mem_map, not_exists, not_and, forall_and,
            ne_comm, ne_eq]
        rw [if_neg (mt List.contains_iff_mem.mp hseen), ih, hfresh]
        constructor
        · rintro ⟨hnamed, hnd, hnew, hunseen⟩
          exact ⟨⟨hblank, hnamed⟩, ⟨hnew, hnd⟩, hseen, hunseen⟩
        · rintro ⟨⟨_, hnamed⟩, ⟨hnew, hnd⟩, _, hunseen⟩
          exact ⟨hnamed, hnd, hnew, hunseen⟩

end Settings

/-! ### the policy -/

namespace CreditSettings

variable (s : CreditSettings)

/-- the entries that the policy is made from -/
def rules : List (String × CreditEligibility) := s.colleges.map fun c => (c.key, c.eligibility)

theorem colleges_policy : s.policy.colleges = .ofList s.rules := rfl

theorem map_fst_rules : s.rules.map (·.1) = s.colleges.map (·.key) := by
  unfold rules
  rw [List.map_map]
  rfl

theorem length_rules : s.rules.length = s.colleges.length := List.length_map _

theorem size_policy_iff :
    s.policy.colleges.size = s.colleges.length ↔ (s.colleges.map (·.key)).Nodup := by
  rw [colleges_policy, ← length_rules, SortedMap.size_ofList_eq_length_iff, map_fst_rules]

theorem size_policy_le : s.policy.colleges.size ≤ s.colleges.length := by
  rw [colleges_policy, ← length_rules]
  exact SortedMap.size_ofList_le s.rules

theorem mem_keys_policy (name : String) :
    name ∈ s.policy.colleges.keys ↔ ∃ c ∈ s.colleges, c.key = name := by
  rw [colleges_policy, SortedMap.mem_keys_ofList, map_fst_rules, List.mem_map]

theorem get?_policy {c : CollegeCredits} (hnd : (s.colleges.map (·.key)).Nodup)
    (hc : c ∈ s.colleges) : s.policy.colleges.get? c.key = some c.eligibility := by
  rw [colleges_policy]
  apply SortedMap.get?_ofList_of_mem
  · rwa [map_fst_rules]
  · exact List.mem_map_of_mem (f := fun c => (c.key, c.eligibility)) hc

end CreditSettings

/-- what settings need to have no fault in their credits -/
theorem Settings.creditsFault?_eq_none_iff (s : CreditSettings) :
    Settings.creditsFault? s = none ↔
      isFinitePositive s.required = true ∧ s.colleges.length ≤ maxColleges ∧
      (∀ c ∈ s.colleges, c.key ≠ "") ∧ s.policy.colleges.size = s.colleges.length := by
  have hlist : collegesFault? [] s.colleges = none ↔
      (∀ c ∈ s.colleges, c.key ≠ "") ∧ s.policy.colleges.size = s.colleges.length := by
    rw [collegesFault?_eq_none_iff, s.size_policy_iff]
    simp
  unfold creditsFault?
  by_cases hrequired : isFinitePositive s.required = true
  · by_cases hlength : s.colleges.length ≤ maxColleges
    · rw [if_neg (by simp [hrequired]), if_neg (Nat.not_lt.mpr hlength), hlist]
      simp [hrequired, hlength]
    · rw [if_neg (by simp [hrequired]), if_pos (Nat.lt_of_not_le hlength)]
      simp [hlength]
  · rw [if_pos (by simpa using hrequired)]
    simp [hrequired]

namespace CreditSettings

/-- **A policy without a fault loses no college.**  It has as many colleges as the settings list,
none without a name, and each entry is found under its trimmed name.  Apart from the amount and the
number of entries, nothing else is a fault: with one, a name is blank or a college is lost. -/
theorem keeps_colleges (s : CreditSettings) :
    (Settings.creditsFault? s = none →
      s.policy.colleges.size = s.colleges.length ∧ (∀ name ∈ s.policy.colleges.keys, name ≠ "") ∧
      ∀ c ∈ s.colleges, s.policy.colleges.get? (trimmed c.college) = some c.eligibility) ∧
    (isFinitePositive s.required = true → s.colleges.length ≤ Settings.maxColleges →
      Settings.creditsFault? s ≠ none →
      (∃ c ∈ s.colleges, trimmed c.college = "") ∨
        s.policy.colleges.size < s.colleges.length) := by
  rw [ne_eq, Settings.creditsFault?_eq_none_iff]
  constructor
  · rintro ⟨_, _, hnamed, hsize⟩
    refine ⟨hsize, fun name hname => ?_, fun c hc => s.get?_policy (s.size_policy_iff.mp hsize) hc⟩
    obtain ⟨c, hc, rfl⟩ := (s.mem_keys_policy name).mp hname
    exact hnamed c hc
  · intro hrequired hlength hfault
    by_cases hblank : ∃ c ∈ s.colleges, trimmed c.college = ""
    · exact .inl hblank
    · right
      have hnamed : ∀ c ∈ s.colleges, c.key ≠ "" := fun c hc hc' => hblank ⟨c, hc, hc'⟩
      refine Nat.lt_of_le_of_ne s.size_policy_le fun hsize => ?_
      exact hfault ⟨hrequired, hlength, hnamed, hsize⟩

/-- one name with blanks around it, and one that differs from it in letter case -/
def padded : CreditSettings :=
  ⟨true, 120.0, [⟨"\u00a0AG\u3000", .excludePE⟩, ⟨"ag", .excludePEAndIntro⟩]⟩

/-- two names that differ in blanks only -/
def doubled : CreditSettings :=
  ⟨true, 120.0, [⟨"AG", .excludePE⟩, ⟨" AG ", .excludePEAndIntro⟩]⟩

/-- blanks around a name are no part of it, and its letter case is -/
theorem keeps_colleges_padded :
    Settings.creditsFault? padded = none ∧ padded.policy.colleges.size = 2 ∧
    padded.policy.colleges.get? "AG" = some .excludePE ∧
    Settings.creditsFault? doubled = some (.repeatedCollege "AG") ∧
    doubled.policy.colleges.size < 2 := by
  have hfine : Settings.creditsFault? padded = none := by decide
  have hfault : Settings.creditsFault? doubled = some (.repeatedCollege "AG") := by decide
  obtain ⟨hsize, _, hfound⟩ := (keeps_colleges padded).1 hfine
  have hag := hfound ⟨"\u00a0AG\u3000", .excludePE⟩ List.mem_cons_self
  have hname : trimmed "\u00a0AG\u3000" = "AG" := by decide
  rw [hname] at hag
  refine ⟨hfine, hsize, hag, hfault, ?_⟩
  have hlost := (keeps_colleges doubled).2 (by decide) (by decide) (by rw [hfault]; simp)
  exact hlost.resolve_left (by decide)

end CreditSettings

end DegreeProgress
