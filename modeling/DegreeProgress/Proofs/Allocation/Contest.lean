import DegreeProgress.Proofs.Allocation.Graphs

/-!
# The contest for identities

Requirements that do not share their courses contend for a course identity.  `Wins` says who gets
it, by rows and requirements alone:

* nobody else has put the identity in by hand, and
* the requirement is the only one to match it, or the first one that matches nothing else.

`Allocation.wins_iff` says that the program decides the contest so, and `Allocation.mem_safe` that
the safe graph keeps a candidate iff its requirement shares its courses, has it by hand, or wins.
-/

namespace DegreeProgress

namespace Allocation

open CourseGraph

/-- the requirement is the first that shares no course and matches the identity alone -/
def FirstDedicated (requirements : List Resolved) (courses : List Course) (r : Resolved)
    (u : UniqueId) : Prop :=
  ∃ before after, requirements = before ++ r :: after ∧ r.MatchesOnly courses u ∧
    ∀ r' ∈ before, r'.doubleCounting = false → ¬r'.MatchesOnly courses u

/-- the requirement gets an identity that it matches -/
structure Wins (requirements : List Resolved) (courses : List Course) (r : Resolved)
    (u : UniqueId) : Prop where
  unclaimed : ∀ r' ∈ requirements, r'.doubleCounting = false → r'.OptsIn courses u → r' = r
  preferred :
    (∀ r' ∈ requirements, r'.doubleCounting = false → r'.MatchesId courses u → r' = r) ∨
      FirstDedicated requirements courses r u

/-- the safe graph keeps a candidate -/
def Keeps (requirements : List Resolved) (courses : List Course) (r : Resolved) (c : Course) :
    Prop :=
  r.doubleCounting = true ∨ r.isOptedIn c.courseId = true ∨
    Wins requirements courses r c.uniqueId

/-! ### the positions of rivals -/

section
variable {requirements : List Resolved} {courses : List Course}

theorem mem_rivals (f : Contender → Bool) (i : Nat) :
    i ∈ rivals (requirements.map (Contender.of courses)) f
      ↔ ∃ r, requirements[i]? = some r ∧ r.doubleCounting = false
          ∧ f (Contender.of courses r) = true := by
  refine (mem_positions_iff _ (fun c => !c.requirement.doubleCounting && f c) i).trans ?_
  rw [List.getElem?_map]
  constructor
  · rintro ⟨c, hc, hp⟩
    obtain ⟨r, hr, rfl⟩ := Option.map_eq_some_iff.mp hc
    rw [Bool.and_eq_true, Bool.not_eq_true'] at hp
    exact ⟨r, hr, hp⟩
  · rintro ⟨r, hr, hp⟩
    refine ⟨Contender.of courses r, Option.map_eq_some_iff.mpr ⟨r, hr, rfl⟩, ?_⟩
    rw [Bool.and_eq_true, Bool.not_eq_true']
    exact hp

theorem rivals_increasing (contenders : List Contender) (f : Contender → Bool) :
    (rivals contenders f).Pairwise (· < ·) := by
  have hall : (contenders.zipIdx.map (·.2)).Pairwise (· < ·) := by
    rw [List.zipIdx_map_snd]
    exact List.pairwise_lt_range'
  exact hall.sublist (List.filter_sublist.map _)

theorem head?_eq_some_iff_least {l : List Nat} (hl : l.Pairwise (· < ·)) (i : Nat) :
    l.head? = some i ↔ i ∈ l ∧ ∀ j ∈ l, i ≤ j := by
  cases l with
  | nil => simp
  | cons a as =>
    have ha := (List.pairwise_cons.mp hl).1
    rw [List.head?_cons, Option.some.injEq]
    constructor
    · rintro rfl
      refine ⟨List.mem_cons_self, fun j hj => ?_⟩
      rcases List.mem_cons.mp hj with rfl | hj
      · exact Nat.le_refl j
      · exact Nat.le_of_lt (ha j hj)
    · rintro ⟨hi, hle⟩
      rcases List.mem_cons.mp hi with rfl | hi
      · rfl
      · have h1 := ha i hi
        have h2 := hle a List.mem_cons_self
        omega

variable (courses) (hids : (requirements.map (·.id)).Nodup) {r : Resolved} {i : Nat}
  (hr : requirements[i]? = some r)
include hids hr

/-- no rival at another position: no rival at all but the requirement itself -/
theorem rivals_only_iff (f : Contender → Bool) :
    (∀ j ∈ rivals (requirements.map (Contender.of courses)) f, j = i)
      ↔ ∀ r' ∈ requirements, r'.doubleCounting = false → f (Contender.of courses r') = true →
          r' = r := by
  constructor
  · intro h r' hr' hd hf
    obtain ⟨j, hj⟩ := List.getElem?_of_mem hr'
    have hji := h j ((mem_rivals f j).mpr ⟨r', hj, hd, hf⟩)
    subst hji
    rw [hr] at hj
    exact (Option.some.inj hj).symm
  · intro h j hj
    obtain ⟨r', hj', hd, hf⟩ := (mem_rivals f j).mp hj
    have hrr := h r' (List.mem_of_getElem? hj') hd hf
    subst hrr
    exact index_unique hids hj' hr rfl

theorem head?_rivals_iff (hd : r.doubleCounting = false) (f : Contender → Bool) :
    (rivals (requirements.map (Contender.of courses)) f).head? = some i
      ↔ ∃ before after, requirements = before ++ r :: after ∧ f (Contender.of courses r) = true ∧
          ∀ r' ∈ before, r'.doubleCounting = false → ¬f (Contender.of courses r') = true := by
  rw [head?_eq_some_iff_least (rivals_increasing _ f)]
  constructor
  · rintro ⟨hi, hle⟩
    obtain ⟨r₁, hr₁, _, hf⟩ := (mem_rivals f i).mp hi
    rw [hr] at hr₁
    cases Option.some.inj hr₁
    obtain ⟨hlt, hget⟩ := List.getElem?_eq_some_iff.mp hr
    refine ⟨requirements.take i, requirements.drop (i + 1), ?_, hf, ?_⟩
    · rw [← hget, List.getElem_cons_drop, List.take_append_drop]
    · intro r' hr' hd' hf'
      obtain ⟨j, hj⟩ := List.getElem?_of_mem hr'
      have hji : j < i := by
        have h := (List.getElem?_eq_some_iff.mp hj).1
        rw [List.length_take] at h
        omega
      rw [List.getElem?_take_of_lt hji] at hj
      have h := hle j ((mem_rivals f j).mpr ⟨r', hj, hd', hf'⟩)
      omega
  · rintro ⟨before, after, hsplit, hf, hbefore⟩
    have hpos : requirements[before.length]? = some r := by
      rw [hsplit, List.getElem?_append_right (Nat.le_refl _), Nat.sub_self, List.getElem?_cons_zero]
    have hi : i = before.length := index_unique hids hr hpos rfl
    refine ⟨(mem_rivals f i).mpr ⟨r, hr, hd, hf⟩, fun j hj => ?_⟩
    obtain ⟨r', hj', hd', hf'⟩ := (mem_rivals f j).mp hj
    by_contra hlt
    have hjb : j < before.length := by omega
    rw [hsplit, List.getElem?_append_left hjb] at hj'
    exact hbefore r' (List.mem_of_getElem? hj') hd' hf'

variable {courses}

/-- **The contest.**  The program lets a requirement win an identity that it matches as `Wins`
says. -/
theorem wins_iff (hd : r.doubleCounting = false) {u : UniqueId} (hu : r.MatchesId courses u) :
    wins (requirements.map (Contender.of courses)) i u = true
      ↔ Wins requirements courses r u := by
  have hforced : (!(rivals (requirements.map (Contender.of courses))
      (·.forcedIds.contains u)).any (· != i)) = true
        ↔ ∀ r' ∈ requirements, r'.doubleCounting = false → r'.OptsIn courses u → r' = r := by
    have h := rivals_only_iff courses hids hr (·.forcedIds.contains u)
    simp only [Contender.contains_forcedIds] at h
    rw [← h]
    simp
  have hmatched : (rivals (requirements.map (Contender.of courses))
      (·.matchedIds.contains u)).length ≤ 1
        ↔ ∀ r' ∈ requirements, r'.doubleCounting = false → r'.MatchesId courses u → r' = r := by
    have h := rivals_only_iff courses hids hr (·.matchedIds.contains u)
    simp only [Contender.contains_matchedIds] at h
    rw [← h]
    have hmem : i ∈ rivals (requirements.map (Contender.of courses)) (·.matchedIds.contains u) :=
      (mem_rivals _ i).mpr ⟨r, hr, hd, (Contender.contains_matchedIds courses r u).mpr hu⟩
    have hnd : (rivals (requirements.map (Contender.of courses)) (·.matchedIds.contains u)).Nodup :=
      (rivals_increasing _ _).imp Nat.ne_of_lt
    exact length_le_one_iff hnd hmem
  have hdedicated := head?_rivals_iff courses hids hr hd
    fun c => c.matchedIds.contains u && c.matchedIds.size == 1
  simp only [Contender.dedicated_iff] at hdedicated
  unfold wins
  rw [Bool.and_eq_true, Bool.or_eq_true, hforced, decide_eq_true_eq, hmatched, beq_iff_eq,
    hdedicated]
  exact ⟨fun h => ⟨h.1, h.2⟩, fun h => ⟨h.unclaimed, h.preferred⟩⟩

theorem keepsSafely_iff {c : Course} (hc : c ∈ courses) (hcand : r.isCandidate c = true) :
    keepsSafely (requirements.map (Contender.of courses)) i (Contender.of courses r)
        ⟨c, r.isOptedIn c.courseId⟩ = true
      ↔ Keeps requirements courses r c := by
  unfold keepsSafely Keeps
  rw [Bool.or_eq_true, Bool.or_eq_true, or_assoc]
  show r.doubleCounting = true ∨ r.isOptedIn c.courseId = true ∨ _ ↔ _
  cases hd : r.doubleCounting with
  | true => simp
  | false =>
    cases hin : r.isOptedIn c.courseId with
    | true => simp
    | false =>
      have hm := Resolved.isMatched_of_isCandidate hcand hin
      rw [wins_iff hids hr hd ⟨c, hc, rfl, hm⟩]

end

/-! ### the safe graph -/

section
variable {requirements : List Resolved} (courses : List Course)

theorem keepsSafely_congr (contenders : List Contender) (i : Nat) (r : Resolved) {c c' : Course}
    (h : c.identities = c'.identities) :
    keepsSafely contenders i (Contender.of courses r) ⟨c, r.isOptedIn c.courseId⟩
      = keepsSafely contenders i (Contender.of courses r) ⟨c', r.isOptedIn c'.courseId⟩ := by
  obtain ⟨hu, hk⟩ := (c.identities_eq_iff c').mp h
  unfold keepsSafely
  show (_ || r.isOptedIn c.courseId || wins contenders i c.uniqueId) = _
  rw [hu, hk]

section
variable (hids : (requirements.map (·.id)).Nodup) {r : Resolved} (hr : r ∈ requirements)
include hids hr

/-- **The safe graph** connects a requirement to the part of its candidates that it keeps. -/
theorem coursesOf_safe : ∃ keep : Course → Bool,
    (∀ c ∈ courses, r.isCandidate c = true → (keep c = true ↔ Keeps requirements courses r c)) ∧
    (Allocation.of requirements courses).safe.coursesOf r.id
      = ((Allocation.of requirements courses).dangerous.coursesOf r.id).filter keep := by
  obtain ⟨i, hi⟩ := List.getElem?_of_mem hr
  refine ⟨fun c => keepsSafely (requirements.map (Contender.of courses)) i (Contender.of courses r)
    ⟨c, r.isOptedIn c.courseId⟩, fun c hc hcand => keepsSafely_iff hids hi hc hcand, ?_⟩
  have h := coursesOf_graph (keepsSafely (requirements.map (Contender.of courses))) courses hids hi
  rw [coursesOf_dangerous courses hids hr, ← firstPer_filter, List.filter_filter]
  · exact h.trans (congrArg _ (List.filter_congr fun c _ => Bool.and_comm _ _))
  · intro c _ c' _ he
    exact keepsSafely_congr courses _ i r he

theorem mem_safe (c : Course) :
    c ∈ (Allocation.of requirements courses).safe.coursesOf r.id
      ↔ c ∈ (Allocation.of requirements courses).dangerous.coursesOf r.id
          ∧ Keeps requirements courses r c := by
  obtain ⟨keep, hkeep, heq⟩ := coursesOf_safe courses hids hr
  rw [heq, List.mem_filter]
  constructor
  · rintro ⟨hc, hk⟩
    obtain ⟨hmem, hcand⟩ := mem_dangerous courses hids hr hc
    exact ⟨hc, (hkeep c hmem hcand).mp hk⟩
  · rintro ⟨hc, hk⟩
    obtain ⟨hmem, hcand⟩ := mem_dangerous courses hids hr hc
    exact ⟨hc, (hkeep c hmem hcand).mpr hk⟩

/-- every candidate is connected in the dangerous graph, or a row with the same identities is -/
theorem identities_mem_dangerous {c : Course} (hc : c ∈ courses) (hcand : r.isCandidate c = true) :
    c.identities
      ∈ ((Allocation.of requirements courses).dangerous.coursesOf r.id).map Course.identities := by
  rw [coursesOf_dangerous courses hids hr, mem_map_firstPer]
  exact List.mem_map_of_mem (List.mem_filter.mpr ⟨hc, hcand⟩)

end

theorem coursesOf_safe_sublist (hids : (requirements.map (·.id)).Nodup) (id : RequirementId) :
    ((Allocation.of requirements courses).safe.coursesOf id).Sublist
      ((Allocation.of requirements courses).dangerous.coursesOf id) := by
  by_cases hid : id ∈ requirements.map (·.id)
  · obtain ⟨r, hr, rfl⟩ := List.mem_map.mp hid
    obtain ⟨keep, _, heq⟩ := coursesOf_safe courses hids hr
    rw [heq]
    exact List.filter_sublist
  · have hnil : (Allocation.of requirements courses).safe.coursesOf id = [] :=
      coursesOf_graph_eq_nil _ courses hid
    rw [hnil]
    exact List.nil_sublist _

theorem isCandidate_of_connected (hids : (requirements.map (·.id)).Nodup) {r : Resolved}
    (hr : r ∈ requirements) {connected : List Course}
    (hconnected : connected ∈ [(Allocation.of requirements courses).safe.coursesOf r.id,
      (Allocation.of requirements courses).dangerous.coursesOf r.id])
    {c : Course} (hc : c ∈ connected) : r.isCandidate c = true := by
  have hsub : connected ⊆ (Allocation.of requirements courses).dangerous.coursesOf r.id := by
    rcases List.mem_pair.mp hconnected with rfl | rfl
    · exact (coursesOf_safe_sublist courses hids r.id).subset
    · exact List.Subset.refl _
  exact (mem_dangerous courses hids hr (hsub hc)).2

end

theorem keeps_congr {requirements : List Resolved} {courses : List Course} {r : Resolved}
    {c c' : Course} (h : c.identities = c'.identities) (hk : Keeps requirements courses r c) :
    Keeps requirements courses r c' := by
  obtain ⟨hu, hid⟩ := (c.identities_eq_iff c').mp h
  unfold Keeps at hk ⊢
  rwa [← hu, ← hid]

/-- **Who gets a course for sure.**  The safe graph connects a requirement to one of its candidates
iff the requirement shares its courses, has the course by hand, or wins the contest for its
identity. -/
theorem containsEdge_safe_iff {requirements : List Resolved} {courses : List Course}
    (hids : (requirements.map (·.id)).Nodup) {r : Resolved} (hr : r ∈ requirements) {c : Course}
    (hc : c ∈ courses) (hcand : r.isCandidate c = true) :
    (Allocation.of requirements courses).safe.containsEdge r.id c = true
      ↔ r.doubleCounting = true ∨ r.isOptedIn c.courseId = true
          ∨ Wins requirements courses r c.uniqueId := by
  obtain ⟨log, hlog⟩ := records_safe requirements courses
  rw [hlog.containsEdge_iff_coursesOf, List.mem_map]
  constructor
  · rintro ⟨c', hc', he⟩
    exact keeps_congr he ((mem_safe courses hids hr c').mp hc').2
  · intro hk
    obtain ⟨c', hc', he⟩ := List.mem_map.mp (identities_mem_dangerous courses hids hr hc hcand)
    exact ⟨c', (mem_safe courses hids hr c').mpr ⟨hc', keeps_congr he.symm hk⟩, he⟩

/-- a course that two requirements match -/
theorem containsEdge_safe_iff_core :
    (Sample.requirements.map (·.id)).Nodup ∧
    Sample.core.resolveDefault ∈ Sample.requirements ∧
    Sample.course 11 ∈ Sample.courses ∧
    Sample.core.resolveDefault.isCandidate (Sample.course 11) = true ∧
    ((Allocation.of Sample.requirements Sample.courses).safe.containsEdge ⟨"Core"⟩
        (Sample.course 11) = true
      ↔ Sample.core.resolveDefault.doubleCounting = true
        ∨ Sample.core.resolveDefault.isOptedIn ⟨11⟩ = true
        ∨ Wins Sample.requirements Sample.courses Sample.core.resolveDefault (.numeric 11)) := by
  have hids : (Sample.requirements.map (·.id)).Nodup := by decide
  have hr : Sample.core.resolveDefault ∈ Sample.requirements := List.mem_cons_self
  have hc : Sample.course 11 ∈ Sample.courses := List.mem_cons_self
  have hcand : Sample.core.resolveDefault.isCandidate (Sample.course 11) = true := by decide
  exact ⟨hids, hr, hc, hcand, containsEdge_safe_iff hids hr hc hcand⟩

/-- the core course is safe for the requirement that takes nothing else -/
example : (Allocation.of Sample.requirements Sample.courses).safe.edges
    = [⟨⟨"Elective"⟩, .numeric 12, ⟨12⟩⟩, ⟨⟨"Core"⟩, .numeric 11, ⟨11⟩⟩] := by decide +kernel

end Allocation

end DegreeProgress
