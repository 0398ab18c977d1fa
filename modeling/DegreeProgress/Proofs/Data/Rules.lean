import DegreeProgress.Data.Course
import DegreeProgress.Proofs.Course.Pattern
import DegreeProgress.Proofs.Data.RoundTrip
import DegreeProgress.Proofs.Rule.Tree

/-!
# Rules that are read back

A rule is written as a tree of documents, and a code pattern in it as its text.

* `CodePattern.decode_pattern_iff`     a pattern is read back iff it is the pattern of some text,
* `CourseQuestion.decode_question_iff` and so is a question about one;
* `Rule.ofDocument?_toDocument_iff`    a tree is read back iff the questions at its leaves are, where
                                       as many levels are read as its document has;
* `Checker.decode_rule_iff`            a rule about courses is read back iff its patterns are those
                                       of texts.
-/

namespace DegreeProgress

@[simp] theorem decode_courseId (id : CourseId) : decode .plain (encode id) = some id := by
  show (decode .plain (encode id.value)).map CourseId.mk = some id
  rw [decode_uint64, Option.map_some]

/-! ### questions -/

theorem CodePattern.decode_pattern_iff {p : CodePattern} :
    decode .plain (encode p) = some p ↔ ∃ text, CodePattern.parse text = .ok p := by
  show (CodePattern.parse p.display).toOption = some p ↔ _
  constructor
  · intro h
    refine ⟨p.display, ?_⟩
    cases hparse : CodePattern.parse p.display with
    | ok p' =>
      rw [hparse] at h
      cases h
      rfl
    | error e =>
      rw [hparse] at h
      cases h
  · rintro ⟨text, h⟩
    rw [CodePattern.parse_display h]
    rfl

/-- the pattern that a question asks for, if any, is that of some text -/
def CourseQuestion.IsOfText (q : CourseQuestion) : Prop :=
  ∀ p, q = .code p → ∃ text, CodePattern.parse text = .ok p

theorem CourseQuestion.decode_question_iff {q : CourseQuestion} :
    decode .plain (encode q) = some q ↔ q.IsOfText := by
  unfold CourseQuestion.IsOfText
  cases q with
  | code p =>
    show (decode .plain (encode p)).map CourseQuestion.code = some (.code p) ↔ _
    simp [CodePattern.decode_pattern_iff]
  | course id =>
    show (decode .plain (encode id)).map CourseQuestion.course = some (.course id) ↔ _
    simp
  | subject name =>
    show (decode .plain (encode name)).map CourseQuestion.subject = some (.subject name) ↔ _
    simp
  | minLevel level =>
    show (decode .plain (encode level)).map CourseQuestion.minLevel = some (.minLevel level) ↔ _
    simp

/-! ### trees -/

namespace Rule

variable {P : Type}

theorem forall_mem_leavesOf_iff {ms : List (Rule P)} {p : P → Prop} :
    (∀ q ∈ leavesOf ms, p q) ↔ ∀ r ∈ ms, ∀ q ∈ r.leaves, p q := by
  simp only [mem_leavesOf]
  exact ⟨fun h r hr q hq => h q ⟨r, hr, hq⟩, fun h q ⟨r, hr, hq⟩ => h r hr q hq⟩

section
variable [Encode P]

theorem levels_le_list {r : Rule P} {ms : List (Rule P)} (h : r ∈ ms) :
    r.toDocument.levels ≤ (Document.list (toDocuments ms)).levels := by
  have hle : r.toDocument.levels ≤ Document.levelsOf (toDocuments ms) := by
    induction ms with
    | nil => cases h
    | cons m ms ih =>
      rw [toDocuments, Document.levelsOf]
      rcases List.mem_cons.mp h with rfl | h
      · exact Nat.le_max_left _ _
      · exact (ih h).trans (Nat.le_max_right _ _)
  exact Nat.le_succ_of_le hle

end

theorem exists_of_levels_object {n : Nat} {ms : List (String × Document)}
    (h : (Document.object ms).levels ≤ n) : ∃ k, n = k + 1 ∧ ∀ e ∈ ms, e.2.levels ≤ k := by
  have hmembers : ∀ e ∈ ms, e.2.levels ≤ Document.memberLevels ms := by
    intro e he
    clear h
    induction ms with
    | nil => cases he
    | cons m ms ih =>
      rw [Document.memberLevels]
      rcases List.mem_cons.mp he with rfl | he
      · exact Nat.le_max_left _ _
      · exact (ih he).trans (Nat.le_max_right _ _)
  rw [Document.levels] at h
  obtain ⟨k, rfl⟩ := Nat.exists_eq_add_one.mpr (Nat.lt_of_succ_le (Nat.le_of_add_left_le h))
  exact ⟨k, rfl, fun e he => (hmembers e he).trans (Nat.le_of_succ_le_succ h)⟩

variable [Decode P] (n : Nat)

/-! the five kinds of nodes, on a level that is read -/

theorem ofDocument?_leaf (d : Document) :
    ofDocument? (n + 1) (.object [("leaf", d)]) = (decode .plain d).map (leaf (P := P)) := rfl

theorem ofDocument?_all (ds : List Document) :
    ofDocument? (n + 1) (.object [("all", .list ds)]) =
      (ds.mapM (ofDocument? n)).map (all (P := P)) := rfl

theorem ofDocument?_any (ds : List Document) :
    ofDocument? (n + 1) (.object [("any", .list ds)]) =
      (ds.mapM (ofDocument? n)).map (any (P := P)) := rfl

theorem ofDocument?_not (d : Document) :
    ofDocument? (n + 1) (.object [("not", d)]) = (ofDocument? n d).map (not (P := P)) := rfl

theorem ofDocument?_atLeast (min : UInt8) (ds : List Document) :
    ofDocument? (n + 1)
        (.object [("at_least", .object [("min", encode min), ("members", .list ds)])]) =
      (ds.mapM (ofDocument? n)).map (atLeast (P := P) min) := by
  have hfields : (Document.object [("min", encode min), ("members", .list ds)]).fields? .plain
      ["min", "members"] false = some [("min", encode min), ("members", .list ds)] :=
    fields?_object .plain (List.Sublist.refl _) (by decide)
  have hread : ofDocument? (n + 1)
      (.object [("at_least", .object [("min", encode min), ("members", .list ds)])]) =
        (ds.mapM (ofDocument? n)).bind fun members => some (atLeast (P := P) min members) := by
    simp [ofDocument?, Document.tagged?, hfields, Document.required, List.lookup_cons, items?]
  rw [hread, Option.map_eq_bind]
  rfl

section
variable [Encode P]

theorem mapM_toDocuments_iff {ms : List (Rule P)} :
    (toDocuments ms).mapM (ofDocument? n) = some ms ↔
      ∀ r ∈ ms, ofDocument? n r.toDocument = some r := by
  induction ms with
  | nil => simp [toDocuments]
  | cons m ms ih =>
    rw [toDocuments, List.mapM_cons, List.forall_mem_cons, ← ih]
    simp [Option.bind_eq_some_iff]

theorem map_group_iff {group : List (Rule P) → Rule P} (hgroup : Function.Injective group)
    {ms : List (Rule P)} (hn : (Document.list (toDocuments ms)).levels ≤ n)
    (ih : ∀ r ∈ ms, ∀ n, r.toDocument.levels ≤ n →
      (ofDocument? n r.toDocument = some r ↔ ∀ q ∈ r.leaves, decode .plain (encode q) = some q)) :
    ((toDocuments ms).mapM (ofDocument? n)).map group = some (group ms) ↔
      ∀ q ∈ leavesOf ms, decode .plain (encode q) = some q := by
  rw [← Option.map_some, (Option.map_injective hgroup).eq_iff, mapM_toDocuments_iff,
    forall_mem_leavesOf_iff]
  exact forall₂_congr fun r hr => ih r hr n ((levels_le_list hr).trans hn)

/-- a tree is read back iff the questions at its leaves are -/
theorem ofDocument?_toDocument_iff {r : Rule P} (h : r.toDocument.levels ≤ n) :
    ofDocument? n r.toDocument = some r ↔
      ∀ q ∈ r.leaves, decode .plain (encode q) = some q := by
  induction r using memberInduction generalizing n with
  | leaf q =>
    obtain ⟨n, rfl, _⟩ := exists_of_levels_object h
    rw [toDocument, ofDocument?_leaf, leaves]
    simp
  | all ms ih =>
    obtain ⟨n, rfl, hmembers⟩ := exists_of_levels_object h
    rw [toDocument, ofDocument?_all, leaves]
    exact map_group_iff n (fun _ _ h => all.inj h) (hmembers _ List.mem_cons_self)
      fun r hr n => ih r hr n
  | any ms ih =>
    obtain ⟨n, rfl, hmembers⟩ := exists_of_levels_object h
    rw [toDocument, ofDocument?_any, leaves]
    exact map_group_iff n (fun _ _ h => any.inj h) (hmembers _ List.mem_cons_self)
      fun r hr n => ih r hr n
  | not r ih =>
    obtain ⟨n, rfl, hmembers⟩ := exists_of_levels_object h
    rw [toDocument, ofDocument?_not, leaves, ← ih n (hmembers _ List.mem_cons_self),
      ← Option.map_some, (Option.map_injective fun _ _ h => not.inj h).eq_iff]
  | atLeast min ms ih =>
    obtain ⟨n, rfl, hgroup⟩ := exists_of_levels_object h
    -- the members stand in an object of their own, beside the minimum
    obtain ⟨k, rfl, hmembers⟩ := exists_of_levels_object (hgroup _ List.mem_cons_self)
    have hlist := hmembers _ (List.mem_cons_of_mem _ List.mem_cons_self)
    rw [toDocument, ofDocument?_atLeast, leaves]
    exact map_group_iff _ (fun _ _ h => (atLeast.inj h).2) (hlist.trans (Nat.le_succ k))
      fun r hr n => ih r hr n

theorem decode_tree_iff {r : Rule P} :
    decode .plain (encode r) = some r ↔ ∀ q ∈ r.leaves, decode .plain (encode q) = some q :=
  ofDocument?_toDocument_iff _ (Nat.le_refl _)

end

end Rule

/-- **Rules about courses are read back.**  What is written for a rule, of any shape and any depth,
is read as that rule iff each code pattern in it is the pattern of some text. -/
theorem Checker.decode_rule_iff (r : Checker) :
    decode .plain (encode r) = some r ↔
      ∀ p, .code p ∈ r.leaves → ∃ text, CodePattern.parse text = .ok p := by
  rw [Rule.decode_tree_iff]
  simp only [CourseQuestion.decode_question_iff, CourseQuestion.IsOfText]
  constructor
  · exact fun h p hp => h _ hp p rfl
  · rintro h q hq p rfl
    exact h p hq

/-- what is written for a rule: each node under the name of its kind -/
example : encode (.not (.atLeast 0 [.leaf (.subject "CS"), .all []]) : Checker) =
    .object [("not", .object [("at_least", .object [("min", .integer 0), ("members", .list
      [.object [("leaf", .object [("subject", .text "CS")])], .object [("all", .list [])]])])])] :=
  rfl

end DegreeProgress
