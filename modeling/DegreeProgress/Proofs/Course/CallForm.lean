import DegreeProgress.Course.Checker
import DegreeProgress.Proofs.Course.Pattern
import DegreeProgress.Proofs.Expression.Parsing
import DegreeProgress.Proofs.Expression.Written
import DegreeProgress.Proofs.Rule.Tree

/-!
# Rules in call form

A course rule written with calls only: `all(..)`, `any(..)`, `not(..)` and `at_least(n, ..)` for
its groups, and a call with one argument for each of its questions.

* `CourseQuestion.Writable`           the questions that can be written;
* `CourseQuestion.resolve_callName`   such a question is resolved from its call;
* `Checker.readsBack_of_depth_le`     a rule of depth `n` is a factor that nests `n + 1` deep, since
                                      the calls of its leaves nest too;
* `Checker.parse_callForm`            so it is read back, unless it is too deep or too long.
-/

namespace DegreeProgress

open Expression

/-! ### questions -/

namespace CourseQuestion

/-- what a question asks for, in its call -/
def argument : CourseQuestion → Literal
  | code pattern => .text pattern.display
  | course id => .number id.value
  | subject name => .text name
  | minLevel level => .number level.toUInt64

/-- the name of the call of a question -/
def callName : CourseQuestion → String
  | code _ => "code"
  | course _ => "course"
  | subject _ => "subject"
  | minLevel _ => "min_level"

def callForm (q : CourseQuestion) : String := callText q.callName q.argument.written

/-- a question that some call asks, without a double quote where that would end a text -/
structure Writable (q : CourseQuestion) : Prop where
  resolved : ∃ name args, resolve name args = .ok q
  unquoted : ∀ name, q = subject name → '"' ∉ name.toList

theorem resolve_cases {name : String} {args : List Literal} {q : CourseQuestion}
    (h : resolve name args = .ok q) :
    (∃ text p, CodePattern.parse text = .ok p ∧ q = code p) ∨
    (∃ id, q = course id) ∨
    (∃ text, isAllBlank text = false ∧ q = subject (upperAscii (trimmed text))) ∨
    ∃ n : UInt64, 1 ≤ n ∧ n ≤ 9 ∧ q = minLevel n.toUInt8 := by
  unfold resolve at h
  split at h
  · rename_i text
    split at h
    · rename_i p hp
      cases h
      exact .inl ⟨text, p, hp, rfl⟩
    · cases h
  · cases h
    exact .inr (.inl ⟨_, rfl⟩)
  · rename_i text
    split at h
    · cases h
    · rename_i hblank
      cases h
      exact .inr (.inr (.inl ⟨text, by simpa using hblank, rfl⟩))
  · rename_i n
    split at h
    · rename_i hn
      cases h
      exact .inr (.inr (.inr ⟨n, hn.1, hn.2, rfl⟩))
    · cases h
  all_goals cases h

theorem resolve_subject {text : String} (h : isAllBlank text = false) :
    resolve "subject" [.text text] = .ok (.subject (upperAscii (trimmed text))) := by
  rw [resolve, h]
  rfl

theorem resolve_minLevel {n : UInt64} (h : 1 ≤ n ∧ n ≤ 9) :
    resolve "min_level" [.number n] = .ok (.minLevel n.toUInt8) := by
  rw [resolve, if_pos h]

/-- **A question is resolved from its call.** -/
theorem resolve_callName {q : CourseQuestion} (h : ∃ name args, resolve name args = .ok q) :
    resolve q.callName [q.argument] = .ok q := by
  obtain ⟨name, args, h⟩ := h
  rcases resolve_cases h with
    ⟨text, p, hp, rfl⟩ | ⟨id, rfl⟩ | ⟨text, hblank, rfl⟩ | ⟨n, h1, h9, rfl⟩
  · rw [callName, argument, resolve, CodePattern.parse_display hp]
  · rfl
  · rw [callName, argument, resolve_subject (isAllBlank_upperAscii_trimmed hblank),
      trimmed_upperAscii_trimmed, upperAscii_upperAscii]
  · have hle : n.toNat ≤ 9 := UInt64.le_iff_toNat_le.mp h9
    have hn : n.toUInt8.toUInt64 = n := by
      apply UInt64.toNat_inj.mp
      rw [UInt8.toNat_toUInt64, UInt64.toNat_toUInt8]
      omega
    rw [callName, argument, hn]
    exact resolve_minLevel ⟨h1, h9⟩

theorem isValid_argument {q : CourseQuestion} (h : q.Writable) :
    (literalToken q.argument).IsValid := by
  obtain ⟨⟨name, args, hresolve⟩, hquote⟩ := h
  rcases resolve_cases hresolve with
    ⟨text, p, hp, rfl⟩ | ⟨id, rfl⟩ | ⟨text, _, rfl⟩ | ⟨n, _, _, rfl⟩
  · exact CodePattern.unquoted_display hp
  · exact isValid_digits id.value.toNat
  · exact hquote _ rfl
  · exact isValid_digits n.toUInt8.toUInt64.toNat

theorem isValid_callName (q : CourseQuestion) : (Token.name q.callName).IsValid := by
  cases q <;> rw [callName] <;> exact isValid_name (by decide) (by decide)

theorem callName_not_mem_keywords (q : CourseQuestion) : q.callName ∉ keywords := by
  cases q <;> simp [callName, keywords]

theorem factor_call {q : CourseQuestion} (h : q.Writable) (n : Nat) :
    Factor resolve (n + 1) (callOf q.callName [literalToken q.argument]) (.leaf q) :=
  .leafCall q.callName_not_mem_keywords (.some (.one (literalPhrase_literalToken n q.argument)))
    (resolve_callName h.resolved)

theorem reads_callForm {q : CourseQuestion} (h : q.Writable) (rest : List Char) :
    Reads (callOf q.callName [literalToken q.argument]) (q.callForm.toList ++ rest) rest :=
  reads_call q.isValid_callName (isValid_argument h) rest

end CourseQuestion

/-! ### rules -/

namespace Checker

mutual

/-- the rule in call form, with `gap` after each comma -/
def callForm (gap : String) : Checker → String
  | .leaf q => q.callForm
  | .all ms => callText "all" (callForms gap ms)
  | .any ms => callText "any" (callForms gap ms)
  | .not r => callText "not" (callForm gap r)
  | .atLeast min ms => callText "at_least" (toString min ++ "," ++ gap ++ callForms gap ms)

/-- several rules in call form, with a comma between them -/
def callForms (gap : String) : List Checker → String
  | [] => ""
  | [r] => callForm gap r
  | r :: r' :: rs => callForm gap r ++ "," ++ gap ++ callForms gap (r' :: rs)

end

/-- the call form of the rule is a factor that nests at most `n` deep, whatever follows it -/
def ReadsBack (gap : String) (n : Nat) (r : Checker) : Prop :=
  ∃ ts, Factor CourseQuestion.resolve n ts r ∧
    ∀ rest, Reads ts ((callForm gap r).toList ++ rest) rest

section
variable {gap : String} {n : Nat} {ms : List Checker}

theorem disjunction_of_factor {ts : List Token} {r : Checker}
    (h : Factor CourseQuestion.resolve n ts r) :
    Disjunction (Factor CourseQuestion.resolve) n ts r :=
  Disjunction.of (.one (Conjunction.of (.one h)))

theorem exists_reads_callForms (hgap : ∀ ch ∈ gap.toList, Cursor.isGap ch = true) (hne : ms ≠ [])
    (h : ∀ r ∈ ms, ReadsBack gap n r) :
    ∃ ts, Separated .comma (Disjunction (Factor CourseQuestion.resolve)) n ts ms ∧
      ∀ rest, Reads ts ((callForms gap ms).toList ++ rest) rest := by
  induction ms with
  | nil => exact absurd rfl hne
  | cons r rs ih =>
    obtain ⟨ts, hts, hreads⟩ := h r List.mem_cons_self
    cases rs with
    | nil => exact ⟨ts, .one (disjunction_of_factor hts), hreads⟩
    | cons r' rs =>
      obtain ⟨us, hus, hreads'⟩ :=
        ih (List.cons_ne_nil _ _) fun x hx => h x (List.mem_cons_of_mem _ hx)
      have hne' : us ≠ [] := by
        obtain ⟨t, us', rfl, _⟩ := Separated.opens (Disjunction.opens Factor.opens) hus
        exact List.cons_ne_nil _ _
      refine ⟨_, .more (disjunction_of_factor hts) hus, fun rest => ?_⟩
      have hspelled : (callForms gap (r :: r' :: rs)).toList ++ rest
          = (callForm gap r).toList ++ (Mark.comma.text.toList ++
              (gap.toList ++ ((callForms gap (r' :: rs)).toList ++ rest))) := by
        simp only [callForms, String.toList_append, List.append_assoc]
        rfl
      rw [hspelled, reads_append]
      exact ⟨_, hreads _, _, leads_mark .comma, reads_gap hgap hne' (hreads' rest)⟩

theorem exists_reads_members (hgap : ∀ ch ∈ gap.toList, Cursor.isGap ch = true)
    (h : ∀ r ∈ ms, ReadsBack gap n r) :
    ∃ ts, CommaList (Disjunction (Factor CourseQuestion.resolve)) n ts ms ∧
      ∀ rest, Reads (ts ++ [.mark .closing]) ((callForms gap ms).toList ++ ')' :: rest) rest := by
  by_cases hms : ms = []
  · subst hms
    exact ⟨[], .none, fun rest => ⟨_, leads_mark .closing, rfl⟩⟩
  · obtain ⟨ts, hts, hreads⟩ := exists_reads_callForms hgap hms h
    refine ⟨ts, .some hts, fun rest => (reads_append _ _ _ _).mpr ⟨_, hreads _, ?_⟩⟩
    exact ⟨_, leads_mark .closing, rfl⟩

theorem readsBack_members
    (h : ∀ r ∈ ms, (∀ q ∈ r.leaves, q.Writable) → ∀ n, r.depth ≤ n → ReadsBack gap (n + 1) r)
    (hleaves : ∀ q ∈ Rule.leavesOf ms, q.Writable) (hn : Rule.depthBelow ms ≤ n) :
    ∀ r ∈ ms, ReadsBack gap n r := by
  intro r hr
  have hlt : r.depth < n := lt_of_lt_of_le (Rule.depth_lt_depthBelow hr) hn
  obtain ⟨m, rfl⟩ := Nat.exists_eq_succ_of_ne_zero (Nat.ne_zero_of_lt hlt)
  exact h r hr (fun q hq => hleaves q (Rule.mem_leavesOf.mpr ⟨r, hr, hq⟩)) m (Nat.le_of_lt_succ hlt)

/-- a rule of depth `n` is read back as a factor that nests `n + 1` deep -/
theorem readsBack_of_depth_le (hgap : ∀ ch ∈ gap.toList, Cursor.isGap ch = true) (r : Checker) :
    (∀ q ∈ r.leaves, q.Writable) → ∀ n, r.depth ≤ n → ReadsBack gap (n + 1) r := by
  -- every group leaves one level less to its members, and the call of a leaf needs the last one
  induction r using Rule.memberInduction with
  | leaf q =>
    intro hleaves n _
    have hq := hleaves q List.mem_cons_self
    exact ⟨_, CourseQuestion.factor_call hq n, CourseQuestion.reads_callForm hq⟩
  | all ms ih =>
    intro hleaves n hn
    obtain ⟨ts, hts, hreads⟩ := exists_reads_members hgap (readsBack_members ih hleaves hn)
    exact ⟨_, .allCall hts, fun rest => reads_callText (isValid_name rfl rfl) (hreads rest)⟩
  | any ms ih =>
    intro hleaves n hn
    obtain ⟨ts, hts, hreads⟩ := exists_reads_members hgap (readsBack_members ih hleaves hn)
    exact ⟨_, .anyCall hts, fun rest => reads_callText (isValid_name rfl rfl) (hreads rest)⟩
  | not r ih =>
    intro hleaves n hn
    have hlt : r.depth < n := hn
    obtain ⟨m, rfl⟩ := Nat.exists_eq_succ_of_ne_zero (Nat.ne_zero_of_lt hlt)
    obtain ⟨ts, hts, hreads⟩ := ih hleaves m (Nat.le_of_lt_succ hlt)
    refine ⟨_, .notCall (.some (.one (disjunction_of_factor hts))), fun rest => ?_⟩
    refine reads_callText (isValid_name rfl rfl) ((reads_append _ _ _ _).mpr ⟨_, hreads _, ?_⟩)
    exact ⟨_, leads_mark .closing, rfl⟩
  | atLeast min ms ih =>
    intro hleaves n hn
    obtain ⟨ts, hts, hreads⟩ := exists_reads_members hgap (readsBack_members ih hleaves hn)
    have hmin : digitsValue (toString min).toList = min.toNat := digitsValue_toString min.toNat
    have hcall := Factor.atLeastCall (hmin ▸ min.toNat_lt) hts
    rw [hmin, UInt8.ofNat_toNat] at hcall
    refine ⟨_, hcall, fun rest => reads_callText (isValid_name rfl rfl) ?_⟩
    have hspelled : (toString min ++ "," ++ gap ++ callForms gap ms).toList ++ ')' :: rest
        = (Token.digits (toString min)).spelling ++ (Mark.comma.text.toList ++
            (gap.toList ++ ((callForms gap ms).toList ++ ')' :: rest))) := by
      simp only [String.toList_append, List.append_assoc]
      rfl
    rw [hspelled]
    refine ⟨_, leads_spelling (isValid_digits min.toNat) fun ch hch => ?_, _, leads_mark .comma,
      reads_gap hgap (by simp) (hreads rest)⟩
    cases hch
    rfl

/-- **A written rule is read back.**  The call form of a well shaped rule, with any gap after its
commas, is read as this rule if no node lies deeper than level 31 and the form has at most 16384
bytes. -/
theorem parse_callForm (gap : String) (r : Checker)
    (hgap : ∀ ch ∈ gap.toList, Cursor.isGap ch = true) (hshape : r.fault? = none)
    (hdepth : r.depth ≤ 31) (hleaves : ∀ q ∈ r.leaves, q.Writable)
    (hsize : (callForm gap r).utf8ByteSize ≤ 16384) :
    Expression.parse CourseQuestion.resolve (callForm gap r) = .ok r := by
  obtain ⟨ts, hts, hreads⟩ := readsBack_of_depth_le hgap r hleaves 31 hdepth
  have hspells : Spells ts (callForm gap r).toList := by
    refine ⟨[], ?_, by simp⟩
    have h := hreads []
    rwa [List.append_nil] at h
  exact parse_of_spells hsize hspells (disjunction_of_factor hts) hshape

end

end Checker

namespace Sample

def mathematics : CourseQuestion := .code ⟨"MATH", CodePattern.numberOf "4*1"⟩

/-- two of a kind of mathematics course, no physical education, and a course or a level -/
def mathematicsRule : Checker :=
  .atLeast 2 [.leaf mathematics, .not (.leaf (.subject "PE")),
    .any [.leaf (.course ⟨358526⟩), .leaf (.minLevel 3)]]

theorem writable_of_mem_leaves : ∀ q ∈ mathematicsRule.leaves, q.Writable := by
  intro q hq
  have hcases : q = mathematics ∨ q = .subject "PE" ∨ q = .course ⟨358526⟩ ∨ q = .minLevel 3 := by
    simpa [mathematicsRule, Rule.leaves, Rule.leavesOf] using hq
  rcases hcases with rfl | rfl | rfl | rfl
  · exact ⟨⟨"code", [.text "math 4*1"], by decide⟩, fun _ h => by cases h⟩
  · exact ⟨⟨"subject", [.text " pe "], by decide⟩, fun _ h => by cases h; decide⟩
  · exact ⟨⟨"course", [.number 358526], rfl⟩, fun _ h => by cases h⟩
  · exact ⟨⟨"min_level", [.number 3], rfl⟩, fun _ h => by cases h⟩

end Sample

namespace Checker

/-- a rule with every kind of question, and one of each group but `all` -/
theorem parse_callForm_mathematicsRule :
    callForm " " Sample.mathematicsRule
      = "at_least(2, code(\"MATH 4*1\"), not(subject(\"PE\")), any(course(358526), min_level(3)))" ∧
    Expression.parse CourseQuestion.resolve (callForm " " Sample.mathematicsRule)
      = .ok Sample.mathematicsRule :=
  ⟨by decide, parse_callForm " " Sample.mathematicsRule (by simp; rfl) rfl (by decide)
    Sample.writable_of_mem_leaves (by decide)⟩

end Checker

end DegreeProgress
