import DegreeProgress.Course.Checker
import DegreeProgress.Proofs.Expression.Parsing
import DegreeProgress.Proofs.Expression.Written
import DegreeProgress.Proofs.Rule.Tree
import Mathlib.Data.List.Forall2

/-!
# Lists as shorthand

A checker may be declared as a list of codes or of catalog courses.  It is the same checker as the
expression that asks for each of them by a call, with `||` between the calls.

* `Expression.exists_factor_call`         a call on one literal is read exactly if the resolver has
                                          a question for it;
* `Expression.exists_separated_calls`     calls with `||` between them are read one by one,
* `Expression.parse_callList_eq_ok_iff`   so the text is a rule exactly if each call is resolved;
* `Checker.compile_lists`                 and then it is the rule of the list.
-/

namespace DegreeProgress

/-- calls of one name, each on one literal -/
def callList (name : String) (ls : List Literal) : String :=
  " || ".intercalate (ls.map fun l => callText name l.written)

namespace Expression

/-- the tokens of calls of one name, each on one literal -/
def callTokens (name : String) : List Literal → List Token
  | [] => []
  | [l] => callOf name [literalToken l]
  | l :: l' :: ls => callOf name [literalToken l] ++ .mark .or :: callTokens name (l' :: ls)

section
variable {name : String} {ls : List Literal}

theorem length_le_callTokens (name : String) (ls : List Literal) :
    ls.length ≤ (callTokens name ls).length := by
  induction ls with
  | nil => exact Nat.zero_le _
  | cons l ls ih =>
    cases ls with
    | nil => simp [callTokens]
    | cons l' ls =>
      simp only [callTokens, List.length_append, List.length_cons] at ih ⊢
      omega

theorem callTokens_ne_nil (name : String) (hne : ls ≠ []) : callTokens name ls ≠ [] := by
  have hpos := List.length_pos_of_ne_nil hne
  exact List.ne_nil_of_length_pos (hpos.trans_le (length_le_callTokens name ls))

theorem reads_callList (hname : (Token.name name).IsValid) (hne : ls ≠ [])
    (hls : ∀ l ∈ ls, (literalToken l).IsValid) (rest : List Char) :
    Reads (callTokens name ls) ((callList name ls).toList ++ rest) rest := by
  induction ls with
  | nil => exact absurd rfl hne
  | cons l ls ih =>
    obtain ⟨hl, hls⟩ := List.forall_mem_cons.mp hls
    cases ls with
    | nil =>
      rw [callList, List.map_singleton, String.intercalate_singleton]
      exact reads_call hname hl rest
    | cons l' ls =>
      have hspelled : (callList name (l :: l' :: ls)).toList ++ rest
          = (callText name l.written).toList ++ ([' '] ++ (Mark.or.text.toList ++
              ([' '] ++ ((callList name (l' :: ls)).toList ++ rest)))) := by
        simp only [callList, List.map_cons, String.intercalate_cons_cons, String.toList_append,
          List.append_assoc]
        rfl
      have hgap : ∀ ch ∈ [' '], Cursor.isGap ch = true := by simp [Cursor.isGap]
      have hlater := callTokens_ne_nil name (List.cons_ne_nil l' ls)
      rw [hspelled, callTokens, reads_append]
      refine ⟨_, reads_call hname hl _, reads_gap hgap (by simp) ⟨_, leads_mark .or, ?_⟩⟩
      exact reads_gap hgap hlater (ih (List.cons_ne_nil _ _) hls)

end

/-! ### reading calls -/

section
variable {α : Type} {item : Reading α} {separator : String} {c : Cursor}

theorem separated_last (fuel : Nat)
    (hstop : ∀ x c₁, item c = .ok (x, c₁) → c₁.eat? separator = none) {y : List α × Cursor} :
    separated item separator fuel c = .ok y ↔ ∃ x c₁, item c = .ok (x, c₁) ∧ y = ([x], c₁) := by
  cases fuel with
  | zero =>
    rw [separated, bind_eq_ok_iff, Prod.exists]
    exact exists₂_congr fun x c₁ => and_congr_right fun _ => by rw [pure_eq_ok_iff]
  | succ fuel =>
    rw [separated, bind_eq_ok_iff, Prod.exists]
    refine exists₂_congr fun x c₁ => and_congr_right fun hx => ?_
    dsimp only
    rw [hstop x c₁ hx, pure_eq_ok_iff]

theorem separated_more (fuel : Nat) {c₂ : Cursor}
    (hmore : ∀ x c₁, item c = .ok (x, c₁) → c₁.eat? separator = some c₂) {y : List α × Cursor} :
    separated item separator (fuel + 1) c = .ok y ↔
      ∃ x c₁, item c = .ok (x, c₁) ∧
        ∃ xs c₃, separated item separator fuel c₂ = .ok (xs, c₃) ∧ y = (x :: xs, c₃) := by
  rw [separated, bind_eq_ok_iff, Prod.exists]
  refine exists₂_congr fun x c₁ => and_congr_right fun hx => ?_
  dsimp only
  rw [hmore x c₁ hx]
  dsimp only
  rw [bind_eq_ok_iff, Prod.exists]
  exact exists₂_congr fun xs c₃ => and_congr_right fun _ => by rw [pure_eq_ok_iff]

end

section
variable {P : Type} {resolve : Resolver P} {name : String} {c : Cursor} {s : List Char}

theorem exists_factor_call (resolve : Resolver P) (hname : name ∉ keywords) {l : Literal}
    (h : Reads (callOf name [literalToken l]) c.rest s) (n : Nat) :
    ∃ after, after.rest = s ∧ ∀ x, factor resolve (n + 1) c = .ok x ↔
      ∃ q, resolve name [l] = .ok q ∧ x = (.leaf q, after) := by
  obtain ⟨s₁, hcall, s₂, hopening, hargs⟩ := h
  obtain ⟨c₁, hc₁, rfl⟩ := hcall.name?
  obtain ⟨c₂, hc₂, rfl⟩ := hopening.require
  obtain ⟨c₃, hc₃, hrest⟩ :=
    (recognizes_arguments (recognizes_literal n) List.not_mem_nil List.not_mem_nil
      LiteralPhrase.opens).complete ⟨_, rfl, .some (.one (literalPhrase_literalToken n l))⟩ hargs
      (stopsBefore_nil s)
  have hnot : c.eat? "!" = none := hcall.eat?_eq_none (m := .bang) Token.noConfusion
  have hparen : c.eat? "(" = none := hcall.eat?_eq_none (m := .opening) Token.noConfusion
  have hopen : require "(" c₁ = .ok c₂ := hc₂
  refine ⟨c₃, hrest, fun x => ?_⟩
  unfold factor factorOver
  dsimp only
  rw [eat?_skipGap, eat?_skipGap, name?_skipGap, hnot, hparen]
  dsimp only
  rw [hc₁]
  dsimp only
  rw [hopen, ok_bind]
  unfold call
  dsimp only
  split
  · exact absurd (by decide) hname
  · exact absurd (by decide) hname
  · exact absurd (by decide) hname
  · exact absurd (by decide) hname
  · rw [hc₃, ok_bind]
    dsimp only
    cases resolve name [l] with
    | ok q =>
      constructor
      · rintro ⟨⟩
        exact ⟨q, rfl, rfl⟩
      · rintro ⟨q', hq', rfl⟩
        cases hq'
        rfl
    | error m =>
      constructor
      · rintro ⟨⟩
      · rintro ⟨q, hq, _⟩
        cases hq

theorem exists_conjunction_call (resolve : Resolver P) (hname : name ∉ keywords) {l : Literal}
    (h : Reads (callOf name [literalToken l]) c.rest s) (n : Nat) (hstop : StopsBefore [.and] s) :
    ∃ after, after.rest = s ∧ ∀ x, conjunction (factor resolve (n + 1)) c = .ok x ↔
      ∃ q, resolve name [l] = .ok q ∧ x = (.leaf q, after) := by
  obtain ⟨after, rfl, hfactor⟩ := exists_factor_call resolve hname h n
  have hlast : ∀ x c₁, factor resolve (n + 1) c = .ok (x, c₁) → c₁.eat? "&&" = none := by
    intro x c₁ hx
    obtain ⟨q, _, heq⟩ := (hfactor _).mp hx
    cases heq
    exact hstop.eat?_eq_none
  refine ⟨after, rfl, fun x => ?_⟩
  rw [conjunction, separatedBy, bind_eq_ok_iff]
  constructor
  · rintro ⟨y, hy, hx⟩
    obtain ⟨r, c₁, hr, rfl⟩ := (separated_last _ hlast).mp hy
    obtain ⟨q, hq, heq⟩ := (hfactor _).mp hr
    cases heq
    cases hx
    exact ⟨q, hq, rfl⟩
  · rintro ⟨q, hq, rfl⟩
    exact ⟨_, (separated_last _ hlast).mpr ⟨_, _, (hfactor _).mpr ⟨q, hq, rfl⟩, rfl⟩, rfl⟩

theorem exists_separated_calls (resolve : Resolver P) (hname : name ∉ keywords) (n : Nat)
    {ls : List Literal} (hne : ls ≠ []) {fuel : Nat} (hfuel : ls.length ≤ fuel + 1)
    (h : Reads (callTokens name ls) c.rest s) (hstop : StopsBefore [.or, .and] s) :
    ∃ after, after.rest = s ∧ ∀ x,
      separated (conjunction (factor resolve (n + 1))) "||" fuel c = .ok x ↔
        ∃ qs, List.Forall₂ (fun l q => resolve name [l] = .ok q) ls qs ∧
          x = (qs.map .leaf, after) := by
  induction ls generalizing c fuel with
  | nil => exact absurd rfl hne
  | cons l ls ih =>
    cases ls with
    | nil =>
      obtain ⟨after, rfl, hcall⟩ := exists_conjunction_call resolve hname h n hstop.tail
      have hlast : ∀ x c₁, conjunction (factor resolve (n + 1)) c = .ok (x, c₁) →
          c₁.eat? "||" = none := by
        intro x c₁ hx
        obtain ⟨q, _, heq⟩ := (hcall _).mp hx
        cases heq
        exact hstop.eat?_eq_none
      refine ⟨after, rfl, fun x => (separated_last fuel hlast).trans ?_⟩
      constructor
      · rintro ⟨r, c₁, hr, rfl⟩
        obtain ⟨q, hq, heq⟩ := (hcall _).mp hr
        cases heq
        exact ⟨[q], .cons hq .nil, rfl⟩
      · rintro ⟨qs, hqs, rfl⟩
        cases hqs with
        | cons hq hnil =>
          cases hnil
          exact ⟨_, _, (hcall _).mpr ⟨_, hq, rfl⟩, rfl⟩
    | cons l' ls =>
      obtain ⟨fuel, rfl⟩ := Nat.exists_eq_succ_of_ne_zero (n := fuel) (by
        rw [List.length_cons, List.length_cons] at hfuel
        omega)
      obtain ⟨s₁, hfirst, s₂, hmark, hlater⟩ := (reads_append _ _ _ _).mp h
      obtain ⟨after, rfl, hcall⟩ :=
        exists_conjunction_call resolve hname hfirst n (hmark.stopsBefore (by simp))
      obtain ⟨c₂, hc₂, rfl⟩ := hmark.eat?
      have hmore : ∀ x c₁, conjunction (factor resolve (n + 1)) c = .ok (x, c₁) →
          c₁.eat? "||" = some c₂ := by
        intro x c₁ hx
        obtain ⟨q, _, heq⟩ := (hcall _).mp hx
        cases heq
        exact hc₂
      obtain ⟨last, hrest, hmembers⟩ :=
        ih (List.cons_ne_nil _ _) (Nat.le_of_succ_le_succ hfuel) hlater
      refine ⟨last, hrest, fun x => (separated_more fuel hmore).trans ?_⟩
      constructor
      · rintro ⟨r, c₁, hr, xs, c₃, hxs, rfl⟩
        obtain ⟨q, hq, heq⟩ := (hcall _).mp hr
        obtain ⟨qs, hqs, heqs⟩ := (hmembers _).mp hxs
        cases heq
        cases heqs
        exact ⟨q :: qs, .cons hq hqs, rfl⟩
      · rintro ⟨qs, hqs, rfl⟩
        cases hqs with
        | cons hq hqs =>
          exact ⟨_, _, (hcall _).mpr ⟨_, hq, rfl⟩, _, _, (hmembers _).mpr ⟨_, hqs, rfl⟩, rfl⟩

/-- such a text is a rule exactly if each of its calls is resolved, and then it is the rule that
asks for any of them -/
theorem parse_callList_eq_ok_iff (resolve : Resolver P) (hname : name ∉ keywords)
    (hvalid : (Token.name name).IsValid) {ls : List Literal} (hne : ls ≠ [])
    (hls : ∀ l ∈ ls, (literalToken l).IsValid)
    (hsize : (callList name ls).utf8ByteSize ≤ maxBytes) (r : Rule P) :
    parse resolve (callList name ls) = .ok r ↔
      ∃ qs, List.Forall₂ (fun l q => resolve name [l] = .ok q) ls qs ∧
        r = Rule.joined .any (qs.map .leaf) := by
  have hreads : Reads (callTokens name ls) (callList name ls).toList [] := by
    have h := reads_callList hvalid hne hls []
    rwa [List.append_nil] at h
  have hfuel : ls.length ≤ (Cursor.start (callList name ls)).rest.length + 1 := by
    have htokens := length_le_callTokens name ls
    have hchars : (callTokens name ls).length ≤ (callList name ls).toList.length := hreads.length_le
    exact Nat.le_succ_of_le (htokens.trans hchars)
  obtain ⟨last, hrest, hcalls⟩ := exists_separated_calls resolve hname 31 hne hfuel
    (c := Cursor.start (callList name ls)) hreads (stopsBefore_of_gap _ (by simp))
  have hblank : isAllBlank (callList name ls) = false := by
    obtain ⟨t, ts, hts⟩ := List.exists_cons_of_ne_nil (callTokens_ne_nil name hne)
    rw [hts] at hreads
    exact not_isAllBlank_of_reads hreads
  have hend : last.skipGap.rest.isEmpty = true := by
    show (last.rest.dropWhile Cursor.isGap).isEmpty = true
    rw [hrest]
    rfl
  have hfault : ∀ {qs : List P}, List.Forall₂ (fun l q => resolve name [l] = .ok q) ls qs →
      (Rule.joined .any (qs.map .leaf)).fault? = none := by
    intro qs hqs
    refine Rule.fault?_joined_any fun hnil => hne ?_
    rw [← List.length_eq_zero_iff, hqs.length_eq, hnil, List.length_nil]
  unfold parse
  rw [if_neg (Nat.not_lt.mpr hsize), hblank, if_neg Bool.false_ne_true, bind_eq_ok_iff]
  constructor
  · rintro ⟨⟨rule, c⟩, hrule, hr⟩
    obtain ⟨⟨rs, c'⟩, hrs, heq⟩ := exists_of_bind_eq_ok hrule
    obtain ⟨qs, hqs, heqs⟩ := (hcalls _).mp hrs
    cases heqs
    cases heq
    dsimp only at hr
    rw [hend, if_pos rfl, hfault hqs] at hr
    cases hr
    exact ⟨qs, hqs, rfl⟩
  · rintro ⟨qs, hqs, rfl⟩
    have hrs : separatedBy (conjunction (factor resolve maxNesting)) "||"
        (Cursor.start (callList name ls)) = .ok (qs.map .leaf, last) :=
      (hcalls _).mpr ⟨qs, hqs, rfl⟩
    refine ⟨(Rule.joined .any (qs.map .leaf), last), ?_, ?_⟩
    · rw [disjunction, hrs]
      rfl
    · dsimp only
      rw [hend, if_pos rfl, hfault hqs]
      rfl

end

end Expression

/-! ### checkers -/

open Expression

theorem mapM_eq_ok_iff {ε α β : Type} {f : α → Except ε β} {xs : List α} {ys : List β} :
    xs.mapM f = .ok ys ↔ List.Forall₂ (fun x y => f x = .ok y) xs ys := by
  induction xs generalizing ys with
  | nil =>
    rw [List.mapM_nil, pure_eq_ok_iff]
    exact List.forall₂_nil_left_iff.symm
  | cons x xs ih =>
    rw [List.mapM_cons, bind_eq_ok_iff]
    constructor
    · rintro ⟨y, hy, h⟩
      obtain ⟨ys', hys, h⟩ := exists_of_bind_eq_ok h
      cases h
      exact .cons hy (ih.mp hys)
    · intro h
      cases h with
      | cons hy hys =>
        refine ⟨_, hy, ?_⟩
        rw [ih.mpr hys]
        rfl

namespace Checker

theorem anyOf_eq {qs : List CourseQuestion} (h : qs ≠ []) :
    anyOf qs = .ok (Rule.joined .any (qs.map .leaf)) := by
  cases qs with
  | nil => exact absurd rfl h
  | cons q qs => rfl

theorem resolve_code_eq_ok_iff {text : String} {q : CourseQuestion} :
    CourseQuestion.resolve "code" [.text text] = .ok q ↔ codeQuestion text = .ok q := by
  unfold codeQuestion
  rw [CourseQuestion.resolve]
  cases CodePattern.parse text <;> simp

theorem compile_expression_eq_ok_iff {text : String} {r : Checker} :
    compile (.expression text) = .ok r ↔
      Expression.parse CourseQuestion.resolve text = .ok r := by
  rw [compile]
  cases Expression.parse CourseQuestion.resolve text <;> simp [Except.mapError]

/-- **Lists are shorthand for expressions.**  A list of codes is compiled exactly if the expression
with a call for each of them is, and to the same rule; a list of catalog courses and its expression
are always compiled, to the same rule. -/
theorem compile_lists :
    (∀ texts : List String, texts ≠ [] → (∀ text ∈ texts, '"' ∉ text.toList) →
      (callList "code" (texts.map .text)).utf8ByteSize ≤ 16384 →
      ∀ r, compile (.codes texts) = .ok r ↔
        compile (.expression (callList "code" (texts.map .text))) = .ok r) ∧
    ∀ ids : List CourseId, ids ≠ [] →
      (callList "course" (ids.map (.number ·.value))).utf8ByteSize ≤ 16384 →
      ∃ r, compile (.courseIds ids) = .ok r ∧
        compile (.expression (callList "course" (ids.map (.number ·.value)))) = .ok r := by
  constructor
  · intro texts hne hquote hsize r
    have hvalid : ∀ l ∈ texts.map Literal.text, (literalToken l).IsValid := by
      rw [List.forall_mem_map]
      exact hquote
    rw [compile_expression_eq_ok_iff, parse_callList_eq_ok_iff _ (by decide)
      (isValid_name (by decide) (by decide)) (by simpa using hne) hvalid hsize, compile,
      bind_eq_ok_iff]
    simp only [List.forall₂_map_left_iff, resolve_code_eq_ok_iff, mapM_eq_ok_iff]
    refine exists_congr fun qs => and_congr_right fun hqs => ?_
    have hqs' : qs ≠ [] := by
      rintro rfl
      exact hne (List.forall₂_nil_right_iff.mp hqs)
    rw [anyOf_eq hqs', Except.ok.injEq, eq_comm]
  · intro ids hne hsize
    have hvalid : ∀ l ∈ ids.map (Literal.number ·.value), (literalToken l).IsValid := by
      rw [List.forall_mem_map]
      exact fun id _ => isValid_digits id.value.toNat
    have hqs : ids.map CourseQuestion.course ≠ [] := by simpa using hne
    refine ⟨_, anyOf_eq hqs, ?_⟩
    rw [compile_expression_eq_ok_iff, parse_callList_eq_ok_iff _ (by decide)
      (isValid_name (by decide) (by decide)) (by simpa using hne) hvalid hsize]
    refine ⟨ids.map .course, ?_, rfl⟩
    rw [List.forall₂_map_left_iff, List.forall₂_map_right_iff, List.forall₂_same]
    exact fun id _ => rfl

/-- a code in lower case and a pattern, and a single catalog course -/
theorem compile_lists_systems :
    callList "code" [.text "cs 4410", .text "CS 44**"]
      = "code(\"cs 4410\") || code(\"CS 44**\")" ∧
    callList "course" [.number 358526] = "course(358526)" ∧
    compile (.expression (callList "code" [.text "cs 4410", .text "CS 44**"]))
      = .ok (.any [.leaf (.code ⟨"CS", CodePattern.numberOf "4410"⟩),
          .leaf (.code ⟨"CS", CodePattern.numberOf "44**"⟩)]) ∧
    compile (.expression (callList "course" [.number 358526]))
      = .ok (.leaf (.course ⟨358526⟩)) := by
  obtain ⟨hcodes, hids⟩ := compile_lists
  obtain ⟨r, hlist, hexpression⟩ := hids [⟨358526⟩] (List.cons_ne_nil _ _) (by decide)
  cases hlist
  refine ⟨by decide, by decide, ?_, hexpression⟩
  exact (hcodes ["cs 4410", "CS 44**"] (List.cons_ne_nil _ _) (by decide) (by decide) _).mp rfl

end Checker

end DegreeProgress
