import DegreeProgress.Proofs.Expression.Tokens

/-!
# The grammar of expressions

    expression  = conjunction ('||' conjunction)*
    conjunction = factor ('&&' factor)*
    factor      = '!' factor | '(' expression ')' | name '(' arguments ')'

The arguments of `all`, `any` and `not` are a list of expressions with commas between them, which
may be empty; `not` takes exactly one.  Those of `at_least` are a count, a comma and such a list.
Any other name takes a list of numbers and texts.

A `Phrase` relates tokens to what they stand for, and bounds how deep `!`, parentheses and calls
nest in them.

* `Factor`, `Conjunction`, `Disjunction`   the phrases that stand for rules;
* `Factor.opens`, `Disjunction.opens`      none of them is empty or starts with `)`.
-/

namespace DegreeProgress.Expression

/-- `phrase n ts x`: the tokens stand for `x`, and `!`, parentheses and calls nest at most `n` deep
in them -/
abbrev Phrase (α : Type) : Type := Nat → List Token → α → Prop

/-! ### lists -/

section
variable {α : Type}

/-- one or more items with a mark between them -/
inductive Separated (separator : Mark) (Item : Phrase α) : Phrase (List α) where
  | one {n ts x} (h : Item n ts x) : Separated separator Item n ts [x]
  | more {n ts us x xs} (h : Item n ts x) (hs : Separated separator Item n us xs) :
    Separated separator Item n (ts ++ .mark separator :: us) (x :: xs)

/-- any number of items with commas between them -/
inductive CommaList (Item : Phrase α) : Phrase (List α) where
  | none {n} : CommaList Item n [] []
  | some {n ts xs} (h : Separated .comma Item n ts xs) : CommaList Item n ts xs

end

/-! ### rules -/

inductive LiteralPhrase : Phrase Literal where
  | text {n s} : LiteralPhrase n [.quoted s] (.text s)
  | number {n run} (h : digitsValue run.toList < UInt64.size) :
    LiteralPhrase n [.digits run] (.number (UInt64.ofNat (digitsValue run.toList)))

/-- the names of calls that take rules -/
def keywords : List String := ["all", "any", "not", "at_least"]

/-- the tokens of a call with the arguments `ts` -/
abbrev callOf (name : String) (ts : List Token) : List Token :=
  .name name :: .mark .opening :: (ts ++ [.mark .closing])

section
variable {P : Type}

inductive Conjunction (Factor : Phrase (Rule P)) : Phrase (Rule P) where
  | of {n ts rs} (h : Separated .and Factor n ts rs) :
    Conjunction Factor n ts (Rule.joined .all rs)

inductive Disjunction (Factor : Phrase (Rule P)) : Phrase (Rule P) where
  | of {n ts rs} (h : Separated .or (Conjunction Factor) n ts rs) :
    Disjunction Factor n ts (Rule.joined .any rs)

inductive Factor (resolve : Resolver P) : Phrase (Rule P) where
  | not {n ts r} (h : Factor resolve n ts r) : Factor resolve (n + 1) (.mark .bang :: ts) (.not r)
  | parentheses {n ts r} (h : Disjunction (Factor resolve) n ts r) :
    Factor resolve (n + 1) (.mark .opening :: (ts ++ [.mark .closing])) r
  | allCall {n ts rs} (h : CommaList (Disjunction (Factor resolve)) n ts rs) :
    Factor resolve (n + 1) (callOf "all" ts) (.all rs)
  | anyCall {n ts rs} (h : CommaList (Disjunction (Factor resolve)) n ts rs) :
    Factor resolve (n + 1) (callOf "any" ts) (.any rs)
  | notCall {n ts r} (h : CommaList (Disjunction (Factor resolve)) n ts [r]) :
    Factor resolve (n + 1) (callOf "not" ts) (.not r)
  | atLeastCall {n run ts rs} (hcount : digitsValue run.toList < UInt8.size)
    (h : CommaList (Disjunction (Factor resolve)) n ts rs) :
    Factor resolve (n + 1) (callOf "at_least" (.digits run :: .mark .comma :: ts))
      (.atLeast (UInt8.ofNat (digitsValue run.toList)) rs)
  | leafCall {n name ts args q} (hname : name ∉ keywords) (h : CommaList LiteralPhrase n ts args)
    (hq : resolve name args = .ok q) : Factor resolve (n + 1) (callOf name ts) (.leaf q)

end

/-! ### how phrases start, and how long they are -/

/-- the phrases are not empty and do not start with a closing parenthesis -/
def Opens {α : Type} (Item : Phrase α) : Prop :=
  ∀ {n ts x}, Item n ts x → ∃ t us, ts = t :: us ∧ t ≠ .mark .closing

section
variable {α P : Type} {m : Mark} {Item : Phrase α}

theorem Separated.opens (h : Opens Item) : Opens (Separated m Item) := by
  intro n ts xs hts
  cases hts with
  | one hx => exact h hx
  | more hx _ =>
    obtain ⟨t, us, rfl, ht⟩ := h hx
    exact ⟨t, _, rfl, ht⟩

theorem Separated.ne_nil {n : Nat} {ts : List Token} {xs : List α} (h : Separated m Item n ts xs) :
    xs ≠ [] := by
  cases h <;> exact List.cons_ne_nil _ _

theorem Separated.length_le {n : Nat} {ts : List Token} {xs : List α}
    (h : Separated m Item n ts xs) : xs.length ≤ ts.length + 1 := by
  induction h with
  | one hx => simp
  | more hx hs ih =>
    simp only [List.length_cons, List.length_append]
    omega

theorem LiteralPhrase.opens : Opens LiteralPhrase := by
  intro n ts x h
  cases h with
  | text => exact ⟨_, _, rfl, Token.noConfusion⟩
  | number _ => exact ⟨_, _, rfl, Token.noConfusion⟩

theorem Conjunction.opens {F : Phrase (Rule P)} (h : Opens F) : Opens (Conjunction F) := by
  intro n ts r hr
  obtain ⟨hrs⟩ := hr
  exact Separated.opens h hrs

theorem Disjunction.opens {F : Phrase (Rule P)} (h : Opens F) : Opens (Disjunction F) := by
  intro n ts r hr
  obtain ⟨hrs⟩ := hr
  exact Separated.opens (Conjunction.opens h) hrs

theorem Factor.opens {resolve : Resolver P} : Opens (Factor resolve) := by
  intro n ts r h
  cases h <;> exact ⟨_, _, rfl, by simp⟩

theorem Factor.forms {resolve : Resolver P} {n : Nat} {ts : List Token} {r : Rule P}
    (h : Factor resolve (n + 1) ts r) :
    (∃ us r', ts = .mark .bang :: us ∧ r = .not r' ∧ Factor resolve n us r') ∨
    (∃ us, ts = .mark .opening :: (us ++ [.mark .closing]) ∧
      Disjunction (Factor resolve) n us r) ∨
    ∃ name us, ts = .name name :: .mark .opening :: us := by
  cases h with
  | not h => exact .inl ⟨_, _, rfl, rfl, h⟩
  | parentheses h => exact .inr (.inl ⟨_, rfl, h⟩)
  | _ => exact .inr (.inr ⟨_, _, rfl⟩)

end

end DegreeProgress.Expression
