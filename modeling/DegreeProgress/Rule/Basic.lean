/-!
# Rules

Boolean rules over leaf questions, and what it means that an item satisfies one.
-/

namespace DegreeProgress

/-- a question `p : P` that can be asked of one item -/
class Question (P ι : Type) where
  holds : P → ι → Bool

inductive Rule (P : Type) where
  | leaf (question : P)
  /-- every member holds; an empty list always does -/
  | all (members : List (Rule P))
  /-- some member holds; an empty list never does -/
  | any (members : List (Rule P))
  | not (inner : Rule P)
  /-- at least `min` members hold -/
  | atLeast (min : UInt8) (members : List (Rule P))
  deriving Inhabited

namespace Rule

variable {P ι : Type}

/-! ### induction over members -/

/-- what holds of a node as soon as it holds of its members holds of every rule -/
@[elab_as_elim]
theorem memberInduction {motive : Rule P → Prop}
    (leaf : ∀ q, motive (.leaf q))
    (all : ∀ ms, (∀ r ∈ ms, motive r) → motive (.all ms))
    (any : ∀ ms, (∀ r ∈ ms, motive r) → motive (.any ms))
    (not : ∀ r, motive r → motive (.not r))
    (atLeast : ∀ min ms, (∀ r ∈ ms, motive r) → motive (.atLeast min ms)) :
    ∀ r, motive r
  | .leaf q => leaf q
  | .all ms => all ms fun r _ => memberInduction leaf all any not atLeast r
  | .any ms => any ms fun r _ => memberInduction leaf all any not atLeast r
  | .not r => not r (memberInduction leaf all any not atLeast r)
  | .atLeast min ms => atLeast min ms fun r _ => memberInduction leaf all any not atLeast r

/-! ### answers for one item -/

section
variable [Question P ι]

mutual

def accepts : Rule P → ι → Bool
  | leaf q, x => Question.holds q x
  | all ms, x => allAccept ms x
  | any ms, x => anyAccepts ms x
  | not r, x => !r.accepts x
  | atLeast min ms, x => min.toNat ≤ countAccepting ms x

def allAccept : List (Rule P) → ι → Bool
  | [], _ => true
  | r :: rs, x => r.accepts x && allAccept rs x

def anyAccepts : List (Rule P) → ι → Bool
  | [], _ => false
  | r :: rs, x => r.accepts x || anyAccepts rs x

def countAccepting : List (Rule P) → ι → Nat
  | [], _ => 0
  | r :: rs, x => (if r.accepts x then 1 else 0) + countAccepting rs x

end

theorem allAccept_eq (ms : List (Rule P)) (x : ι) : allAccept ms x = ms.all (·.accepts x) := by
  induction ms with
  | nil => rfl
  | cons r rs ih => simp [allAccept, ih]

theorem anyAccepts_eq (ms : List (Rule P)) (x : ι) : anyAccepts ms x = ms.any (·.accepts x) := by
  induction ms with
  | nil => rfl
  | cons r rs ih => simp [anyAccepts, ih]

theorem countAccepting_eq (ms : List (Rule P)) (x : ι) :
    countAccepting ms x = ms.countP (·.accepts x) := by
  induction ms with
  | nil => rfl
  | cons r rs ih => rw [countAccepting, ih, List.countP_cons, Nat.add_comm]

end

/-! ### size -/

mutual

/-- how many nodes a rule has -/
def nodes : Rule P → Nat
  | leaf _ => 1
  | all ms => nodesOf ms + 1
  | any ms => nodesOf ms + 1
  | not r => r.nodes + 1
  | atLeast _ ms => nodesOf ms + 1

def nodesOf : List (Rule P) → Nat
  | [] => 0
  | r :: rs => r.nodes + nodesOf rs

end

/-- the lone member itself, or the group of several -/
def joined (join : List (Rule P) → Rule P) : List (Rule P) → Rule P
  | [r] => r
  | rs => join rs

end Rule

end DegreeProgress
