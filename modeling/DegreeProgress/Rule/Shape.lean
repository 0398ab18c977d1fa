import DegreeProgress.Rule.Basic

/-!
# The shape of a rule

A rule is well shaped when no node lies too deep, no group is empty and every `at_least` asks for
at least one and at most all of its members.
-/

namespace DegreeProgress

/-- the deepest level that a node may lie on; the root lies on level 0 -/
def Rule.maxDepth : Nat := 32

inductive GroupKind where
  | all
  | any
  deriving DecidableEq

def GroupKind.name : GroupKind → String
  | all => "all"
  | any => "any"

inductive ShapeFault where
  | tooDeep (depth : Nat)
  | emptyGroup (kind : GroupKind)
  | minimumExceedsMembers (min : UInt8) (members : Nat)
  | zeroMinimum
  deriving DecidableEq

def ShapeFault.message : ShapeFault → String
  | tooDeep depth => s!"rule nests {depth} levels deep (max {Rule.maxDepth})"
  | emptyGroup kind => s!"`{kind.name}()` needs at least one member"
  | minimumExceedsMembers min members => s!"at_least({min}, ..) has only {members} members"
  | zeroMinimum => "at_least(0, ..) always holds"

namespace Rule

variable {P : Type}

/-- the members of a node -/
def children : Rule P → List (Rule P)
  | leaf _ => []
  | all ms | any ms | atLeast _ ms => ms
  | not r => [r]

/-- what is wrong with a node on level `depth`, its members aside -/
def nodeFault? (depth : Nat) (r : Rule P) : Option ShapeFault :=
  if maxDepth < depth then some (.tooDeep depth)
  else match r with
    | all [] => some (.emptyGroup .all)
    | any [] => some (.emptyGroup .any)
    | atLeast min ms =>
      if min = 0 then some .zeroMinimum
      else if ms.length < min.toNat then some (.minimumExceedsMembers min ms.length)
      else none
    | _ => none

/-- looks at the waiting nodes from the front, each one's members before the nodes after it -/
def scanFaults : (fuel : Nat) → List (Nat × Rule P) → Option ShapeFault
  | 0, _ => none
  | _, [] => none
  | fuel + 1, (depth, r) :: waiting =>
    match nodeFault? depth r with
    | some fault => some fault
    | none => scanFaults fuel (r.children.map (depth + 1, ·) ++ waiting)

/-- the first fault of a rule, a node before its members and the members in order -/
def fault? (r : Rule P) : Option ShapeFault := scanFaults (r.nodes + 1) [(0, r)]

end Rule

end DegreeProgress
