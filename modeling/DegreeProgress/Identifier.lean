import DegreeProgress.Sorted.Order

/-!
# Identifiers

A requirement is named by a text, a catalog course by a number.  A course on a student's record has
an identity of its own: the number that the plan gave it, or the name of what it was made from.
-/

namespace DegreeProgress

structure RequirementId where
  text : String
  deriving DecidableEq, Inhabited

/-- which course of the catalog it is -/
structure CourseId where
  value : UInt64
  deriving DecidableEq, Inhabited

/-- which entry of a student's record it is -/
inductive UniqueId where
  | numeric (value : UInt64)
  | named (name : String)
  deriving DecidableEq, Inhabited

namespace CourseId

/-- exam credit without an equivalent course -/
def noEquivalent : CourseId := ⟨1⟩

/-- the carrier of exam credits that no single course stands for -/
def credits : CourseId := ⟨10⟩

/-- writing-seminar credit from an exam -/
def writingExam : CourseId := ⟨100000⟩

/-- a passed swim test -/
def swimTest : CourseId := ⟨100001⟩

end CourseId

def UniqueId.label : UniqueId → String
  | numeric value => toString value
  | named name => name

/-! ### orders -/

instance : LT RequirementId := ⟨fun a b => a.text < b.text⟩
instance : DecidableLT RequirementId := fun a b => inferInstanceAs (Decidable (a.text < b.text))

instance : StrictOrder RequirementId where
  irrefl a := StrictOrder.irrefl a.text
  trans h g := StrictOrder.trans (κ := String) h g
  connex a b := by
    rcases StrictOrder.connex a.text b.text with h | h | h
    · exact .inl h
    · exact .inr (.inl (congrArg RequirementId.mk h))
    · exact .inr (.inr h)

instance : LT CourseId := ⟨fun a b => a.value < b.value⟩
instance : DecidableLT CourseId := fun a b => inferInstanceAs (Decidable (a.value < b.value))

instance : StrictOrder CourseId where
  irrefl a := StrictOrder.irrefl a.value
  trans h g := StrictOrder.trans (κ := UInt64) h g
  connex a b := by
    rcases StrictOrder.connex a.value b.value with h | h | h
    · exact .inl h
    · exact .inr (.inl (congrArg CourseId.mk h))
    · exact .inr (.inr h)

/-- numbers come before names -/
def UniqueId.Before : UniqueId → UniqueId → Prop
  | numeric a, numeric b => a < b
  | numeric _, named _ => True
  | named _, numeric _ => False
  | named a, named b => a < b

instance : LT UniqueId := ⟨UniqueId.Before⟩

instance : DecidableLT UniqueId
  | .numeric a, .numeric b => inferInstanceAs (Decidable (a < b))
  | .numeric _, .named _ => .isTrue trivial
  | .named _, .numeric _ => .isFalse id
  | .named a, .named b => inferInstanceAs (Decidable (a < b))

instance : StrictOrder UniqueId where
  irrefl
    | .numeric a => StrictOrder.irrefl a
    | .named a => StrictOrder.irrefl a
  trans {a b c} h g := by
    cases a <;> cases b <;> cases c <;>
      first
        | exact StrictOrder.trans (κ := UInt64) h g
        | exact StrictOrder.trans (κ := String) h g
        | exact trivial
        | exact False.elim h
        | exact False.elim g
  connex
    | .numeric a, .numeric b => by
      rcases StrictOrder.connex a b with h | h | h
      · exact .inl h
      · exact .inr (.inl (congrArg UniqueId.numeric h))
      · exact .inr (.inr h)
    | .numeric _, .named _ => .inl trivial
    | .named _, .numeric _ => .inr (.inr trivial)
    | .named a, .named b => by
      rcases StrictOrder.connex a b with h | h | h
      · exact .inl h
      · exact .inr (.inl (congrArg UniqueId.named h))
      · exact .inr (.inr h)

end DegreeProgress
