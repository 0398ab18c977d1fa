import DegreeProgress.Document.Basic

/-!
# Forms

What is known of a value before it is read.  A format whose texts do not show everything, such as
one that writes names without quotes, is read by the form of what is wanted; `formOf α` is the form
of the values of `α`.
-/

namespace DegreeProgress

inductive Form where
  | switch
  /-- a natural number that so many bits hold -/
  | natural (bits : Nat)
  | real
  | text
  /-- one of several names -/
  | name
  | optional (form : Form)
  | list (items : Form)
  /-- a map with text keys -/
  | map (values : Form)
  /-- a structure with fields; others may stand beside them -/
  | record (name : String) (fields : List (String × Form))
  /-- a value of any form, to be looked at later -/
  | free
  /-- a value that nobody looks at -/
  | ignored

class HasForm (α : Type) where
  form : Form

def formOf (α : Type) [HasForm α] : Form := HasForm.form α

instance : HasForm Bool := ⟨.switch⟩
instance : HasForm String := ⟨.text⟩
instance : HasForm UInt16 := ⟨.natural 16⟩
instance : HasForm UInt32 := ⟨.natural 32⟩
instance : HasForm UInt64 := ⟨.natural 64⟩
instance : HasForm Float := ⟨.real⟩
instance {α : Type} [Enumeration α] : HasForm α := ⟨.name⟩
instance {α : Type} [HasForm α] : HasForm (Option α) := ⟨.optional (formOf α)⟩
instance {α : Type} [HasForm α] : HasForm (List α) := ⟨.list (formOf α)⟩
instance {α : Type} [HasForm α] : HasForm (SortedMap String α) := ⟨.map (formOf α)⟩

end DegreeProgress
