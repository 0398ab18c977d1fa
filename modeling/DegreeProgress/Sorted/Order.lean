/-!
# Keys with a strict order

What the sorted containers ask of their keys.
-/

namespace DegreeProgress

/-- a strict total order -/
class StrictOrder (κ : Type) [LT κ] : Prop where
  irrefl (a : κ) : ¬a < a
  trans {a b c : κ} : a < b → b < c → a < c
  connex (a b : κ) : a < b ∨ a = b ∨ b < a

namespace StrictOrder

variable {κ : Type} [LT κ] [StrictOrder κ]

theorem asymm {a b : κ} (h : a < b) : ¬b < a := fun g => irrefl a (trans h g)

theorem eq_of_not_lt {a b : κ} (h : ¬a < b) (g : ¬b < a) : a = b :=
  (connex a b).elim (absurd · h) (·.elim id (absurd · g))

end StrictOrder

instance : StrictOrder String where
  irrefl := String.lt_irrefl
  trans := String.lt_trans
  connex a b := by
    by_cases h : a < b
    · exact .inl h
    · by_cases g : b < a
      · exact .inr (.inr g)
      · exact .inr (.inl (String.le_antisymm g h))

instance : StrictOrder Nat where
  irrefl := Nat.lt_irrefl
  trans := Nat.lt_trans
  connex := Nat.lt_trichotomy

instance : StrictOrder UInt64 where
  irrefl := UInt64.lt_irrefl
  trans := UInt64.lt_trans
  connex a b := by
    rcases Nat.lt_trichotomy a.toNat b.toNat with h | h | h
    · exact .inl h
    · exact .inr (.inl (UInt64.toNat_inj.1 h))
    · exact .inr (.inr h)

end DegreeProgress
