import DegreeProgress.Proofs.Text.Words
import Mathlib.Logic.Basic

/-!
# Letter case

Only the 26 ASCII letters have one.

* `toNat_toUpper`, `toUpper_of_not_isLower` upper case takes 32 off the number of a small letter and
                                            leaves every other character alone;
* `isBlank_toUpper`, `isAlphanum_toUpper`   upper case keeps blanks, letters and digits;
* `upperAscii_upperAscii`                   upper case twice is upper case once;
* `trimBlanks_map_toUpper`                  trimming does not see letter case;
* `trimmed_upperAscii_trimmed`              so a trimmed text stays trimmed in upper case.
-/

namespace DegreeProgress

/-! ### characters -/

section
variable {ch : Char}

theorem isAlpha_of_isLower (h : ch.isLower = true) : ch.isAlpha = true := isAlpha_iff.mpr (.inr h)

theorem isAlphanum_of_isLower (h : ch.isLower = true) : ch.isAlphanum = true :=
  isAlphanum_iff.mpr (.inl (isAlpha_of_isLower h))

theorem isDigit_of_isAlpha (h : ch.isAlpha = true) : ch.isDigit = false := by
  rw [Bool.eq_false_iff]
  intro hdigit
  rw [isAlpha_iff, isUpper_iff_toNat, isLower_iff_toNat] at h
  obtain ⟨_, hle⟩ := Char.isDigit_iff_toNat.mp hdigit
  have hnine : '9'.toNat = 57 := rfl
  omega

theorem toUpper_of_not_isLower (h : ¬ch.isLower = true) : ch.toUpper = ch := by
  have hrange : ¬('a'.val ≤ ch.val ∧ ch.val ≤ 'z'.val) := fun hle => h (isLower_iff_toNat.mpr hle)
  exact dif_neg hrange

theorem toNat_toUpper (h : ch.isLower = true) : ch.toUpper.toNat = ch.toNat - 32 := by
  have hrange : 'a'.val ≤ ch.val ∧ ch.val ≤ 'z'.val := isLower_iff_toNat.mp h
  have hcode : 97 ≤ ch.val.toNat ∧ ch.val.toNat ≤ 122 := isLower_iff_toNat.mp h
  have hval : ch.toUpper.val = ch.val + ('A'.val - 'a'.val) := by
    show (if h : 'a'.val ≤ ch.val ∧ ch.val ≤ 'z'.val then _ else ch : Char).val = _
    rw [dif_pos hrange]
  -- the distance to upper case wraps around
  have hdistance : ('A'.val - 'a'.val).toNat = 2 ^ 32 - 32 := rfl
  show ch.toUpper.val.toNat = ch.val.toNat - 32
  rw [hval, UInt32.toNat_add, hdistance]
  omega

theorem isUpper_toUpper (h : ch.isLower = true) : ch.toUpper.isUpper = true := by
  rw [isUpper_iff_toNat, toNat_toUpper h]
  rw [isLower_iff_toNat] at h
  omega

end

theorem isAlpha_toUpper (ch : Char) : ch.toUpper.isAlpha = ch.isAlpha := by
  by_cases hlower : ch.isLower = true
  · rw [isAlpha_of_isLower hlower, isAlpha_iff.mpr (.inl (isUpper_toUpper hlower))]
  · rw [toUpper_of_not_isLower hlower]

theorem not_isLower_toUpper (ch : Char) : ¬ch.toUpper.isLower = true := by
  by_cases hlower : ch.isLower = true
  · rw [isLower_iff_toNat, toNat_toUpper hlower]
    rw [isLower_iff_toNat] at hlower
    omega
  · rwa [toUpper_of_not_isLower hlower]

theorem toUpper_toUpper (ch : Char) : ch.toUpper.toUpper = ch.toUpper :=
  toUpper_of_not_isLower (not_isLower_toUpper ch)

theorem isAlphanum_toUpper (ch : Char) : ch.toUpper.isAlphanum = ch.isAlphanum := by
  by_cases hlower : ch.isLower = true
  · have hupper : ch.toUpper.isAlpha = true := isAlpha_iff.mpr (.inl (isUpper_toUpper hlower))
    rw [isAlphanum_of_isLower hlower, isAlphanum_iff.mpr (.inl hupper)]
  · rw [toUpper_of_not_isLower hlower]

theorem isBlank_toUpper (ch : Char) : isBlank ch.toUpper = isBlank ch := by
  by_cases hlower : ch.isLower = true
  · have halpha := isAlphanum_of_isLower hlower
    rw [isBlank_of_isAlphanum halpha, isBlank_of_isAlphanum ((isAlphanum_toUpper ch).trans halpha)]
  · rw [toUpper_of_not_isLower hlower]

/-! ### texts -/

theorem dropBlanks_map_toUpper (cs : List Char) :
    dropBlanks (cs.map Char.toUpper) = (dropBlanks cs).map Char.toUpper := by
  have hblank : isBlank ∘ Char.toUpper = isBlank := funext isBlank_toUpper
  rw [dropBlanks, List.dropWhile_map, hblank, dropBlanks]

theorem trimBlanks_map_toUpper (cs : List Char) :
    trimBlanks (cs.map Char.toUpper) = (trimBlanks cs).map Char.toUpper := by
  rw [trimBlanks, dropBlanks_map_toUpper, ← List.map_reverse, dropBlanks_map_toUpper,
    ← List.map_reverse, trimBlanks]

theorem map_toUpper_map_toUpper (cs : List Char) :
    (cs.map Char.toUpper).map Char.toUpper = cs.map Char.toUpper := by
  rw [List.map_map]
  exact List.map_congr_left fun ch _ => toUpper_toUpper ch

theorem upperAscii_upperAscii (s : String) : upperAscii (upperAscii s) = upperAscii s := by
  unfold upperAscii
  rw [String.toList_ofList, map_toUpper_map_toUpper]

/-! ### trimmed texts in upper case -/

theorem trimmed_upperAscii_trimmed (s : String) :
    trimmed (upperAscii (trimmed s)) = upperAscii (trimmed s) := by
  unfold trimmed upperAscii
  simp only [String.toList_ofList]
  rw [trimBlanks_map_toUpper, trimBlanks_trimBlanks]

theorem isAllBlank_upperAscii_trimmed {s : String} (h : isAllBlank s = false) :
    isAllBlank (upperAscii (trimmed s)) = false := by
  by_contra hblank
  rw [Bool.not_eq_false] at hblank
  have hall := (trimBlanks_eq_nil_iff _).mpr (List.all_eq_true.mp hblank)
  unfold upperAscii trimmed at hall
  simp only [String.toList_ofList] at hall
  rw [trimBlanks_map_toUpper, trimBlanks_trimBlanks, List.map_eq_nil_iff,
    trimBlanks_eq_nil_iff] at hall
  rw [isAllBlank, List.all_eq_true.mpr hall] at h
  cases h

end DegreeProgress
