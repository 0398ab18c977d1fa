import DegreeProgress.Course.Pattern
import DegreeProgress.Proofs.Text.LetterCase

/-!
# The bytes of a text

* `utf8EncodeChar_of_isAscii`   an ASCII character is one byte, its number;
* `le_of_mem_utf8EncodeChar`    the bytes of any other character lie above all of these;
* `map_upperByte_utf8Bytes`     so a text can be put in upper case before or after it is encoded.
-/

namespace DegreeProgress

def IsAscii (ch : Char) : Prop := ch.toNat < 128

instance : DecidablePred IsAscii := fun ch => inferInstanceAs (Decidable (ch.toNat < 128))

theorem isAscii_of_isAlphanum {ch : Char} (h : ch.isAlphanum = true) : IsAscii ch := by
  have hcode := toNat_of_isAlphanum h
  show ch.toNat < 128
  omega

theorem isAscii_toUpper {ch : Char} (h : IsAscii ch) : IsAscii ch.toUpper := by
  by_cases hlower : ch.isLower = true
  · have halpha := isAlphanum_of_isLower hlower
    exact isAscii_of_isAlphanum ((isAlphanum_toUpper ch).trans halpha)
  · rwa [toUpper_of_not_isLower hlower]

theorem toUpper_of_not_isAscii {ch : Char} (h : ¬IsAscii ch) : ch.toUpper = ch := by
  apply toUpper_of_not_isLower
  intro hlower
  exact h (isAscii_of_isAlphanum (isAlphanum_of_isLower hlower))

theorem isAscii_congr {c d : Char} (h : c.toUpper = d.toUpper) (hc : IsAscii c) : IsAscii d := by
  by_contra hd
  rw [toUpper_of_not_isAscii hd] at h
  exact hd (h ▸ isAscii_toUpper hc)

/-! ### one character -/

section
variable {ch : Char}

theorem utf8Size_of_isAscii (h : IsAscii ch) : ch.utf8Size = 1 := by
  rw [Char.utf8Size_eq_one_iff, UInt32.le_iff_toNat_le]
  exact Nat.le_of_lt_succ h

theorem utf8EncodeChar_of_isAscii (h : IsAscii ch) : String.utf8EncodeChar ch = [ch.toUInt8] :=
  String.utf8EncodeChar_eq_singleton (utf8Size_of_isAscii h)

theorem le_of_mem_utf8EncodeChar (h : ¬IsAscii ch) {b : UInt8}
    (hb : b ∈ String.utf8EncodeChar ch) : 128 ≤ b.toNat := by
  have hcode : ¬ch.val.toNat ≤ 127 := fun hle => h (Nat.lt_succ_of_le hle)
  unfold String.utf8EncodeChar at hb
  dsimp only at hb
  rw [if_neg hcode] at hb
  split at hb
  · simp only [List.mem_cons, List.not_mem_nil, or_false] at hb
    rcases hb with rfl | rfl <;> rw [UInt8.toNat_ofNat'] <;> omega
  · split at hb
    · simp only [List.mem_cons, List.not_mem_nil, or_false] at hb
      rcases hb with rfl | rfl | rfl <;> rw [UInt8.toNat_ofNat'] <;> omega
    · simp only [List.mem_cons, List.not_mem_nil, or_false] at hb
      rcases hb with rfl | rfl | rfl | rfl <;> rw [UInt8.toNat_ofNat'] <;> omega

theorem toNat_toUInt8_of_isAscii (h : IsAscii ch) : ch.toUInt8.toNat = ch.toNat := by
  have hlt : ch.val.toNat < 128 := h
  show ch.val.toUInt8.toNat = ch.val.toNat
  rw [UInt32.toNat_toUInt8]
  omega

theorem toUInt8_inj_of_isAscii {c d : Char} (hc : IsAscii c) (hd : IsAscii d) :
    c.toUInt8 = d.toUInt8 ↔ c = d := by
  constructor
  · intro h
    have hnat := congrArg UInt8.toNat h
    rw [toNat_toUInt8_of_isAscii hc, toNat_toUInt8_of_isAscii hd] at hnat
    exact Char.toNat_inj.mp hnat
  · rintro rfl
    rfl

/-! ### upper case -/

theorem upperByte_of_le {b : UInt8} (h : 128 ≤ b.toNat) : upperByte b = b := by
  have hnot : ¬(97 ≤ b ∧ b ≤ 122) := by
    rintro ⟨_, hle⟩
    have hle' := UInt8.le_iff_toNat_le.mp hle
    rw [show (122 : UInt8).toNat = 122 from rfl] at hle'
    omega
  rw [upperByte, if_neg hnot]

theorem upperByte_toUInt8 (h : IsAscii ch) : upperByte ch.toUInt8 = ch.toUpper.toUInt8 := by
  have hall : ∀ n < 128, upperByte (Char.ofNat n).toUInt8 = (Char.ofNat n).toUpper.toUInt8 := by
    decide
  have hch := hall ch.toNat h
  rwa [Char.ofNat_toNat] at hch

theorem map_upperByte_utf8EncodeChar (ch : Char) :
    (String.utf8EncodeChar ch).map upperByte = String.utf8EncodeChar ch.toUpper := by
  by_cases h : IsAscii ch
  · rw [utf8EncodeChar_of_isAscii h, utf8EncodeChar_of_isAscii (isAscii_toUpper h),
      List.map_singleton, upperByte_toUInt8 h]
  · rw [toUpper_of_not_isAscii h]
    rw [List.map_congr_left fun b hb => upperByte_of_le (le_of_mem_utf8EncodeChar h hb)]
    exact List.map_id' _

end

theorem map_upperByte_utf8Bytes (s : String) :
    (utf8Bytes s).map upperByte = utf8Bytes (upperAscii s) := by
  unfold utf8Bytes upperAscii
  rw [String.toList_ofList, List.map_flatMap, List.flatMap_map]
  exact List.flatMap_congr fun ch _ => map_upperByte_utf8EncodeChar ch

end DegreeProgress
