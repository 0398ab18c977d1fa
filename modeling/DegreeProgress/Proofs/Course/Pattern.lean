import DegreeProgress.Course.Pattern
import DegreeProgress.Proofs.Text.Spelling

/-!
# Patterns as text

* `CodePattern.exists_of_parse`   the two words that a pattern is made of;
* `CodePattern.display_eq`        it is displayed as these words in upper case;
* `CodePattern.parse_display`     and the display stands for the pattern again.
-/

namespace DegreeProgress

theorem ofUInt8_toUInt8 {ch : Char} (h : ch.toNat < 256) : Char.ofUInt8 ch.toUInt8 = ch := by
  have hval : ch.val.toNat < 256 := h
  apply Char.ext
  apply UInt32.toNat_inj.mp
  show ch.val.toUInt8.toUInt32.toNat = ch.val.toNat
  rw [UInt8.toNat_toUInt32, UInt32.toNat_toUInt8]
  omega

namespace CodePattern

/-- a character of the number of a pattern -/
def IsNumberChar (ch : Char) : Prop := ch.isAlphanum = true ∨ ch = '*'

theorem isBlank_of_isNumberChar {ch : Char} (h : IsNumberChar ch) : isBlank ch = false := by
  rcases h with h | rfl
  · exact isBlank_of_isAlphanum h
  · rfl

theorem isNumberChar_toUpper {ch : Char} (h : IsNumberChar ch) : IsNumberChar ch.toUpper := by
  rcases h with h | rfl
  · left
    rw [isAlphanum_toUpper, h]
  · right
    rfl

theorem isNumberChar_congr {c d : Char} (h : c.toUpper = d.toUpper) (hd : IsNumberChar d) :
    IsNumberChar c := by
  by_cases hlower : c.isLower = true
  · left
    exact isAlphanum_of_isLower hlower
  · rw [← toUpper_of_not_isLower hlower, h]
    exact isNumberChar_toUpper hd

variable {text : String} {p : CodePattern}

theorem exists_of_parse (h : parse text = .ok p) :
    ∃ subject number, words text = [subject, number] ∧
      (∀ ch ∈ subject.toList, ch.isAlphanum = true) ∧
      (∀ ch ∈ number.toList, IsNumberChar ch) ∧ p = ⟨upperAscii subject, numberOf number⟩ := by
  unfold parse at h
  dsimp only at h
  split at h
  · cases h
  · cases h
  · rename_i subject number hwords
    split at h
    · cases h
    · rename_i hsubject
      split at h
      · cases h
      · rename_i hnumber
        cases h
        refine ⟨subject, number, hwords, ?_, ?_, rfl⟩
        · simpa using hsubject
        · rw [Bool.not_eq_true, Bool.not_eq_false'] at hnumber
          intro ch hch
          have hor := List.all_eq_true.mp hnumber ch hch
          rwa [Bool.or_eq_true, beq_iff_eq] at hor
  · cases h

theorem parse_of_words {subject number : String} (hwords : words text = [subject, number])
    (hsubject : ∀ ch ∈ subject.toList, ch.isAlphanum = true)
    (hnumber : ∀ ch ∈ number.toList, IsNumberChar ch) :
    parse text = .ok ⟨upperAscii subject, numberOf number⟩ := by
  have hsubject' : subject.toList.all Char.isAlphanum = true := List.all_eq_true.mpr hsubject
  have hnumber' : number.toList.all (fun ch => ch.isAlphanum || ch == '*') = true := by
    simpa [IsNumberChar] using hnumber
  unfold parse
  rw [hwords]
  dsimp only
  rw [hsubject', hnumber']
  rfl

/-! ### display -/

/-- what stands for a character of a number -/
def placeOf (ch : Char) : Option UInt8 := if ch = '*' then none else some ch.toUpper.toUInt8

theorem numberOf_eq (number : String) : numberOf number = number.toList.map placeOf := rfl

theorem placeOf_toUpper {ch : Char} (h : IsNumberChar ch) : placeOf ch.toUpper = placeOf ch := by
  unfold placeOf
  rw [toUpper_toUpper]
  rcases h with h | rfl
  · have hne : ∀ x : Char, x.isAlphanum = true → x ≠ '*' := by
      rintro x hx rfl
      exact absurd hx (by decide)
    rw [if_neg (hne _ ((isAlphanum_toUpper ch).trans h)), if_neg (hne _ h)]
  · rfl

theorem numberOf_upperAscii {number : String} (h : ∀ ch ∈ number.toList, IsNumberChar ch) :
    numberOf (upperAscii number) = numberOf number := by
  rw [numberOf_eq, numberOf_eq, upperAscii, String.toList_ofList, List.map_map]
  exact List.map_congr_left fun ch hch => placeOf_toUpper (h ch hch)

theorem display_eq {subject number : String} (h : ∀ ch ∈ number.toList, IsNumberChar ch) :
    display ⟨subject, numberOf number⟩ = subject ++ " " ++ upperAscii number := by
  unfold display numberOf upperAscii
  congr 2
  rw [List.map_map]
  refine List.map_congr_left fun ch hch => ?_
  rw [Function.comp_apply]
  rcases h ch hch with hch | rfl
  · have hne : ch ≠ '*' := by
      rintro rfl
      exact absurd hch (by decide)
    have hcode := toNat_of_isAlphanum ((isAlphanum_toUpper ch).trans hch)
    rw [if_neg hne]
    exact ofUInt8_toUInt8 (by omega)
  · rfl

theorem words_two {u v : String} (hu : IsWord u) (hv : IsWord v) :
    words (u ++ " " ++ v) = [u, v] :=
  words_of_spaced hu hv ⟨"", " ", "", rfl, rfl, rfl, by decide, by simp⟩

theorem forall_mem_upperAscii {s : String} {p q : Char → Prop} (h : ∀ ch ∈ s.toList, p ch)
    (hpq : ∀ ch, p ch → q ch.toUpper) : ∀ ch ∈ (upperAscii s).toList, q ch := by
  unfold upperAscii
  rw [String.toList_ofList]
  intro ch hch
  obtain ⟨x, hx, rfl⟩ := List.mem_map.mp hch
  exact hpq x (h x hx)

theorem toList_upperAscii_ne_nil {s : String} (h : s.toList ≠ []) : (upperAscii s).toList ≠ [] := by
  unfold upperAscii
  rw [String.toList_ofList]
  simpa using h

/-- a pattern is displayed as its two words in upper case, which stand for it as well -/
theorem exists_display (h : parse text = .ok p) :
    ∃ subject number : String, p.display = subject ++ " " ++ number ∧
      (subject.toList ≠ [] ∧ ∀ ch ∈ subject.toList, ch.isAlphanum = true) ∧
      (number.toList ≠ [] ∧ ∀ ch ∈ number.toList, IsNumberChar ch) ∧
      p = ⟨upperAscii subject, numberOf number⟩ := by
  obtain ⟨subject, number, hwords, hsubject, hnumber, rfl⟩ := exists_of_parse h
  have hsubject₀ := isWord_of_mem_words (hwords ▸ List.mem_cons_self)
  have hnumber₀ := isWord_of_mem_words (hwords ▸ List.mem_cons_of_mem _ List.mem_cons_self)
  refine ⟨upperAscii subject, upperAscii number, display_eq hnumber,
    ⟨toList_upperAscii_ne_nil hsubject₀.1, ?_⟩, ⟨toList_upperAscii_ne_nil hnumber₀.1, ?_⟩, ?_⟩
  · exact forall_mem_upperAscii hsubject fun ch hch => (isAlphanum_toUpper ch).trans hch
  · exact forall_mem_upperAscii hnumber fun _ => isNumberChar_toUpper
  · rw [upperAscii_upperAscii, numberOf_upperAscii hnumber]

theorem parse_display (h : parse text = .ok p) : parse p.display = .ok p := by
  obtain ⟨subject, number, hdisplay, ⟨hsubject₀, hsubject⟩, ⟨hnumber₀, hnumber⟩, hp⟩ :=
    exists_display h
  have hwords := words_two ⟨hsubject₀, fun ch hch => isBlank_of_isAlphanum (hsubject ch hch)⟩
    ⟨hnumber₀, fun ch hch => isBlank_of_isNumberChar (hnumber ch hch)⟩
  rw [hdisplay, parse_of_words hwords hsubject hnumber, ← hp]

theorem unquoted_display (h : parse text = .ok p) : '"' ∉ p.display.toList := by
  obtain ⟨subject, number, hdisplay, ⟨_, hsubject⟩, ⟨_, hnumber⟩, _⟩ := exists_display h
  rw [hdisplay, String.toList_append, String.toList_append, List.mem_append, List.mem_append]
  rintro ((hquote | hquote) | hquote)
  · exact absurd (hsubject _ hquote) (by decide)
  · exact absurd hquote (by decide)
  · exact absurd (hnumber _ hquote) (by simp [IsNumberChar])

end CodePattern

end DegreeProgress
