import DegreeProgress.Proofs.Course.Matching

/-!
# The canonical text of a pattern

* `CodePattern.parse_of_sameWords`   letter case and spacing of its text leave a pattern alone;
* `CodePattern.matchesCode_text`     a pattern matches the texts it is written as,
* `CodePattern.eq_of_matchesCode`    so two patterns that match each other's texts are the same;
* `CodePattern.canonical_display`    the display is one text for each set of codes.
-/

namespace DegreeProgress

namespace CodePattern

variable {text text' : String} {p p' : CodePattern}

/-! ### texts of one pattern -/

theorem parse_of_sameWords (h : parse text = .ok p) (hsame : SameWords text' text) :
    parse text' = .ok p := by
  obtain ⟨subject, number, hwords, hsubject, hnumber, rfl⟩ := exists_of_parse h
  unfold SameWords at hsame
  rw [hwords] at hsame
  obtain ⟨subject', later, hsubject', hlater, hwords'⟩ := List.forall₂_cons_right_iff.mp hsame
  obtain ⟨number', rest, hnumber', hnil, rfl⟩ := List.forall₂_cons_right_iff.mp hlater
  rw [List.forall₂_nil_right_iff.mp hnil] at hwords'
  have hsubject₁ : ∀ ch ∈ subject'.toList, ch.isAlphanum = true := by
    refine forall_mem_congr (fun c d hcd hd => ?_) hsubject' hsubject
    rw [← isAlphanum_toUpper, hcd, isAlphanum_toUpper, hd]
  have hnumber₁ : ∀ ch ∈ number'.toList, IsNumberChar ch :=
    forall_mem_congr (fun _ _ => isNumberChar_congr) hnumber' hnumber
  rw [parse_of_words hwords' hsubject₁ hnumber₁, eqIgnoringCase_iff.mp hsubject',
    ← numberOf_upperAscii hnumber₁, eqIgnoringCase_iff.mp hnumber', numberOf_upperAscii hnumber]

/-! ### patterns that match the same codes -/

theorem Covers.refl (template : List Char) : Covers template template := by
  induction template with
  | nil => exact .nil
  | cons x template ih => exact .same rfl ih

/-- the text of a pattern is one of the codes that match it -/
theorem matchesCode_text (h : parse text = .ok p) : p.matchesCode text = true := by
  obtain ⟨subject, number, hwords, _⟩ := exists_of_parse h
  have hsame : eqIgnoringCase subject subject = true := eqIgnoringCase_iff.mpr rfl
  exact (matchesCode_iff_covers h text).mpr
    ⟨subject, number, subject, number, hwords, hwords, hsame, Covers.refl _⟩

/-- where two templates cover each other they have the same places -/
theorem map_placeOf_eq {template template' : List Char} (h : ∀ x ∈ template, IsNumberChar x)
    (h' : ∀ x ∈ template', IsNumberChar x) (hthis : CharacterByCharacter template template')
    (hthat : CharacterByCharacter template' template) :
    template.map placeOf = template'.map placeOf := by
  induction hthis with
  | nil => rfl
  | @cons x y template template' hxy _ ih =>
    obtain ⟨hx, h⟩ := List.forall_mem_cons.mp h
    obtain ⟨hy, h'⟩ := List.forall_mem_cons.mp h'
    obtain ⟨hyx, hthat⟩ := List.forall₂_cons.mp hthat
    have hplace : placeOf x = placeOf y := by
      have hsame : x.toUpper = y.toUpper := by
        rcases hxy with rfl | hsame
        · rcases hyx with rfl | hsame
          · rfl
          · exact hsame.symm
        · exact hsame
      rw [← placeOf_toUpper hx, hsame, placeOf_toUpper hy]
    rw [List.map_cons, List.map_cons, hplace, ih h h' hthat]

/-- a template that covers another one does so character by character -/
theorem characters_of_covers {template template' : List Char}
    (h : ∀ x ∈ template', IsNumberChar x) (hcovers : Covers template template') :
    CharacterByCharacter template template' :=
  (covers_iff (.inr fun x hx => isAscii_of_isNumberChar (h x hx))).mp hcovers

/-- each of two patterns matches a text of the other one only if they are the same -/
theorem eq_of_matchesCode (h : parse text = .ok p) (h' : parse text' = .ok p')
    (hthis : p.matchesCode text' = true) (hthat : p'.matchesCode text = true) : p = p' := by
  obtain ⟨subject, number, hwords, _, hnumber, rfl⟩ := exists_of_parse h
  obtain ⟨subject', number', hwords', _, hnumber', rfl⟩ := exists_of_parse h'
  rw [matchesCode_iff_covers h] at hthis
  rw [matchesCode_iff_covers h'] at hthat
  unfold MatchesBy at hthis hthat
  rw [hwords, hwords'] at hthis hthat
  obtain ⟨_, _, _, _, heq, heq', hsubject, hcovers⟩ := hthis
  cases heq
  cases heq'
  obtain ⟨_, _, _, _, heq, heq', _, hcovers'⟩ := hthat
  cases heq
  cases heq'
  have hplaces := map_placeOf_eq hnumber hnumber' (characters_of_covers hnumber' hcovers)
    (characters_of_covers hnumber hcovers')
  rw [eqIgnoringCase_iff.mp hsubject, numberOf_eq, hplaces, numberOf_eq]

theorem display_eq_iff (h : parse text = .ok p) (h' : parse text' = .ok p') :
    p.display = p'.display ↔ ∀ code, p.matchesCode code = p'.matchesCode code := by
  constructor
  · intro hdisplay
    have hparse := parse_display h'
    rw [← hdisplay, parse_display h] at hparse
    cases hparse
    exact fun _ => rfl
  · intro hcodes
    have hthis : p.matchesCode text' = true := (hcodes text').trans (matchesCode_text h')
    have hthat : p'.matchesCode text = true := (hcodes text).symm.trans (matchesCode_text h)
    rw [eq_of_matchesCode h h' hthis hthat]

/-- **The display is a canonical text.**  It is a text of the pattern again; patterns are displayed
as one text iff they match the same codes; and a text that differs in nothing but letter case, the
blanks around its words and the blanks between them is a text of the same pattern. -/
theorem canonical_display (h : parse text = .ok p) :
    parse p.display = .ok p ∧
    (∀ text' p', parse text' = .ok p' →
      (p.display = p'.display ↔ ∀ code, p.matchesCode code = p'.matchesCode code)) ∧
    ∃ subject number, words text = [subject, number] ∧ Spaced subject number text ∧
      ∀ subject' number' text', eqIgnoringCase subject' subject = true →
        eqIgnoringCase number' number = true → Spaced subject' number' text' →
        parse text' = .ok p := by
  obtain ⟨subject, number, hwords, _⟩ := exists_of_parse h
  refine ⟨parse_display h, fun _ _ h' => display_eq_iff h h', subject, number, hwords,
    spaced_of_words hwords, fun _ _ _ hsubject hnumber hspaced => ?_⟩
  exact parse_of_sameWords h (sameWords_spaced hwords hsubject hnumber hspaced)

/-- a pattern in three spellings, and another one that does not match the same codes -/
theorem canonical_display_seminar :
    let seminar : CodePattern := ⟨"CS", [some 52, none, none, some 49]⟩
    let systems : CodePattern := ⟨"CS", [some 52, some 52, none, some 49]⟩
    parse " cs\t4**1" = .ok seminar ∧ seminar.display = "CS 4**1" ∧
    parse "CS 4**1" = .ok seminar ∧ parse "Cs  4**1 " = .ok seminar ∧
    parse "CS 44*1" = .ok systems ∧
    ¬∀ code, seminar.matchesCode code = systems.matchesCode code := by
  intro seminar systems
  have h : parse " cs\t4**1" = .ok seminar := by decide
  have hsystems : parse "CS 44*1" = .ok systems := by decide
  have hshown : seminar.display = "CS 4**1" := by decide
  have hother : seminar.display ≠ systems.display := by decide
  have htwo : words " cs\t4**1" = ["cs", "4**1"] := by decide
  obtain ⟨hdisplay, hcodes, subject, number, hwords, -, hspaced⟩ := canonical_display h
  rw [hshown] at hdisplay
  rw [htwo] at hwords
  cases hwords
  refine ⟨h, hshown, hdisplay, hspaced "Cs" "4**1" _ (by decide) (by decide) ?_, hsystems,
    (hcodes _ _ hsystems).not.mp hother⟩
  exact ⟨"", "  ", " ", by decide, by decide, by decide, by decide, by decide⟩

end CodePattern

end DegreeProgress
