import DegreeProgress.Text.Words
import Mathlib.Data.List.DropRight

/-!
# Words and trimming

* `wordsOf_append_blank`, `wordsOf_word`   the words of a text that is put together from words;
* `word_of_mem_wordsOf`                    no word is empty, or has a blank in it;
* `wordsOf_eq_cons`                        the first word of a text, and the words after it;
* `head?_trimBlanks`                       where a trimmed text starts, its first word does;
* `trimBlanks_trimBlanks`                  trimming twice is trimming once,
* `trimBlanks_eq_nil_iff`                  only blanks are trimmed to nothing;
* `toNat_of_isAlphanum`                    letters and digits by their numbers;
* `isBlank_of_isAlphanum`                  they are no blanks.
-/

namespace DegreeProgress

/-! ### words -/

section
variable {w cs : List Char}

theorem leadingWord_append (hw : ∀ ch ∈ w, isBlank ch = false) (cs : List Char) :
    leadingWord (w ++ cs) = (w ++ (leadingWord cs).1, (leadingWord cs).2) := by
  induction w with
  | nil => rfl
  | cons ch w ih =>
    obtain ⟨hch, hw⟩ := List.forall_mem_cons.mp hw
    rw [List.cons_append, leadingWord, ih hw]
    simp [hch]

theorem leadingWord_blank {ch : Char} (hch : isBlank ch = true) (cs : List Char) :
    leadingWord (ch :: cs) = ([], wordsOf cs) := by
  rw [leadingWord, wordsOf]
  simp [hch]

theorem wordsOf_append_blank (hne : w ≠ []) (hw : ∀ ch ∈ w, isBlank ch = false) {ch : Char}
    (hch : isBlank ch = true) (cs : List Char) : wordsOf (w ++ ch :: cs) = w :: wordsOf cs := by
  rw [wordsOf, leadingWord_append hw, leadingWord_blank hch, List.append_nil]
  simp [hne]

theorem wordsOf_word (hne : w ≠ []) (hw : ∀ ch ∈ w, isBlank ch = false) : wordsOf w = [w] := by
  have h := leadingWord_append hw []
  rw [List.append_nil] at h
  rw [wordsOf, h]
  simp [leadingWord, hne]

theorem wordsOf_blank {ch : Char} (hch : isBlank ch = true) (cs : List Char) :
    wordsOf (ch :: cs) = wordsOf cs := by
  rw [wordsOf, leadingWord_blank hch]
  rfl

theorem wordsOf_blanks_append {blanks : List Char} (h : ∀ ch ∈ blanks, isBlank ch = true)
    (cs : List Char) : wordsOf (blanks ++ cs) = wordsOf cs := by
  induction blanks with
  | nil => rfl
  | cons ch blanks ih =>
    obtain ⟨hch, h⟩ := List.forall_mem_cons.mp h
    rw [List.cons_append, wordsOf_blank hch, ih h]

theorem wordsOf_blanks {blanks : List Char} (h : ∀ ch ∈ blanks, isBlank ch = true) :
    wordsOf blanks = [] := by
  have hnil := wordsOf_blanks_append h []
  rwa [List.append_nil] at hnil

theorem wordsOf_word_append (hne : w ≠ []) (hw : ∀ ch ∈ w, isBlank ch = false) {blanks : List Char}
    (h : ∀ ch ∈ blanks, isBlank ch = true) : wordsOf (w ++ blanks) = [w] := by
  cases blanks with
  | nil => rw [List.append_nil, wordsOf_word hne hw]
  | cons ch blanks =>
    obtain ⟨hch, h⟩ := List.forall_mem_cons.mp h
    rw [wordsOf_append_blank hne hw hch, wordsOf_blanks h]

theorem forall_mem_wordsOf_of_leadingWord {p : List Char → Prop}
    (hword : (leadingWord cs).1 ≠ [] → p (leadingWord cs).1)
    (hlater : ∀ w ∈ (leadingWord cs).2, p w) :
    ∀ w ∈ wordsOf cs, p w := by
  rw [wordsOf]
  dsimp only
  split
  · exact hlater
  · rename_i hne
    exact List.forall_mem_cons.mpr ⟨hword fun hnil => hne (List.isEmpty_iff.mpr hnil), hlater⟩

theorem leadingWord_spec (cs : List Char) : (∀ ch ∈ (leadingWord cs).1, isBlank ch = false) ∧
    ∀ w ∈ (leadingWord cs).2, w ≠ [] ∧ ∀ ch ∈ w, isBlank ch = false := by
  induction cs with
  | nil => exact ⟨by simp [leadingWord], by simp [leadingWord]⟩
  | cons ch cs ih =>
    by_cases hch : isBlank ch = true
    · rw [leadingWord_blank hch]
      refine ⟨by simp, ?_⟩
      exact forall_mem_wordsOf_of_leadingWord (fun hne => ⟨hne, ih.1⟩) ih.2
    · rw [Bool.not_eq_true] at hch
      have hcons := leadingWord_append (w := [ch]) (by simpa using hch) cs
      rw [List.singleton_append] at hcons
      rw [hcons]
      exact ⟨List.forall_mem_cons.mpr ⟨hch, ih.1⟩, ih.2⟩

theorem word_of_mem_wordsOf {w : List Char} (h : w ∈ wordsOf cs) :
    w ≠ [] ∧ ∀ ch ∈ w, isBlank ch = false := by
  have hspec := leadingWord_spec cs
  exact forall_mem_wordsOf_of_leadingWord (fun hne => ⟨hne, hspec.1⟩) hspec.2 w h

end

/-! ### trimming -/

section
variable (cs : List Char)

theorem dropBlanks_dropBlanks : dropBlanks (dropBlanks cs) = dropBlanks cs :=
  List.dropWhile_idempotent isBlank cs

theorem isBlank_of_dropBlanks_eq_cons {cs : List Char} {ch : Char} {rest : List Char}
    (h : dropBlanks cs = ch :: rest) : isBlank ch = false := by
  have hnot := List.head?_dropWhile_not isBlank cs
  rwa [show cs.dropWhile isBlank = ch :: rest from h] at hnot

theorem trimBlanks_prefix : trimBlanks cs <+: dropBlanks cs := by
  obtain ⟨tail, htail⟩ := List.dropWhile_suffix (l := (dropBlanks cs).reverse) isBlank
  refine ⟨tail.reverse, ?_⟩
  rw [trimBlanks, ← List.reverse_append]
  exact (congrArg List.reverse htail).trans (List.reverse_reverse _)

theorem dropBlanks_trimBlanks : dropBlanks (trimBlanks cs) = trimBlanks cs := by
  obtain ⟨tail, hprefix⟩ := trimBlanks_prefix cs
  cases htrim : trimBlanks cs with
  | nil => rfl
  | cons ch rest =>
    have hdrop : dropBlanks cs = ch :: (rest ++ tail) := by
      rw [← hprefix, htrim]
      rfl
    have hch := isBlank_of_dropBlanks_eq_cons hdrop
    rw [dropBlanks, List.dropWhile_cons_of_neg (by simp [hch])]

theorem trimBlanks_trimBlanks : trimBlanks (trimBlanks cs) = trimBlanks cs := by
  rw [trimBlanks, dropBlanks_trimBlanks, trimBlanks, List.reverse_reverse, dropBlanks_dropBlanks]

theorem exists_append_dropBlanks : ∃ blanks, (∀ ch ∈ blanks, isBlank ch = true) ∧
    cs = blanks ++ dropBlanks cs :=
  ⟨cs.takeWhile isBlank, fun _ hch => List.mem_takeWhile_imp hch,
    (List.takeWhile_append_dropWhile ..).symm⟩

theorem wordsOf_dropBlanks : wordsOf (dropBlanks cs) = wordsOf cs := by
  obtain ⟨blanks, hblanks, hcs⟩ := exists_append_dropBlanks cs
  conv_rhs => rw [hcs, wordsOf_blanks_append hblanks]

theorem all_isBlank_of_dropBlanks_eq_nil {cs : List Char} (h : dropBlanks cs = []) :
    ∀ ch ∈ cs, isBlank ch = true :=
  List.dropWhile_eq_nil_iff.mp h

theorem trimBlanks_eq_nil_iff : trimBlanks cs = [] ↔ ∀ ch ∈ cs, isBlank ch = true := by
  constructor
  · intro h
    have hrest : dropBlanks (dropBlanks cs).reverse = [] := List.reverse_eq_nil_iff.mp h
    refine all_isBlank_of_dropBlanks_eq_nil ?_
    have hblank := all_isBlank_of_dropBlanks_eq_nil hrest
    have hdrop : dropBlanks (dropBlanks cs) = [] :=
      List.dropWhile_eq_nil_iff.mpr fun ch hch => hblank ch (List.mem_reverse.mpr hch)
    rwa [dropBlanks_dropBlanks] at hdrop
  · intro h
    have hdrop : dropBlanks cs = [] := List.dropWhile_eq_nil_iff.mpr h
    rw [trimBlanks, hdrop]
    rfl

end

/-! ### the first word -/

section
variable {cs : List Char}

theorem wordsOf_eq_nil (h : dropBlanks cs = []) : wordsOf cs = [] :=
  wordsOf_blanks (all_isBlank_of_dropBlanks_eq_nil h)

theorem isBlank_of_word_dropped (cs : List Char) :
    ∀ ch ∈ (cs.dropWhile (!isBlank ·)).head?, isBlank ch = true := by
  intro ch hch
  have hnot := List.head?_dropWhile_not (!isBlank ·) cs
  rw [Option.mem_def.mp hch] at hnot
  simpa using hnot

theorem wordsOf_eq_cons (h : dropBlanks cs ≠ []) :
    wordsOf cs = (dropBlanks cs).takeWhile (!isBlank ·)
      :: wordsOf ((dropBlanks cs).dropWhile (!isBlank ·)) := by
  rw [← wordsOf_dropBlanks]
  obtain ⟨ch, rest, hcs⟩ := List.exists_cons_of_ne_nil h
  have hch := isBlank_of_dropBlanks_eq_cons hcs
  rw [hcs]
  have hne : (ch :: rest).takeWhile (!isBlank ·) ≠ [] := by simp [hch]
  have hword : ∀ x ∈ (ch :: rest).takeWhile (!isBlank ·), isBlank x = false := by
    intro x hx
    simpa using List.mem_takeWhile_imp hx
  conv_lhs => rw [← List.takeWhile_append_dropWhile (p := (!isBlank ·)) (l := ch :: rest)]
  cases hrest : (ch :: rest).dropWhile (!isBlank ·) with
  | nil => rw [List.append_nil, wordsOf_word hne hword, wordsOf_blanks (by simp)]
  | cons x later =>
    have hx : isBlank x = true := isBlank_of_word_dropped (ch :: rest) x (by rw [hrest]; rfl)
    rw [wordsOf_append_blank hne hword hx, wordsOf_blank hx]

theorem isBlank_of_wordsOf_eq_nil (h : wordsOf cs = []) : ∀ ch ∈ cs, isBlank ch = true := by
  by_cases hcs : dropBlanks cs = []
  · exact all_isBlank_of_dropBlanks_eq_nil hcs
  · rw [wordsOf_eq_cons hcs] at h
    cases h

/-- a text of some words is its blanks, the first word, and a rest that starts with a blank -/
theorem exists_of_wordsOf_eq_cons {w : List Char} {later : List (List Char)}
    (h : wordsOf cs = w :: later) :
    ∃ blanks rest, (∀ ch ∈ blanks, isBlank ch = true) ∧ (∀ ch ∈ rest.head?, isBlank ch = true) ∧
      cs = blanks ++ w ++ rest ∧ wordsOf rest = later := by
  have hcs : dropBlanks cs ≠ [] := by
    intro hnil
    rw [wordsOf_eq_nil hnil] at h
    cases h
  rw [wordsOf_eq_cons hcs] at h
  obtain ⟨rfl, hlater⟩ := List.cons.inj h
  obtain ⟨blanks, hblanks, happend⟩ := exists_append_dropBlanks cs
  refine ⟨blanks, _, hblanks, isBlank_of_word_dropped (dropBlanks cs), ?_, hlater⟩
  rw [List.append_assoc, List.takeWhile_append_dropWhile]
  exact happend

/-- where a trimmed text starts, its first word does -/
theorem head?_trimBlanks (cs : List Char) :
    (trimBlanks cs).head? = (wordsOf cs).head?.bind List.head? := by
  cases hcs : dropBlanks cs with
  | nil =>
    have htrim := (trimBlanks_eq_nil_iff cs).mpr (all_isBlank_of_dropBlanks_eq_nil hcs)
    rw [htrim, wordsOf_eq_nil hcs]
    rfl
  | cons ch rest =>
    have hch := isBlank_of_dropBlanks_eq_cons hcs
    have hstart : (trimBlanks cs).head? = some ch := by
      obtain ⟨tail, htail⟩ := trimBlanks_prefix cs
      cases htrim : trimBlanks cs with
      | nil =>
        have hall := (trimBlanks_eq_nil_iff cs).mp htrim
        have hdrop : ch ∈ dropBlanks cs := by
          rw [hcs]
          exact List.mem_cons_self
        have hmem : ch ∈ cs := (List.dropWhile_suffix isBlank).subset hdrop
        rw [hall ch hmem] at hch
        cases hch
      | cons x trimmed =>
        rw [htrim, hcs] at htail
        rw [List.head?_cons, (List.cons.inj htail).1]
    rw [hstart, wordsOf_eq_cons (by rw [hcs]; exact List.cons_ne_nil _ _), hcs]
    simp [hch]

end

/-! ### letters and digits -/

section
variable {ch : Char}

theorem isLower_iff_toNat : ch.isLower = true ↔ 97 ≤ ch.toNat ∧ ch.toNat ≤ 122 := by
  show (decide ('a'.val ≤ ch.val) && decide (ch.val ≤ 'z'.val)) = true ↔ _
  rw [Bool.and_eq_true, decide_eq_true_iff, decide_eq_true_iff]
  rfl

theorem isUpper_iff_toNat : ch.isUpper = true ↔ 65 ≤ ch.toNat ∧ ch.toNat ≤ 90 := by
  show decide ('A'.val ≤ ch.val ∧ ch.val ≤ 'Z'.val) = true ↔ _
  rw [decide_eq_true_iff]
  rfl

theorem isAlpha_iff : ch.isAlpha = true ↔ ch.isUpper = true ∨ ch.isLower = true := by
  show (ch.isUpper || ch.isLower) = true ↔ _
  rw [Bool.or_eq_true]

theorem isAlphanum_iff : ch.isAlphanum = true ↔ ch.isAlpha = true ∨ ch.isDigit = true := by
  show (ch.isAlpha || ch.isDigit) = true ↔ _
  rw [Bool.or_eq_true]

theorem toNat_of_isAlphanum (h : ch.isAlphanum = true) :
    48 ≤ ch.toNat ∧ ch.toNat ≤ 57 ∨ 65 ≤ ch.toNat ∧ ch.toNat ≤ 90 ∨
      97 ≤ ch.toNat ∧ ch.toNat ≤ 122 := by
  rw [isAlphanum_iff, isAlpha_iff, isUpper_iff_toNat, isLower_iff_toNat,
    Char.isDigit_iff_toNat] at h
  rcases h with (hupper | hlower) | hdigit
  · right; left; exact hupper
  · right; right; exact hlower
  · left; exact hdigit

theorem isBlank_of_isAlphanum (h : ch.isAlphanum = true) : isBlank ch = false := by
  have hcode := toNat_of_isAlphanum h
  simp only [isBlank, blankRanges, List.any_cons, List.any_nil, Bool.or_false, Bool.or_eq_false_iff,
    Bool.and_eq_false_iff, decide_eq_false_iff_not]
  omega

end

end DegreeProgress
