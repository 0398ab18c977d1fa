import DegreeProgress.Proofs.Text.LetterCase
import Mathlib.Data.List.Forall2

/-!
# Texts with the same words

Two texts have the same words if their words agree one by one up to letter case, however they are
spaced (`SameWords`).

* `sameWords_iff`      upper case settles whether they do;
* `words_of_spaced`    two words are the words of every text that has blanks around them and some
                       between them,
* `spaced_of_words`    and a text of two words is of that form;
* `sameWords_spaced`   blanks and letter case leave its words alone.
-/

namespace DegreeProgress

/-- the words of two texts agree one by one, up to letter case -/
def SameWords (s t : String) : Prop :=
  List.Forall₂ (fun u v => eqIgnoringCase u v = true) (words s) (words t)

instance (s t : String) : Decidable (SameWords s t) :=
  inferInstanceAs (Decidable (List.Forall₂ _ _ _))

theorem eqIgnoringCase_iff {u v : String} :
    eqIgnoringCase u v = true ↔ upperAscii u = upperAscii v := by
  unfold eqIgnoringCase upperAscii
  rw [beq_iff_eq, String.ofList_inj]

theorem sameWords_iff {s t : String} :
    SameWords s t ↔ (words s).map upperAscii = (words t).map upperAscii := by
  unfold SameWords
  simp only [eqIgnoringCase_iff]
  rw [← List.forall₂_eq_eq_eq, List.forall₂_map_left_iff, List.forall₂_map_right_iff]

/-! ### words in any letter case -/

/-- a text that is one word and nothing else -/
def IsWord (w : String) : Prop := w.toList ≠ [] ∧ ∀ ch ∈ w.toList, isBlank ch = false

theorem isWord_of_mem_words {s w : String} (h : w ∈ words s) : IsWord w := by
  obtain ⟨cs, hcs, rfl⟩ := List.mem_map.mp h
  rw [IsWord, String.toList_ofList]
  exact word_of_mem_wordsOf hcs

theorem forall_mem_congr {p : Char → Prop} (hp : ∀ c d : Char, c.toUpper = d.toUpper → p d → p c)
    {u v : String} (h : eqIgnoringCase u v = true) (hv : ∀ ch ∈ v.toList, p ch) :
    ∀ ch ∈ u.toList, p ch := by
  have hlists : u.toList.map Char.toUpper = v.toList.map Char.toUpper := beq_iff_eq.mp h
  intro ch hch
  have hmem : ch.toUpper ∈ v.toList.map Char.toUpper := hlists ▸ List.mem_map_of_mem hch
  obtain ⟨x, hx, heq⟩ := List.mem_map.mp hmem
  exact hp ch x heq.symm (hv x hx)

theorem isWord_congr {u v : String} (h : eqIgnoringCase u v = true) (hv : IsWord v) : IsWord u := by
  constructor
  · intro hu
    have hlists : u.toList.map Char.toUpper = v.toList.map Char.toUpper := beq_iff_eq.mp h
    rw [hu, List.map_nil, eq_comm, List.map_eq_nil_iff] at hlists
    exact hv.1 hlists
  · refine forall_mem_congr (fun c d hcd hd => ?_) h hv.2
    rw [← isBlank_toUpper, hcd, isBlank_toUpper, hd]

/-! ### texts of two words -/

/-- two words with blanks around them and some between them -/
def Spaced (u v text : String) : Prop :=
  ∃ lead gap trail : String, isAllBlank lead = true ∧ isAllBlank gap = true ∧
    isAllBlank trail = true ∧ gap ≠ "" ∧ text = lead ++ u ++ gap ++ v ++ trail

theorem words_of_spaced {u v text : String} (hu : IsWord u) (hv : IsWord v)
    (h : Spaced u v text) : words text = [u, v] := by
  obtain ⟨lead, gap, trail, hlead, hgap, htrail, hne, rfl⟩ := h
  have hlead := List.all_eq_true.mp hlead
  have hgap := List.all_eq_true.mp hgap
  have htrail := List.all_eq_true.mp htrail
  obtain ⟨ch, rest, hcons⟩ := List.exists_cons_of_ne_nil fun hnil =>
    hne (String.toList_eq_nil_iff.mp hnil)
  rw [hcons] at hgap
  obtain ⟨hch, hrest⟩ := List.forall_mem_cons.mp hgap
  have htext : (lead ++ u ++ gap ++ v ++ trail).toList
      = lead.toList ++ (u.toList ++ ch :: (rest ++ (v.toList ++ trail.toList))) := by
    simp only [String.toList_append, hcons, List.append_assoc, List.cons_append]
  rw [words, htext, wordsOf_blanks_append hlead, wordsOf_append_blank hu.1 hu.2 hch,
    wordsOf_blanks_append hrest, wordsOf_word_append hv.1 hv.2 htrail]
  simp

theorem spaced_of_words {u v text : String} (h : words text = [u, v]) : Spaced u v text := by
  obtain ⟨w, later, hwords, rfl, hlater⟩ := List.map_eq_cons_iff.mp h
  obtain ⟨w', later', rfl, rfl, hnil⟩ := List.map_eq_cons_iff.mp hlater
  rw [List.map_eq_nil_iff] at hnil
  subst hnil
  obtain ⟨lead, rest, hlead, hrest, htext, hsecond⟩ := exists_of_wordsOf_eq_cons hwords
  obtain ⟨gap, trail, hgap, _, rfl, htrail⟩ := exists_of_wordsOf_eq_cons hsecond
  have hne : gap ≠ [] := by
    -- the rest would start with the second word
    rintro rfl
    obtain ⟨hw', hblank⟩ := word_of_mem_wordsOf (hwords ▸ List.mem_cons_of_mem w (by simp) :
      w' ∈ wordsOf text.toList)
    obtain ⟨ch, tail, rfl⟩ := List.exists_cons_of_ne_nil hw'
    have hch := hrest ch (by simp)
    rw [hblank ch List.mem_cons_self] at hch
    cases hch
  refine ⟨String.ofList lead, String.ofList gap, String.ofList trail, ?_, ?_, ?_, ?_, ?_⟩
  · simpa [isAllBlank] using hlead
  · simpa [isAllBlank] using hgap
  · simpa [isAllBlank] using isBlank_of_wordsOf_eq_nil htrail
  · simpa [← String.toList_inj] using hne
  · rw [← String.toList_inj, htext]
    simp

theorem sameWords_spaced {u v u' v' text text' : String} (hwords : words text = [u, v])
    (hu : eqIgnoringCase u' u = true) (hv : eqIgnoringCase v' v = true)
    (h : Spaced u' v' text') : SameWords text' text := by
  have hu' := isWord_congr hu (isWord_of_mem_words (hwords ▸ List.mem_cons_self))
  have hv' := isWord_congr hv (isWord_of_mem_words (hwords ▸ List.mem_cons_of_mem _ (by simp)))
  unfold SameWords
  rw [words_of_spaced hu' hv' h, hwords]
  exact .cons hu (.cons hv .nil)

end DegreeProgress
