import Mathlib.Data.String.Basic
import DegreeProgress.Text.Cursor

/-!
# Moving through a text

A cursor reaches another one by reading characters (`Cursor.Reaches`).  What a cursor reaches from
the start of a text is a place of that text:

* `cut_append`                  the text can be cut at its offset,
* `Cursor.Reaches.isBoundary`   which is no position inside a character,
* `Cursor.Reaches.standsAt`     and what comes next there is a part of the text;
* `Cursor.reaches_span`, `Cursor.reaches_of_eat?`   reading moves forward.
-/

namespace DegreeProgress

/-! ### bytes of characters -/

theorem utf8ByteSize_ofList (cs : List Char) : (String.ofList cs).utf8ByteSize = utf8Length cs := by
  rw [String.utf8ByteSize_ofList]
  induction cs with
  | nil => rfl
  | cons ch cs ih => rw [String.utf8Len_cons, utf8Length, ih, Nat.add_comm]

theorem utf8Length_toList (s : String) : utf8Length s.toList = s.utf8ByteSize := by
  rw [← utf8ByteSize_ofList, String.ofList_toList]

theorem utf8Length_append (cs ds : List Char) :
    utf8Length (cs ++ ds) = utf8Length cs + utf8Length ds := by
  induction cs with
  | nil => rw [List.nil_append, utf8Length, Nat.zero_add]
  | cons ch cs ih => rw [List.cons_append, utf8Length, utf8Length, ih, Nat.add_assoc]

theorem length_le_utf8Length (cs : List Char) : cs.length ≤ utf8Length cs := by
  induction cs with
  | nil => exact Nat.le_refl _
  | cons ch cs ih =>
    have hpos := ch.utf8Size_pos
    rw [List.length_cons, utf8Length]
    omega

theorem utf8Length_eq_zero_iff {cs : List Char} : utf8Length cs = 0 ↔ cs = [] := by
  constructor
  · intro h
    have hlength := length_le_utf8Length cs
    exact List.eq_nil_of_length_eq_zero (by omega)
  · rintro rfl
    rfl

/-- the characters of the first `n` bytes and those after them; there are none if the `n`-th byte
ends inside a character or there are too few -/
def cut : Nat → List Char → Option (List Char × List Char)
  | 0, cs => some ([], cs)
  | _ + 1, [] => none
  | n + 1, ch :: cs =>
    if ch.utf8Size ≤ n + 1 then
      (cut (n + 1 - ch.utf8Size) cs).map fun parts => (ch :: parts.1, parts.2)
    else none

theorem cut_append (cs ds : List Char) : cut (utf8Length cs) (cs ++ ds) = some (cs, ds) := by
  induction cs with
  | nil => rw [utf8Length, List.nil_append, cut]
  | cons ch cs ih =>
    have hpos := ch.utf8Size_pos
    obtain ⟨n, hn⟩ : ∃ n, utf8Length (ch :: cs) = n + 1 := by
      refine ⟨utf8Length (ch :: cs) - 1, ?_⟩
      rw [utf8Length]
      omega
    have hsize : ch.utf8Size + utf8Length cs = n + 1 := hn
    have hrest : n + 1 - ch.utf8Size = utf8Length cs := by omega
    rw [hn, List.cons_append, cut, if_pos (by omega), hrest, ih]
    rfl

/-! ### parts of a text -/

/-- a byte position of the text that lies inside no character -/
def IsBoundary (text : String) (position : Nat) : Prop :=
  position ≤ text.utf8ByteSize ∧ (⟨position⟩ : String.Pos.Raw).IsValid text

/-- the text has `part` at a byte position -/
def StandsAt (text : String) (position : Nat) (part : String) : Prop :=
  ∃ before after, text = before ++ part ++ after ∧ before.utf8ByteSize = position

theorem StandsAt.isBoundary {text part : String} {position : Nat}
    (h : StandsAt text position part) : IsBoundary text position := by
  obtain ⟨before, after, rfl, rfl⟩ := h
  have hvalid : (⟨before.utf8ByteSize⟩ : String.Pos.Raw).IsValid (before ++ part ++ after) :=
    String.Pos.Raw.isValid_iff_exists_append.mpr ⟨before, part ++ after, String.append_assoc, rfl⟩
  exact ⟨hvalid.le_utf8ByteSize, hvalid⟩

namespace Cursor

/-- reading some characters leads from one cursor to the other -/
def Reaches (c c' : Cursor) : Prop :=
  ∃ read, c.rest = read ++ c'.rest ∧ c'.offset = c.offset + utf8Length read

namespace Reaches

variable {c c' c'' : Cursor} {text : String}

theorem refl (c : Cursor) : c.Reaches c := ⟨[], rfl, rfl⟩

theorem trans (h : c.Reaches c') (h' : c'.Reaches c'') : c.Reaches c'' := by
  obtain ⟨read, hrest, hoffset⟩ := h
  obtain ⟨read', hrest', hoffset'⟩ := h'
  refine ⟨read ++ read', ?_, ?_⟩
  · rw [hrest, hrest', List.append_assoc]
  · rw [hoffset', hoffset, utf8Length_append, Nat.add_assoc]

theorem offset_le (h : c.Reaches c') : c.offset ≤ c'.offset := by
  obtain ⟨read, _, hoffset⟩ := h
  omega

theorem length_le (h : c.Reaches c') : c'.rest.length ≤ c.rest.length := by
  obtain ⟨read, hrest, _⟩ := h
  rw [hrest, List.length_append]
  exact Nat.le_add_left _ _

/-- a cursor of a text: the characters before it have as many bytes as its offset says -/
theorem exists_read (h : (start text).Reaches c) :
    ∃ read, text.toList = read ++ c.rest ∧ c.offset = utf8Length read := by
  obtain ⟨read, hrest, hoffset⟩ := h
  exact ⟨read, hrest, hoffset.trans (Nat.zero_add _)⟩

theorem cut_eq (h : (start text).Reaches c) :
    ∃ read, cut c.offset text.toList = some (read, c.rest) := by
  obtain ⟨read, htext, hoffset⟩ := h.exists_read
  exact ⟨read, by rw [htext, hoffset, cut_append]⟩

theorem standsAt (h : (start text).Reaches c) {part : String} (hpart : part.toList <+: c.rest) :
    StandsAt text c.offset part := by
  obtain ⟨read, htext, hoffset⟩ := h.exists_read
  obtain ⟨after, hafter⟩ := hpart
  refine ⟨String.ofList read, String.ofList after, ?_, ?_⟩
  · rw [← String.toList_inj, String.toList_append, String.toList_append, String.toList_ofList,
      String.toList_ofList, htext, ← hafter, List.append_assoc]
  · rw [utf8ByteSize_ofList, hoffset]

theorem isBoundary (h : (start text).Reaches c) : IsBoundary text c.offset := by
  have hnothing : "".toList <+: c.rest := List.nil_prefix
  exact (h.standsAt hnothing).isBoundary

theorem offset_eq_iff (h : (start text).Reaches c) :
    c.offset = text.utf8ByteSize ↔ c.rest.isEmpty = true := by
  obtain ⟨read, htext, hoffset⟩ := h.exists_read
  rw [← utf8Length_toList, htext, utf8Length_append, hoffset, List.isEmpty_iff,
    ← utf8Length_eq_zero_iff]
  omega

end Reaches

/-! ### what readers reach -/

theorem reaches_span (p : Char → Bool) (c : Cursor) : c.Reaches (c.span p).2 :=
  ⟨c.rest.takeWhile p, List.takeWhile_append_dropWhile.symm, rfl⟩

theorem reaches_skipGap (c : Cursor) : c.Reaches c.skipGap := reaches_span isGap c

theorem reaches_advance (n : Nat) (c : Cursor) : c.Reaches (c.advance n) :=
  ⟨c.rest.take n, (List.take_append_drop n c.rest).symm, rfl⟩

theorem reaches_of_eat? {token : String} {c c' : Cursor} (h : c.eat? token = some c') :
    c.skipGap.Reaches c' := by
  dsimp only [eat?] at h
  split at h
  · cases h
    exact reaches_advance _ _
  · cases h

theorem eat?_eq (token : String) (c : Cursor) : c.eat? token =
    if token.toList.isPrefixOf c.skipGap.rest then
      some ⟨c.skipGap.offset + token.utf8ByteSize, c.skipGap.rest.drop token.length⟩
    else none := by
  dsimp only [eat?]
  split
  · rename_i hprefix
    obtain ⟨after, hafter⟩ := List.isPrefixOf_iff_prefix.mp hprefix
    have htake : c.skipGap.rest.take token.length = token.toList := by
      rw [← hafter, ← String.length_toList, List.take_left]
    rw [advance, htake, utf8Length_toList]
  · rfl

end Cursor

end DegreeProgress
