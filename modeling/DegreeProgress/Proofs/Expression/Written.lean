import DegreeProgress.Proofs.Expression.Grammar

/-!
# Written tokens

Texts that are put together from tokens without a gap, and with a gap before some of them.

* `reads_gap`                     a gap may be written before a token;
* `literalPhrase_literalToken`    a literal is written as one token that stands for it;
* `reads_callText`                a call is read if its arguments are.
-/

namespace DegreeProgress

def Literal.written : Literal → String
  | text s => s!"\"{s}\""
  | number n => toString n

/-- a call with the arguments as text -/
def callText (name args : String) : String := s!"{name}({args})"

namespace Expression

section
variable {ts : List Token} {s rest : List Char}

theorem leads_spelling {t : Token} (hvalid : t.IsValid)
    (hmax : ∀ ch ∈ rest.head?, t.goesOnWith ch = false) : t.Leads (t.spelling ++ rest) rest :=
  ⟨hvalid, ⟨[], by simp, rfl⟩, hmax⟩

theorem leads_mark (m : Mark) : (Token.mark m).Leads (m.text.toList ++ rest) rest :=
  leads_spelling (t := .mark m) trivial fun _ _ => rfl

theorem reads_gap {gap : List Char} (hgap : ∀ ch ∈ gap, Cursor.isGap ch = true) (hne : ts ≠ [])
    (h : Reads ts s rest) : Reads ts (gap ++ s) rest := by
  obtain ⟨t, us, rfl⟩ := List.exists_cons_of_ne_nil hne
  obtain ⟨s', ⟨hvalid, ⟨gap', hgap', rfl⟩, hmax⟩, hus⟩ := h
  refine ⟨s', ⟨hvalid, ⟨gap ++ gap', ?_, ?_⟩, hmax⟩, hus⟩
  · intro ch hch
    rcases List.mem_append.mp hch with hch | hch
    · exact hgap ch hch
    · exact hgap' ch hch
  · rw [List.append_assoc]

/-! ### calls -/

theorem isValid_name {word : String} (hstart : word.toList.head?.any isNameStart = true)
    (hpart : word.toList.all isNamePart = true) : (Token.name word).IsValid := by
  rw [List.all_eq_true] at hpart
  cases hword : word.toList with
  | nil =>
    rw [hword] at hstart
    cases hstart
  | cons ch cs =>
    rw [hword] at hstart hpart
    exact ⟨ch, cs, hword, hstart, fun c hc => hpart c (List.mem_cons_of_mem _ hc)⟩

/-- a call is read if its arguments are, up to the closing parenthesis -/
theorem reads_callText {name args : String} (hname : (Token.name name).IsValid)
    (h : Reads (ts ++ [.mark .closing]) (args.toList ++ ')' :: rest) rest) :
    Reads (callOf name ts) ((callText name args).toList ++ rest) rest := by
  have hspelled : (callText name args).toList ++ rest
      = name.toList ++ '(' :: (args.toList ++ ')' :: rest) := by
    simp only [callText, String.toList_append, List.append_assoc]
    rfl
  rw [hspelled]
  refine ⟨_, leads_spelling (t := .name name) hname fun ch hch => ?_, _, leads_mark .opening, h⟩
  cases hch
  rfl

end

/-! ### literals -/

/-- the token of a literal -/
def literalToken : Literal → Token
  | .text s => .quoted s
  | .number n => .digits (toString n)

theorem toList_written (l : Literal) : l.written.toList = (literalToken l).spelling := by
  cases l with
  | text s =>
    simp only [Literal.written, String.toList_append, List.append_assoc]
    rfl
  | number n => rfl

theorem digitsValue_toString (n : Nat) : digitsValue (toString n).toList = n := by
  rw [Nat.toString_eq_ofList_toDigits, String.toList_ofList]
  exact Nat.ofDigitChars_ten_toDigits

theorem isValid_digits (n : Nat) : (Token.digits (toString n)).IsValid := by
  rw [Nat.toString_eq_ofList_toDigits]
  constructor
  · rw [String.toList_ofList]
    exact Nat.toDigits_ne_nil
  · rw [String.toList_ofList]
    exact fun ch hch => Nat.isDigit_of_mem_toDigits (by decide) (by decide) hch

theorem literalPhrase_literalToken (n : Nat) (l : Literal) :
    LiteralPhrase n [literalToken l] l := by
  cases l with
  | text s => exact .text
  | number k =>
    have hk : digitsValue (toString k).toList = k.toNat := digitsValue_toString k.toNat
    have h := @LiteralPhrase.number n (toString k) (hk ▸ k.toNat_lt)
    rw [hk, UInt64.ofNat_toNat] at h
    exact h

theorem reads_call {name : String} (hname : (Token.name name).IsValid) {l : Literal}
    (hl : (literalToken l).IsValid) (rest : List Char) :
    Reads (callOf name [literalToken l]) ((callText name l.written).toList ++ rest) rest := by
  refine reads_callText hname ⟨_, ?_, _, leads_mark .closing, rfl⟩
  rw [toList_written]
  refine leads_spelling hl fun ch hch => ?_
  cases hch
  cases l <;> rfl

end Expression

end DegreeProgress
