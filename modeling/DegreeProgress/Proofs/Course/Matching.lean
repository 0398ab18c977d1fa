import DegreeProgress.Proofs.Course.Pattern
import DegreeProgress.Proofs.Text.Bytes

/-!
# Codes that match a pattern

A code matches a pattern if it has two words, the pattern's subject and a number that is covered by
the template: letter by letter up to letter case, where any character takes as many `*` as it has
bytes (`CodePattern.Covers`).

* `CodePattern.matchesCode_eq`        the words of a code in upper case settle whether it matches;
* `CodePattern.fitsBytes_iff`         the bytes of a number fit a template iff it is covered;
* `CodePattern.star_is_one_byte`      so one `*` is not one character of a number,
* `CodePattern.matchesCode_iff`       unless the template has no `*` or the number is in ASCII.
-/

namespace DegreeProgress

namespace CodePattern

/-- character by character the same up to letter case, with any character opposite a `*` -/
def CharacterByCharacter : List Char → List Char → Prop :=
  List.Forall₂ fun x ch => x = '*' ∨ x.toUpper = ch.toUpper

/-- a template covers a number: a character of the number is opposite itself, up to letter case, or
opposite as many `*` as it has bytes -/
inductive Covers : List Char → List Char → Prop
  | nil : Covers [] []
  | same {x ch : Char} {template number : List Char} (h : x.toUpper = ch.toUpper) :
      Covers template number → Covers (x :: template) (ch :: number)
  | stars (ch : Char) {template number : List Char} :
      Covers template number → Covers (List.replicate ch.utf8Size '*' ++ template) (ch :: number)

/-- the code has two words: the subject of the pattern's text up to letter case, and a number that
fits its template -/
def MatchesBy (fits : List Char → List Char → Prop) (text code : String) : Prop :=
  ∃ subject template subject' number, words text = [subject, template] ∧
    words code = [subject', number] ∧ eqIgnoringCase subject' subject = true ∧
    fits template.toList number.toList

/-! ### words in upper case -/

/-- a byte in upper case fits a place of the template -/
def Fits (place : Option UInt8) (b : UInt8) : Prop := ∀ x ∈ place, x = b

/-- whether a code matches, by its words in upper case -/
def matchesUpper (p : CodePattern) : List String → Bool
  | [subject, number] =>
    let bytes := utf8Bytes number
    subject == upperAscii p.subject && bytes.length == p.number.length &&
      (p.number.zip bytes).all fun e => e.1.all (· == e.2)
  | _ => false

theorem byteMatches_eq (place : Option UInt8) (b : UInt8) :
    byteMatches place b = place.all (· == upperByte b) := by
  cases place with
  | none => rfl
  | some x => exact Bool.beq_comm

theorem matchesCode_eq (p : CodePattern) (code : String) :
    p.matchesCode code = p.matchesUpper ((words code).map upperAscii) := by
  unfold matchesCode
  match words code with
  | [] => rfl
  | [_] => rfl
  | [subject, number] =>
    have hsubject : eqIgnoringCase subject p.subject
        = (upperAscii subject == upperAscii p.subject) := by
      rw [Bool.eq_iff_iff, eqIgnoringCase_iff, beq_iff_eq]
    simp only [List.map_cons, List.map_nil, matchesUpper, ← map_upperByte_utf8Bytes,
      List.length_map, List.zip_map_right, List.all_map, hsubject, byteMatches_eq]
    rfl
  | _ :: _ :: _ :: _ => rfl

theorem matchesUpper_iff (p : CodePattern) (subject number : String) :
    p.matchesUpper [subject, number] = true
      ↔ subject = upperAscii p.subject ∧ List.Forall₂ Fits p.number (utf8Bytes number) := by
  unfold matchesUpper
  dsimp only
  rw [Bool.and_eq_true, Bool.and_eq_true, beq_iff_eq, beq_iff_eq, and_assoc,
    List.forall₂_iff_zip, eq_comm (a := (utf8Bytes number).length)]
  simp only [List.all_eq_true, Prod.forall, Option.all_eq_true, beq_iff_eq]
  rfl

/-! ### templates and bytes -/

theorem isAscii_of_isNumberChar {x : Char} (h : IsNumberChar x) : IsAscii x := by
  rcases h with h | rfl
  · exact isAscii_of_isAlphanum h
  · decide

theorem fits_placeOf_ascii {x ch : Char} (hx : IsAscii x) (hch : IsAscii ch) :
    Fits (placeOf x) ch.toUpper.toUInt8 ↔ x = '*' ∨ x.toUpper = ch.toUpper := by
  unfold Fits placeOf
  by_cases hstar : x = '*'
  · simp [hstar]
  · simp [hstar, toUInt8_inj_of_isAscii (isAscii_toUpper hx) (isAscii_toUpper hch)]

/-- a byte beyond ASCII fits only a `*` -/
theorem fits_placeOf_beyond {x : Char} (hx : IsAscii x) {b : UInt8} (hb : 128 ≤ b.toNat) :
    Fits (placeOf x) b ↔ x = '*' := by
  unfold Fits placeOf
  by_cases hstar : x = '*'
  · simp [hstar]
  · have hne : x.toUpper.toUInt8 ≠ b := by
      rintro rfl
      rw [toNat_toUInt8_of_isAscii (isAscii_toUpper hx)] at hb
      have hlt : x.toUpper.toNat < 128 := isAscii_toUpper hx
      omega
    simp [hstar, hne]

theorem utf8Bytes_upperAscii (number : String) :
    utf8Bytes (upperAscii number)
      = number.toList.flatMap fun ch => String.utf8EncodeChar ch.toUpper := by
  unfold utf8Bytes upperAscii
  rw [String.toList_ofList, List.flatMap_map]

/-- the places of a template fit the bytes of a number in upper case -/
def FitsBytes (template number : List Char) : Prop :=
  List.Forall₂ (fun x b => Fits (placeOf x) b) template
    (number.flatMap fun ch => String.utf8EncodeChar ch.toUpper)

section
variable {template number : List Char}

theorem covers_of_fits {front : List Char} {ch : Char} (hfront : ∀ x ∈ front, IsAscii x)
    (h : List.Forall₂ (fun x b => Fits (placeOf x) b) front (String.utf8EncodeChar ch.toUpper))
    (hrest : Covers template number) : Covers (front ++ template) (ch :: number) := by
  by_cases hch : IsAscii ch
  · rw [utf8EncodeChar_of_isAscii (isAscii_toUpper hch)] at h
    obtain ⟨x, hx, rfl⟩ : ∃ x, Fits (placeOf x) ch.toUpper.toUInt8 ∧ front = [x] := by
      obtain ⟨x, rest, hx, hnil, rfl⟩ := List.forall₂_cons_right_iff.mp h
      exact ⟨x, hx, by rw [List.forall₂_nil_right_iff.mp hnil]⟩
    rcases (fits_placeOf_ascii (hfront x List.mem_cons_self) hch).mp hx with rfl | hsame
    · have hstars := Covers.stars ch hrest
      rwa [utf8Size_of_isAscii hch] at hstars
    · exact .same hsame hrest
  · rw [toUpper_of_not_isAscii hch] at h
    have hstars : front = List.replicate ch.utf8Size '*' := by
      rw [List.eq_replicate_iff]
      refine ⟨h.length_eq.trans (String.length_utf8EncodeChar ch), fun x hx => ?_⟩
      obtain ⟨i, hi, rfl⟩ := List.getElem_of_mem hx
      have hbyte := le_of_mem_utf8EncodeChar hch (List.get_mem _ ⟨i, h.length_eq ▸ hi⟩)
      exact (fits_placeOf_beyond (hfront _ hx) hbyte).mp (h.get hi (h.length_eq ▸ hi))
    rw [hstars]
    exact .stars ch hrest

theorem Covers.fitsBytes (h : Covers template number) (hascii : ∀ x ∈ template, IsAscii x) :
    FitsBytes template number := by
  induction h with
  | nil => exact .nil
  | @same x ch template number hsame _ ih =>
    obtain ⟨hx, htemplate⟩ := List.forall_mem_cons.mp hascii
    have hch := isAscii_congr hsame hx
    unfold FitsBytes
    rw [List.flatMap_cons, utf8EncodeChar_of_isAscii (isAscii_toUpper hch)]
    exact .cons ((fits_placeOf_ascii hx hch).mpr (.inr hsame)) (ih htemplate)
  | @stars ch template number _ ih =>
    have htemplate := fun x hx => hascii x (List.mem_append_right _ hx)
    have hsize : ch.utf8Size = (String.utf8EncodeChar ch.toUpper).length := by
      rw [← map_upperByte_utf8EncodeChar, List.length_map, String.length_utf8EncodeChar]
    refine List.rel_append ?_ (ih htemplate)
    rw [hsize, List.forall₂_iff_zip, List.length_replicate]
    refine ⟨rfl, fun {x b} hxb => ?_⟩
    rw [List.eq_of_mem_replicate (List.of_mem_zip hxb).1]
    exact fun y hy => by cases hy

/-- the bytes of a number fit a template iff it is covered -/
theorem fitsBytes_iff (hascii : ∀ x ∈ template, IsAscii x) :
    FitsBytes template number ↔ Covers template number := by
  refine ⟨fun h => ?_, fun h => h.fitsBytes hascii⟩
  induction number generalizing template with
  | nil =>
    rw [List.forall₂_nil_right_iff.mp h]
    exact .nil
  | cons ch number ih =>
    -- the places before the bytes of the first character, and those before the rest
    unfold FitsBytes at h
    rw [List.flatMap_cons] at h
    have hfront := List.forall₂_take_append _ _ _ h
    have hback := List.forall₂_drop_append _ _ _ h
    rw [← List.take_append_drop (String.utf8EncodeChar ch.toUpper).length template]
    exact covers_of_fits (fun x hx => hascii x (List.mem_of_mem_take hx)) hfront
      (ih (fun x hx => hascii x (List.mem_of_mem_drop hx)) hback)

/-! ### characters -/

/-- without `*`, or in ASCII, a template covers what it has character by character -/
theorem covers_iff (h : '*' ∉ template ∨ ∀ ch ∈ number, IsAscii ch) :
    Covers template number ↔ CharacterByCharacter template number := by
  constructor
  · intro hcovers
    induction hcovers with
    | nil => exact .nil
    | @same x ch template number hsame _ ih =>
      refine .cons (.inr hsame) (ih ?_)
      exact h.imp (fun hstar hmem => hstar (List.mem_cons_of_mem x hmem))
        fun hnumber => (List.forall_mem_cons.mp hnumber).2
    | @stars ch template number _ ih =>
      rcases h with hstar | hnumber
      · have hsize := ch.utf8Size_pos
        exact absurd (List.mem_append_left _ (List.mem_replicate.mpr ⟨by omega, rfl⟩)) hstar
      · obtain ⟨hch, hnumber⟩ := List.forall_mem_cons.mp hnumber
        rw [utf8Size_of_isAscii hch]
        exact .cons (.inl rfl) (ih (.inr hnumber))
  · intro hcharacters
    induction hcharacters with
    | nil => exact .nil
    | @cons x ch template number hx _ ih =>
      have hrest := ih (h.imp (fun hstar hmem => hstar (List.mem_cons_of_mem x hmem))
        fun hnumber => (List.forall_mem_cons.mp hnumber).2)
      rcases hx with rfl | hsame
      · have hch : IsAscii ch := h.elim (fun hstar => absurd List.mem_cons_self hstar)
          fun hnumber => hnumber ch List.mem_cons_self
        have hstars := Covers.stars ch hrest
        rwa [utf8Size_of_isAscii hch] at hstars
      · exact .same hsame hrest

end

/-! ### codes -/

section
variable {text : String} {p : CodePattern} (h : parse text = .ok p)
include h

theorem matchesCode_iff_covers (code : String) :
    p.matchesCode code = true ↔ MatchesBy Covers text code := by
  obtain ⟨subject, template, hwords, _, htemplate, rfl⟩ := exists_of_parse h
  have hascii : ∀ x ∈ template.toList, IsAscii x := fun x hx =>
    isAscii_of_isNumberChar (htemplate x hx)
  have hpair : ∀ subject' number : String,
      matchesUpper ⟨upperAscii subject, numberOf template⟩ [upperAscii subject', upperAscii number]
          = true ↔
        eqIgnoringCase subject' subject = true ∧ Covers template.toList number.toList := by
    intro subject' number
    rw [matchesUpper_iff, eqIgnoringCase_iff, upperAscii_upperAscii, ← fitsBytes_iff hascii,
      numberOf_eq, List.forall₂_map_left_iff, utf8Bytes_upperAscii]
    rfl
  rw [matchesCode_eq]
  constructor
  · intro hmatch
    match hcode : words code with
    | [] => rw [hcode] at hmatch; cases hmatch
    | [_] => rw [hcode] at hmatch; cases hmatch
    | [subject', number] =>
      rw [hcode] at hmatch
      exact ⟨subject, template, subject', number, hwords, hcode, (hpair _ _).mp hmatch⟩
    | _ :: _ :: _ :: _ => rw [hcode] at hmatch; cases hmatch
  · rintro ⟨subject₁, template₁, subject', number, hwords₁, hcode, hmatch⟩
    rw [hwords] at hwords₁
    cases hwords₁
    rw [hcode]
    exact (hpair _ _).mpr hmatch

end

/-- **One star is not one character.**  A letter beyond ASCII in a number is not opposite one `*`,
though it is one character. -/
theorem star_is_one_byte :
    parse "CS 21*" = .ok ⟨"CS", [some 50, some 49, none]⟩ ∧
    MatchesBy CharacterByCharacter "CS 21*" "CS 21é" ∧
    matchesCode ⟨"CS", [some 50, some 49, none]⟩ "CS 21é" = false := by
  refine ⟨by decide, ⟨"CS", "21*", "CS", "21é", by decide, by decide, by decide, ?_⟩, by decide⟩
  exact .cons (.inr rfl) (.cons (.inr rfl) (.cons (.inl rfl) .nil))

/-- **A number is covered by the template.**  A code matches a pattern iff it has two words, the
subject of the pattern and a number that is covered by the template.  If the pattern has no `*`, or
the number is in ASCII, then the template covers what agrees with it character by character. -/
theorem matchesCode_iff {text : String} {p : CodePattern} (h : parse text = .ok p) (code : String) :
    (p.matchesCode code = true ↔ MatchesBy Covers text code) ∧
    ((none ∉ p.number ∨ ∀ subject number, words code = [subject, number] →
        ∀ ch ∈ number.toList, IsAscii ch) →
      (p.matchesCode code = true ↔ MatchesBy CharacterByCharacter text code)) := by
  refine ⟨matchesCode_iff_covers h code, fun hsimple => ?_⟩
  rw [matchesCode_iff_covers h]
  obtain ⟨subject, template, hwords, _, _, rfl⟩ := exists_of_parse h
  have hfits : ∀ subject' number, words code = [subject', number] →
      (Covers template.toList number.toList
        ↔ CharacterByCharacter template.toList number.toList) := by
    intro subject' number hcode
    refine covers_iff (hsimple.imp (fun hnone hstar => hnone ?_) fun hascii =>
      hascii subject' number hcode)
    exact List.mem_map.mpr ⟨'*', hstar, rfl⟩
  unfold MatchesBy
  rw [hwords]
  constructor
  · rintro ⟨_, _, subject', number, heq, hcode, hsubject, hcovers⟩
    cases heq
    exact ⟨_, _, subject', number, rfl, hcode, hsubject, (hfits _ _ hcode).mp hcovers⟩
  · rintro ⟨_, _, subject', number, heq, hcode, hsubject, hcharacters⟩
    cases heq
    exact ⟨_, _, subject', number, rfl, hcode, hsubject, (hfits _ _ hcode).mpr hcharacters⟩

/-- a code in lower case, with a hyphen opposite one `*` -/
theorem matchesCode_iff_seminar :
    parse "CS 4**1" = .ok ⟨"CS", [some 52, none, none, some 49]⟩ ∧
    matchesCode ⟨"CS", [some 52, none, none, some 49]⟩ "cs\t4x-1" = true ∧
    MatchesBy Covers "CS 4**1" "cs\t4x-1" ∧
    MatchesBy CharacterByCharacter "CS 4**1" "cs\t4x-1" := by
  have h : parse "CS 4**1" = .ok ⟨"CS", [some 52, none, none, some 49]⟩ := by decide
  have hmatch : matchesCode ⟨"CS", [some 52, none, none, some 49]⟩ "cs\t4x-1" = true := by decide
  obtain ⟨hcovers, hcharacters⟩ := matchesCode_iff h "cs\t4x-1"
  have hascii : ∀ subject number, words "cs\t4x-1" = [subject, number] →
      ∀ ch ∈ number.toList, IsAscii ch := by
    have hwords : words "cs\t4x-1" = ["cs", "4x-1"] := by decide
    intro subject number heq
    rw [hwords] at heq
    cases heq
    simp [IsAscii]
  exact ⟨h, hmatch, hcovers.mp hmatch, (hcharacters (.inr hascii)).mp hmatch⟩

end CodePattern

end DegreeProgress
