import DegreeProgress.Rule.Expression
import DegreeProgress.Proofs.Text.Words

/-!
# Tokens of expressions

What an expression is made of: marks, names, runs of digits and quoted texts, with gaps between
them and nowhere inside one.  `Token.Leads t s rest` says that `s` is the token `t` after any gap,
and then `rest`; `Reads ts s rest` says the same of several tokens.

* `Token.Leads.dropWhile_isGap`           a gap ends where the token starts;
* `leads_of_eat?`, `Token.Leads.eat?`     a mark is read exactly where it leads the text,
* `leads_of_name?`, `Token.Leads.name?`   a name as well,
* `leads_of_number`, `Token.Leads.number` and a number, if it is in range;
* `Token.Leads.eat?_eq_none`              no mark is read where another token leads.
-/

namespace DegreeProgress.Expression

/-! ### runs of characters -/

section
variable {p : Char → Bool} {run s : List Char}

theorem takeWhile_append_of_stop (hrun : ∀ ch ∈ run, p ch = true)
    (hstop : ∀ ch ∈ s.head?, p ch = false) : (run ++ s).takeWhile p = run := by
  rw [List.takeWhile_append_of_pos hrun]
  cases s with
  | nil => rw [List.takeWhile_nil, List.append_nil]
  | cons ch cs =>
    have hch : p ch = false := hstop ch rfl
    rw [List.takeWhile_cons_of_neg (by simp [hch]), List.append_nil]

theorem dropWhile_append_of_stop (hrun : ∀ ch ∈ run, p ch = true)
    (hstop : ∀ ch ∈ s.head?, p ch = false) : (run ++ s).dropWhile p = s := by
  rw [List.dropWhile_append_of_pos hrun]
  cases s with
  | nil => rfl
  | cons ch cs =>
    have hch : p ch = false := hstop ch rfl
    rw [List.dropWhile_cons_of_neg (by simp [hch])]

theorem eq_false_of_mem_head?_dropWhile (s : List Char) :
    ∀ ch ∈ (s.dropWhile p).head?, p ch = false := by
  intro ch hch
  have hnot := List.head?_dropWhile_not p s
  rw [Option.mem_def.mp hch] at hnot
  exact hnot

end

/-! ### tokens -/

/-- the marks of the language -/
inductive Mark where
  | or
  | and
  | bang
  | opening
  | closing
  | comma
  deriving DecidableEq

def Mark.text : Mark → String
  | or => "||"
  | and => "&&"
  | bang => "!"
  | opening => "("
  | closing => ")"
  | comma => ","

inductive Token where
  | mark (m : Mark)
  | name (word : String)
  | digits (run : String)
  /-- a text between double quotes -/
  | quoted (text : String)

namespace Token

def spelling : Token → List Char
  | mark m => m.text.toList
  | name word => word.toList
  | digits run => run.toList
  | quoted text => '"' :: (text.toList ++ ['"'])

/-- a name starts with a letter or `_` and goes on with these and digits, a run of digits is not
empty, and a text holds no double quote -/
def IsValid : Token → Prop
  | mark _ => True
  | name word => ∃ ch cs, word.toList = ch :: cs ∧ isNameStart ch = true ∧
      ∀ c ∈ cs, isNamePart c = true
  | digits run => run.toList ≠ [] ∧ ∀ ch ∈ run.toList, ch.isDigit = true
  | quoted text => '"' ∉ text.toList

/-- whether a token is longer when the character follows it -/
def goesOnWith : Token → Char → Bool
  | name _, ch => isNamePart ch
  | digits _, ch => ch.isDigit
  | _, _ => false

/-- `s` is the token after any gap, and then `rest`; the token is as long as it can be -/
structure Leads (t : Token) (s rest : List Char) : Prop where
  valid : t.IsValid
  spelled : ∃ gap, (∀ ch ∈ gap, Cursor.isGap ch = true) ∧ s = gap ++ (t.spelling ++ rest)
  maximal : ∀ ch ∈ rest.head?, t.goesOnWith ch = false

end Token

/-- `s` is the tokens, each after any gap, and then `rest` -/
def Reads : List Token → List Char → List Char → Prop
  | [], s, rest => s = rest
  | t :: ts, s, rest => ∃ s', t.Leads s s' ∧ Reads ts s' rest

/-- the text consists of the tokens and gaps -/
def Spells (ts : List Token) (s : List Char) : Prop :=
  ∃ gap, Reads ts s gap ∧ ∀ ch ∈ gap, Cursor.isGap ch = true

theorem reads_append (ts us : List Token) (s rest : List Char) :
    Reads (ts ++ us) s rest ↔ ∃ s', Reads ts s s' ∧ Reads us s' rest := by
  induction ts generalizing s with
  | nil => simp [Reads]
  | cons t ts ih =>
    simp only [List.cons_append, Reads, ih]
    constructor
    · rintro ⟨s₁, ht, s', hts, hus⟩
      exact ⟨s', ⟨s₁, ht, hts⟩, hus⟩
    · rintro ⟨s', ⟨s₁, ht, hts⟩, hus⟩
      exact ⟨s₁, ht, s', hts, hus⟩

theorem reads_singleton (t : Token) (s rest : List Char) : Reads [t] s rest ↔ t.Leads s rest := by
  simp [Reads]

/-! ### the first character of a token -/

theorem isBlank_of_isGap {ch : Char} (h : Cursor.isGap ch = true) : isBlank ch = true := by
  simp only [Cursor.isGap, Bool.or_eq_true, beq_iff_eq] at h
  rcases h with (((rfl | rfl) | rfl) | rfl) | rfl <;> rfl

theorem isBlank_of_isNamePart {ch : Char} (h : isNamePart ch = true) : isBlank ch = false := by
  rw [isNamePart, Bool.or_eq_true, beq_iff_eq] at h
  rcases h with h | rfl
  · exact isBlank_of_isAlphanum h
  · decide

theorem isGap_of_not_isBlank {ch : Char} (h : isBlank ch = false) : Cursor.isGap ch = false := by
  by_contra hgap
  rw [isBlank_of_isGap (by simpa using hgap)] at h
  exact absurd h (by decide)

theorem isNamePart_of_isNameStart {ch : Char} (h : isNameStart ch = true) :
    isNamePart ch = true := by
  simp only [isNameStart, isNamePart, Char.isAlphanum, Bool.or_eq_true] at h ⊢
  rcases h with h | h
  · left; left; exact h
  · right; exact h

theorem isNamePart_of_isDigit {ch : Char} (h : ch.isDigit = true) : isNamePart ch = true := by
  simp [isNamePart, Char.isAlphanum, h]

namespace Token

/-- every token starts with a character of its own -/
theorem exists_head? {t : Token} (h : t.IsValid) :
    ∃ ch, t.spelling.head? = some ch ∧ isBlank ch = false ∧
      ((∃ m, t = mark m) ∨ isNamePart ch = true ∨ ch = '"') := by
  cases t with
  | mark m => cases m <;> exact ⟨_, rfl, rfl, .inl ⟨_, rfl⟩⟩
  | name word =>
    obtain ⟨ch, cs, hword, hch, _⟩ := h
    have hpart := isNamePart_of_isNameStart hch
    exact ⟨ch, by rw [spelling, hword]; rfl, isBlank_of_isNamePart hpart, .inr (.inl hpart)⟩
  | digits run =>
    obtain ⟨hne, hall⟩ := h
    obtain ⟨ch, cs, hrun⟩ := List.exists_cons_of_ne_nil hne
    have hpart := isNamePart_of_isDigit (hall ch (hrun ▸ List.mem_cons_self))
    exact ⟨ch, by rw [spelling, hrun]; rfl, isBlank_of_isNamePart hpart, .inr (.inl hpart)⟩
  | quoted text => exact ⟨'"', rfl, rfl, .inr (.inr rfl)⟩

theorem spelling_ne_nil {t : Token} (h : t.IsValid) : t.spelling ≠ [] := by
  obtain ⟨ch, hch, _⟩ := exists_head? h
  rintro hnil
  rw [hnil] at hch
  cases hch

theorem head?_spelling_ne {t : Token} (h : t.IsValid) {m : Mark} (hne : t ≠ mark m) :
    t.spelling.head? ≠ m.text.toList.head? := by
  obtain ⟨ch, hch, _, ⟨m', rfl⟩ | hkind⟩ := exists_head? h
  · have hmarks : ∀ m' m : Mark, m' ≠ m → m'.text.toList.head? ≠ m.text.toList.head? := by
      intro m' m
      cases m' <;> cases m <;> decide
    exact hmarks m' m fun e => hne (congrArg mark e)
  · rw [hch]
    intro heq
    have hmark : ∃ ch, m.text.toList.head? = some ch ∧ isNamePart ch = false ∧ ch ≠ '"' := by
      cases m <;> exact ⟨_, rfl, rfl, by decide⟩
    obtain ⟨ch', hch', hpart, hquote⟩ := hmark
    cases heq.trans hch'
    rcases hkind with hkind | hkind
    · rw [hpart] at hkind
      exact absurd hkind (by decide)
    · exact hquote hkind

theorem Leads.dropWhile_isGap {t : Token} {s rest : List Char} (h : t.Leads s rest) :
    s.dropWhile Cursor.isGap = t.spelling ++ rest := by
  obtain ⟨gap, hgap, rfl⟩ := h.spelled
  obtain ⟨ch, hch, hblank, _⟩ := exists_head? h.valid
  refine dropWhile_append_of_stop hgap fun c hc => ?_
  rw [List.head?_append, hch, Option.some_or, Option.mem_some_iff] at hc
  exact hc ▸ isGap_of_not_isBlank hblank

theorem leads_of_dropWhile {t : Token} {s rest : List Char} (hvalid : t.IsValid)
    (hs : s.dropWhile Cursor.isGap = t.spelling ++ rest)
    (hmax : ∀ ch ∈ rest.head?, t.goesOnWith ch = false) : t.Leads s rest where
  valid := hvalid
  spelled := by
    refine ⟨s.takeWhile Cursor.isGap, fun ch hch => List.mem_takeWhile_imp hch, ?_⟩
    rw [← hs, List.takeWhile_append_dropWhile]
  maximal := hmax

end Token

/-! ### reading marks -/

section
variable {c c' : Cursor} {s : List Char}

theorem skipGap_skipGap (c : Cursor) : c.skipGap.skipGap = c.skipGap := by
  have hnil : ∀ ch ∈ ([] : List Char), Cursor.isGap ch = true := by simp
  have hstop := eq_false_of_mem_head?_dropWhile (p := Cursor.isGap) c.rest
  have htake := takeWhile_append_of_stop hnil hstop
  have hdrop := List.dropWhile_idempotent Cursor.isGap c.rest
  rw [List.nil_append] at htake
  unfold Cursor.skipGap Cursor.span
  simp only [htake, hdrop, utf8Length, Nat.add_zero]

theorem eat?_skipGap (token : String) (c : Cursor) : c.skipGap.eat? token = c.eat? token := by
  unfold Cursor.eat?
  rw [skipGap_skipGap]

theorem rest_of_eat? {token : String} (h : c.eat? token = some c') :
    c.rest.dropWhile Cursor.isGap = token.toList ++ c'.rest := by
  dsimp only [Cursor.eat?] at h
  split at h
  · rename_i hprefix
    obtain ⟨s, hs⟩ := List.isPrefixOf_iff_prefix.mp hprefix
    cases h
    show c.skipGap.rest = _ ++ c.skipGap.rest.drop token.length
    rw [← hs, ← String.length_toList, List.drop_left]
  · cases h

theorem exists_eat? {token : String} (h : c.rest.dropWhile Cursor.isGap = token.toList ++ s) :
    ∃ c', c.eat? token = some c' ∧ c'.rest = s := by
  have hprefix : token.toList.isPrefixOf c.skipGap.rest = true :=
    List.isPrefixOf_iff_prefix.mpr ⟨s, h.symm⟩
  refine ⟨c.skipGap.advance token.length, ?_, ?_⟩
  · unfold Cursor.eat?
    rw [if_pos hprefix]
  · show (c.rest.dropWhile Cursor.isGap).drop token.length = s
    rw [h, ← String.length_toList, List.drop_left]

theorem leads_of_eat? {m : Mark} (h : c.eat? m.text = some c') :
    (Token.mark m).Leads c.rest c'.rest :=
  Token.leads_of_dropWhile trivial (rest_of_eat? h) fun _ _ => rfl

theorem Token.Leads.eat? {m : Mark} (h : (Token.mark m).Leads c.rest s) :
    ∃ c', c.eat? m.text = some c' ∧ c'.rest = s :=
  exists_eat? h.dropWhile_isGap

/-- nothing is read that starts with another character than the token that comes next -/
theorem Token.Leads.eat?_eq_none_of_head {t : Token} {token : String} (h : t.Leads c.rest s)
    (hne : token.toList ≠ []) (hhead : t.spelling.head? ≠ token.toList.head?) :
    c.eat? token = none := by
  by_contra hsome
  obtain ⟨c', hc'⟩ := Option.ne_none_iff_exists'.mp hsome
  have hspelled := congrArg List.head? (h.dropWhile_isGap.symm.trans (rest_of_eat? hc'))
  rw [List.head?_append_of_ne_nil _ (spelling_ne_nil h.valid),
    List.head?_append_of_ne_nil _ hne] at hspelled
  exact hhead hspelled

theorem Mark.text_ne_nil (m : Mark) : m.text.toList ≠ [] :=
  Token.spelling_ne_nil (t := .mark m) trivial

theorem Token.Leads.eat?_eq_none {t : Token} {m : Mark} (h : t.Leads c.rest s)
    (hne : t ≠ .mark m) : c.eat? m.text = none :=
  h.eat?_eq_none_of_head m.text_ne_nil (head?_spelling_ne h.valid hne)

theorem eat?_eq_none_of_gap (m : Mark) (h : ∀ ch ∈ c.rest, Cursor.isGap ch = true) :
    c.eat? m.text = none := by
  by_contra hsome
  obtain ⟨c', hc'⟩ := Option.ne_none_iff_exists'.mp hsome
  have hrest := rest_of_eat? hc'
  rw [List.dropWhile_eq_nil_iff.mpr h] at hrest
  exact m.text_ne_nil (List.append_eq_nil_iff.mp hrest.symm).1

theorem rest_of_require {m : Mark} (h : require m.text c = .ok c') :
    (Token.mark m).Leads c.rest c'.rest := by
  unfold require at h
  split at h
  · rename_i c₁ hc₁
    cases h
    exact leads_of_eat? hc₁
  · cases h

theorem Token.Leads.require {m : Mark} (h : (Token.mark m).Leads c.rest s) :
    ∃ c', Expression.require m.text c = .ok c' ∧ c'.rest = s := by
  obtain ⟨c', hc', hrest⟩ := h.eat?
  refine ⟨c', ?_, hrest⟩
  unfold Expression.require
  rw [hc']

end

/-! ### reading names, numbers and texts -/

section
variable {c c' : Cursor} {s : List Char}

theorem leads_of_name? {word : String} (h : name? c = some (word, c')) :
    (Token.name word).Leads c.rest c'.rest := by
  dsimp only [name?] at h
  split at h
  · cases h
  · rename_i ch cs hcs
    split at h
    · rename_i hstart
      cases h
      have hrest : c.rest.dropWhile Cursor.isGap = ch :: cs := hcs
      have hpart := isNamePart_of_isNameStart hstart
      refine Token.leads_of_dropWhile ⟨ch, cs.takeWhile isNamePart, ?_, hstart, ?_⟩ ?_ ?_
      · show (String.ofList ((c.rest.dropWhile Cursor.isGap).takeWhile isNamePart)).toList = _
        rw [String.toList_ofList, hrest, List.takeWhile_cons_of_pos hpart]
      · exact fun x hx => List.mem_takeWhile_imp hx
      · show _ = (String.ofList ((c.rest.dropWhile Cursor.isGap).takeWhile isNamePart)).toList ++
          (c.rest.dropWhile Cursor.isGap).dropWhile isNamePart
        rw [String.toList_ofList, List.takeWhile_append_dropWhile]
      · exact eq_false_of_mem_head?_dropWhile _
    · cases h

theorem Token.Leads.name? {word : String} (h : (Token.name word).Leads c.rest s) :
    ∃ c', Expression.name? c = some (word, c') ∧ c'.rest = s := by
  obtain ⟨ch, cs, hword, hstart, hcs⟩ := h.valid
  have hall : ∀ x ∈ word.toList, isNamePart x = true := by
    rw [hword]
    exact List.forall_mem_cons.mpr ⟨isNamePart_of_isNameStart hstart, hcs⟩
  have hrest : c.skipGap.rest = word.toList ++ s := h.dropWhile_isGap
  have htake : c.skipGap.rest.takeWhile isNamePart = word.toList := by
    rw [hrest, takeWhile_append_of_stop hall h.maximal]
  refine ⟨(c.skipGap.span isNamePart).2, ?_, ?_⟩
  · have hcons : c.skipGap.rest = ch :: (cs ++ s) := by
      rw [hrest, hword, List.cons_append]
    unfold Expression.name?
    simp only [hcons, hstart, if_true]
    show some (String.ofList (c.skipGap.rest.takeWhile isNamePart), _) = _
    rw [htake, String.ofList_toList]
  · show c.skipGap.rest.dropWhile isNamePart = s
    rw [hrest, dropWhile_append_of_stop hall h.maximal]

theorem name?_skipGap (c : Cursor) : name? c.skipGap = name? c := by
  unfold name?
  rw [skipGap_skipGap]

variable {what : String} {bound n : Nat}

theorem number_skipGap (c : Cursor) : number what bound c.skipGap = number what bound c := by
  unfold number
  rw [skipGap_skipGap]

theorem leads_of_number (h : number what bound c = .ok (n, c')) :
    ∃ run, (Token.digits run).Leads c.rest c'.rest ∧ n = digitsValue run.toList ∧ n < bound := by
  unfold number at h
  have hpieces : c.skipGap.rest.takeWhile Char.isDigit ++ c.skipGap.rest.dropWhile Char.isDigit
      = c.skipGap.rest := List.takeWhile_append_dropWhile
  generalize hrun : c.skipGap.rest.takeWhile Char.isDigit = run at hpieces
  simp only [Cursor.span, hrun] at h
  split at h
  · cases h
  · rename_i hne
    split at h
    · rename_i hlt
      cases h
      refine ⟨String.ofList run, Token.leads_of_dropWhile ⟨?_, ?_⟩ ?_ ?_, ?_, hlt⟩
      · rw [String.toList_ofList]
        exact fun hnil => hne (List.isEmpty_iff.mpr hnil)
      · rw [String.toList_ofList, ← hrun]
        exact fun ch hch => List.mem_takeWhile_imp hch
      · show c.skipGap.rest = (String.ofList run).toList ++ _
        rw [String.toList_ofList]
        exact hpieces.symm
      · exact eq_false_of_mem_head?_dropWhile _
      · rw [String.toList_ofList]
    · cases h

theorem Token.Leads.number {run : String} (what : String) (h : (Token.digits run).Leads c.rest s)
    (hlt : digitsValue run.toList < bound) :
    ∃ c', Expression.number what bound c = .ok (digitsValue run.toList, c') ∧ c'.rest = s := by
  obtain ⟨hne, hall⟩ := h.valid
  have hrest : c.skipGap.rest = run.toList ++ s := h.dropWhile_isGap
  have htake : c.skipGap.rest.takeWhile Char.isDigit = run.toList := by
    rw [hrest, takeWhile_append_of_stop hall h.maximal]
  refine ⟨(c.skipGap.span Char.isDigit).2, ?_, ?_⟩
  · have hsome : run.toList.isEmpty = false := by simpa using hne
    unfold Expression.number
    simp only [Cursor.span, htake, hsome, hlt, if_true]
    rfl
  · show c.skipGap.rest.dropWhile Char.isDigit = s
    rw [hrest, dropWhile_append_of_stop hall h.maximal]

theorem leads_of_quote {inside : Cursor} (hopen : c.eat? "\"" = some inside)
    (hclose : (inside.span (· != '"')).2.eat? "\"" = some c') :
    (Token.quoted (String.ofList (inside.rest.takeWhile (· != '"')))).Leads c.rest c'.rest := by
  have hbody := List.takeWhile_append_dropWhile (p := (· != '"')) (l := inside.rest)
  have hafter : (inside.rest.dropWhile (· != '"')).dropWhile Cursor.isGap = '"' :: c'.rest :=
    rest_of_eat? hclose
  have hquote : inside.rest.dropWhile (· != '"') = '"' :: c'.rest := by
    cases hdrop : inside.rest.dropWhile (· != '"') with
    | nil =>
      rw [hdrop] at hafter
      cases hafter
    | cons ch cs =>
      have hch := eq_false_of_mem_head?_dropWhile (p := (· != '"')) inside.rest ch (by simp [hdrop])
      have heq : ch = '"' := by simpa using hch
      rw [hdrop, heq] at hafter
      rw [heq]
      exact hafter
  refine Token.leads_of_dropWhile ?_ ?_ fun _ _ => rfl
  · show '"' ∉ (String.ofList _).toList
    rw [String.toList_ofList]
    intro hmem
    exact absurd (List.mem_takeWhile_imp hmem) (by decide)
  · rw [rest_of_eat? hopen, Token.spelling]
    simp only [String.toList_ofList]
    show '"' :: inside.rest = '"' :: (inside.rest.takeWhile (· != '"') ++ ['"'] ++ c'.rest)
    rw [List.append_assoc, List.singleton_append, ← hquote, hbody]

theorem Token.Leads.quote {text : String} (h : (Token.quoted text).Leads c.rest s) :
    ∃ inside c', c.eat? "\"" = some inside ∧ inside.rest.takeWhile (· != '"') = text.toList ∧
      (inside.span (· != '"')).2.eat? "\"" = some c' ∧ c'.rest = s := by
  have hspelled : c.rest.dropWhile Cursor.isGap = "\"".toList ++ (text.toList ++ '"' :: s) := by
    rw [h.dropWhile_isGap, Token.spelling, List.cons_append, List.append_assoc]
    rfl
  have hbody : ∀ ch ∈ text.toList, (ch != '"') = true := by
    intro ch hch
    have hne : ch ≠ '"' := fun heq => h.valid (heq ▸ hch)
    simpa using hne
  have hstop : ∀ ch ∈ ('"' :: s).head?, (ch != '"') = false := by
    intro ch hch
    cases hch
    rfl
  obtain ⟨inside, hopen, hinside⟩ := exists_eat? hspelled
  have hclose : (inside.span (· != '"')).2.rest.dropWhile Cursor.isGap = "\"".toList ++ s := by
    show (inside.rest.dropWhile (· != '"')).dropWhile Cursor.isGap = _
    rw [hinside, dropWhile_append_of_stop hbody hstop]
    rfl
  obtain ⟨c', hc', hrest⟩ := exists_eat? hclose
  refine ⟨inside, c', hopen, ?_, hc', hrest⟩
  rw [hinside, takeWhile_append_of_stop hbody hstop]

theorem Token.Leads.eat?_quote_eq_none {run : String} (h : (Token.digits run).Leads c.rest s) :
    c.eat? "\"" = none := by
  obtain ⟨hne, hall⟩ := h.valid
  refine h.eat?_eq_none_of_head (by decide) ?_
  obtain ⟨ch, cs, hrun⟩ := List.exists_cons_of_ne_nil hne
  have hdigit := hall ch (hrun ▸ List.mem_cons_self)
  rw [spelling, hrun]
  intro heq
  cases heq
  exact absurd hdigit (by decide)

end

end DegreeProgress.Expression
