import DegreeProgress.Proofs.Expression.Grammar
import DegreeProgress.Proofs.Outcome

/-!
# Reading accepts the grammar

A reader `Recognizes` a phrase when it succeeds exactly where the phrase leads the text, unless one
of some marks follows, which could go on with it.  Each reader of the language recognizes its
phrase as soon as the readers it is made of recognize theirs.

* `recognizes_separatedBy`, `recognizes_arguments`   lists;
* `recognizes_factor`                                factors that nest at most `n` deep;
* `spells_of_parse`, `parse_of_spells`               whole texts;
* `parse_eq_ok_iff`                                  a text is read as a rule exactly when the
                                                     grammar derives the rule.
-/

namespace DegreeProgress.Expression

/-- none of the marks comes next -/
def StopsBefore (ms : List Mark) (s : List Char) : Prop :=
  ∀ m ∈ ms, ∀ s', ¬(Token.mark m).Leads s s'

structure Recognizes {α : Type} (item : Reading α) (Item : List Token → α → Prop)
    (ms : List Mark) : Prop where
  sound : ∀ {c x c'}, item c = .ok (x, c') → ∃ ts, Item ts x ∧ Reads ts c.rest c'.rest
  complete : ∀ {ts x c s}, Item ts x → Reads ts c.rest s → StopsBefore ms s →
    ∃ c', item c = .ok (x, c') ∧ c'.rest = s

/-! ### what comes next -/

theorem Token.Leads.not_leads {t : Token} {m : Mark} {s s₁ s₂ : List Char} (h : t.Leads s s₁)
    (hne : t ≠ .mark m) : ¬(Token.mark m).Leads s s₂ := by
  intro hm
  have hnone := Leads.eat?_eq_none (c := ⟨0, s⟩) h hne
  obtain ⟨c', hc', _⟩ := Leads.eat? (c := ⟨0, s⟩) hm
  rw [hnone] at hc'
  cases hc'

theorem Token.Leads.stopsBefore {t : Token} {ms : List Mark} {s s' : List Char}
    (h : t.Leads s s') (hne : ∀ m ∈ ms, t ≠ .mark m) : StopsBefore ms s :=
  fun m hm _ => h.not_leads (hne m hm)

theorem stopsBefore_of_gap {s : List Char} (ms : List Mark)
    (h : ∀ ch ∈ s, Cursor.isGap ch = true) : StopsBefore ms s := by
  intro m _ s' hm
  obtain ⟨c', hc', _⟩ := Token.Leads.eat? (c := ⟨0, s⟩) hm
  rw [eat?_eq_none_of_gap (c := ⟨0, s⟩) m h] at hc'
  cases hc'

theorem stopsBefore_nil (s : List Char) : StopsBefore [] s := fun _ hm => absurd hm List.not_mem_nil

theorem StopsBefore.eat?_eq_none {m : Mark} {ms : List Mark} {c : Cursor}
    (h : StopsBefore (m :: ms) c.rest) : c.eat? m.text = none := by
  by_contra hsome
  obtain ⟨c', hc'⟩ := Option.ne_none_iff_exists'.mp hsome
  exact h m List.mem_cons_self _ (leads_of_eat? hc')

theorem StopsBefore.tail {m : Mark} {ms : List Mark} {s : List Char}
    (h : StopsBefore (m :: ms) s) : StopsBefore ms s :=
  fun m' hm' => h m' (List.mem_cons_of_mem _ hm')

theorem Reads.length_le {ts : List Token} {s rest : List Char} (h : Reads ts s rest) :
    ts.length + rest.length ≤ s.length := by
  induction ts generalizing s with
  | nil =>
    cases h
    simp
  | cons t ts ih =>
    obtain ⟨s', ht, hts⟩ := h
    obtain ⟨gap, _, rfl⟩ := ht.spelled
    have hpos := List.length_pos_of_ne_nil (Token.spelling_ne_nil ht.valid)
    have hrest := ih hts
    simp only [List.length_cons, List.length_append]
    omega

/-! ### lists -/

section
variable {α : Type} {item : Reading α} {Item : Phrase α} {n : Nat} {ms : List Mark}

theorem sound_separated {m : Mark} (h : Recognizes item (Item n) ms) (fuel : Nat) {c c' : Cursor}
    {xs : List α} (hread : separated item m.text fuel c = .ok (xs, c')) :
    ∃ ts, Separated m Item n ts xs ∧ Reads ts c.rest c'.rest := by
  induction fuel generalizing c xs with
  | zero =>
    rw [separated] at hread
    obtain ⟨⟨x, c₁⟩, hx, hread⟩ := exists_of_bind_eq_ok hread
    cases hread
    obtain ⟨ts, hts, hreads⟩ := h.sound hx
    exact ⟨ts, .one hts, hreads⟩
  | succ fuel ih =>
    rw [separated] at hread
    obtain ⟨⟨x, c₁⟩, hx, hread⟩ := exists_of_bind_eq_ok hread
    obtain ⟨ts, hts, hreads⟩ := h.sound hx
    dsimp only at hread
    split at hread
    · rename_i c₂ hc₂
      obtain ⟨⟨xs', c₃⟩, hxs, hread⟩ := exists_of_bind_eq_ok hread
      cases hread
      obtain ⟨us, hus, hreads'⟩ := ih hxs
      refine ⟨_, .more hts hus, (reads_append _ _ _ _).mpr ⟨_, hreads, ?_⟩⟩
      exact ⟨_, leads_of_eat? hc₂, hreads'⟩
    · cases hread
      exact ⟨ts, .one hts, hreads⟩

theorem complete_separated {m : Mark} (h : Recognizes item (Item n) ms) (hm : m ∉ ms) {fuel : Nat}
    {ts : List Token} {xs : List α} (hts : Separated m Item n ts xs)
    (hfuel : xs.length ≤ fuel + 1) {c : Cursor} {s : List Char} (hreads : Reads ts c.rest s)
    (hstop : StopsBefore (m :: ms) s) :
    ∃ c', separated item m.text fuel c = .ok (xs, c') ∧ c'.rest = s := by
  induction fuel generalizing ts xs c with
  | zero =>
    cases hts with
    | one hx =>
      obtain ⟨c₁, hc₁, hrest⟩ := h.complete hx hreads hstop.tail
      refine ⟨c₁, ?_, hrest⟩
      rw [separated, hc₁, ok_bind]
      rfl
    | more _ hxs =>
      have hpos := List.length_pos_of_ne_nil hxs.ne_nil
      rw [List.length_cons] at hfuel
      omega
  | succ fuel ih =>
    cases hts with
    | one hx =>
      obtain ⟨c₁, hc₁, hrest⟩ := h.complete hx hreads hstop.tail
      refine ⟨c₁, ?_, hrest⟩
      rw [separated, hc₁, ok_bind]
      dsimp only
      rw [StopsBefore.eat?_eq_none (hrest ▸ hstop)]
      rfl
    | more hx hxs =>
      obtain ⟨s₁, hts, s₂, hmark, hus⟩ := (reads_append _ _ _ _).mp hreads
      have hnext : StopsBefore ms s₁ := by
        refine hmark.stopsBefore fun m' hm' heq => hm ?_
        cases heq
        exact hm'
      obtain ⟨c₁, hc₁, rfl⟩ := h.complete hx hts hnext
      obtain ⟨c₂, hc₂, rfl⟩ := hmark.eat?
      obtain ⟨c₃, hc₃, hrest⟩ := ih hxs (by simpa using hfuel) hus
      refine ⟨c₃, ?_, hrest⟩
      rw [separated, hc₁, ok_bind]
      dsimp only
      rw [hc₂]
      dsimp only
      rw [hc₃]
      rfl

theorem recognizes_separatedBy {m : Mark} (h : Recognizes item (Item n) ms) (hm : m ∉ ms) :
    Recognizes (separatedBy item m.text) (Separated m Item n) (m :: ms) where
  sound hread := sound_separated h _ hread
  complete {ts xs c s} hts hreads hstop := by
    have hitems := hts.length_le
    have htokens := hreads.length_le
    exact complete_separated h hm hts (by omega) hreads hstop

theorem recognizes_arguments (h : Recognizes item (Item n) ms) (hms : .comma ∉ ms)
    (hclosing : .closing ∉ ms) (hopens : Opens Item) :
    Recognizes (arguments item)
      (fun ts xs => ∃ us, ts = us ++ [.mark .closing] ∧ CommaList Item n us xs) [] where
  sound {c xs c'} hread := by
    rw [arguments] at hread
    split at hread
    · rename_i c₁ hc₁
      cases hread
      exact ⟨_, ⟨[], rfl, .none⟩, (reads_singleton _ _ _).mpr (leads_of_eat? (m := .closing) hc₁)⟩
    · obtain ⟨⟨xs', c₁⟩, hxs, hread⟩ := exists_of_bind_eq_ok hread
      obtain ⟨c₂, hc₂, hread⟩ := exists_of_bind_eq_ok hread
      cases hread
      obtain ⟨us, hus, hreads⟩ := (recognizes_separatedBy (m := .comma) h hms).sound hxs
      refine ⟨_, ⟨us, rfl, .some hus⟩, (reads_append _ _ _ _).mpr ⟨_, hreads, ?_⟩⟩
      exact (reads_singleton _ _ _).mpr (rest_of_require (m := .closing) hc₂)
  complete {ts xs c s} := by
    rintro ⟨us, rfl, hus⟩ hreads _
    obtain ⟨s₁, hus', hlast⟩ := (reads_append _ _ _ _).mp hreads
    have hclose := (reads_singleton _ _ _).mp hlast
    cases hus with
    | none =>
      cases hus'
      obtain ⟨c₁, hc₁, hrest⟩ := hclose.eat?
      have hopen : c.eat? ")" = some c₁ := hc₁
      refine ⟨c₁, ?_, hrest⟩
      rw [arguments, hopen]
    | some hxs =>
      obtain ⟨t, us', rfl, ht⟩ := Separated.opens hopens hxs
      obtain ⟨s₀, hfirst, _⟩ := id hus'
      have hnone : c.eat? ")" = none := hfirst.eat?_eq_none (m := .closing) ht
      have hnext : StopsBefore (.comma :: ms) s₁ := by
        refine hclose.stopsBefore fun m hm heq => ?_
        cases heq
        rcases List.mem_cons.mp hm with hm | hm
        · cases hm
        · exact hclosing hm
      obtain ⟨c₁, hc₁, rfl⟩ := (recognizes_separatedBy (m := .comma) h hms).complete hxs hus' hnext
      obtain ⟨c₂, hc₂, hrest⟩ := hclose.require
      have hitems : separatedBy item "," c = .ok (xs, c₁) := hc₁
      have hlast : require ")" c₁ = .ok c₂ := hc₂
      refine ⟨c₂, ?_, hrest⟩
      rw [arguments, hnone]
      dsimp only
      rw [hitems, ok_bind]
      dsimp only
      rw [hlast]
      rfl

end

/-! ### literals -/

theorem recognizes_literal (n : Nat) : Recognizes literal (LiteralPhrase n) [] where
  sound {c x c'} hread := by
    dsimp only [literal] at hread
    rw [eat?_skipGap] at hread
    split at hread
    · rename_i inside hopen
      split at hread
      · rename_i after hclose
        cases hread
        exact ⟨_, .text, (reads_singleton _ _ _).mpr (leads_of_quote hopen hclose)⟩
      · cases hread
    · obtain ⟨⟨k, c₁⟩, hk, hread⟩ := exists_of_bind_eq_ok hread
      cases hread
      rw [number_skipGap] at hk
      obtain ⟨run, hrun, rfl, hlt⟩ := leads_of_number hk
      exact ⟨_, .number hlt, (reads_singleton _ _ _).mpr hrun⟩
  complete {ts x c s} hts hreads _ := by
    dsimp only [literal]
    rw [eat?_skipGap]
    cases hts with
    | text =>
      obtain ⟨inside, c', hopen, hbody, hclose, hrest⟩ := ((reads_singleton _ _ _).mp hreads).quote
      refine ⟨c', ?_, hrest⟩
      rw [hopen]
      dsimp only
      rw [hclose]
      show Except.ok (Literal.text (String.ofList (inside.rest.takeWhile (· != '"'))), c') = _
      rw [hbody, String.ofList_toList]
    | number hlt =>
      have hrun := (reads_singleton _ _ _).mp hreads
      obtain ⟨c', hc', hrest⟩ := hrun.number "a string or number" hlt
      refine ⟨c', ?_, hrest⟩
      rw [hrun.eat?_quote_eq_none]
      dsimp only
      rw [number_skipGap]
      rw [hc']
      rfl

/-! ### rules -/

section
variable {P : Type} {resolve : Resolver P} {n : Nat} {inner : Reading (Rule P)}

theorem recognizes_conjunction {F : Phrase (Rule P)} {factor : Reading (Rule P)}
    (h : Recognizes factor (F n) []) :
    Recognizes (conjunction factor) (Conjunction F n) [.and] := by
  have hfactors := recognizes_separatedBy (m := .and) h List.not_mem_nil
  constructor
  · intro c r c' hread
    obtain ⟨⟨rs, c₁⟩, hrs, hread⟩ := exists_of_bind_eq_ok hread
    cases hread
    obtain ⟨ts, hts, hreads⟩ := hfactors.sound hrs
    exact ⟨ts, .of hts, hreads⟩
  · rintro ts r c s ⟨hts⟩ hreads hstop
    obtain ⟨c₁, hc₁, hrest⟩ := hfactors.complete hts hreads hstop
    have hread : separatedBy factor "&&" c = .ok (_, c₁) := hc₁
    refine ⟨c₁, ?_, hrest⟩
    rw [conjunction, hread]
    rfl

theorem recognizes_disjunction {F : Phrase (Rule P)} {factor : Reading (Rule P)}
    (h : Recognizes factor (F n) []) :
    Recognizes (disjunction factor) (Disjunction F n) [.or, .and] := by
  have hterms := recognizes_separatedBy (m := .or) (recognizes_conjunction h) (by decide)
  constructor
  · intro c r c' hread
    obtain ⟨⟨rs, c₁⟩, hrs, hread⟩ := exists_of_bind_eq_ok hread
    cases hread
    obtain ⟨ts, hts, hreads⟩ := hterms.sound hrs
    exact ⟨ts, .of hts, hreads⟩
  · rintro ts r c s ⟨hts⟩ hreads hstop
    obtain ⟨c₁, hc₁, hrest⟩ := hterms.complete hts hreads hstop
    have hread : separatedBy (conjunction factor) "||" c = .ok (_, c₁) := hc₁
    refine ⟨c₁, ?_, hrest⟩
    rw [disjunction, hread]
    rfl

theorem recognizes_members (h : Recognizes inner (Factor resolve n) []) :
    Recognizes (arguments (disjunction inner))
      (fun ts rs => ∃ us, ts = us ++ [.mark .closing] ∧
        CommaList (Disjunction (Factor resolve)) n us rs) [] :=
  recognizes_arguments (recognizes_disjunction h) (by decide) (by decide)
    (Disjunction.opens Factor.opens)

/-- the rest of a call, after its name and the opening parenthesis -/
theorem sound_call (h : Recognizes inner (Factor resolve n) []) {name : String} {start : Nat}
    {c c' : Cursor} {r : Rule P} (hread : call resolve inner name start c = .ok (r, c')) :
    ∃ ts, Factor resolve (n + 1) (callOf name ts) r ∧
      Reads (ts ++ [.mark .closing]) c.rest c'.rest := by
  have hmembers := recognizes_members h
  unfold call at hread
  split at hread
  · obtain ⟨⟨rs, c₁⟩, hrs, hread⟩ := exists_of_bind_eq_ok hread
    cases hread
    obtain ⟨_, ⟨ts, rfl, hts⟩, hreads⟩ := hmembers.sound hrs
    exact ⟨ts, .allCall hts, hreads⟩
  · obtain ⟨⟨rs, c₁⟩, hrs, hread⟩ := exists_of_bind_eq_ok hread
    cases hread
    obtain ⟨_, ⟨ts, rfl, hts⟩, hreads⟩ := hmembers.sound hrs
    exact ⟨ts, .anyCall hts, hreads⟩
  · obtain ⟨⟨rs, c₁⟩, hrs, hread⟩ := exists_of_bind_eq_ok hread
    split at hread
    · rename_i r' c₂ heq
      cases heq
      cases hread
      obtain ⟨_, ⟨ts, rfl, hts⟩, hreads⟩ := hmembers.sound hrs
      exact ⟨ts, .notCall hts, hreads⟩
    · cases hread
  · obtain ⟨⟨k, c₁⟩, hk, hread⟩ := exists_of_bind_eq_ok hread
    obtain ⟨c₂, hc₂, hread⟩ := exists_of_bind_eq_ok hread
    obtain ⟨⟨rs, c₃⟩, hrs, hread⟩ := exists_of_bind_eq_ok hread
    cases hread
    obtain ⟨run, hrun, rfl, hlt⟩ := leads_of_number hk
    obtain ⟨_, ⟨ts, rfl, hts⟩, hreads⟩ := hmembers.sound hrs
    exact ⟨_, .atLeastCall hlt hts, _, hrun, _, rest_of_require (m := .comma) hc₂, hreads⟩
  · rename_i hall hany hnot hatLeast
    obtain ⟨⟨args, c₁⟩, hargs, hread⟩ := exists_of_bind_eq_ok hread
    have hliterals := recognizes_arguments (recognizes_literal n) List.not_mem_nil List.not_mem_nil
      LiteralPhrase.opens
    obtain ⟨_, ⟨ts, rfl, hts⟩, hreads⟩ := hliterals.sound hargs
    dsimp only at hread
    split at hread
    · rename_i q hq
      cases hread
      have hname : name ∉ keywords := by
        simp only [keywords, List.mem_cons, List.not_mem_nil, or_false, not_or]
        exact ⟨hall, hany, hnot, hatLeast⟩
      exact ⟨ts, .leafCall hname hts hq, hreads⟩
    · cases hread

theorem complete_call (h : Recognizes inner (Factor resolve n) []) {name : String} (start : Nat)
    {ts : List Token} {r : Rule P}
    (hts : Factor resolve (n + 1) (.name name :: .mark .opening :: ts) r) {c : Cursor}
    {s : List Char} (hreads : Reads ts c.rest s) :
    ∃ c', call resolve inner name start c = .ok (r, c') ∧ c'.rest = s := by
  have hmembers := recognizes_members h
  cases hts with
  | allCall hts | anyCall hts | notCall hts =>
    obtain ⟨c₁, hc₁, hrest⟩ := hmembers.complete ⟨_, rfl, hts⟩ hreads (stopsBefore_nil s)
    refine ⟨c₁, ?_, hrest⟩
    unfold call
    dsimp only
    rw [hc₁]
    rfl
  | atLeastCall hlt hts =>
    obtain ⟨s₁, hrun, s₂, hcomma, hreads⟩ := hreads
    obtain ⟨c₁, hc₁, rfl⟩ := hrun.number "a count" hlt
    obtain ⟨c₂, hc₂, rfl⟩ := hcomma.require
    obtain ⟨c₃, hc₃, hrest⟩ := hmembers.complete ⟨_, rfl, hts⟩ hreads (stopsBefore_nil s)
    have hseparator : require "," c₁ = .ok c₂ := hc₂
    refine ⟨c₃, ?_, hrest⟩
    unfold call
    dsimp only
    rw [hc₁, ok_bind]
    dsimp only
    rw [hseparator, ok_bind, hc₃]
    rfl
  | leafCall hname hts hq =>
    obtain ⟨c₁, hc₁, hrest⟩ :=
      (recognizes_arguments (recognizes_literal n) List.not_mem_nil List.not_mem_nil
        LiteralPhrase.opens).complete ⟨_, rfl, hts⟩ hreads (stopsBefore_nil s)
    refine ⟨c₁, ?_, hrest⟩
    unfold call
    dsimp only
    split
    · exact absurd (by decide) hname
    · exact absurd (by decide) hname
    · exact absurd (by decide) hname
    · exact absurd (by decide) hname
    · rw [hc₁, ok_bind]
      dsimp only
      rw [hq]
      rfl

theorem factorOver_none (c : Cursor) (x : Rule P × Cursor) : factorOver resolve none c ≠ .ok x := by
  intro hread
  unfold factorOver at hread
  dsimp only at hread
  split at hread
  · cases hread
  · split at hread
    · cases hread
    · split at hread
      · cases hread
      · obtain ⟨c₁, _, hread⟩ := exists_of_bind_eq_ok hread
        cases hread

theorem recognizes_factorOver (h : Recognizes inner (Factor resolve n) []) :
    Recognizes (factorOver resolve (some inner)) (Factor resolve (n + 1)) [] where
  sound {c r c'} hread := by
    unfold factorOver at hread
    dsimp only at hread
    rw [eat?_skipGap, eat?_skipGap, name?_skipGap] at hread
    split at hread
    · rename_i c₁ hc₁
      obtain ⟨⟨r', c₂⟩, hr, hread⟩ := exists_of_bind_eq_ok hread
      cases hread
      obtain ⟨ts, hts, hreads⟩ := h.sound hr
      exact ⟨_, .not hts, _, leads_of_eat? (m := .bang) hc₁, hreads⟩
    · split at hread
      · rename_i c₁ hc₁
        obtain ⟨⟨r', c₂⟩, hr, hread⟩ := exists_of_bind_eq_ok hread
        obtain ⟨c₃, hc₃, hread⟩ := exists_of_bind_eq_ok hread
        cases hread
        obtain ⟨ts, hts, hreads⟩ := (recognizes_disjunction h).sound hr
        refine ⟨_, .parentheses hts, _, leads_of_eat? (m := .opening) hc₁,
          (reads_append _ _ _ _).mpr ⟨_, hreads, ?_⟩⟩
        exact (reads_singleton _ _ _).mpr (rest_of_require (m := .closing) hc₃)
      · split at hread
        · cases hread
        · rename_i name c₁ hname
          obtain ⟨c₂, hc₂, hread⟩ := exists_of_bind_eq_ok hread
          obtain ⟨ts, hts, hreads⟩ := sound_call h hread
          exact ⟨_, hts, _, leads_of_name? hname, _, rest_of_require (m := .opening) hc₂, hreads⟩
  complete {ts r c s} hts hreads _ := by
    unfold factorOver
    dsimp only
    rw [eat?_skipGap, eat?_skipGap, name?_skipGap]
    rcases hts.forms with ⟨us, r', rfl, rfl, hr⟩ | ⟨us, rfl, hr⟩ | ⟨name, us, rfl⟩
    · obtain ⟨s₁, hbang, hus⟩ := hreads
      obtain ⟨c₁, hc₁, rfl⟩ := hbang.eat?
      obtain ⟨c₂, hc₂, hrest⟩ := h.complete hr hus (stopsBefore_nil s)
      have hnot : c.eat? "!" = some c₁ := hc₁
      refine ⟨c₂, ?_, hrest⟩
      rw [hnot]
      dsimp only
      rw [hc₂]
      rfl
    · obtain ⟨s₁, hopening, hreads⟩ := hreads
      obtain ⟨c₁, hc₁, rfl⟩ := hopening.eat?
      obtain ⟨s₂, hus, hlast⟩ := (reads_append _ _ _ _).mp hreads
      have hclosing := (reads_singleton _ _ _).mp hlast
      have hnext : StopsBefore [.or, .and] s₂ := hclosing.stopsBefore (by simp)
      obtain ⟨c₂, hc₂, rfl⟩ := (recognizes_disjunction h).complete hr hus hnext
      obtain ⟨c₃, hc₃, hrest⟩ := hclosing.require
      have hnot : c.eat? "!" = none := hopening.eat?_eq_none (m := .bang) (by simp)
      have hopen : c.eat? "(" = some c₁ := hc₁
      have hclose : require ")" c₂ = .ok c₃ := hc₃
      refine ⟨c₃, ?_, hrest⟩
      rw [hnot, hopen]
      dsimp only
      rw [hc₂, ok_bind]
      dsimp only
      rw [hclose]
      rfl
    · obtain ⟨s₁, hname, s₂, hopening, hus⟩ := id hreads
      obtain ⟨c₁, hc₁, rfl⟩ := hname.name?
      obtain ⟨c₂, hc₂, rfl⟩ := hopening.require
      obtain ⟨c₃, hc₃, hrest⟩ := complete_call h c.skipGap.offset hts hus
      have hnot : c.eat? "!" = none := hname.eat?_eq_none (m := .bang) Token.noConfusion
      have hparen : c.eat? "(" = none := hname.eat?_eq_none (m := .opening) Token.noConfusion
      have hopen : require "(" c₁ = .ok c₂ := hc₂
      refine ⟨c₃, ?_, hrest⟩
      rw [hnot, hparen]
      dsimp only
      rw [hc₁]
      dsimp only
      rw [hopen, ok_bind]
      exact hc₃

theorem recognizes_factor (resolve : Resolver P) (n : Nat) :
    Recognizes (factor resolve n) (Factor resolve n) [] := by
  induction n with
  | zero =>
    constructor
    · intro c r c' hread
      exact absurd hread (factorOver_none c (r, c'))
    · intro ts r c s hts
      cases hts
  | succ n ih => exact recognizes_factorOver ih

end

/-! ### whole texts -/

section
variable {P : Type} {resolve : Resolver P} {text : String} {r : Rule P}

theorem spells_of_parse (h : parse resolve text = .ok r) :
    text.utf8ByteSize ≤ maxBytes ∧
    (∃ ts, Spells ts text.toList ∧ Disjunction (Factor resolve) maxNesting ts r) ∧
    r.fault? = none := by
  unfold parse at h
  split at h
  · cases h
  · rename_i hsize
    split at h
    · cases h
    · obtain ⟨⟨rule, c⟩, hrule, h⟩ := exists_of_bind_eq_ok h
      dsimp only at h
      split at h
      · rename_i hend
        split at h
        · cases h
        · rename_i hfault
          cases h
          obtain ⟨ts, hts, hreads⟩ :=
            (recognizes_disjunction (recognizes_factor resolve maxNesting)).sound hrule
          have hgap := List.dropWhile_eq_nil_iff.mp (List.isEmpty_iff.mp hend)
          exact ⟨Nat.le_of_not_lt hsize, ⟨ts, ⟨c.rest, hreads, hgap⟩, hts⟩, hfault⟩
      · cases h

theorem not_isAllBlank_of_reads {t : Token} {ts : List Token} {rest : List Char}
    (h : Reads (t :: ts) text.toList rest) : isAllBlank text = false := by
  obtain ⟨s, ht, _⟩ := h
  obtain ⟨gap, _, hspelled⟩ := ht.spelled
  obtain ⟨ch, hch, hblank, _⟩ := Token.exists_head? ht.valid
  have hmem : ch ∈ text.toList := by
    rw [hspelled, List.mem_append, List.mem_append]
    exact .inr (.inl (List.mem_of_head? hch))
  unfold isAllBlank
  rw [List.all_eq_false]
  exact ⟨ch, hmem, by simp [hblank]⟩

theorem parse_of_spells {ts : List Token} (hsize : text.utf8ByteSize ≤ maxBytes)
    (hspells : Spells ts text.toList) (hts : Disjunction (Factor resolve) maxNesting ts r)
    (hfault : r.fault? = none) : parse resolve text = .ok r := by
  obtain ⟨gap, hreads, hgap⟩ := hspells
  obtain ⟨t, us, rfl, _⟩ := Disjunction.opens Factor.opens hts
  obtain ⟨c, hc, hrest⟩ :=
    (recognizes_disjunction (recognizes_factor resolve maxNesting)).complete hts
      (c := Cursor.start text) hreads (stopsBefore_of_gap _ hgap)
  have hend : c.skipGap.rest.isEmpty = true := by
    show (c.rest.dropWhile Cursor.isGap).isEmpty = true
    rw [hrest, List.dropWhile_eq_nil_iff.mpr hgap]
    rfl
  unfold parse
  rw [if_neg (Nat.not_lt.mpr hsize), not_isAllBlank_of_reads hreads, hc, ok_bind]
  dsimp only
  rw [hend, hfault]
  rfl

/-- **Reading accepts exactly the grammar.**  A text is read as a rule iff it has at most 16384
bytes, it is spelled by tokens that the grammar derives the rule from, with `!`, parentheses and
calls at most 32 deep, and the rule is well shaped. -/
theorem parse_eq_ok_iff (resolve : Resolver P) (text : String) (r : Rule P) :
    parse resolve text = .ok r ↔
      text.utf8ByteSize ≤ 16384 ∧
      (∃ ts, Spells ts text.toList ∧ Disjunction (Factor resolve) 32 ts r) ∧
      r.fault? = none := by
  constructor
  · exact spells_of_parse
  · rintro ⟨hsize, ⟨ts, hspells, hts⟩, hfault⟩
    exact parse_of_spells hsize hspells hts hfault

end

end DegreeProgress.Expression
