import DegreeProgress.Proofs.Expression.Agreement
import DegreeProgress.Proofs.Expression.Grammar

/-!
# Positions of the parser

The parser reads every text as the readers do and never leaves it.

* `Scan.agrees_separated`      the rest of the text bounds the turns of a loop;
* `Scan.agrees_nested`         a nested step ends at the depth where it starts;
* `Scan.follows_factor`        the text and the nesting limit bound the turns of every factor,
* `ends_parse`                 and so of the parser;
* `parse_stays_in_text`        its positions and those of its errors lie in the text.
-/

namespace DegreeProgress.Expression

theorem call_eq_leaf {P : Type} (resolve : Resolver P) (inner : Reading (Rule P)) {name : String}
    {start : Nat} {c : Cursor} (hname : name ∉ keywords) : call resolve inner name start c = (do
      let (args, c) ← arguments literal c
      match resolve name args with
      | .ok question => return (.leaf question, c)
      | .error message => .error (.leaf name message start)) := by
  unfold call
  dsimp only
  split
  · exact absurd (by decide) hname
  · exact absurd (by decide) hname
  · exact absurd (by decide) hname
  · exact absurd (by decide) hname
  · rfl

namespace Scan

section
variable {α : Type} {text : String} {d turns : Nat} {item : Scan α} {read : Reading α}

/-! ### loops -/

theorem length_lt_of_eat? {token : String} {c c' : Cursor} (hne : token ≠ "")
    (h : c.eat? token = some c') : c'.rest.length < c.rest.length := by
  have hrest := congrArg List.length (rest_of_eat? h)
  have hgap := (List.dropWhile_sublist Cursor.isGap (l := c.rest)).length_le
  have htoken : token.length ≠ 0 := fun hzero => hne (String.length_eq_zero_iff.mp hzero)
  rw [List.length_append, String.length_toList] at hrest
  omega

/-- every turn of the loop but the last reads a separator, so the rest of the text bounds them -/
theorem agrees_separated (hitem : Follows text d item read) {separator : String}
    (hne : separator ≠ "") {fuel : Nat} {c : Cursor} {σ : Trace} (hturns : c.rest.length < turns)
    (hfuel : c.rest.length ≤ fuel) (h : σ.IsNear text c d) :
    Agrees text d c (separated text item separator turns σ)
      (Expression.separated read separator fuel c) := by
  induction turns generalizing fuel c σ with
  | zero => exact absurd hturns (Nat.not_lt_zero _)
  | succ turns ih =>
    unfold separated
    cases fuel with
    | zero =>
      unfold Expression.separated
      refine (hitem c σ h).bind fun x c' τ hreaches hτ => agrees_eat hτ ?_ ?_
      · intro c'' τ heat hτ
        have hlt := length_lt_of_eat? hne heat
        have hle := hreaches.length_le
        omega
      · intro τ heat hτ
        exact .value (.refl _) hτ
    | succ fuel =>
      unfold Expression.separated
      refine (hitem c σ h).bind fun x c' τ hreaches hτ => agrees_eat hτ ?_ ?_
      · intro c'' τ heat hτ
        have hlt := length_lt_of_eat? hne heat
        have hle := hreaches.length_le
        dsimp only
        rw [heat]
        refine (ih (by omega) (by omega) hτ.isNear).bind fun xs c₃ τ _ hτ => ?_
        exact .value (.refl _) hτ
      · intro τ heat hτ
        dsimp only
        rw [heat]
        exact .value (.refl _) hτ

variable (hitem : Follows text d item read) (hturns : text.length < turns)
include hitem hturns

theorem follows_separated {separator : String} (hne : separator ≠ "") :
    Follows text d (separated text item separator turns) (separatedBy read separator) := by
  intro c σ h
  have hle := h.1.length_le
  have hlength : (Cursor.start text).rest.length = text.length := String.length_toList
  exact agrees_separated hitem hne (by omega) (Nat.le_refl _) h

theorem follows_arguments :
    Follows text d (arguments text item turns) (Expression.arguments read) := by
  intro c σ h
  unfold arguments Expression.arguments
  refine agrees_eat h ?_ ?_
  · intro c' τ heat hτ
    rw [heat]
    exact .value (.refl _) hτ.isNear
  · intro τ heat hτ
    rw [heat]
    refine (follows_separated hitem hturns (by decide) c τ hτ).bind fun xs c' τ hreaches hτ => ?_
    refine agrees_expect hτ fun c'' τ hτ => ?_
    exact .value (.refl _) hτ.isNear

end

/-! ### nested steps -/

section
variable {P : Type} {text : String} {d : Nat} {c : Cursor} {σ : Trace}

/-- `inner` goes along with the readers one level further in, which are missing on the last level -/
inductive Deeper (text : String) (d : Nat) (inner : Scan (Rule P)) :
    Option (Reading (Rule P)) → Prop where
  | further {read : Reading (Rule P)} (hdepth : d < maxNesting)
    (h : Follows text (d + 1) inner read) : Deeper text d inner (some read)
  | last (hdepth : d = maxNesting) : Deeper text d inner none

/-- a nested step ends at the depth where it starts, also when it fails -/
theorem agrees_nested {inner m : Scan (Rule P)} {deeper : Option (Reading (Rule P))}
    (hdeeper : Deeper text d inner deeper) (step : Reading (Rule P) → Reading (Rule P))
    (hstep : ∀ read, Follows text (d + 1) inner read → Follows text (d + 1) m (step read))
    {start : Nat} (hstart : IsBoundary text start) (h : σ.IsNear text c d) :
    Agrees text d c (nested start m σ) (match deeper with
      | some read => step read c
      | none => .error (.tooDeep start)) := by
  unfold nested
  cases hdeeper with
  | last hdepth =>
    rw [if_pos (h.depth.trans hdepth)]
    exact .error hstart h.depth h.sound
  | @further read hdepth hinner =>
    have hne : σ.place.depth ≠ maxNesting := by
      rw [h.depth]
      exact Nat.ne_of_lt hdepth
    have henter : σ.enter.IsNear text c (d + 1) :=
      h.atDepth rfl (congrArg (· + 1) h.depth) (h.sound.enter (h.depth ▸ hdepth))
    have hrun := hstep read hinner c σ.enter henter
    have hback : ∀ τ : Trace, τ.place.depth = d + 1 → (τ.leave d).place.depth = d := by
      intro τ hτ
      show τ.place.depth - 1 = d
      rw [hτ, Nat.add_sub_cancel]
    rw [if_neg hne, h.depth]
    dsimp only
    generalize m σ.enter = r at hrun
    generalize step read c = x at hrun
    cases hrun with
    | value hreaches hτ =>
      exact .value hreaches (hτ.atDepth rfl (hback _ hτ.depth) (hτ.sound.leave hτ.depth))
    | error hlocated hτ hsound => exact .error hlocated (hback _ hτ) (hsound.leave hτ)

end

/-! ### rules -/

theorem call_eq_leaf {P : Type} {text : String} (resolve : Resolver P) (turns : Nat)
    (inner : Scan (Rule P)) {name : String} {start : Nat} (hname : name ∉ keywords) :
    call text resolve turns inner name start = (do
      let args ← arguments text (literal text) turns
      match resolve name args with
      | .ok question => return .leaf question
      | .error message => fail (.leaf name message start)) := by
  unfold call
  split
  · exact absurd (by decide) hname
  · exact absurd (by decide) hname
  · exact absurd (by decide) hname
  · exact absurd (by decide) hname
  · rfl

section
variable {P : Type} {text : String} {d turns : Nat} {inner : Scan (Rule P)}
  {read : Reading (Rule P)} (hturns : text.length < turns)
include hturns

section
variable (hinner : Follows text d inner read)
include hinner

theorem follows_conjunction :
    Follows text d (conjunction text turns inner) (Expression.conjunction read) := by
  intro c σ h
  refine (follows_separated hinner hturns (by decide) c σ h).bind fun rs c' τ _ hτ => ?_
  exact .value (.refl _) hτ

theorem follows_disjunction :
    Follows text d (disjunction text turns inner) (Expression.disjunction read) := by
  intro c σ h
  have hterms := follows_conjunction hturns hinner
  refine (follows_separated hterms hturns (by decide) c σ h).bind fun rs c' τ _ hτ => ?_
  exact .value (.refl _) hτ

theorem follows_call (resolve : Resolver P) {name : String} {start : Nat}
    (hname : StandsAt text start name) : Follows text d (call text resolve turns inner name start)
      (Expression.call resolve read name start) := by
  intro c σ h
  have hmembers := follows_arguments (follows_disjunction hturns hinner) hturns
  by_cases hkeyword : name ∈ keywords
  · simp only [keywords, List.mem_cons, List.not_mem_nil, or_false] at hkeyword
    unfold call Expression.call
    rcases hkeyword with rfl | rfl | rfl | rfl
    · refine (hmembers c σ h).bind fun rs c' τ _ hτ => ?_
      exact .value (.refl _) hτ
    · refine (hmembers c σ h).bind fun rs c' τ _ hτ => ?_
      exact .value (.refl _) hτ
    · refine (hmembers c σ h).bind fun rs c' τ _ hτ => ?_
      -- one member, or an error
      rcases rs with _ | ⟨r, _ | ⟨r', rs⟩⟩
      · exact .error hname.isBoundary hτ.depth hτ.sound
      · exact .value (.refl _) hτ
      · exact .error hname.isBoundary hτ.depth hτ.sound
    · refine (follows_number _ _ c σ h).bind fun min c' τ _ hτ => ?_
      refine agrees_expect hτ fun c'' τ hτ => ?_
      refine (hmembers c'' τ hτ.isNear).bind fun rs c' τ _ hτ => ?_
      exact .value (.refl _) hτ
  · rw [call_eq_leaf _ _ _ hkeyword, Expression.call_eq_leaf _ _ hkeyword]
    refine (follows_arguments follows_literal hturns c σ h).bind fun args c' τ _ hτ => ?_
    dsimp only
    cases resolve name args with
    | ok question => exact .value (.refl _) hτ
    | error message => exact .error ⟨hname.isBoundary, hname⟩ hτ.depth hτ.sound

end

theorem follows_factorOver (resolve : Resolver P) {deeper : Option (Reading (Rule P))}
    (hdeeper : Deeper text d (factor text resolve turns) deeper) :
    Follows text d (factor text resolve (turns + 1)) (factorOver resolve deeper) := by
  intro c σ h
  obtain ⟨τ, hskip, hτ⟩ := skipGap_apply h
  have hstart := hτ.reaches.isBoundary
  unfold factor factorOver
  dsimp only
  rw [bind_of_ok hskip, bind_of_ok (position_apply hτ)]
  refine (agrees_eat hτ.isNear ?_ ?_).of_reaches c.reaches_skipGap
  · intro c₁ τ hbang hτ
    rw [hbang]
    refine agrees_nested hdeeper (fun inner after => do
      let read ← inner after
      return (.not read.1, read.2)) (fun read hread c σ h => ?_) hstart hτ.isNear
    exact (hread c σ h).bind fun r c' τ _ hτ => .value (.refl _) hτ
  · intro τ hbang hτ
    rw [hbang]
    refine agrees_eat hτ ?_ ?_
    · intro c₁ τ hopening hτ
      rw [hopening]
      refine agrees_nested hdeeper (fun inner after => do
        let read ← Expression.disjunction inner after
        let after ← require ")" read.2
        return (read.1, after)) (fun read hread c σ h => ?_) hstart hτ.isNear
      refine (follows_disjunction hturns hread c σ h).bind fun r c' τ _ hτ => ?_
      exact agrees_expect hτ fun c'' τ hτ => .value (.refl _) hτ.isNear
    · intro τ hopening hτ
      rw [hopening]
      dsimp only
      rcases name?_apply hτ with
        ⟨word, c₁, τ', hname, hscan, hword, hreaches, hτ'⟩ | ⟨τ', hname, hscan, hτ'⟩
      · rw [bind_of_ok hscan, hname]
        rw [skipGap_skipGap] at hword
        have hstands : StandsAt text c.skipGap.offset word := hτ.1.standsAt hword
        refine (agrees_expect hτ'.isNear fun c₂ τ hτ => ?_).of_reaches hreaches
        refine agrees_nested hdeeper (Expression.call resolve · word c.skipGap.offset)
          (fun read hread c σ h => ?_) hstart hτ.isNear
        exact follows_call hturns hread resolve hstands c σ h
      · rw [bind_of_ok hscan, hname]
        refine agrees_unexpected _ (Trace.isNear_of_skipGap hτ.1 hτ')

omit hturns in
/-- a turn for every level further in, and then one for every character that the loops read -/
theorem follows_factor (resolve : Resolver P) {levels : Nat} (hlevels : d + levels = maxNesting)
    (hturns : text.length + levels + 1 < turns) :
    Follows text d (factor text resolve turns) (Expression.factor resolve levels) := by
  induction levels generalizing d turns with
  | zero =>
    obtain ⟨turns, rfl⟩ : ∃ n, turns = n + 1 := ⟨turns - 1, by omega⟩
    exact follows_factorOver (by omega) resolve (.last hlevels)
  | succ levels ih =>
    obtain ⟨turns, rfl⟩ : ∃ n, turns = n + 1 := ⟨turns - 1, by omega⟩
    refine follows_factorOver (by omega) resolve (.further (by omega) (ih ?_ ?_))
    · omega
    · omega

end

end Scan

/-! ### whole texts -/

section
variable {α P : Type} {text : String} {c : Cursor} {σ : Trace}

/-- the parser is back at depth 0 with the outcome, also when that is an error -/
inductive Ends (text : String) :
    EStateM.Result Halt Trace α → Except ExpressionError α → Prop where
  | value {a : α} {τ : Trace} (hdepth : τ.place.depth = 0) (hsound : τ.Sound text) :
    Ends text (.ok a τ) (.ok a)
  | error {e : ExpressionError} {τ : Trace} (hlocated : e.Located text)
    (hdepth : τ.place.depth = 0) (hsound : τ.Sound text) :
    Ends text (.error (.failed e) τ) (.error e)

/-- what the parser ends with where a reader returns `x` -/
def resultOf (τ : Trace) : Except ExpressionError α → EStateM.Result Halt Trace α
  | .ok a => .ok a τ
  | .error e => .error (.failed e) τ

theorem Ends.exists_trace {r : EStateM.Result Halt Trace α} {x : Except ExpressionError α}
    (h : Ends text r x) : ∃ τ, r = resultOf τ x ∧ τ.Sound text ∧ τ.place.depth = 0 ∧
      ∀ e, x = .error e → e.Located text := by
  cases h with
  | @value a τ hdepth hsound => exact ⟨τ, rfl, hsound, hdepth, nofun⟩
  | @error e τ hlocated hdepth hsound =>
    refine ⟨τ, rfl, hsound, hdepth, ?_⟩
    rintro _ ⟨⟩
    exact hlocated

theorem Agrees.ends_bind {β : Type} {m : Scan α} {f : α → Scan β}
    {x : Except ExpressionError (α × Cursor)} {g : α × Cursor → Except ExpressionError β}
    (h : Agrees text 0 c (m σ) x)
    (hf : ∀ a c' τ, τ.IsNear text c' 0 → Ends text (f a τ) (g (a, c'))) :
    Ends text ((m >>= f) σ) (x >>= g) := by
  show Ends text (EStateM.bind m f σ) _
  unfold EStateM.bind
  generalize m σ = r at h
  cases h with
  | value _ h => exact hf _ _ _ h
  | error hlocated hdepth hsound => exact .error hlocated hdepth hsound

theorem Agrees.ends_error {r : EStateM.Result Halt Trace α} {e : ExpressionError}
    (h : Agrees text 0 c r (.error e)) : Ends text r (.error e) := by
  cases h with
  | error hlocated hdepth hsound => exact .error hlocated hdepth hsound

/-- a turn for every character of the text and for every level of nesting are enough -/
def enoughTurns (text : String) : Nat := text.length + maxNesting + 2

theorem ends_parse (resolve : Resolver P) {turns : Nat} (hturns : enoughTurns text ≤ turns) :
    Ends text (Scan.parse text resolve turns Trace.start) (parse resolve text) := by
  have hstart : Trace.start.IsNear text (Cursor.start text) 0 :=
    ⟨.refl _, .inl ⟨.refl _, rfl, rfl, Trace.sound_start text⟩⟩
  unfold enoughTurns at hturns
  have hloops : text.length < turns := by omega
  have hfactor : Follows text 0 (Scan.factor text resolve turns) (factor resolve maxNesting) :=
    Scan.follows_factor resolve (Nat.zero_add _) (by omega)
  have hread := Scan.follows_disjunction hloops hfactor (Cursor.start text) Trace.start hstart
  unfold Scan.parse parse
  split
  · exact .error trivial rfl (Trace.sound_start text)
  · split
    · exact .error trivial rfl (Trace.sound_start text)
    · refine hread.ends_bind fun r c τ hτ => ?_
      obtain ⟨τ', hskip, hτ'⟩ := Scan.skipGap_apply hτ
      rw [Scan.bind_of_ok hskip, Scan.bind_of_ok (Scan.position_apply hτ')]
      dsimp only
      by_cases hend : c.skipGap.offset = text.utf8ByteSize
      · rw [if_pos hend, if_pos (hτ'.reaches.offset_eq_iff.mp hend)]
        cases r.fault? with
        | none => exact .value hτ'.depth hτ'.sound
        | some fault => exact .error trivial hτ'.depth hτ'.sound
      · rw [if_neg hend, if_neg (fun hrest => hend (hτ'.reaches.offset_eq_iff.mpr hrest))]
        exact (Scan.agrees_unexpected _ (Trace.isNear_of_skipGap hτ.1 hτ')).ends_error

/-- **The parser stays in the text.**  However many turns it may take beyond those that are enough,
it ends as `parse` does, so it runs out of turns nowhere and every slice that it takes exists.  It
stands at boundaries of characters only, moves forward, nests at most 32 deep and leaves each nested
step at the depth where it entered.  Its errors are located in the text. -/
theorem parse_stays_in_text (resolve : Resolver P) (text : String) (extra : Nat) :
    ∃ τ, Scan.parse text resolve (enoughTurns text + extra) Trace.start
        = resultOf τ (parse resolve text) ∧
      (∀ p ∈ τ.places, IsBoundary text p.position ∧ p.depth ≤ 32) ∧
      (τ.places.Pairwise fun later earlier => earlier.position ≤ later.position) ∧
      (∀ n ∈ τ.nestings, n.1 = n.2) ∧ τ.place.depth = 0 ∧
      ∀ e, parse resolve text = .error e → e.Located text := by
  have hturns := Nat.le_add_right (enoughTurns text) extra
  obtain ⟨τ, hresult, hsound, hdepth, hlocated⟩ := (ends_parse resolve hturns).exists_trace
  exact ⟨τ, hresult, fun p hp => ⟨hsound.inside p hp, hsound.shallow p hp⟩, hsound.forward,
    hsound.restored, hdepth, hlocated⟩

end

end DegreeProgress.Expression
