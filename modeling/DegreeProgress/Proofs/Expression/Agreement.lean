import DegreeProgress.Proofs.Expression.Scan
import DegreeProgress.Proofs.Expression.Tokens

/-!
# Agreement of the parser with the readers

The parser that holds a byte position goes along with the readers that hold a cursor: from a place
that belongs to the cursor (`Trace.IsNear`) it ends with what the reader returns, again at a place
that belongs to the cursor then (`Agrees`).  Its trace stays sound meanwhile (`Trace.Sound`), and
its errors are located in the text (`ExpressionError.Located`).

* `Trace.Sound.moveTo`, `Trace.Sound.enter`, `Trace.Sound.leave`   what a sound trace may do next;
* `Agrees.bind`                         agreement composes;
* `Scan.skipGap_apply`, `Scan.run_apply`, `Scan.eat_apply`   reading characters and marks,
* `Scan.name?_apply`, `Scan.follows_number`, `Scan.follows_literal`   names and literals.
-/

namespace DegreeProgress

/-- every position of an error is one of the text, and what the error quotes from it stands there -/
def ExpressionError.Located (text : String) : ExpressionError → Prop
  | .tooDeep position | .unexpected _ _ position => IsBoundary text position
  | .number raw position => IsBoundary text position ∧ StandsAt text position raw
  | .leaf name _ position => IsBoundary text position ∧ StandsAt text position name
  | .empty | .tooLarge _ | .shape _ => True

namespace Expression

/-! ### traces -/

/-- the trace stays in the text, moves forward, and leaves every nested step at the depth where it
was entered -/
structure Trace.Sound (text : String) (σ : Trace) : Prop where
  inside : ∀ p ∈ σ.places, IsBoundary text p.position
  shallow : ∀ p ∈ σ.places, p.depth ≤ maxNesting
  forward : σ.places.Pairwise fun later earlier => earlier.position ≤ later.position
  restored : ∀ n ∈ σ.nestings, n.1 = n.2

namespace Trace

variable {text : String} {σ : Trace}

theorem place_mem_places : σ.place ∈ σ.places := List.mem_cons_self

theorem sound_start (text : String) : start.Sound text where
  inside p hp := by
    rw [List.mem_singleton.mp hp]
    exact (Cursor.Reaches.refl (Cursor.start text)).isBoundary
  shallow p hp := by
    rw [List.mem_singleton.mp hp]
    exact Nat.zero_le _
  forward := List.pairwise_singleton _ _
  restored _ hn := absurd hn List.not_mem_nil

namespace Sound

theorem cons (h : σ.Sound text) {τ : Trace} (hpassed : τ.passed = σ.places)
    (hinside : IsBoundary text τ.place.position)
    (hdepth : τ.place.depth ≤ maxNesting) (hforward : σ.place.position ≤ τ.place.position)
    (hrestored : ∀ n ∈ τ.nestings, n.1 = n.2) : τ.Sound text := by
  have hplaces : τ.places = τ.place :: σ.places := by rw [places, hpassed]
  refine ⟨?_, ?_, ?_, hrestored⟩
  · rw [hplaces]
    exact List.forall_mem_cons.mpr ⟨hinside, h.inside⟩
  · rw [hplaces]
    exact List.forall_mem_cons.mpr ⟨hdepth, h.shallow⟩
  · rw [hplaces]
    refine List.pairwise_cons.mpr ⟨fun p hp => ?_, h.forward⟩
    -- the latest place before is the furthest one
    rcases List.mem_cons.mp hp with rfl | hp
    · exact hforward
    · exact ((List.pairwise_cons.mp h.forward).1 p hp).trans hforward

theorem moveTo (h : σ.Sound text) {position : Nat}
    (hinside : IsBoundary text position)
    (hforward : σ.place.position ≤ position) : (σ.moveTo position).Sound text :=
  h.cons rfl hinside (h.shallow σ.place place_mem_places) hforward h.restored

theorem enter (h : σ.Sound text) (hdepth : σ.place.depth < maxNesting) : σ.enter.Sound text :=
  h.cons rfl (h.inside σ.place place_mem_places) hdepth (Nat.le_refl _) h.restored

theorem leave (h : σ.Sound text) {before : Nat} (hdepth : σ.place.depth = before + 1) :
    (σ.leave before).Sound text := by
  have hbefore : σ.place.depth - 1 = before := by rw [hdepth, Nat.add_sub_cancel]
  refine h.cons rfl (h.inside σ.place place_mem_places) ?_ (Nat.le_refl _) ?_
  · exact (Nat.sub_le _ _).trans (h.shallow σ.place place_mem_places)
  · exact List.forall_mem_cons.mpr ⟨hbefore.symm, h.restored⟩

end Sound

/-! ### where the readers are -/

/-- the parser is at the cursor -/
structure IsAt (text : String) (c : Cursor) (d : Nat) (σ : Trace) : Prop where
  reaches : (Cursor.start text).Reaches c
  position : σ.place.position = c.offset
  depth : σ.place.depth = d
  sound : σ.Sound text

/-- the parser is at the cursor or after the gap that follows it, as a look for a token leaves it -/
def IsNear (text : String) (c : Cursor) (d : Nat) (σ : Trace) : Prop :=
  (Cursor.start text).Reaches c ∧ (σ.IsAt text c d ∨ σ.IsAt text c.skipGap d)

variable {c c' : Cursor} {d : Nat}

theorem IsAt.isNear (h : σ.IsAt text c d) : σ.IsNear text c d := ⟨h.reaches, .inl h⟩

theorem IsNear.sound (h : σ.IsNear text c d) : σ.Sound text := h.2.elim (·.sound) (·.sound)

theorem IsNear.depth (h : σ.IsNear text c d) : σ.place.depth = d := h.2.elim (·.depth) (·.depth)

theorem isNear_of_skipGap (hc : (Cursor.start text).Reaches c) (h : σ.IsAt text c.skipGap d) :
    σ.IsNear text c d := ⟨hc, .inr h⟩

theorem IsAt.moveTo (h : σ.IsAt text c d) (hc : c.Reaches c') {position : Nat}
    (hposition : position = c'.offset) : (σ.moveTo position).IsAt text c' d where
  reaches := h.reaches.trans hc
  position := hposition
  depth := h.depth
  sound := by
    refine h.sound.moveTo ?_ ?_
    · rw [hposition]
      exact (h.reaches.trans hc).isBoundary
    · rw [h.position, hposition]
      exact hc.offset_le

theorem IsNear.atDepth (h : σ.IsNear text c d) {τ : Trace} {d' : Nat}
    (hposition : τ.place.position = σ.place.position) (hdepth : τ.place.depth = d')
    (hsound : τ.Sound text) : τ.IsNear text c d' := by
  refine ⟨h.1, h.2.imp (fun h => ?_) fun h => ?_⟩
  all_goals exact ⟨h.reaches, hposition.trans h.position, hdepth, hsound⟩

end Trace

/-! ### agreement -/

section
variable {α β : Type} {text : String} {c c' : Cursor} {d : Nat} {σ τ : Trace}

/-- a step of the parser ends with what a reader returns, at depth `d` also when it stops -/
inductive Agrees (text : String) (d : Nat) (c : Cursor) :
    EStateM.Result Halt Trace α → Except ExpressionError (α × Cursor) → Prop where
  | value {a : α} {c' : Cursor} {τ : Trace} (hreaches : c.Reaches c') (h : τ.IsNear text c' d) :
    Agrees text d c (.ok a τ) (.ok (a, c'))
  | error {e : ExpressionError} {τ : Trace} (hlocated : e.Located text)
    (hdepth : τ.place.depth = d) (hsound : τ.Sound text) :
    Agrees text d c (.error (.failed e) τ) (.error e)

/-- a step of the parser goes along with a reader -/
def Follows (text : String) (d : Nat) (m : Scan α) (read : Reading α) : Prop :=
  ∀ c σ, σ.IsNear text c d → Agrees text d c (m σ) (read c)

theorem Scan.bind_of_ok {m : Scan α} {f : α → Scan β} {a : α} (h : m σ = .ok a τ) :
    (m >>= f) σ = f a τ := by
  show EStateM.bind m f σ = _
  unfold EStateM.bind
  rw [h]

namespace Agrees

theorem of_reaches {r : EStateM.Result Halt Trace α} {x : Except ExpressionError (α × Cursor)}
    (hc : c.Reaches c') (h : Agrees text d c' r x) : Agrees text d c r x := by
  cases h with
  | value hreaches h => exact .value (hc.trans hreaches) h
  | error hlocated hdepth hsound => exact .error hlocated hdepth hsound

theorem bind {m : Scan α} {f : α → Scan β} {x : Except ExpressionError (α × Cursor)}
    {g : α × Cursor → Except ExpressionError (β × Cursor)} (h : Agrees text d c (m σ) x)
    (hf : ∀ a c' τ, c.Reaches c' → τ.IsNear text c' d → Agrees text d c' (f a τ) (g (a, c'))) :
    Agrees text d c ((m >>= f) σ) (x >>= g) := by
  show Agrees text d c (EStateM.bind m f σ) _
  unfold EStateM.bind
  generalize m σ = r at h
  cases h with
  | value hreaches h => exact (hf _ _ _ hreaches h).of_reaches hreaches
  | error hlocated hdepth hsound => exact .error hlocated hdepth hsound

theorem bind_error {m : Scan α} {f : α → Scan β} {e : ExpressionError}
    (h : Agrees text d c (m σ) (.error e)) : Agrees text d c ((m >>= f) σ) (.error e) := by
  show Agrees text d c (EStateM.bind m f σ) _
  unfold EStateM.bind
  generalize m σ = r at h
  cases h with
  | error hlocated hdepth hsound => exact .error hlocated hdepth hsound

end Agrees

end

/-! ### characters -/

namespace Scan

section
variable {α : Type} {text : String} {c c' : Cursor} {d : Nat} {σ τ : Trace}

theorem rest_apply (h : σ.IsAt text c d) : rest text σ = .ok c.rest σ := by
  obtain ⟨read, hcut⟩ := h.reaches.cut_eq
  unfold rest
  rw [h.position, hcut]

theorem position_apply (h : σ.IsAt text c d) : position σ = .ok c.offset σ := by
  rw [position, h.position]

theorem front_takeWhile (p : Char → Bool) (cs : List Char) :
    front (utf8Length (cs.takeWhile p)) cs = pure (String.ofList (cs.takeWhile p)) := by
  have hcut := cut_append (cs.takeWhile p) (cs.dropWhile p)
  rw [List.takeWhile_append_dropWhile] at hcut
  rw [front, hcut]

theorem run_apply (p : Char → Bool) (h : σ.IsAt text c d) :
    ∃ τ, run p c.rest σ = .ok (String.ofList (c.span p).1) τ ∧ τ.IsAt text (c.span p).2 d := by
  refine ⟨σ.moveTo (c.span p).2.offset, ?_, h.moveTo (c.reaches_span p) rfl⟩
  have hadvance : advance (utf8Length (c.rest.takeWhile p)) σ
      = .ok () (σ.moveTo (c.span p).2.offset) := by
    rw [advance, h.position]
    rfl
  unfold run
  rw [bind_of_ok hadvance, front_takeWhile]
  rfl

theorem skipGap_apply (h : σ.IsNear text c d) :
    ∃ τ, skipGap text σ = .ok () τ ∧ τ.IsAt text c.skipGap d := by
  have hskip : ∀ c : Cursor, σ.IsAt text c d →
      skipGap text σ = .ok () (σ.moveTo c.skipGap.offset) := by
    intro c h
    have hbytes : utf8Length c.rest - utf8Length (c.rest.dropWhile Cursor.isGap)
        = utf8Length (c.rest.takeWhile Cursor.isGap) := by
      have happend := utf8Length_append (c.rest.takeWhile Cursor.isGap)
        (c.rest.dropWhile Cursor.isGap)
      rw [List.takeWhile_append_dropWhile] at happend
      omega
    unfold skipGap
    rw [bind_of_ok (rest_apply h), hbytes, advance, h.position]
    rfl
  rcases h.2 with h | h
  · exact ⟨_, hskip c h, h.moveTo c.reaches_skipGap rfl⟩
  · -- the gap after a gap is empty
    have hgap := hskip _ h
    rw [skipGap_skipGap] at hgap
    exact ⟨_, hgap, h.moveTo (.refl _) rfl⟩

/-! ### tokens -/

theorem eat_apply (token : String) (h : σ.IsNear text c d) :
    (∃ c' τ, c.eat? token = some c' ∧ eat text token σ = .ok true τ ∧
      c.Reaches c' ∧ τ.IsAt text c' d) ∨
    ∃ τ, c.eat? token = none ∧ eat text token σ = .ok false τ ∧ τ.IsAt text c.skipGap d := by
  obtain ⟨τ, hskip, hτ⟩ := skipGap_apply h
  have heat : eat text token σ = (if token.toList.isPrefixOf c.skipGap.rest then do
      advance token.utf8ByteSize
      return true
    else return false : Scan Bool) τ := by
    unfold eat
    rw [bind_of_ok hskip, bind_of_ok (rest_apply hτ)]
  by_cases hprefix : token.toList.isPrefixOf c.skipGap.rest = true
  · left
    have hsome := c.eat?_eq token
    rw [if_pos hprefix] at hsome heat
    have hreaches := Cursor.reaches_of_eat? hsome
    refine ⟨_, _, hsome, heat, c.reaches_skipGap.trans hreaches, hτ.moveTo hreaches ?_⟩
    rw [hτ.position]
  · right
    have hnone := c.eat?_eq token
    rw [if_neg hprefix] at hnone heat
    exact ⟨τ, hnone, heat, hτ⟩

theorem agrees_unexpected (expected : String) (h : σ.IsNear text c d) :
    Agrees text d c (unexpected (α := α) text expected σ)
      (.error (Expression.unexpected expected c)) := by
  obtain ⟨τ, hskip, hτ⟩ := skipGap_apply h
  unfold unexpected
  rw [bind_of_ok hskip, bind_of_ok (rest_apply hτ), bind_of_ok (position_apply hτ)]
  exact .error hτ.reaches.isBoundary hτ.depth hτ.sound

theorem name?_eq (c : Cursor) : Expression.name? c =
    if c.skipGap.rest.head?.any isNameStart then
      some (String.ofList (c.skipGap.span isNamePart).1, (c.skipGap.span isNamePart).2)
    else none := by
  unfold Expression.name?
  cases hrest : c.skipGap.rest with
  | nil => simp only [hrest]; rfl
  | cons ch cs => simp only [hrest]; rfl

theorem name?_apply (h : σ.IsNear text c d) :
    (∃ word c' τ, Expression.name? c = some (word, c') ∧ name? text σ = .ok (some word) τ ∧
      word.toList <+: c.skipGap.rest ∧ c.Reaches c' ∧ τ.IsAt text c' d) ∨
    ∃ τ, Expression.name? c = none ∧ name? text σ = .ok none τ ∧ τ.IsAt text c.skipGap d := by
  obtain ⟨τ, hskip, hτ⟩ := skipGap_apply h
  have hname : name? text σ = (if c.skipGap.rest.head?.any isNameStart then do
      let word ← run isNamePart c.skipGap.rest
      return some word
    else return none : Scan (Option String)) τ := by
    unfold name?
    rw [bind_of_ok hskip, bind_of_ok (rest_apply hτ)]
  by_cases hstart : c.skipGap.rest.head?.any isNameStart = true
  · left
    obtain ⟨τ', hrun, hτ'⟩ := run_apply isNamePart hτ
    rw [if_pos hstart, bind_of_ok hrun] at hname
    rw [name?_eq, if_pos hstart]
    refine ⟨_, _, τ', rfl, hname, ?_, c.reaches_skipGap.trans (c.skipGap.reaches_span _), hτ'⟩
    rw [String.toList_ofList]
    exact List.takeWhile_prefix _
  · right
    rw [if_neg hstart] at hname
    rw [name?_eq, if_neg hstart]
    exact ⟨τ, rfl, hname, hτ⟩

theorem digits?_apply (h : σ.IsNear text c d) :
    ((c.skipGap.span Char.isDigit).1.isEmpty = true ∧
      ∃ τ, digits? text σ = .ok none τ ∧ τ.IsAt text c.skipGap d) ∨
    (c.skipGap.span Char.isDigit).1.isEmpty = false ∧
      ∃ τ, digits? text σ
          = .ok (some (String.ofList (c.skipGap.span Char.isDigit).1, c.skipGap.offset)) τ ∧
        τ.IsAt text (c.skipGap.span Char.isDigit).2 d := by
  obtain ⟨τ, hskip, hτ⟩ := skipGap_apply h
  have hdigits : digits? text σ
      = (if utf8Length (c.skipGap.rest.takeWhile Char.isDigit) = 0 then return none else do
        let raw ← run Char.isDigit c.skipGap.rest
        return some (raw, c.skipGap.offset) : Scan (Option (String × Nat))) τ := by
    unfold digits?
    rw [bind_of_ok hskip, bind_of_ok (position_apply hτ), bind_of_ok (rest_apply hτ)]
  by_cases hempty : c.skipGap.rest.takeWhile Char.isDigit = []
  · left
    rw [if_pos (utf8Length_eq_zero_iff.mpr hempty)] at hdigits
    exact ⟨List.isEmpty_iff.mpr hempty, τ, hdigits, hτ⟩
  · right
    obtain ⟨τ', hrun, hτ'⟩ := run_apply Char.isDigit hτ
    rw [if_neg (fun hzero => hempty (utf8Length_eq_zero_iff.mp hzero)), bind_of_ok hrun] at hdigits
    exact ⟨List.isEmpty_eq_false_iff.mpr hempty, τ', hdigits, hτ'⟩

theorem follows_number (what : String) (bound : Nat) :
    Follows text d (number text what bound) (Expression.number what bound) := by
  intro c σ h
  unfold number Expression.number
  dsimp only
  rcases digits?_apply h with ⟨hempty, τ, hdigits, hτ⟩ | ⟨hempty, τ, hdigits, hτ⟩
  · rw [bind_of_ok hdigits, hempty]
    exact (agrees_unexpected what hτ.isNear).of_reaches c.reaches_skipGap
  · have hreaches := c.skipGap.reaches_span Char.isDigit
    have hreaches' := h.1.trans c.reaches_skipGap
    rw [bind_of_ok hdigits, hempty]
    dsimp only
    rw [String.toList_ofList, if_neg Bool.false_ne_true]
    split
    · exact .value (c.reaches_skipGap.trans hreaches) hτ.isNear
    · refine .error ?_ hτ.depth hτ.sound
      refine ⟨hreaches'.isBoundary, hreaches'.standsAt ?_⟩
      rw [String.toList_ofList]
      exact List.takeWhile_prefix _

theorem agrees_eat {token : String} {yes no : Scan α}
    {x : Except ExpressionError (α × Cursor)} (h : σ.IsNear text c d)
    (hyes : ∀ c' τ, c.eat? token = some c' → τ.IsAt text c' d → Agrees text d c' (yes τ) x)
    (hno : ∀ τ, c.eat? token = none → τ.IsNear text c d → Agrees text d c (no τ) x) :
    Agrees text d c ((eat text token >>= fun b => if b = true then yes else no) σ) x := by
  rcases eat_apply token h with ⟨c', τ, hsome, heat, hreaches, hτ⟩ | ⟨τ, hnone, heat, hτ⟩
  · rw [bind_of_ok heat]
    exact (hyes c' τ hsome hτ).of_reaches hreaches
  · rw [bind_of_ok heat]
    exact hno τ hnone (Trace.isNear_of_skipGap h.1 hτ)

theorem agrees_expect {token : String} {f : Unit → Scan α}
    {g : Cursor → Except ExpressionError (α × Cursor)} (h : σ.IsNear text c d)
    (hf : ∀ c' τ, τ.IsAt text c' d → Agrees text d c' (f () τ) (g c')) :
    Agrees text d c ((expect text token >>= f) σ) (require token c >>= g) := by
  rcases eat_apply token h with ⟨c', τ, hsome, heat, hreaches, hτ⟩ | ⟨τ, hnone, heat, hτ⟩
  · have hexpect : expect text token σ = .ok () τ := by
      unfold expect
      rw [bind_of_ok heat]
      rfl
    rw [bind_of_ok hexpect, require, hsome]
    exact (hf c' τ hτ).of_reaches hreaches
  · have hexpect : expect text token σ = unexpected text token τ := by
      unfold expect
      rw [bind_of_ok heat]
      rfl
    have hfail : Agrees text d c (expect text token σ)
        (.error (Expression.unexpected token c)) := by
      rw [hexpect]
      exact agrees_unexpected token (Trace.isNear_of_skipGap h.1 hτ)
    rw [require, hnone]
    exact hfail.bind_error

theorem eat?_quote (inside : Cursor) : (inside.span (· != '"')).2.eat? "\"" =
    if inside.rest.contains '"' then
      some ⟨inside.offset + (utf8Length (inside.rest.takeWhile (· != '"')) + 1),
        (inside.rest.dropWhile (· != '"')).tail⟩
    else none := by
  have hstop := eq_false_of_mem_head?_dropWhile (p := (· != '"')) inside.rest
  have hsplit := List.takeWhile_append_dropWhile (p := (· != '"')) (l := inside.rest)
  unfold Cursor.span
  cases hdrop : inside.rest.dropWhile (· != '"') with
  | nil =>
    have hquote : inside.rest.contains '"' = false := by
      rw [List.dropWhile_eq_nil_iff] at hdrop
      simpa using fun hmem => hdrop '"' hmem
    rw [hquote]
    rfl
  | cons ch cs =>
    rw [hdrop] at hstop hsplit
    have hch : ch = '"' := by simpa using hstop ch rfl
    subst hch
    have hquote : inside.rest.contains '"' = true := by
      rw [← hsplit]
      simp
    rw [hquote]
    rfl

theorem follows_literal : Follows text d (literal text) Expression.literal := by
  intro c σ h
  obtain ⟨τ, hskip, hτ⟩ := skipGap_apply h
  unfold literal Expression.literal
  dsimp only
  rw [bind_of_ok hskip, bind_of_ok (position_apply hτ)]
  refine (agrees_eat hτ.isNear ?_ ?_).of_reaches c.reaches_skipGap
  · intro inside τ hopen hτ
    rw [hopen, bind_of_ok (rest_apply hτ)]
    dsimp only
    rw [eat?_quote, front_takeWhile]
    by_cases hquote : inside.rest.contains '"' = true
    · rw [if_pos hquote, if_pos hquote]
      have hclose := eat?_quote inside
      rw [if_pos hquote] at hclose
      have hreaches := (inside.reaches_span (· != '"')).trans
        ((Cursor.reaches_skipGap _).trans (Cursor.reaches_of_eat? hclose))
      have hadvance : advance (utf8Length (inside.rest.takeWhile (· != '"')) + 1) τ
          = .ok () _ := rfl
      rw [bind_of_ok hadvance]
      refine .value hreaches (hτ.moveTo hreaches ?_).isNear
      rw [hτ.position]
    · rw [if_neg hquote, if_neg hquote]
      exact .error (h.1.trans c.reaches_skipGap).isBoundary hτ.depth hτ.sound
  · intro τ hnone hτ
    rw [hnone]
    refine (follows_number _ _ _ _ hτ).bind fun n c' τ hreaches hτ => ?_
    exact .value (.refl _) hτ

end

end Scan

end Expression

end DegreeProgress
