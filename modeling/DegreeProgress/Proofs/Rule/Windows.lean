import DegreeProgress.Proofs.Rule.Bits

/-!
# Windows answer for every item

A rule asked of a window of up to 64 items gives one bit for each item, and groups of rules stop as
soon as the answers of their members are settled.

* `Rule.getLsbD_mask`          bit `n` of a mask is set iff item `n` lies in the window and
                               satisfies the rule;
* `Rule.mem_matching`          the positions found window by window are those of the items that
                               satisfy the rule;
* `Rule.matching_increasing`   each of them is found once, and in order;
* `Rule.windows_agree`         asking windows and asking item by item is the same.
-/

namespace DegreeProgress

namespace Rule

variable {P ι : Type} [Question P ι]

/-! ### groups of rules -/

theorem getLsbD_maskAll (items : List ι) (m : Mask) (ms : List (Rule P)) (n : Nat) :
    (maskAll items m ms).getLsbD n = (m.getLsbD n && ms.all fun r => (r.mask items).getLsbD n) := by
  induction ms generalizing m with
  | nil => simp [maskAll]
  | cons r rs ih =>
    rw [maskAll, List.all_cons]
    by_cases hm : m = 0#64
    · simp [hm]
    · rw [if_neg hm, ih, BitVec.getLsbD_and, Bool.and_assoc]

/-- on live bits; the loop may stop before it has seen the other ones -/
theorem getLsbD_maskAny (items : List ι) (m : Mask) (ms : List (Rule P)) {n : Nat}
    (hlive : (Mask.live items.length).getLsbD n = true) :
    (maskAny items m ms).getLsbD n = (m.getLsbD n || ms.any fun r => (r.mask items).getLsbD n) := by
  induction ms generalizing m with
  | nil => simp [maskAny]
  | cons r rs ih =>
    rw [maskAny, List.any_cons]
    by_cases hm : m = Mask.live items.length
    · rw [if_pos hm, hm, hlive, Bool.true_or]
    · rw [if_neg hm, ih, BitVec.getLsbD_or, Bool.or_assoc]

theorem countP_masks (items : List ι) (ms : List (Rule P)) (n : Nat) :
    (masks items ms).countP (·.getLsbD n) = ms.countP fun r => (r.mask items).getLsbD n := by
  induction ms with
  | nil => rfl
  | cons r rs ih => rw [masks, List.countP_cons, List.countP_cons, ih]

/-! ### one bit -/

theorem getLsbD_mask_within (items : List ι) (n : Nat) (hw : n < Mask.window)
    (hn : n < items.length) (r : Rule P) : (r.mask items).getLsbD n = r.accepts items[n] := by
  have hlive : (Mask.live items.length).getLsbD n = true := by
    rw [Mask.getLsbD_live]
    simp [hw, hn]
  have hsome : Mask.live items.length ≠ 0#64 := by
    intro h
    rw [h, BitVec.getLsbD_zero] at hlive
    exact Bool.false_ne_true hlive
  induction r using memberInduction with
  | leaf q =>
    rw [mask, if_neg hsome, BitVec.getLsbD_and, hlive, Mask.getLsbD_ofTest,
      List.getElem?_eq_getElem hn]
    simp [hw, accepts]
  | all ms ih =>
    have hall : (ms.all fun r => (r.mask items).getLsbD n) = ms.all (·.accepts items[n]) := by
      rw [Bool.eq_iff_iff, List.all_eq_true, List.all_eq_true]
      exact forall₂_congr fun r hr => by rw [ih r hr]
    rw [mask, if_neg hsome, getLsbD_maskAll, hlive, hall, Bool.true_and, accepts, allAccept_eq]
  | any ms ih =>
    have hany : (ms.any fun r => (r.mask items).getLsbD n) = ms.any (·.accepts items[n]) := by
      rw [Bool.eq_iff_iff, List.any_eq_true, List.any_eq_true]
      exact exists_congr fun r => and_congr_right fun hr => by rw [ih r hr]
    rw [mask, if_neg hsome, BitVec.getLsbD_and, getLsbD_maskAny items _ ms hlive, hlive, hany,
      BitVec.getLsbD_zero, Bool.false_or, Bool.and_true, accepts, anyAccepts_eq]
  | not r ih =>
    rw [mask, if_neg hsome, BitVec.getLsbD_and, BitVec.getLsbD_not, hlive, ih, accepts]
    simp [show n < 64 from hw]
  | atLeast min ms ih =>
    have hcount : (masks items ms).countP (·.getLsbD n) = ms.countP (·.accepts items[n]) := by
      rw [countP_masks]
      exact List.countP_congr fun r hr => by rw [ih r hr]
    have hmem : n < Nat.min items.length Mask.window := by
      show n < Min.min items.length Mask.window
      omega
    rw [mask, if_neg hsome, accepts, countAccepting_eq, ← hcount]
    refine (Mask.getLsbD_collect _ id _ _ n).trans ?_
    rw [Bool.eq_iff_iff]
    simp only [BitVec.getLsbD_zero, Bool.false_or, hw, decide_true, Bool.true_and, List.any_eq_true,
      List.mem_range, id_eq, Bool.and_eq_true, decide_eq_true_eq]
    constructor
    · rintro ⟨k, _, hk, rfl⟩
      exact hk
    · intro h
      exact ⟨n, hmem, h, rfl⟩

theorem getLsbD_mask_beyond (items : List ι) (n : Nat)
    (h : ¬(n < Mask.window ∧ n < items.length)) (r : Rule P) :
    (r.mask items).getLsbD n = false := by
  have hdead : (Mask.live items.length).getLsbD n = false := by
    rw [Mask.getLsbD_live]
    simpa using h
  by_cases hnone : Mask.live items.length = 0#64
  · rw [mask.eq_def, if_pos hnone, BitVec.getLsbD_zero]
  · cases r with
    | leaf q => rw [mask, if_neg hnone, BitVec.getLsbD_and, hdead, Bool.and_false]
    | all ms => rw [mask, if_neg hnone, getLsbD_maskAll, hdead, Bool.false_and]
    | any ms => rw [mask, if_neg hnone, BitVec.getLsbD_and, hdead, Bool.and_false]
    | not r => rw [mask, if_neg hnone, BitVec.getLsbD_and, hdead, Bool.and_false]
    | atLeast min ms =>
      have hother : ∀ k ∈ List.range (Nat.min items.length Mask.window), n ≠ k := by
        intro k hk hnk
        have hlt : k < Min.min items.length Mask.window := List.mem_range.mp hk
        omega
      rw [mask, if_neg hnone]
      refine (Mask.getLsbD_collect _ id _ _ n).trans ?_
      rw [BitVec.getLsbD_zero, Bool.false_or, Bool.and_eq_false_iff]
      right
      rw [List.any_eq_false]
      intro k hk
      simp [hother k hk]

/-- **A window answers for its items**: bit `n` is set iff item `n` lies in the window and
satisfies the rule. -/
theorem getLsbD_mask (items : List ι) (n : Nat) (r : Rule P) :
    (r.mask items).getLsbD n = (decide (n < Mask.window) && items[n]?.any r.accepts) := by
  by_cases h : n < Mask.window ∧ n < items.length
  · rw [getLsbD_mask_within items n h.1 h.2, List.getElem?_eq_getElem h.2]
    simp [h.1]
  · rw [getLsbD_mask_beyond items n h]
    by_cases hw : n < Mask.window
    · rw [List.getElem?_eq_none (by omega)]
      simp
    · simp [hw]

/-! ### one window after the other -/

theorem mem_positions_mask (items : List ι) (n : Nat) (r : Rule P) :
    n ∈ (r.mask (items.take Mask.window)).positions
      ↔ n < Mask.window ∧ items[n]?.any r.accepts = true := by
  rw [Mask.mem_positions, getLsbD_mask, Bool.and_eq_true, decide_eq_true_eq]
  refine and_congr_right fun hw => ?_
  rw [List.getElem?_take_of_lt hw]

theorem mem_matchingFrom (r : Rule P) (base fuel n : Nat) (items : List ι) :
    n ∈ r.matchingFrom base fuel items
      ↔ base ≤ n ∧ n < base + fuel * Mask.window ∧ items[n - base]?.any r.accepts = true := by
  induction fuel generalizing base items with
  | zero =>
    simp only [matchingFrom, List.not_mem_nil, false_iff]
    omega
  | succ fuel ih =>
    have hb : base + (fuel + 1) * Mask.window = base + Mask.window + fuel * Mask.window := by
      rw [Nat.succ_mul]
      omega
    rw [matchingFrom, List.mem_append, ih, hb, List.getElem?_drop]
    constructor
    · rintro (h | ⟨h1, h2, h3⟩)
      · obtain ⟨k, hk, rfl⟩ := List.mem_map.mp h
        obtain ⟨hw, ha⟩ := (mem_positions_mask items k r).mp hk
        rw [Nat.add_sub_cancel_left]
        exact ⟨by omega, by omega, ha⟩
      · have e : Mask.window + (n - (base + Mask.window)) = n - base := by omega
        rw [e] at h3
        exact ⟨by omega, h2, h3⟩
    · rintro ⟨h1, h2, h3⟩
      by_cases hw : n < base + Mask.window
      · left
        have hk : n - base < Mask.window := by omega
        exact List.mem_map.mpr ⟨n - base, (mem_positions_mask items _ r).mpr ⟨hk, h3⟩, by omega⟩
      · right
        have e : Mask.window + (n - (base + Mask.window)) = n - base := by omega
        rw [e]
        exact ⟨by omega, h2, h3⟩

/-- **The windows find every item**: `n` is among the positions iff item `n` satisfies the rule. -/
theorem mem_matching (r : Rule P) (items : List ι) (n : Nat) :
    n ∈ r.matching items ↔ items[n]?.any r.accepts = true := by
  rw [matching, mem_matchingFrom, Nat.sub_zero, Nat.zero_add]
  constructor
  · rintro ⟨_, _, h⟩
    exact h
  · intro h
    have hn : n < items.length := by
      by_contra hge
      rw [List.getElem?_eq_none (by omega)] at h
      simp at h
    have hdiv : items.length < (items.length / Mask.window + 1) * Mask.window :=
      Nat.lt_mul_of_div_lt (Nat.lt_succ_self _) (by decide)
    exact ⟨Nat.zero_le n, by omega, h⟩

theorem matchingFrom_increasing (r : Rule P) (base fuel : Nat) (items : List ι) :
    (r.matchingFrom base fuel items).Pairwise (· < ·) := by
  induction fuel generalizing base items with
  | zero => exact List.Pairwise.nil
  | succ fuel ih =>
    rw [matchingFrom, List.pairwise_append]
    refine ⟨?_, ih _ _, ?_⟩
    · rw [List.pairwise_map]
      exact (Mask.positions_increasing _).imp fun h => Nat.add_lt_add_left h base
    · intro a ha b hb
      obtain ⟨k, hk, rfl⟩ := List.mem_map.mp ha
      have hwindow := ((mem_positions_mask items k r).mp hk).1
      have hlater := ((mem_matchingFrom r _ fuel b _).mp hb).1
      omega

theorem matching_increasing (r : Rule P) (items : List ι) :
    (r.matching items).Pairwise (· < ·) :=
  matchingFrom_increasing r 0 _ items

/-- **Windows agree with items.**  Bit `n` of a mask is set iff there is an item `n` among the first
64 and it satisfies the rule; and the positions found are the increasing list of those whose items
satisfy it. -/
theorem windows_agree (r : Rule P) (items : List ι) :
    (∀ n, (r.mask items).getLsbD n = true ↔
      n < min Mask.window items.length ∧ ∃ h : n < items.length, r.accepts items[n] = true) ∧
    (r.matching items).Pairwise (· < ·) ∧
    ∀ n, n ∈ r.matching items ↔ ∃ h : n < items.length, r.accepts items[n] = true := by
  have hitem : ∀ n, items[n]?.any r.accepts = true ↔
      ∃ h : n < items.length, r.accepts items[n] = true := by
    intro n
    by_cases hn : n < items.length
    · simp [hn]
    · simp [hn]
  refine ⟨fun n => ?_, matching_increasing r items, fun n => ?_⟩
  · rw [getLsbD_mask, Bool.and_eq_true, decide_eq_true_eq, hitem]
    constructor
    · rintro ⟨hw, hn, ha⟩
      exact ⟨by omega, hn, ha⟩
    · rintro ⟨hlt, hn, ha⟩
      exact ⟨by omega, hn, ha⟩
  · rw [mem_matching, hitem]

end Rule

end DegreeProgress
