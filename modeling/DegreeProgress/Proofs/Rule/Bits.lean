import DegreeProgress.Rule.Mask
import Mathlib.Algebra.Group.Nat.Defs
import Mathlib.Data.List.Basic

/-!
# Bits of a mask

The bits of the masks that windows are made of, and the positions read off a mask.

* `Mask.getLsbD_live`          bit `n` is live iff the window has an item `n`;
* `Mask.getLsbD_ofTest`        the bits of a test, item by item;
* `Mask.getLsbD_and_sub_one`   `m &&& (m - 1)` is `m` without its lowest set bit;
* `Mask.mem_positions`, `Mask.positions_increasing`
                               so the scan lists the set bits, each once and in order.
-/

namespace DegreeProgress

namespace Mask

theorem getLsbD_single (k n : Nat) :
    (single k).getLsbD n = (decide (n < window) && decide (n = k)) := by
  unfold single window
  rw [BitVec.getLsbD_shiftLeft, BitVec.getLsbD_one]
  by_cases h : n = k
  · subst h
    simp
  · by_cases hlt : n < k
    · simp [h, hlt]
    · have h0 : n - k ≠ 0 := by omega
      simp [h, h0]

theorem live_eq_ofNat (len : Nat) (h : len < window) : live len = BitVec.ofNat 64 (2^len - 1) := by
  have hlt : 2^len < 2^64 := Nat.pow_lt_pow_right (by decide) h
  have h1 : 1 ≤ 2^len := Nat.one_le_two_pow
  rw [live, if_neg (by omega)]
  apply BitVec.eq_of_toNat_eq
  unfold single
  rw [BitVec.toNat_sub, BitVec.toNat_shiftLeft, BitVec.toNat_ofNat, BitVec.toNat_ofNat,
    Nat.shiftLeft_eq]
  omega

theorem getLsbD_live (len n : Nat) :
    (live len).getLsbD n = (decide (n < window) && decide (n < len)) := by
  by_cases h : window ≤ len
  · rw [live, if_pos h, BitVec.getLsbD_allOnes]
    by_cases hn : n < window
    · have hl : n < len := by omega
      simp [hn, hl, show n < 64 from hn]
    · simp [hn, show ¬n < 64 from hn]
  · rw [live_eq_ofNat len (by omega), BitVec.getLsbD_ofNat, Nat.testBit_two_pow_sub_one]
    rfl

/-- a mask that collects the bits `bit x` of the `x` with `p x` -/
theorem getLsbD_collect {ι : Type} (p : ι → Prop) [DecidablePred p] (bit : ι → Nat) (xs : List ι)
    (m : Mask) (n : Nat) :
    (xs.foldl (fun m x => if p x then m ||| single (bit x) else m) m).getLsbD n
      = (m.getLsbD n || (decide (n < window) && xs.any fun x => p x && n = bit x)) := by
  induction xs generalizing m with
  | nil => simp
  | cons x xs ih =>
    rw [List.foldl_cons, ih, List.any_cons]
    by_cases hp : p x
    · rw [if_pos hp, BitVec.getLsbD_or, getLsbD_single, Bool.or_assoc, ← Bool.and_or_distrib_left]
      simp [hp]
    · simp [hp]

theorem any_zipIdx_eq {ι : Type} (f : ι → Bool) (xs : List ι) (k n : Nat) :
    ((xs.zipIdx k).any fun e => f e.1 && decide (n = e.2))
      = (decide (k ≤ n) && xs[n - k]?.any f) := by
  induction xs generalizing k with
  | nil => simp
  | cons x xs ih =>
    rw [List.zipIdx_cons, List.any_cons, ih]
    rcases Nat.lt_trichotomy n k with h | h | h
    · simp [show ¬k ≤ n by omega, show ¬k + 1 ≤ n by omega, show n ≠ k by omega]
    · subst h
      simp [show ¬n + 1 ≤ n by omega]
    · obtain ⟨d, rfl⟩ : ∃ d, n = k + 1 + d := ⟨n - (k + 1), by omega⟩
      have h1 : k + 1 + d - k = d + 1 := by omega
      have h2 : k + 1 + d - (k + 1) = d := by omega
      rw [h1, h2, List.getElem?_cons_succ]
      simp [show k ≤ k + 1 + d by omega, show k + 1 + d ≠ k by omega]

theorem getLsbD_ofTest {ι : Type} (f : ι → Bool) (items : List ι) (n : Nat) :
    (ofTest f items).getLsbD n = (decide (n < window) && items[n]?.any f) := by
  refine (getLsbD_collect (fun e : ι × Nat => f e.1) (·.2) _ _ n).trans ?_
  simp only [Bool.decide_eq_true, any_zipIdx_eq]
  by_cases h : n < window
  · simp [h]
  · simp [h]

/-! ### the scan -/

theorem exists_odd_of_lowest {x k : Nat} (hk : x.testBit k = true)
    (hlow : ∀ j < k, x.testBit j = false) : ∃ q, x = 2^k * (2 * q + 1) := by
  have hmod : x % 2^k = 0 := by
    apply Nat.eq_of_testBit_eq
    intro j
    rw [Nat.testBit_mod_two_pow, Nat.zero_testBit]
    by_cases hj : j < k
    · rw [hlow j hj, Bool.and_false]
    · simp [hj]
  have hodd : x / 2^k % 2 = 1 := by
    rw [Nat.testBit_eq_decide_div_mod_eq] at hk
    exact of_decide_eq_true hk
  have hq : x / 2^k = 2 * (x / 2^k / 2) + 1 := by omega
  have hx := Nat.div_add_mod x (2^k)
  rw [hmod, hq] at hx
  exact ⟨x / 2^k / 2, hx.symm⟩

theorem testBit_and_sub_one {x k : Nat} (hk : x.testBit k = true)
    (hlow : ∀ j < k, x.testBit j = false) (n : Nat) :
    (x &&& (x - 1)).testBit n = (x.testBit n && decide (n ≠ k)) := by
  obtain ⟨q, hq⟩ := exists_odd_of_lowest hk hlow
  have hpos : 0 < 2^k := Nat.two_pow_pos k
  have hx : x = 2^k * (2 * q + 1) + 0 := hq
  have hpred : x - 1 = 2^k * (2 * q) + (2^k - 1) := by
    rw [hq, Nat.mul_add, Nat.mul_one]
    omega
  have hbit : x.testBit n = if n < k then false else (2 * q + 1).testBit (n - k) := by
    rw [hx, Nat.testBit_two_pow_mul_add _ hpos, Nat.zero_testBit]
  have hbit' : (x - 1).testBit n = if n < k then decide (n < k) else (2 * q).testBit (n - k) := by
    rw [hpred, Nat.testBit_two_pow_mul_add _ (by omega), Nat.testBit_two_pow_sub_one]
  rw [Nat.testBit_and, hbit, hbit']
  rcases Nat.lt_trichotomy n k with h | h | h
  · simp [h]
  · subst h
    simp
  · obtain ⟨d, hd⟩ : ∃ d, n - k = d + 1 := ⟨n - k - 1, by omega⟩
    have hsame : (2 * q + 1) / 2 = 2 * q / 2 := by omega
    rw [if_neg (by omega), if_neg (by omega), hd, Nat.testBit_succ, Nat.testBit_succ, hsame]
    simp [show n ≠ k by omega]

theorem getLsbD_and_sub_one {m : Mask} (h : m ≠ 0#64) (n : Nat) :
    (m &&& (m - 1#64)).getLsbD n = (m.getLsbD n && decide (n ≠ m.ctz.toNat)) := by
  have hpos : 1#64 ≤ m := by
    rw [BitVec.le_def]
    have hne : m.toNat ≠ 0 := fun e => h (BitVec.eq_of_toNat_eq e)
    show 1 ≤ m.toNat
    omega
  have hlowest : m.toNat.testBit m.ctz.toNat = true := BitVec.getLsbD_true_ctz_of_ne_zero h
  have hbelow : ∀ j < m.ctz.toNat, m.toNat.testBit j = false := fun j hj =>
    BitVec.getLsbD_false_of_lt_ctz hj
  rw [BitVec.getLsbD_and, ← BitVec.testBit_toNat, ← BitVec.testBit_toNat,
    BitVec.toNat_sub_of_le hpos, ← Nat.testBit_and]
  exact testBit_and_sub_one hlowest hbelow n

theorem getLsbD_of_mem_scan (fuel : Nat) (m : Mask) {n : Nat} (h : n ∈ scan fuel m) :
    m.getLsbD n = true := by
  induction fuel generalizing m with
  | zero => exact absurd h List.not_mem_nil
  | succ fuel ih =>
    unfold scan at h
    by_cases hm : m = 0#64
    · rw [if_pos hm] at h
      exact absurd h List.not_mem_nil
    · rw [if_neg hm] at h
      rcases List.mem_cons.mp h with rfl | h
      · exact BitVec.getLsbD_true_ctz_of_ne_zero hm
      · have hrest := ih _ h
        rw [getLsbD_and_sub_one hm, Bool.and_eq_true] at hrest
        exact hrest.1

/-- a step goes on above the bit that it has cleared -/
theorem lt_of_mem_scan {m : Mask} (hm : m ≠ 0#64) {fuel n : Nat}
    (h : n ∈ scan fuel (m &&& (m - 1#64))) : m.ctz.toNat < n := by
  have hbit := getLsbD_of_mem_scan fuel _ h
  rw [getLsbD_and_sub_one hm, Bool.and_eq_true, decide_eq_true_eq] at hbit
  by_contra hle
  have hbelow := BitVec.getLsbD_false_of_lt_ctz (x := m) (i := n) (by omega)
  rw [hbelow] at hbit
  exact absurd hbit.1 Bool.false_ne_true

theorem scan_increasing (fuel : Nat) (m : Mask) : (scan fuel m).Pairwise (· < ·) := by
  induction fuel generalizing m with
  | zero => exact List.Pairwise.nil
  | succ fuel ih =>
    unfold scan
    by_cases hm : m = 0#64
    · rw [if_pos hm]
      exact List.Pairwise.nil
    · rw [if_neg hm]
      exact List.pairwise_cons.mpr ⟨fun n hn => lt_of_mem_scan hm hn, ih _⟩

/-- fuel for the bits from `b` on finds them all, once those below are cleared -/
theorem mem_scan {fuel b : Nat} (hfuel : window ≤ b + fuel) {m : Mask}
    (hlow : ∀ j < b, m.getLsbD j = false) {n : Nat} (hn : m.getLsbD n = true) :
    n ∈ scan fuel m := by
  induction fuel generalizing m b with
  | zero =>
    have hge : b ≤ n := by
      by_contra hlt
      rw [hlow n (by omega)] at hn
      exact absurd hn Bool.false_ne_true
    have hwide : 64 ≤ b := hfuel
    rw [BitVec.getLsbD_of_ge m n (by omega)] at hn
    exact absurd hn Bool.false_ne_true
  | succ fuel ih =>
    have hm : m ≠ 0#64 := by
      rintro rfl
      rw [BitVec.getLsbD_zero] at hn
      exact absurd hn Bool.false_ne_true
    have hfirst : b ≤ m.ctz.toNat := by
      by_contra hlt
      have hbit := BitVec.getLsbD_true_ctz_of_ne_zero hm
      rw [hlow _ (by omega)] at hbit
      exact absurd hbit Bool.false_ne_true
    unfold scan
    rw [if_neg hm, List.mem_cons]
    by_cases hk : n = m.ctz.toNat
    · exact Or.inl hk
    · refine Or.inr (ih (b := m.ctz.toNat + 1) (by omega) ?_ ?_)
      · intro j hj
        rw [getLsbD_and_sub_one hm]
        by_cases he : j = m.ctz.toNat
        · simp [he]
        · rw [BitVec.getLsbD_false_of_lt_ctz (by omega), Bool.false_and]
      · rw [getLsbD_and_sub_one hm, hn]
        simp [hk]

theorem mem_positions (m : Mask) (n : Nat) : n ∈ m.positions ↔ m.getLsbD n = true := by
  constructor
  · exact getLsbD_of_mem_scan window m
  · exact mem_scan (b := 0) (by omega) fun j hj => absurd hj (Nat.not_lt_zero j)

theorem positions_increasing (m : Mask) : m.positions.Pairwise (· < ·) := scan_increasing window m

example : positions 0b101000#64 = [3, 5] := by decide +kernel

end Mask

end DegreeProgress
