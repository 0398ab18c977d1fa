import DegreeProgress.Rule.Basic

/-!
# Rules over windows of items

A rule answered for up to 64 items at once, one bit for each item, and the positions of all items
of a list that satisfy it.
-/

namespace DegreeProgress

/-- answers for one window: bit `n` belongs to item `n` -/
abbrev Mask := BitVec 64

namespace Mask

/-- how many items one window takes -/
def window : Nat := 64

/-- the mask with the bit `n` only -/
def single (n : Nat) : Mask := 1#64 <<< n

/-- the bits of the first `len` items -/
def live (len : Nat) : Mask :=
  if window ≤ len then BitVec.allOnes 64 else single len - 1#64

/-- the position of the lowest set bit, which is then cleared, again and again -/
def scan : (fuel : Nat) → Mask → List Nat
  | 0, _ => []
  | fuel + 1, m => if m = 0#64 then [] else m.ctz.toNat :: scan fuel (m &&& (m - 1#64))

/-- the positions of the set bits, in increasing order -/
def positions (m : Mask) : List Nat := scan window m

/-- the mask of the first 64 items of which `f` holds -/
def ofTest {ι : Type} (f : ι → Bool) (items : List ι) : Mask :=
  (items.take window).zipIdx.foldl (fun m e => if f e.1 then m ||| single e.2 else m) 0#64

end Mask

namespace Rule

variable {P ι : Type} [Question P ι]

mutual

/-- the answers of a rule for the first 64 items; an empty window has none -/
def mask (items : List ι) (r : Rule P) : Mask :=
  if Mask.live items.length = 0#64 then 0#64
  else match r with
    | leaf q => Mask.ofTest (Question.holds q) items &&& Mask.live items.length
    | all ms => maskAll items (Mask.live items.length) ms
    | any ms => maskAny items 0#64 ms &&& Mask.live items.length
    | not r => ~~~(r.mask items) &&& Mask.live items.length
    | atLeast min ms =>
      let answers := masks items ms
      (List.range (Nat.min items.length Mask.window)).foldl (fun m n =>
        if min.toNat ≤ answers.countP (·.getLsbD n) then m ||| Mask.single n else m) 0#64

/-- what `m` has in common with the answers of all members; stops when nothing is left -/
def maskAll (items : List ι) (m : Mask) : List (Rule P) → Mask
  | [] => m
  | r :: rs => if m = 0#64 then m else maskAll items (m &&& r.mask items) rs

/-- `m` with the answers of the members; stops when all items have one -/
def maskAny (items : List ι) (m : Mask) : List (Rule P) → Mask
  | [] => m
  | r :: rs =>
    if m = Mask.live items.length then m else maskAny items (m ||| r.mask items) rs

def masks (items : List ι) : List (Rule P) → List Mask
  | [] => []
  | r :: rs => r.mask items :: masks items rs

end

/-- the items after `base` earlier ones, window by window -/
def matchingFrom (r : Rule P) (base : Nat) : (fuel : Nat) → List ι → List Nat
  | 0, _ => []
  | fuel + 1, items =>
    ((r.mask (items.take Mask.window)).positions.map (base + ·)) ++
      matchingFrom r (base + Mask.window) fuel (items.drop Mask.window)

/-- the positions of the items that satisfy the rule, in order -/
def matching (r : Rule P) (items : List ι) : List Nat :=
  r.matchingFrom 0 (items.length / Mask.window + 1) items

end Rule

end DegreeProgress
