/-
  FuzzyPath — the best few of many results.

  The results kept stand in slots, in no order.  A binary heap of slot numbers
  has the worst of them at its root, so that a better result can take the
  worst one's slot.  Without a bound everything is kept and there is no heap.

  * `TopK.withExpected` is the structure at first;
  * `TopK.wouldEnter` says whether a result would be kept;
  * `TopK.insertWith` keeps a result if it ranks among the best.  Its positions
    are asked for only then, and written into an empty buffer;
  * `siftUp` and `siftDown` move one slot number to its place in the heap.
-/
import FuzzyPath.Ranking.Ranked

namespace FuzzyPath

/-- The best results seen so far. -/
structure TopK where
  slots : Array Ranked
  /-- Slot numbers, the worst result at the root. -/
  heap : Array Nat
  /-- How many results are kept; `none` for all. -/
  capacity : Option Nat
  deriving Repr

namespace TopK

/-- Keeps `limit` results, or all of them if it is zero.  With a limit there is
    room from the start for as many of `expected` results as can be kept. -/
def withExpected (limit expected : Nat) : TopK :=
  let capacity := if limit = 0 then none else some limit
  let reserve := capacity.elim 0 (min · expected)
  { slots := .emptyWithCapacity reserve, heap := .emptyWithCapacity reserve, capacity := capacity }

/-- Keeps `limit` results, or all of them if it is zero. -/
def new (limit : Nat) : TopK := withExpected limit 0

/-- Whether there is no room for another result. -/
def isFull (top : TopK) : Bool := top.capacity.any (· ≤ top.slots.size)

/-- The result at the root of the heap. -/
def root? (top : TopK) : Option Ranked := top.heap[0]?.bind (top.slots[·]?)

/-- The worst result kept, once there is no more room. -/
def threshold (top : TopK) : Option (Int × Nat) :=
  if top.isFull then top.root?.map fun worst => (worst.score, worst.index) else none

/-- Whether a result would be kept. -/
def wouldEnter (top : TopK) (score : Int) (index : Nat) : Bool :=
  match top.threshold with
  | some (worstScore, worstIndex) => rankOrder score index worstScore worstIndex == .lt
  | none => true

/-! ## The heap -/

/-- Whether the result at the place `a` of the heap is worse than the one at
    the place `b`. -/
def worseAt (slots : Array Ranked) (heap : Array Nat) (a b : Nat) : Bool :=
  match heap[a]?.bind (slots[·]?), heap[b]?.bind (slots[·]?) with
  | some x, some y => x.isWorse y
  | _, _ => false

/-- Moves the slot number at `pos` up, past all better results. -/
def siftUp (slots : Array Ranked) (heap : Array Nat) (pos : Nat) : Array Nat :=
  if pos = 0 then heap
  else
    let parent := (pos - 1) / 2
    if worseAt slots heap pos parent then siftUp slots (heap.swapIfInBounds pos parent) parent
    else heap
termination_by pos

/-- The worst among the result at `pos` and those below it. -/
def worstChild (slots : Array Ranked) (heap : Array Nat) (pos : Nat) : Nat :=
  let left := 2 * pos + 1
  let right := 2 * pos + 2
  let worst := if left < heap.size ∧ worseAt slots heap left pos then left else pos
  if right < heap.size ∧ worseAt slots heap right worst then right else worst

/-- Moves the slot number at `pos` down, past all worse results. -/
def siftDown (slots : Array Ranked) (heap : Array Nat) (pos : Nat) : Array Nat :=
  let worst := worstChild slots heap pos
  if pos < worst ∧ worst < heap.size then
    siftDown slots (heap.swapIfInBounds pos worst) worst
  else heap
termination_by heap.size - pos
decreasing_by simp; omega

/-! ## Inserting -/

/-- Takes the worst result's slot for a better one. -/
def replaceRoot (top : TopK) (result : Ranked) : TopK :=
  let slots := match top.heap[0]? with
    | some root => top.slots.setIfInBounds root result
    | none => top.slots
  { top with slots := slots, heap := siftDown slots top.heap 0 }

/-- Gives a result a slot of its own. -/
def append (top : TopK) (result : Ranked) : TopK :=
  let slots := top.slots.push result
  let heap :=
    if top.capacity.isSome then
      siftUp slots (top.heap.push top.slots.size) top.heap.size
    else top.heap
  { top with slots := slots, heap := heap }

/-- Keeps a result if it ranks among the best; the answer says whether it was
    kept.  `fill` adds its positions to the empty buffer. -/
def insertWith {m : Type → Type} [Monad m] (top : TopK) (score : Int) (index : Nat)
    (fill : List Nat → m (List Nat)) : m (Bool × TopK) :=
  if top.wouldEnter score index then do
    let result : Ranked := ⟨score, index, ← fill []⟩
    return (true, if top.isFull then top.replaceRoot result else top.append result)
  else return (false, top)

/-- The results kept, in no particular order. -/
def toList (top : TopK) : List Ranked := top.slots.toList

end TopK

end FuzzyPath
