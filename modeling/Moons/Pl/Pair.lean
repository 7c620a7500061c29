import Moons.Pl.Value

/-!
# Pairs

`Pair` of `pl/obj_pair.go`: two slots, read and written by index (`0`, `1`)
or by name (`first`, `second`), and `PairIter`, an iterator holding the same
pointer, which yields `(0, First)` and then `(1, Second)`, each read when
`Deref` is called. A script can write to a pair between the steps of a loop
over it; the iterator then sees the writes. `Val.ToIndex` is not in the
sources; it is a parameter.
-/

set_option autoImplicit false

namespace Moons.Pl

/-- A `Pair`. -/
structure Pair where
  first : Val
  second : Val
  deriving DecidableEq, Repr

namespace Pair

variable (toIndex : Val → Except String Int)

def invalidIndex : String := "invalid index, 0 or 1 is allowed on Pair"

def invalidField : String := "invalid field name, 'first'/'second' is allowed on Pair"

/-- `Index(idx)`. -/
def index (p : Pair) (idx : Val) : Except String Val :=
  match toIndex idx with
  | .error e => .error e
  | .ok i => if i = 0 then .ok p.first else if i = 1 then .ok p.second else .error invalidIndex

/-- `IndexSet(idx, val)`, as the pair it leaves. -/
def indexSet (p : Pair) (idx val : Val) : Except String Pair :=
  match toIndex idx with
  | .error e => .error e
  | .ok i =>
    if i = 0 then .ok { p with first := val } else if i = 1 then .ok { p with second := val } else .error invalidIndex

/-- `Dot(i)`. -/
def dot (p : Pair) (i : String) : Except String Val :=
  if i = "first" then .ok p.first else if i = "second" then .ok p.second else .error invalidField

/-- `DotSet(i, val)`, as the pair it leaves. -/
def dotSet (p : Pair) (i : String) (val : Val) : Except String Pair :=
  if i = "first" then .ok { p with first := val }
  else if i = "second" then .ok { p with second := val } else .error invalidField

/-- Slot `0` or `1`. -/
def slot (p : Pair) (i : Int) : Val := if i = 0 then p.first else p.second

end Pair

/-- A `PairIter`: how many times `Next` was called, as Go's 64-bit `int`,
which wraps. Its pair is the pointer it was made from. -/
structure PairIter where
  cnt : BitVec 64

namespace PairIter

/-- `NewIter()`. -/
def newIter : PairIter := ⟨0⟩

/-- `Has()`: the signed comparison `cnt < 2`. -/
def has (it : PairIter) : Bool := it.cnt.slt 2

/-- `Next()`: count the step, then answer `Has()`. -/
def next (it : PairIter) : Bool × PairIter := (has ⟨it.cnt + 1⟩, ⟨it.cnt + 1⟩)

/-- `Deref()` on the pair `p` the iterator points to. -/
def deref (it : PairIter) (p : Pair) : Except String (Val × Val) :=
  if it.cnt = 0 then .ok (.int 0, p.first)
  else if it.cnt = 1 then .ok (.int 1, p.second) else .error "iterator out of bound"

theorem has_ofNat (n : Nat) :
    has ⟨BitVec.ofNat 64 n⟩ = decide (n % 18446744073709551616 < 2 ∨ 9223372036854775808 ≤ n % 18446744073709551616) := by
  have two : (2 : BitVec 64).toNat = 2 := rfl
  rw [has, BitVec.slt, BitVec.toInt_eq_toNat_cond, BitVec.toInt_eq_toNat_cond, two, BitVec.toNat_ofNat]
  apply decide_eq_decide.mpr
  split <;> split <;> omega

theorem ofNat_eq_zero (n : Nat) : BitVec.ofNat 64 n = 0 ↔ n % 18446744073709551616 = 0 := by
  rw [BitVec.toNat_eq, BitVec.toNat_ofNat]
  exact Iff.rfl

theorem ofNat_eq_one (n : Nat) : BitVec.ofNat 64 n = 1 ↔ n % 18446744073709551616 = 1 := by
  rw [BitVec.toNat_eq, BitVec.toNat_ofNat]
  exact Iff.rfl

end PairIter

/-! ## Writing to a pair while iterating it -/

/-- What a script does to a pair while a loop iterates it: a write by index
or by name, or the loop's `Next`. -/
inductive PairOp where
  | indexSet (idx val : Val)
  | dotSet (name : String) (val : Val)
  | next

/-- A pair and an iterator made from it. -/
structure Iterating where
  pair : Pair
  iter : PairIter

variable (toIndex : Val → Except String Int)

/-- One operation; a write that fails leaves the pair as it was. -/
def Iterating.apply (s : Iterating) : PairOp → Iterating
  | .indexSet idx val =>
    match s.pair.indexSet toIndex idx val with
    | .ok p => { s with pair := p }
    | .error _ => s
  | .dotSet name val =>
    match s.pair.dotSet name val with
    | .ok p => { s with pair := p }
    | .error _ => s
  | .next => { s with iter := s.iter.next.2 }

def Iterating.run (s : Iterating) (ops : List PairOp) : Iterating :=
  ops.foldl (Iterating.apply toIndex) s

/-- The slot an operation writes, with the value: index `0` or `1`, or the
name `first` or `second`. -/
def PairOp.write : PairOp → Option (Int × Val)
  | .indexSet idx val =>
    match toIndex idx with
    | .ok i => if i = 0 ∨ i = 1 then some (i, val) else none
    | .error _ => none
  | .dotSet name val => if name = "first" then some (0, val) else if name = "second" then some (1, val) else none
  | .next => none

/-- Slot `i` of `p` after the operations `ops`: the last value written to it,
by index or by name, or the value it had. -/
def slotAfter (p : Pair) (ops : List PairOp) (i : Int) : Val :=
  ((((ops.filterMap (PairOp.write toIndex)).reverse.find? fun w => w.1 == i).map Prod.snd).getD (p.slot i))

/-- The number of `Next` calls among `ops`. -/
def nexts (ops : List PairOp) : Nat := (ops.filter fun op => op matches .next).length

namespace Iterating

variable {toIndex}

theorem apply_slot (s : Iterating) (op : PairOp) {i : Int} (slot : i = 0 ∨ i = 1) :
    (s.apply toIndex op).pair.slot i =
      match op.write toIndex with
      | some w => if w.1 = i then w.2 else s.pair.slot i
      | none => s.pair.slot i := by
  cases op with
  | indexSet idx val =>
    simp only [apply, PairOp.write, Pair.indexSet]
    cases toIndex idx with
    | error => rfl
    | ok j => rcases slot with rfl | rfl <;> by_cases h0 : j = 0 <;> by_cases h1 : j = 1 <;> simp_all [Pair.slot]
  | dotSet name val =>
    simp only [apply, PairOp.write, Pair.dotSet]
    rcases slot with rfl | rfl <;> by_cases hf : name = "first" <;> by_cases hs : name = "second" <;>
      simp_all [Pair.slot]
  | next => rfl

theorem run_slot (ops : List PairOp) : ∀ (s : Iterating) {i : Int}, (i = 0 ∨ i = 1) →
    (s.run toIndex ops).pair.slot i = slotAfter toIndex s.pair ops i := by
  induction ops with
  | nil => intro s i _; rfl
  | cons op ops ih =>
    intro s i hi
    rw [run, List.foldl_cons, ← run, ih _ hi, slotAfter, slotAfter, List.filterMap_cons, apply_slot s op hi]
    cases op.write toIndex with
    | none => rfl
    | some w =>
      simp only [List.reverse_cons, List.find?_append]
      cases (List.filterMap (PairOp.write toIndex) ops).reverse.find? (fun w => w.1 == i) with
      | some _ => rfl
      | none => by_cases hwi : w.1 = i <;> simp [hwi]

theorem apply_cnt (s : Iterating) (op : PairOp) :
    (s.apply toIndex op).iter.cnt = s.iter.cnt + BitVec.ofNat 64 (nexts [op]) := by
  cases op with
  | indexSet => simp only [apply]; split <;> simp [nexts]
  | dotSet => simp only [apply]; split <;> simp [nexts]
  | next => simp [apply, nexts, PairIter.next]

theorem nexts_cons (op : PairOp) (ops : List PairOp) : nexts (op :: ops) = nexts [op] + nexts ops := by
  cases op <;> simp [nexts, List.filter_cons, Nat.add_comm]

theorem run_cnt (ops : List PairOp) : ∀ s : Iterating,
    (s.run toIndex ops).iter.cnt = s.iter.cnt + BitVec.ofNat 64 (nexts ops) := by
  induction ops with
  | nil => intro s; simp [run, nexts]
  | cons op ops ih =>
    intro s
    rw [run, List.foldl_cons, ← run, ih, apply_cnt, nexts_cons op ops, BitVec.add_assoc, BitVec.ofNat_add]

end Iterating

/-- Over any interleaving of writes, by index or by name, and `Next` calls on
a pair and an iterator made from it: `Index` and `Dot` read the last value
written to each slot through either interface. After `n` calls of `Next` the
count is `n` as a 64-bit `int`, which wraps; `Has` holds exactly when that
count, read signed, is below 2, that is when `n mod 2^64` is below 2 or at
least `2^63`. `Deref` gives `(0, slot 0)` when `n mod 2^64 = 0` and
`(1, slot 1)` when it is 1, each slot as last written, and fails with
"iterator out of bound" otherwise. -/
theorem iterating_run (p : Pair) (ops : List PairOp) :
    let s := Iterating.run toIndex ⟨p, PairIter.newIter⟩ ops
    (∀ idx i, toIndex idx = .ok i → (i = 0 ∨ i = 1) → s.pair.index toIndex idx = .ok (slotAfter toIndex p ops i)) ∧
      s.pair.dot "first" = .ok (slotAfter toIndex p ops 0) ∧
      s.pair.dot "second" = .ok (slotAfter toIndex p ops 1) ∧
      s.iter.cnt = BitVec.ofNat 64 (nexts ops) ∧
      s.iter.has =
        decide (nexts ops % 18446744073709551616 < 2 ∨ 9223372036854775808 ≤ nexts ops % 18446744073709551616) ∧
      s.iter.deref s.pair =
        if nexts ops % 18446744073709551616 = 0 then .ok (.int 0, slotAfter toIndex p ops 0)
        else if nexts ops % 18446744073709551616 = 1 then .ok (.int 1, slotAfter toIndex p ops 1)
        else .error "iterator out of bound" := by
  dsimp only
  have slot₀ := @Iterating.run_slot toIndex ops ⟨p, PairIter.newIter⟩ 0 (.inl rfl)
  have slot₁ := @Iterating.run_slot toIndex ops ⟨p, PairIter.newIter⟩ 1 (.inr rfl)
  have counted : (Iterating.run toIndex ⟨p, PairIter.newIter⟩ ops).iter.cnt = BitVec.ofNat 64 (nexts ops) :=
    (Iterating.run_cnt ops _).trans (BitVec.zero_add _)
  simp only [Pair.slot, if_true, show (1 : Int) ≠ 0 by decide, if_false] at slot₀ slot₁
  refine ⟨fun idx i found slot => ?_, ?_, ?_, counted, ?_, ?_⟩
  · rcases slot with rfl | rfl <;> simp [Pair.index, found, slot₀, slot₁]
  · simp [Pair.dot, slot₀]
  · simp [Pair.dot, slot₁]
  · rw [← PairIter.has_ofNat, ← counted]
  · simp only [PairIter.deref, counted, slot₀, slot₁, PairIter.ofNat_eq_zero, PairIter.ofNat_eq_one]

end Moons.Pl
