import Moons.Pl.Query.Basic
import Moons.Pl.Machine

/-!
# `q::first`, `q::last`, `q::rest`, `q::select` and `q::slice`

The anchor and projection intrinsics of `pl/mod_query.go`. None calls a
closure back; each reads its arguments, after `Check`, and allocates at
most its result. `q::slice`'s loop may not end, so it runs on fuel.
-/

set_option autoImplicit false

namespace Moons.Pl

section

variable {W : Type} (q : QueryHost W)

/-! ## Anchors -/

/-- `"{%l}{%l%d*}{%m}{%m%s*}"`. -/
def selectSig : List Overload :=
  [⟨[.list], none⟩, ⟨[.list], some .int⟩, ⟨[.map], none⟩, ⟨[.map], some .str⟩]

/-- The list branch's loop: `l.Data[idx]` for each index argument that passes
the guard `idx >= 0 && idx <= l.Length()`. -/
def selectIndices (l : List Val) : List Val → Except String (List Val)
  | [] => pure []
  | v :: vs => do
    let idx ← v.goInt
    let here ← if 0 ≤ idx ∧ idx ≤ l.length then (fun x => [x]) <$> Program.at? l idx else pure []
    pure (here ++ (← selectIndices l vs))

/-- The map branch's loop: `AddMap(key, val)` for each key argument `m` has. -/
def selectKeys (m : MapData) : List Val → MapData → Except String MapData
  | [], o => pure o
  | v :: vs, o => do
    let key ← v.goString
    match m.get key with
    | some val => selectKeys m vs (o.set key val)
    | none => selectKeys m vs o

/-- `qSelect`. -/
def qSelect (w : W) (args : List Val) : Except String (W × Except String Val) :=
  checked selectSig w args do
    let a0 ← argAt args 0
    if a0.isList then
      let l ← (q.objects w).listOf a0
      let o ← selectIndices l (args.drop 1)
      let (w, v) := q.allocList w o
      pure (w, .ok v)
    else
      must a0.isMap "must be map"
      let m ← (q.objects w).mapOf a0
      let o ← selectKeys m (args.drop 1) .empty
      let (w, v) := q.allocMap w o
      pure (w, .ok v)

/-- `l[i]`, when `0 <= i < len(l)`. -/
def indexAt (l : List Val) (i : BitVec 64) : Option Val := if 0 ≤ i.toInt then l[i.toInt.toNat]? else none

/-- The elements `l[i]` for the indices `i` with `0 <= i < len(l)`, in order. -/
def inRange (l : List Val) (idxs : List (BitVec 64)) : List Val := idxs.filterMap (indexAt l)

theorem selectIndices_int_cons (l : List Val) (i : BitVec 64) (vs : List Val) :
    selectIndices l (.int i :: vs) =
      if i.toInt = l.length then .error "index out of range"
      else (fun rest => (indexAt l i).toList ++ rest) <$> selectIndices l vs := by
  simp only [selectIndices, Val.goInt, bind, Except.bind]
  by_cases hlen : i.toInt = l.length
  · have hnone : l[l.length]? = none := List.getElem?_eq_none (Nat.le_refl _)
    have hnonneg : (0 : Int) ≤ l.length := by omega
    simp [hlen, hnonneg, Program.at?, Module.pool, hnone, Functor.map, Except.map]
  · rw [if_neg hlen]
    by_cases hin : 0 ≤ i.toInt ∧ i.toInt < l.length
    · have hlt : i.toInt.toNat < l.length := by omega
      simp only [show 0 ≤ i.toInt ∧ i.toInt ≤ l.length by omega, hin.1, if_true, Program.at?, Module.pool,
        List.getElem?_eq_getElem hlt, indexAt]
      cases selectIndices l vs <;> rfl
    · have hnone : indexAt l i = none := by
        unfold indexAt; split
        · exact List.getElem?_eq_none (by omega)
        · rfl
      simp only [show ¬(0 ≤ i.toInt ∧ i.toInt ≤ l.length) by omega, if_false, hnone]
      cases selectIndices l vs <;> rfl

theorem selectIndices_ints (l : List Val) (idxs : List (BitVec 64)) :
    selectIndices l (idxs.map .int) =
      if idxs.any (·.toInt = l.length) then .error "index out of range" else .ok (inRange l idxs) := by
  induction idxs with
  | nil => rfl
  | cons i idxs ih =>
    rw [List.map_cons, selectIndices_int_cons, ih]
    by_cases hlen : i.toInt = l.length
    · simp [hlen]
    · have hcons : (i :: idxs).any (·.toInt = l.length) = idxs.any (·.toInt = l.length) := by simp [hlen]
      simp only [hcons, if_neg hlen, inRange, List.filterMap_cons]
      cases idxs.any (·.toInt = l.length) <;> cases indexAt l i <;> rfl

/-- `q::select(l, i1, …, ik)` on a list of the store panics with an index out
of range when some index equals `len(l)`, which the guard lets through;
otherwise it returns a new list of the `l[ij]` with `0 <= ij < len(l)`, in
argument order. -/
theorem qSelect_list {w : W} {ref : Nat} {l : List Val} (stored : (q.objects w).lists[ref]? = some l)
    (idxs : List (BitVec 64)) :
    qSelect q w (.list ref :: idxs.map .int) =
      if idxs.any (·.toInt = l.length) then .error "index out of range"
      else .ok ((q.allocList w (inRange l idxs)).1, .ok (q.allocList w (inRange l idxs)).2) := by
  have hacc : (⟨[.list], some .int⟩ : Overload).accepts (.list ref :: idxs.map .int) = true := by
    simp only [Overload.accepts, Overload.matches, ArgKind.accepts, Bool.true_and]
    induction idxs with
    | nil => rfl
    | cons i idxs ih => simpa [Overload.matches, ArgKind.accepts] using ih
  rw [qSelect, checked_of_accepts (by simp [selectSig]) hacc]
  simp only [argAt, Module.pool, List.getElem?_cons_zero, Val.isList, ite_true, Objects.listOf_list _ stored,
    List.drop_succ_cons, List.drop_zero, selectIndices_ints, bind, Except.bind]
  cases idxs.any (·.toInt = l.length) <;> rfl

/-- A store holding the list `[1, 2]`, with callbacks that fail. -/
def pairStore : Objects := ⟨[[.int 1, .int 2]], [], []⟩

def failingHost : QueryHost Objects := .ofStore fun o _ _ => (.error "no callback", o)

theorem select_at_length_panics :
    (failingHost.objects pairStore).lists[0]? = some [.int 1, .int 2] ∧
      qSelect failingHost pairStore [.list 0, .int 2] = .error "index out of range" :=
  ⟨rfl, (qSelect_list failingHost rfl [2]).trans (if_pos (by decide))⟩

/-! ## Slicing -/

/-- `"{%l%d}{%l%d%d}{%l%d%d%d}"`. -/
def sliceSig : List Overload :=
  [⟨[.list, .int], none⟩, ⟨[.list, .int, .int], none⟩, ⟨[.list, .int, .int, .int], none⟩]

/-- `x` as a Go `int` after a wrapping addition: two's complement at 64 bits. -/
def wrapInt64 (x : Int) : Int := (x + 9223372036854775808) % 18446744073709551616 - 9223372036854775808

theorem wrapInt64_of_range {x : Int} (above : -9223372036854775808 ≤ x) (below : x < 9223372036854775808) :
    wrapInt64 x = x := by
  unfold wrapInt64; omega

/-- `for ; start < end; start += step { o.AddList(list.At(start)) }`, for at
most `fuel` rounds: `none` when they run out. -/
def sliceLoop (list : List Val) (stop step : Int) : Nat → Int → List Val → Option (Except String (List Val))
  | 0, _, _ => none
  | fuel + 1, start, o =>
    if start < stop then
      match Program.at? list start with
      | .ok v => sliceLoop list stop step fuel (wrapInt64 (start + step)) (o ++ [v])
      | .error err => some (.error err)
    else some (.ok o)

/-- `start`, `end` and `step` as the `switch` on `len(args)` reads them. -/
def sliceBounds (args : List Val) (len : Int) : Except String (Int × Int × Int) :=
  match args.length with
  | 2 => do pure (← (← argAt args 1).goInt, len, 1)
  | 3 => do pure (← (← argAt args 1).goInt, ← (← argAt args 2).goInt, 1)
  | _ => do pure (← (← argAt args 1).goInt, ← (← argAt args 2).goInt, ← (← argAt args 3).goInt)

/-- `qSlice`, for at most `fuel` rounds of its loop: `none` when they run out. -/
def qSlice (fuel : Nat) (w : W) (args : List Val) : Option (Except String (W × Except String Val)) :=
  match check sliceSig args with
  | .error err => some (.ok (w, .error err))
  | .ok _ =>
    match (do
        let list ← (q.objects w).listOf (← argAt args 0)
        pure (list, ← sliceBounds args list.length) : Except String (List Val × Int × Int × Int)) with
    | .error msg => some (.error msg)
    | .ok (list, start, stop, step) =>
      let stop := if stop ≥ list.length then (list.length : Int) else stop
      let start := if start > stop then stop else start
      (sliceLoop list stop step fuel start []).map fun r => r.map fun o =>
        ((q.allocList w o).1, .ok (q.allocList w o).2)

theorem sliceLoop_step_zero {list : List Val} {start stop : Int} (nonneg : 0 ≤ start) (inRange : start < stop)
    (hstop : stop ≤ list.length) (hmax : start < 9223372036854775808) :
    ∀ fuel o, sliceLoop list stop 0 fuel start o = none := by
  intro fuel
  induction fuel with
  | zero => intro o; rfl
  | succ fuel ih =>
    intro o
    have fetch : Program.at? list start = .ok list[start.toNat] := by
      simp [Program.at?, nonneg, Module.pool, show start.toNat < list.length by omega]
    rw [sliceLoop, if_pos inRange, fetch, Int.add_zero, wrapInt64_of_range (by omega) (by omega)]
    exact ih _

theorem sliceLoop_negative_start {list : List Val} {start stop step : Int} {fuel : Nat} {o : List Val}
    (hneg : start < 0) (inRange : start < stop) :
    sliceLoop list stop step (fuel + 1) start o = some (.error "index out of range") := by
  have fetch : Program.at? list start = .error "index out of range" := by
    simp [Program.at?, show ¬ 0 ≤ start by omega]
  rw [sliceLoop, if_pos inRange, fetch]

/-- `q::slice(l, start, end, 0)` with `0 <= start < min(end, len(l))` never
returns: every fuel runs out. -/
theorem qSlice_step_zero {w : W} {ref : Nat} {l : List Val} (stored : (q.objects w).lists[ref]? = some l)
    {start stop : BitVec 64} (nonneg : 0 ≤ start.toInt) (hstop : start.toInt < stop.toInt)
    (hlen : start.toInt < l.length) (fuel : Nat) :
    qSlice q fuel w [.list ref, .int start, .int stop, .int 0] = none := by
  have hacc : (⟨[.list, .int, .int, .int], none⟩ : Overload).accepts [.list ref, .int start, .int stop, .int 0] :=
    rfl
  obtain ⟨i, hi⟩ : ∃ i, check sliceSig [.list ref, .int start, .int stop, .int 0] = .ok i :=
    check_of_accepts (by simp [sliceSig]) hacc
  have hzero : (0 : BitVec 64).toInt = 0 := by decide
  simp only [qSlice, hi, argAt, Module.pool, List.getElem?_cons_zero, List.getElem?_cons_succ,
    Objects.listOf_list _ stored, sliceBounds,
    List.length_cons, List.length_nil, Val.goInt, hzero, bind, Except.bind, pure, Except.pure]
  have hstart : ¬(start.toInt > if stop.toInt ≥ l.length then (l.length : Int) else stop.toInt) := by
    split <;> omega
  rw [if_neg hstart, sliceLoop_step_zero nonneg (by split <;> omega) (by split <;> omega) (toInt_range start).2]
  rfl

theorem slice_by_zero_never_returns :
    (failingHost.objects pairStore).lists[0]? = some [.int 1, .int 2] ∧ (0 : Int) ≤ (0 : BitVec 64).toInt ∧
      (0 : BitVec 64).toInt < (2 : BitVec 64).toInt ∧ (0 : BitVec 64).toInt < [Val.int 1, .int 2].length ∧
      qSlice failingHost 1000 pairStore [.list 0, .int 0, .int 2, .int 0] = none :=
  ⟨rfl, by decide, by decide, by decide, qSlice_step_zero failingHost rfl (by decide) (by decide) (by decide) 1000⟩

/-- `q::slice(l, start)` with a negative start panics with an index out of
range, whatever the list. -/
theorem qSlice_negative_start {w : W} {ref : Nat} {l : List Val} (stored : (q.objects w).lists[ref]? = some l)
    {start : BitVec 64} (hneg : start.toInt < 0) (fuel : Nat) :
    qSlice q (fuel + 1) w [.list ref, .int start] = some (.error "index out of range") := by
  have hacc : (⟨[.list, .int], none⟩ : Overload).accepts [.list ref, .int start] := rfl
  obtain ⟨i, hi⟩ : ∃ i, check sliceSig [.list ref, .int start] = .ok i :=
    check_of_accepts (by simp [sliceSig]) hacc
  simp only [qSlice, hi, argAt, Module.pool, List.getElem?_cons_zero, List.getElem?_cons_succ,
    Objects.listOf_list _ stored, sliceBounds,
    List.length_cons, List.length_nil, Val.goInt, bind, Except.bind, pure, Except.pure]
  rw [if_pos (Int.le_refl _), if_neg (by omega), sliceLoop_negative_start hneg (by omega)]
  rfl

theorem slice_from_minus_one_panics :
    (failingHost.objects pairStore).lists[0]? = some [.int 1, .int 2] ∧ (-1 : BitVec 64).toInt < 0 ∧
      qSlice failingHost 1 pairStore [.list 0, .int (-1)] = some (.error "index out of range") :=
  ⟨rfl, by decide, qSlice_negative_start failingHost rfl (by decide) 0⟩

/-! ### A positive step -/

/-- The number of indices `start`, `start + step`, … below `stop`. -/
def sliceCount (start stop step : Int) : Nat := ((stop - start + step - 1) / step).toNat

/-- The elements `l[start]`, `l[start + step]`, `l[start + 2*step]`, … with
index below `stop`. -/
def slicePicks (l : List Val) (start stop step : Int) : List Val :=
  (List.range (sliceCount start stop step)).filterMap fun (k : Nat) => l[(start + k * step).toNat]?

theorem sliceCount_of_lt {start stop step : Int} (hstep : 0 < step) (below : start < stop) :
    sliceCount start stop step = sliceCount (start + step) stop step + 1 := by
  have hdiv : (stop - start + step - 1) / step = (stop - (start + step) + step - 1) / step + 1 := by
    rw [show stop - start + step - 1 = (stop - (start + step) + step - 1) + 1 * step by omega,
      Int.add_mul_ediv_right _ 1 (by omega)]
  have hnonneg : 0 ≤ (stop - (start + step) + step - 1) / step := Int.ediv_nonneg (by omega) (by omega)
  unfold sliceCount
  omega

theorem sliceCount_of_le {start stop step : Int} (hstep : 0 < step) (atEnd : stop ≤ start) :
    sliceCount start stop step = 0 := by
  have hlt : (stop - start + step - 1) / step < 1 := (Int.ediv_lt_iff_lt_mul hstep).mpr (by omega)
  unfold sliceCount
  omega

theorem slicePicks_of_lt {l : List Val} {start stop step : Int} (hstep : 0 < step) (below : start < stop) :
    slicePicks l start stop step = (l[start.toNat]?).toList ++ slicePicks l (start + step) stop step := by
  unfold slicePicks
  rw [sliceCount_of_lt hstep below, List.range_succ_eq_map, List.filterMap_cons, List.filterMap_map]
  have hzero : start + ((0 : Nat) : Int) * step = start := by omega
  have hidx : ∀ k : Nat, start + ((k + 1 : Nat) : Int) * step = start + step + k * step := by
    intro k; rw [Int.natCast_add, Int.add_mul]; omega
  simp only [hzero, Function.comp_def, Nat.succ_eq_add_one, hidx]
  cases l[start.toNat]? <;> rfl

theorem sliceLoop_positive {list : List Val} {stop step : Int} (hstep : 0 < step) (hstop : stop ≤ list.length)
    (hover : stop + step ≤ 9223372036854775808) :
    ∀ n start o fuel, 0 ≤ start → sliceCount start stop step = n → n < fuel →
      sliceLoop list stop step fuel start o = some (.ok (o ++ slicePicks list start stop step)) := by
  intro n
  induction n with
  | zero =>
    intro start o fuel h₀ hn hfuel
    obtain ⟨fuel, rfl⟩ : ∃ f, fuel = f + 1 := ⟨fuel - 1, by omega⟩
    have hge : ¬start < stop := fun hlt => by rw [sliceCount_of_lt hstep hlt] at hn; omega
    rw [sliceLoop, if_neg hge, slicePicks, sliceCount_of_le hstep (by omega)]
    simp
  | succ n ih =>
    intro start o fuel h₀ hn hfuel
    obtain ⟨fuel, rfl⟩ : ∃ f, fuel = f + 1 := ⟨fuel - 1, by omega⟩
    have hlt : start < stop := Int.not_le.mp fun hge => by rw [sliceCount_of_le hstep hge] at hn; omega
    have inList : start.toNat < list.length := by omega
    have fetch : Program.at? list start = .ok list[start.toNat] := by
      simp [Program.at?, h₀, Module.pool, inList]
    rw [sliceLoop, if_pos hlt, fetch]
    dsimp only
    rw [wrapInt64_of_range (by omega) (by omega),
      ih (start + step) _ fuel (by omega) (by rw [sliceCount_of_lt hstep hlt] at hn; omega) (by omega),
      slicePicks_of_lt hstep hlt, List.getElem?_eq_getElem inList]
    simp

/-- `q::slice(l, start, end, step)` with `start >= 0` and `step >= 1` returns,
given enough rounds, a new list of `l[start]`, `l[start + step]`, … below
`min(end, len(l))`, as long as no index plus `step` overflows a Go `int`. -/
theorem qSlice_positive_step {w : W} {ref : Nat} {l : List Val} (stored : (q.objects w).lists[ref]? = some l)
    {start stop step : BitVec 64} (nonneg : 0 ≤ start.toInt) (hstep : 0 < step.toInt)
    (hover : l.length + step.toInt ≤ 9223372036854775808) {fuel : Nat}
    (hfuel : sliceCount start.toInt (min stop.toInt l.length) step.toInt < fuel) :
    qSlice q fuel w [.list ref, .int start, .int stop, .int step] =
      some (.ok ((q.allocList w (slicePicks l start.toInt (min stop.toInt l.length) step.toInt)).1,
        .ok (q.allocList w (slicePicks l start.toInt (min stop.toInt l.length) step.toInt)).2)) := by
  have hacc : (⟨[.list, .int, .int, .int], none⟩ : Overload).accepts [.list ref, .int start, .int stop, .int step] :=
    rfl
  obtain ⟨i, hi⟩ : ∃ i, check sliceSig [.list ref, .int start, .int stop, .int step] = .ok i :=
    check_of_accepts (by simp [sliceSig]) hacc
  simp only [qSlice, hi, argAt, Module.pool, List.getElem?_cons_zero, List.getElem?_cons_succ,
    Objects.listOf_list _ stored, sliceBounds, List.length_cons, List.length_nil, Val.goInt, bind, Except.bind, pure,
    Except.pure]
  have hmin : (if stop.toInt ≥ l.length then (l.length : Int) else stop.toInt) = min stop.toInt l.length := by
    split <;> omega
  rw [hmin]
  by_cases hgt : start.toInt > min stop.toInt l.length
  · obtain ⟨fuel, rfl⟩ : ∃ f, fuel = f + 1 := ⟨fuel - 1, by omega⟩
    rw [if_pos hgt, sliceLoop, if_neg (Int.lt_irrefl _), slicePicks, sliceCount_of_le hstep (by omega)]
    rfl
  · rw [if_neg hgt, sliceLoop_positive hstep (by omega) (by omega) _ _ [] fuel nonneg rfl hfuel]
    rfl

theorem slice_every_other_element :
    (failingHost.objects pairStore).lists[0]? = some [.int 1, .int 2] ∧ 0 ≤ (0 : BitVec 64).toInt ∧
      0 < (2 : BitVec 64).toInt ∧ (([.int 1, .int 2] : List Val).length : Int) + (2 : BitVec 64).toInt ≤ 9223372036854775808 ∧
      sliceCount (0 : BitVec 64).toInt (min (2 : BitVec 64).toInt ([.int 1, .int 2] : List Val).length)
        (2 : BitVec 64).toInt < 3 ∧
      qSlice failingHost 3 pairStore [.list 0, .int 0, .int 2, .int 2] =
        some (.ok (⟨[[.int 1, .int 2], [.int 1]], [], []⟩, .ok (.list 1))) :=
  ⟨rfl, by decide, by decide, by decide, by decide,
    @qSlice_positive_step Objects failingHost pairStore 0 [.int 1, .int 2] rfl 0 2 2 (by decide) (by decide) (by decide) 3
      (by decide)⟩

theorem sliceLoop_overflow {list : List Val} {start stop step : Int} {o : List Val} (fuel : Nat) (nonneg : 0 ≤ start)
    (inRange : start < stop) (hstop : stop ≤ list.length) (hover : 9223372036854775808 ≤ start + step)
    (hmax : start < 9223372036854775808) (hstep : step < 9223372036854775808) :
    sliceLoop list stop step (fuel + 2) start o = some (.error "index out of range") := by
  have fetch : Program.at? list start = .ok list[start.toNat] := by
    simp [Program.at?, nonneg, Module.pool, show start.toNat < list.length by omega]
  have hwrap : wrapInt64 (start + step) = start + step - 18446744073709551616 := by unfold wrapInt64; omega
  rw [sliceLoop, if_pos inRange, fetch]
  dsimp only
  rw [hwrap, sliceLoop_negative_start (by omega) (by omega)]

/-- `q::slice(l, start, end, step)` with `0 <= start < min(end, len(l))` and a
step so large that `start + step` overflows panics with an index out of
range after reading `l[start]`. -/
theorem qSlice_step_overflow {w : W} {ref : Nat} {l : List Val} (stored : (q.objects w).lists[ref]? = some l)
    {start stop step : BitVec 64} (nonneg : 0 ≤ start.toInt) (inRange : start.toInt < min stop.toInt l.length)
    (hover : 9223372036854775808 ≤ start.toInt + step.toInt) (fuel : Nat) :
    qSlice q (fuel + 2) w [.list ref, .int start, .int stop, .int step] = some (.error "index out of range") := by
  have hacc : (⟨[.list, .int, .int, .int], none⟩ : Overload).accepts [.list ref, .int start, .int stop, .int step] :=
    rfl
  obtain ⟨i, hi⟩ : ∃ i, check sliceSig [.list ref, .int start, .int stop, .int step] = .ok i :=
    check_of_accepts (by simp [sliceSig]) hacc
  simp only [qSlice, hi, argAt, Module.pool, List.getElem?_cons_zero, List.getElem?_cons_succ,
    Objects.listOf_list _ stored, sliceBounds, List.length_cons, List.length_nil, Val.goInt, bind, Except.bind, pure,
    Except.pure]
  have hmin : (if stop.toInt ≥ l.length then (l.length : Int) else stop.toInt) = min stop.toInt l.length := by
    split <;> omega
  rw [hmin, if_neg (by omega), sliceLoop_overflow fuel nonneg inRange (by omega) hover (toInt_range start).2
    (toInt_range step).2]
  rfl

theorem slice_step_overflow_panics :
    (failingHost.objects pairStore).lists[0]? = some [.int 1, .int 2] ∧ 0 ≤ (1 : BitVec 64).toInt ∧
      (1 : BitVec 64).toInt < min (2 : BitVec 64).toInt ([.int 1, .int 2] : List Val).length ∧
      9223372036854775808 ≤ (1 : BitVec 64).toInt + (9223372036854775807 : BitVec 64).toInt ∧
      qSlice failingHost 2 pairStore [.list 0, .int 1, .int 2, .int 9223372036854775807] =
        some (.error "index out of range") :=
  ⟨rfl, by decide, by decide, by decide, qSlice_step_overflow failingHost rfl (by decide) (by decide) (by decide) 0⟩

end

end Moons.Pl
