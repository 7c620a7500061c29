import Moons.Pl.Query.Basic
import Mathlib.Data.BitVec

/-!
# `q::min`, `q::max`, `q::sum`, `q::avg` and `q::count`

The aggregations of `pl/mod_query.go` share `qagg`: `firstNum` finds the
list's first number, whose kind (int or real) decides which elements count,
and the fold passes every later element of that kind to a joiner with the
running value. `qAvg` and `qCount` keep their own tallies in the joiner's
closure; here that state is threaded through the fold. Real arithmetic and
comparison are the evaluator's floating-point unit.
-/

set_option autoImplicit false

namespace Moons.Pl

/-- `isint`, `isreal` and `isnone`. -/
inductive NumKind where
  | isint | isreal | isnone
  deriving DecidableEq, Repr

/-- `firstNum`'s loop from index `idx`. -/
def firstNumFrom : Nat → List Val → BitVec 64 × Float64 × NumKind × Int
  | _, [] => (0, 0, .isnone, -1)
  | idx, .int v :: _ => (v, 0, .isint, idx)
  | idx, .real v :: _ => (0, v, .isreal, idx)
  | idx, _ :: rest => firstNumFrom (idx + 1) rest

/-- `firstNum(l)`: the first int or real, its kind and its index. -/
def firstNum (l : List Val) : BitVec 64 × Float64 × NumKind × Int := firstNumFrom 0 l

/-- A joiner `func(iprev, icur, rprev, rcur, t) (int64, float64, int)`, with
the state its closure updates. -/
abbrev Joiner (σ : Type) := σ → BitVec 64 → BitVec 64 → Float64 → Float64 → NumKind →
  (BitVec 64 × Float64 × NumKind) × σ

section

variable {σ : Type} (joiner : Joiner σ)

/-- The int loop of `qagg` over `l.Data[idx+1:]`. -/
def aggInts : List Val → BitVec 64 → σ → Except String (BitVec 64 × σ)
  | [], current, s => pure (current, s)
  | .int vv :: rest, current, s => do
    let ((a, _, c), s) := joiner s current vv 0 0 .isint
    must (c == .isint) "must be int"
    aggInts rest a s
  | _ :: rest, current, s => aggInts rest current s

/-- The real loop of `qagg` over `l.Data[idx+1:]`. -/
def aggReals : List Val → Float64 → σ → Except String (Float64 × σ)
  | [], current, s => pure (current, s)
  | .real vv :: rest, current, s => do
    let ((_, b, c), s) := joiner s 0 0 current vv .isreal
    must (c == .isreal) "must be real"
    aggReals rest b s
  | _ :: rest, current, s => aggReals rest current s

/-- `qagg(l, args, joiner)`. Its error result is always nil and is left out. -/
def qagg (l : List Val) (s : σ) : Except String ((BitVec 64 × Float64 × NumKind) × σ) :=
  let (ival, rval, t, idx) := firstNum l
  match t with
  | .isint => do
    let (current, s) ← aggInts joiner (l.drop (idx + 1).toNat) ival s
    pure ((current, 0, .isint), s)
  | .isreal => do
    let (current, s) ← aggReals joiner (l.drop (idx + 1).toNat) rval s
    pure ((0, current, .isreal), s)
  | .isnone => pure ((0, 0, .isnone), s)

end

/-- `qaggret`: null, an int or a real by kind. -/
def qaggret : BitVec 64 × Float64 × NumKind → Val
  | (_, _, .isnone) => .null
  | (i, _, .isint) => .int i
  | (_, r, _) => .real r

/-! ## What `qagg` folds -/

/-- The ints of a list, in order. -/
def intsOf (l : List Val) : List (BitVec 64) :=
  l.filterMap fun v => match v with
    | .int v => some v
    | _ => none

/-- The reals of a list, in order. -/
def realsOf (l : List Val) : List Float64 :=
  l.filterMap fun v => match v with
    | .real v => some v
    | _ => none

/-- The kind `firstNum` gives a value: `isint`, `isreal`, or `isnone` for any
other value. -/
def Val.numKind : Val → NumKind
  | .int _ => .isint
  | .real _ => .isreal
  | _ => .isnone

/-- The kind of the list's first number, `isnone` when it has none. -/
def leadKind (l : List Val) : NumKind := ((l.find? (·.isNumber)).map Val.numKind).getD .isnone

/-- The numbers of the list of its first number's kind, in order; none when it
has no number. -/
def leadElems (l : List Val) : List Val := l.filter fun v => v.isNumber && v.numKind == leadKind l

theorem intsOf_realsOf_of_no_number {l : List Val} (noNumber : ∀ v ∈ l, v.isNumber = false) :
    intsOf l = [] ∧ realsOf l = [] := by
  induction l with
  | nil => exact ⟨rfl, rfl⟩
  | cons v l ih =>
    have notNum := noNumber v (List.mem_cons_self _ _)
    have ih := ih fun u hu => noNumber u (List.mem_cons_of_mem _ hu)
    cases v <;> first | exact ih | cases notNum

theorem length_filter_numKind (l : List Val) :
    (l.filter fun v => v.isNumber && v.numKind == .isint).length = (intsOf l).length ∧
      (l.filter fun v => v.isNumber && v.numKind == .isreal).length = (realsOf l).length := by
  induction l with
  | nil => exact ⟨rfl, rfl⟩
  | cons v l ih =>
    obtain ⟨hi, hr⟩ := ih
    cases v <;> first | exact ⟨hi, hr⟩ | exact ⟨congrArg (· + 1) hi, hr⟩ | exact ⟨hi, congrArg (· + 1) hr⟩

theorem firstNumFrom_append {pre : List Val} (hpre : ∀ v ∈ pre, v.isNumber = false) (l : List Val) :
    ∀ idx, firstNumFrom idx (pre ++ l) = firstNumFrom (idx + pre.length) l := by
  induction pre with
  | nil => intro idx; rfl
  | cons v pre ih =>
    intro idx
    have notNum := hpre v (List.mem_cons_self _ _)
    rw [List.cons_append, List.length_cons, show idx + (pre.length + 1) = idx + 1 + pre.length by omega,
      ← ih (fun u hu => hpre u (List.mem_cons_of_mem _ hu))]
    cases v <;> first | rfl | cases notNum

theorem firstNumFrom_int {pre rest : List Val} {x : BitVec 64} (hpre : ∀ v ∈ pre, v.isNumber = false) :
    ∀ idx, firstNumFrom idx (pre ++ .int x :: rest) = (x, (0 : Float64), NumKind.isint, ((idx + pre.length : Nat) : Int)) :=
  fun idx => (firstNumFrom_append hpre _ idx).trans rfl

theorem firstNumFrom_real {pre rest : List Val} {x : Float64} (hpre : ∀ v ∈ pre, v.isNumber = false) :
    ∀ idx, firstNumFrom idx (pre ++ .real x :: rest) = ((0 : BitVec 64), x, NumKind.isreal, ((idx + pre.length : Nat) : Int)) :=
  fun idx => (firstNumFrom_append hpre _ idx).trans rfl

theorem firstNumFrom_none {l : List Val} (noNumber : ∀ v ∈ l, v.isNumber = false) :
    ∀ idx, firstNumFrom idx l = (0, (0 : Float64), NumKind.isnone, -1) := by
  induction l with
  | nil => intro idx; rfl
  | cons v l ih =>
    intro idx
    have notNum := noNumber v (List.mem_cons_self _ _)
    rw [← ih (fun u hu => noNumber u (List.mem_cons_of_mem _ hu)) (idx + 1)]
    cases v <;> first | rfl | cases notNum

theorem intsOf_lead {pre rest : List Val} {x : BitVec 64} (hpre : ∀ v ∈ pre, v.isNumber = false) :
    intsOf (pre ++ .int x :: rest) = x :: intsOf rest := by
  rw [intsOf, List.filterMap_append, ← intsOf, (intsOf_realsOf_of_no_number hpre).1]
  rfl

theorem realsOf_lead {pre rest : List Val} {x : Float64} (hpre : ∀ v ∈ pre, v.isNumber = false) :
    realsOf (pre ++ .real x :: rest) = x :: realsOf rest := by
  rw [realsOf, List.filterMap_append, ← realsOf, (intsOf_realsOf_of_no_number hpre).2]
  rfl

section

variable {σ : Type} (joiner : Joiner σ)

/-- One step of the int fold: the joiner's running value and state. -/
def intStep (p : BitVec 64 × σ) (vv : BitVec 64) : BitVec 64 × σ :=
  ((joiner p.2 p.1 vv 0 0 .isint).1.1, (joiner p.2 p.1 vv 0 0 .isint).2)

theorem aggInts_eq (keepsInt : ∀ s cur vv, (joiner s cur vv 0 0 .isint).1.2.2 = .isint) :
    ∀ rest current s, aggInts joiner rest current s = .ok ((intsOf rest).foldl (intStep joiner) (current, s)) := by
  intro rest
  induction rest with
  | nil => intro current s; rfl
  | cons v rest ih =>
    intro current s
    cases v <;> simp only [aggInts, intsOf, List.filterMap_cons] <;> try exact ih current s
    rename_i vv
    simp only [keepsInt, must_true, bind, Except.bind, List.foldl_cons]
    exact ih _ _

theorem qagg_int {pre rest : List Val} {x : BitVec 64} {s : σ} (hpre : ∀ v ∈ pre, v.isNumber = false)
    (keepsInt : ∀ s cur vv, (joiner s cur vv 0 0 .isint).1.2.2 = .isint) :
    qagg joiner (pre ++ .int x :: rest) s =
      .ok ((((intsOf rest).foldl (intStep joiner) (x, s)).1, 0, .isint),
        ((intsOf rest).foldl (intStep joiner) (x, s)).2) := by
  have hdrop : (pre ++ .int x :: rest).drop (((0 + pre.length : Nat) : Int) + 1).toNat = rest := by
    rw [show (((0 + pre.length : Nat) : Int) + 1).toNat = pre.length + 1 by omega, List.drop_append]
    rfl
  simp only [qagg, firstNum, firstNumFrom_int hpre 0, hdrop, aggInts_eq joiner keepsInt]
  rfl

/-- One step of the real fold: the joiner's running value and state. -/
def realStep (p : Float64 × σ) (vv : Float64) : Float64 × σ :=
  ((joiner p.2 0 0 p.1 vv .isreal).1.2.1, (joiner p.2 0 0 p.1 vv .isreal).2)

theorem aggReals_eq (keepsReal : ∀ s cur vv, (joiner s 0 0 cur vv .isreal).1.2.2 = .isreal) :
    ∀ rest current s, aggReals joiner rest current s = .ok ((realsOf rest).foldl (realStep joiner) (current, s)) := by
  intro rest
  induction rest with
  | nil => intro current s; rfl
  | cons v rest ih =>
    intro current s
    cases v <;> simp only [aggReals, realsOf, List.filterMap_cons] <;> try exact ih current s
    simp only [keepsReal, must_true, bind, Except.bind, List.foldl_cons]
    exact ih _ _

theorem qagg_real {pre rest : List Val} {x : Float64} {s : σ} (hpre : ∀ v ∈ pre, v.isNumber = false)
    (keepsReal : ∀ s cur vv, (joiner s 0 0 cur vv .isreal).1.2.2 = .isreal) :
    qagg joiner (pre ++ .real x :: rest) s =
      .ok ((0, ((realsOf rest).foldl (realStep joiner) (x, s)).1, .isreal),
        ((realsOf rest).foldl (realStep joiner) (x, s)).2) := by
  have hdrop : (pre ++ .real x :: rest).drop (((0 + pre.length : Nat) : Int) + 1).toNat = rest := by
    rw [show (((0 + pre.length : Nat) : Int) + 1).toNat = pre.length + 1 by omega, List.drop_append]
    rfl
  simp only [qagg, firstNum, firstNumFrom_real hpre 0, hdrop, aggReals_eq joiner keepsReal]
  rfl

theorem qagg_none {l : List Val} {s : σ} (noNumber : ∀ v ∈ l, v.isNumber = false) :
    qagg joiner l s = .ok ((0, 0, .isnone), s) := by
  simp only [qagg, firstNum, firstNumFrom_none noNumber 0]
  rfl

end

/-! ## The intrinsics -/

section

variable {W : Type} (rt : Runtime W) (q : QueryHost W)

/-- `"{%l}"`, the signature of the aggregations. -/
def aggSig : List Overload := [⟨[.list], none⟩]

/-- The joiners of `qMax`, `qMin` and `qSum`: a binary operation on the
running value and the element, within the kind. -/
def binJoiner (iop : BitVec 64 → BitVec 64 → BitVec 64) (rop : Float64 → Float64 → Float64) : Joiner Unit :=
  fun _ iprev icur rprev rcur t =>
    if t == .isint then ((iop iprev icur, 0, .isint), ()) else ((0, rop rprev rcur, .isreal), ())

/-- The shape of `qMax`, `qMin` and `qSum`: `qaggret` of `qagg` with a
stateless joiner. -/
def qFold (iop : BitVec 64 → BitVec 64 → BitVec 64) (rop : Float64 → Float64 → Float64) (w : W)
    (args : List Val) : Except String (W × Except String Val) :=
  checked aggSig w args do
    let l ← (q.objects w).listOf (← argAt args 0)
    let (r, _) ← qagg (binJoiner iop rop) l ()
    pure (w, .ok (qaggret r))

/-- `qMax`: keep `icur` when `iprev < icur`, and likewise for reals. -/
def qMax (w : W) (args : List Val) : Except String (W × Except String Val) :=
  qFold q (fun iprev icur => if iprev.slt icur then icur else iprev)
    (fun rprev rcur => if Float64.lt rprev rcur then rcur else rprev) w args

/-- `qMin`: keep `icur` when `iprev > icur`, and likewise for reals. -/
def qMin (w : W) (args : List Val) : Except String (W × Except String Val) :=
  qFold q (fun iprev icur => if icur.slt iprev then icur else iprev)
    (fun rprev rcur => if Float64.lt rcur rprev then rcur else rprev) w args

/-- `qSum`: `iprev + icur`, and `rprev + rcur` for reals. -/
def qSum (w : W) (args : List Val) : Except String (W × Except String Val) :=
  qFold q (· + ·) rt.fadd w args

/-- `qavginfo`. -/
structure QAvgInfo where
  count : Nat
  rtt : Float64
  itt : BitVec 64

/-- `qAvg`'s joiner: count the element and add it to the tally of its kind. -/
def avgJoiner : Joiner QAvgInfo := fun avg _ icur _ rcur t =>
  let avg := { avg with count := avg.count + 1 }
  if t == .isint then ((0, 0, .isint), { avg with itt := avg.itt + icur })
  else ((0, 0, .isreal), { avg with rtt := rt.fadd avg.rtt rcur })

/-- `qAvg`: the tallies of the joiner, divided as reals. -/
def qAvg (w : W) (args : List Val) : Except String (W × Except String Val) :=
  checked aggSig w args do
    let l ← (q.objects w).listOf (← argAt args 0)
    let ((_, _, t), avg) ← qagg (avgJoiner rt) l ⟨0, 0, 0⟩
    match t with
    | .isnone => pure (w, .ok .null)
    | .isint => pure (w, .ok (.real (rt.fdiv (rt.fofInt avg.itt) (rt.fofInt (BitVec.ofNat 64 avg.count)))))
    | .isreal => pure (w, .ok (.real (rt.fdiv avg.rtt (rt.fofInt (BitVec.ofNat 64 avg.count)))))

/-- `qCount`'s joiner: one more element of the kind. -/
def countJoiner : Joiner Nat := fun count _ _ _ _ t => ((0, 0, t), count + 1)

/-- `qCount`: `count` starts at 1, for the first number. -/
def qCount (w : W) (args : List Val) : Except String (W × Except String Val) :=
  checked aggSig w args do
    let l ← (q.objects w).listOf (← argAt args 0)
    let ((_, _, t), count) ← qagg countJoiner l 1
    if t == .isnone then pure (w, .ok (.int 0)) else pure (w, .ok (.int (BitVec.ofNat 64 count)))

theorem binJoiner_fold (iop : BitVec 64 → BitVec 64 → BitVec 64) (rop : Float64 → Float64 → Float64)
    (vs : List (BitVec 64)) : ∀ cur, vs.foldl (intStep (binJoiner iop rop)) (cur, ()) = (vs.foldl iop cur, ()) := by
  induction vs with
  | nil => intro cur; rfl
  | cons v vs ih => intro cur; exact ih _

theorem qFold_int (iop : BitVec 64 → BitVec 64 → BitVec 64) (rop : Float64 → Float64 → Float64) {w : W} {ref : Nat}
    {l pre rest : List Val} {x : BitVec 64} (stored : (q.objects w).lists[ref]? = some l)
    (hsplit : l = pre ++ .int x :: rest) (hpre : ∀ v ∈ pre, v.isNumber = false) :
    qFold q iop rop w [.list ref] = .ok (w, .ok (.int ((intsOf rest).foldl iop x))) := by
  have hacc : (⟨[.list], none⟩ : Overload).accepts [.list ref] = true := rfl
  rw [qFold, checked_of_accepts (by simp [aggSig]) hacc]
  simp only [argAt, Module.pool, List.getElem?_cons_zero, Objects.listOf_list _ stored, hsplit,
    qagg_int (binJoiner iop rop) hpre (fun _ _ _ => rfl), binJoiner_fold, bind, Except.bind]
  rfl

theorem qFold_none (iop : BitVec 64 → BitVec 64 → BitVec 64) (rop : Float64 → Float64 → Float64) {w : W} {ref : Nat}
    {l : List Val} (stored : (q.objects w).lists[ref]? = some l) (hnum : ∀ v ∈ l, v.isNumber = false) :
    qFold q iop rop w [.list ref] = .ok (w, .ok .null) := by
  have hacc : (⟨[.list], none⟩ : Overload).accepts [.list ref] = true := rfl
  rw [qFold, checked_of_accepts (by simp [aggSig]) hacc]
  simp only [argAt, Module.pool, List.getElem?_cons_zero, Objects.listOf_list _ stored, qagg_none _ hnum, bind,
    Except.bind]
  rfl

theorem foldl_add_eq_add_sum (vs : List (BitVec 64)) : ∀ x, vs.foldl (· + ·) x = x + vs.sum := by
  induction vs with
  | nil => intro x; simp
  | cons v vs ih => intro x; rw [List.foldl_cons, ih, List.sum_cons, BitVec.add_assoc]

theorem qSum_int {w : W} {ref : Nat} {l pre rest : List Val} {x : BitVec 64}
    (stored : (q.objects w).lists[ref]? = some l) (hsplit : l = pre ++ .int x :: rest)
    (hpre : ∀ v ∈ pre, v.isNumber = false) :
    qSum rt q w [.list ref] = .ok (w, .ok (.int (x + (intsOf rest).sum))) := by
  rw [qSum, qFold_int q _ _ stored hsplit hpre, foldl_add_eq_add_sum]

theorem foldl_select (key : BitVec 64 → Int) {op : BitVec 64 → BitVec 64 → BitVec 64}
    (selects : ∀ a b, op a b = if key a < key b then b else a) :
    ∀ (vs : List (BitVec 64)) (x : BitVec 64), vs.foldl op x ∈ x :: vs ∧ ∀ y ∈ x :: vs, key y ≤ key (vs.foldl op x)
  | [], x => ⟨List.mem_singleton_self x, fun y hy => by rw [List.mem_singleton.mp hy]; rfl⟩
  | v :: vs, x => by
    obtain ⟨hmem, hbound⟩ := foldl_select key selects vs (op x v)
    have hstep : key x ≤ key (op x v) ∧ key v ≤ key (op x v) := by rw [selects]; split <;> omega
    refine ⟨?_, fun y hy => ?_⟩
    · rw [List.foldl_cons]
      rcases List.mem_cons.mp hmem with h | h
      · rw [h, selects]; split
        · exact List.mem_cons_of_mem _ (List.mem_cons_self _ _)
        · exact List.mem_cons_self _ _
      · exact List.mem_cons_of_mem _ (List.mem_cons_of_mem _ h)
    · have bounded := hbound (op x v) (List.mem_cons_self _ _)
      rw [List.foldl_cons]
      rcases List.mem_cons.mp hy with rfl | hy
      · omega
      rcases List.mem_cons.mp hy with rfl | hy
      · omega
      · exact hbound y (List.mem_cons_of_mem _ hy)

theorem countJoiner_fold (vs : List (BitVec 64)) :
    ∀ (cur : BitVec 64) (n : Nat), (vs.foldl (intStep countJoiner) (cur, n)).2 = n + vs.length := by
  induction vs with
  | nil => intro cur n; rfl
  | cons v vs ih => intro cur n; rw [List.foldl_cons, ih]; simp [intStep, countJoiner]; omega

theorem qCount_int {w : W} {ref : Nat} {l pre rest : List Val} {x : BitVec 64}
    (stored : (q.objects w).lists[ref]? = some l) (hsplit : l = pre ++ .int x :: rest)
    (hpre : ∀ v ∈ pre, v.isNumber = false) :
    qCount q w [.list ref] = .ok (w, .ok (.int (BitVec.ofNat 64 (1 + (intsOf rest).length)))) := by
  have hacc : (⟨[.list], none⟩ : Overload).accepts [.list ref] = true := rfl
  rw [qCount, checked_of_accepts (by simp [aggSig]) hacc]
  simp only [argAt, Module.pool, List.getElem?_cons_zero, Objects.listOf_list _ stored, hsplit,
    qagg_int countJoiner hpre (fun _ _ _ => rfl), countJoiner_fold, bind, Except.bind]
  rfl

theorem countJoiner_fold_real (vs : List Float64) :
    ∀ (cur : Float64) (n : Nat), (vs.foldl (realStep countJoiner) (cur, n)).2 = n + vs.length := by
  induction vs with
  | nil => intro cur n; rfl
  | cons v vs ih => intro cur n; rw [List.foldl_cons, ih]; simp [realStep, countJoiner]; omega

theorem qCount_real {w : W} {ref : Nat} {l pre rest : List Val} {x : Float64}
    (stored : (q.objects w).lists[ref]? = some l) (hsplit : l = pre ++ .real x :: rest)
    (hpre : ∀ v ∈ pre, v.isNumber = false) :
    qCount q w [.list ref] = .ok (w, .ok (.int (BitVec.ofNat 64 (1 + (realsOf rest).length)))) := by
  have hacc : (⟨[.list], none⟩ : Overload).accepts [.list ref] = true := rfl
  rw [qCount, checked_of_accepts (by simp [aggSig]) hacc]
  simp only [argAt, Module.pool, List.getElem?_cons_zero, Objects.listOf_list _ stored, hsplit,
    qagg_real countJoiner hpre (fun _ _ _ => rfl), countJoiner_fold_real, bind, Except.bind]
  rfl

theorem qCount_none {w : W} {ref : Nat} {l : List Val} (stored : (q.objects w).lists[ref]? = some l)
    (hnum : ∀ v ∈ l, v.isNumber = false) :
    qCount q w [.list ref] = .ok (w, .ok (.int 0)) := by
  have hacc : (⟨[.list], none⟩ : Overload).accepts [.list ref] = true := rfl
  rw [qCount, checked_of_accepts (by simp [aggSig]) hacc]
  simp only [argAt, Module.pool, List.getElem?_cons_zero, Objects.listOf_list _ stored, qagg_none _ hnum, bind,
    Except.bind]
  rfl

/-- The aggregations of a list of the store follow the kind `K` of its first
number, and pass over every element of another kind: `q::count` counts the
numbers of kind `K`; when `K` is int, `q::sum` is the wrapping sum of the
list's ints and `q::max` and `q::min` are its greatest and least int; when
the list has no number, `q::sum`, `q::max` and `q::min` are null (and
`q::count` is 0). -/
theorem aggregates_follow_first_number {w : W} {ref : Nat} {l : List Val}
    (stored : (q.objects w).lists[ref]? = some l) :
    qCount q w [.list ref] = .ok (w, .ok (.int (BitVec.ofNat 64 (leadElems l).length))) ∧
    (leadKind l = .isint →
      qSum rt q w [.list ref] = .ok (w, .ok (.int (intsOf l).sum)) ∧
      (∃ x ∈ intsOf l, qMax q w [.list ref] = .ok (w, .ok (.int x)) ∧ ∀ y ∈ intsOf l, y.toInt ≤ x.toInt) ∧
      (∃ x ∈ intsOf l, qMin q w [.list ref] = .ok (w, .ok (.int x)) ∧ ∀ y ∈ intsOf l, x.toInt ≤ y.toInt)) ∧
    (leadKind l = .isnone →
      qSum rt q w [.list ref] = .ok (w, .ok .null) ∧ qMax q w [.list ref] = .ok (w, .ok .null) ∧
        qMin q w [.list ref] = .ok (w, .ok .null)) := by
  cases hfind : l.find? (·.isNumber) with
  | none =>
    have hnum : ∀ v ∈ l, v.isNumber = false := by simpa using List.find?_eq_none.mp hfind
    have hkind : leadKind l = .isnone := by simp [leadKind, hfind]
    have hE : leadElems l = [] := List.filter_eq_nil_iff.mpr fun v hv => by simp [hnum v hv]
    exact ⟨by rw [hE, qCount_none q stored hnum]; rfl, fun h => NumKind.noConfusion (hkind.symm.trans h),
      fun _ => ⟨qFold_none q _ _ stored hnum, qFold_none q _ _ stored hnum, qFold_none q _ _ stored hnum⟩⟩
  | some x =>
    obtain ⟨hx, pre, rest, hsplit, hpre⟩ := List.find?_eq_some.mp hfind
    have hpre : ∀ v ∈ pre, v.isNumber = false := by simpa using hpre
    have hkind : leadKind l = x.numKind := by simp [leadKind, hfind]
    cases x with
    | int a =>
      have hints : intsOf l = a :: intsOf rest := hsplit ▸ intsOf_lead hpre
      have hE : (leadElems l).length = (intsOf l).length := by
        rw [leadElems, hkind]; exact (length_filter_numKind l).1
      refine ⟨by rw [qCount_int q stored hsplit hpre, hE, hints, List.length_cons, Nat.add_comm], fun _ => ⟨?_, ?_, ?_⟩,
        fun h => NumKind.noConfusion (hkind.symm.trans h)⟩
      · rw [qSum_int rt q stored hsplit hpre, hints, List.sum_cons]
      · obtain ⟨hmem, hbound⟩ := @foldl_select BitVec.toInt (fun iprev icur => if iprev.slt icur then icur else iprev)
          (fun a b => by simp [BitVec.slt]) (intsOf rest) a
        exact ⟨_, hints ▸ hmem, by rw [qMax, qFold_int q _ _ stored hsplit hpre], fun y hy => hbound y (hints ▸ hy)⟩
      · obtain ⟨hmem, hbound⟩ := @foldl_select (fun a => -a.toInt) (fun iprev icur => if icur.slt iprev then icur else iprev)
          (fun a b => by simp only [BitVec.slt, decide_eq_true_eq]; split <;> split <;> first | rfl | omega)
          (intsOf rest) a
        exact ⟨_, hints ▸ hmem, by rw [qMin, qFold_int q _ _ stored hsplit hpre], fun y hy => by
          have := hbound y (hints ▸ hy); omega⟩
    | real r =>
      have hE : (leadElems l).length = (realsOf l).length := by
        rw [leadElems, hkind]; exact (length_filter_numKind l).2
      refine ⟨by rw [qCount_real q stored hsplit hpre, hE, hsplit, realsOf_lead hpre, List.length_cons, Nat.add_comm],
        fun h => NumKind.noConfusion (hkind.symm.trans h), fun h => NumKind.noConfusion (hkind.symm.trans h)⟩
    | _ => cases hx

end

/-- A store holding the list `["a", 3, 1.5, -1, null, 5]`. -/
def mixedStore : Objects :=
  ⟨[[.str "a", .int 3, .real 0x3FF8000000000000, .int (-1), .null, .int 5]], [], []⟩

theorem count_of_mixed_list :
    (QueryHost.ofStore (fun o _ _ => (.error "no callback", o))).objects mixedStore |>.lists[0]? =
        some [.str "a", .int 3, .real 0x3FF8000000000000, .int (-1), .null, .int 5] ∧
      qCount (.ofStore fun o _ _ => (.error "no callback", o)) mixedStore [.list 0] =
        .ok (mixedStore, .ok (.int (BitVec.ofNat 64
          (leadElems [.str "a", .int 3, .real 0x3FF8000000000000, .int (-1), .null, .int 5]).length))) :=
  ⟨rfl, (aggregates_follow_first_number default (.ofStore fun o _ _ => (.error "no callback", o)) rfl).1⟩

example : [qCount (.ofStore fun o _ _ => (.error "no callback", o)) mixedStore [.list 0],
      qSum default (.ofStore fun o _ _ => (.error "no callback", o)) mixedStore [.list 0],
      qMax (.ofStore fun o _ _ => (.error "no callback", o)) mixedStore [.list 0],
      qMin (.ofStore fun o _ _ => (.error "no callback", o)) mixedStore [.list 0]].map (·.map (·.2)) =
    [.ok (.ok (.int 3)), .ok (.ok (.int 7)), .ok (.ok (.int 5)), .ok (.ok (.int (-1)))] := rfl

section

variable {W : Type} (rt : Runtime W) (q : QueryHost W)

theorem avgJoiner_fold (vs : List (BitVec 64)) :
    ∀ (current : BitVec 64) (avg : QAvgInfo), ((vs.foldl (intStep (avgJoiner rt)) (current, avg)).2.count,
      (vs.foldl (intStep (avgJoiner rt)) (current, avg)).2.itt) = (avg.count + vs.length, avg.itt + vs.sum) := by
  induction vs with
  | nil => intro current avg; simp
  | cons v vs ih =>
    intro current avg
    rw [List.foldl_cons, ih]
    simp [intStep, avgJoiner, BitVec.add_assoc]
    omega

/-- `q::avg` of a list whose first number is the int `x` divides the sum of
the ints after `x` by their number: `x` itself is left out of both. -/
theorem qAvg_int {w : W} {ref : Nat} {l pre rest : List Val} {x : BitVec 64}
    (stored : (q.objects w).lists[ref]? = some l) (hsplit : l = pre ++ .int x :: rest)
    (hpre : ∀ v ∈ pre, v.isNumber = false) :
    qAvg rt q w [.list ref] = .ok (w, .ok (.real (rt.fdiv (rt.fofInt (intsOf rest).sum)
      (rt.fofInt (BitVec.ofNat 64 (intsOf rest).length))))) := by
  have keepsInt : ∀ s cur vv, (avgJoiner rt s cur vv 0 0 .isint).1.2.2 = .isint := fun _ _ _ => rfl
  have hfold := avgJoiner_fold rt (intsOf rest) x ⟨0, 0, 0⟩
  have hacc : (⟨[.list], none⟩ : Overload).accepts [.list ref] = true := rfl
  rw [qAvg, checked_of_accepts (by simp [aggSig]) hacc]
  simp only [argAt, Module.pool, List.getElem?_cons_zero, Objects.listOf_list _ stored, hsplit, qagg_int _ hpre keepsInt,
    bind, Except.bind, Except.map]
  simp only [Prod.mk.injEq, Nat.zero_add] at hfold
  rw [hfold.1, hfold.2]
  simp [pure, Except.pure]
end

/-- A store holding the list `[1, 2, 3, 4]`. -/
def quadStore : Objects := ⟨[[.int 1, .int 2, .int 3, .int 4]], [], []⟩

theorem avg_of_one_to_four :
    (QueryHost.ofStore (fun o _ _ => (.error "no callback", o))).objects quadStore = quadStore ∧
      qAvg default (.ofStore fun o _ _ => (.error "no callback", o)) quadStore [.list 0] =
        .ok (quadStore, .ok (.real ((default : Runtime Objects).fdiv ((default : Runtime Objects).fofInt 9)
          ((default : Runtime Objects).fofInt 3)))) :=
  ⟨rfl, @qAvg_int Objects default (.ofStore fun o _ _ => (.error "no callback", o)) quadStore 0
    [.int 1, .int 2, .int 3, .int 4] [] [.int 2, .int 3, .int 4] 1 rfl rfl (by simp)⟩

example : (qSum default (.ofStore fun o _ _ => (.error "no callback", o)) quadStore [.list 0]).map (·.2) =
      .ok (.ok (.int 10)) ∧
    (qCount (.ofStore fun o _ _ => (.error "no callback", o)) quadStore [.list 0]).map (·.2) = .ok (.ok (.int 4)) :=
  ⟨rfl, rfl⟩

end Moons.Pl
