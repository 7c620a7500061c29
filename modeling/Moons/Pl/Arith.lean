import Moons.Pl.Host

/-!
# Binary and unary operators

`doBin`, `doNegate`, `powI` and `mustReal` of `pl/eval.go`. Ints are Go
`int64`, so arithmetic wraps (`BitVec 64`); `/` and `%` truncate towards
zero (`sdiv`, `srem`). Float comparisons follow IEEE 754 on the bit pattern;
float arithmetic is the runtime's.
-/

set_option autoImplicit false

namespace Moons.Pl

namespace Float64

def isNaN (x : Float64) : Bool :=
  (x >>> 52) &&& 0x7FF == 0x7FF && x &&& 0xFFFFFFFFFFFFF != 0

/-- The order key of a non-NaN float: its signed magnitude, both zeros at 0. -/
def key (x : Float64) : Int :=
  let magnitude : Int := (x &&& 0x7FFFFFFFFFFFFFFF).toNat
  if x.getLsbD 63 then -magnitude else magnitude

/-- IEEE `==`: false on NaN, and `+0 == -0`. -/
def eq (x y : Float64) : Bool := !x.isNaN && !y.isNaN && x.key == y.key

def lt (x y : Float64) : Bool := !x.isNaN && !y.isNaN && decide (x.key < y.key)

def le (x y : Float64) : Bool := !x.isNaN && !y.isNaN && decide (x.key ≤ y.key)

/-- IEEE negation flips the sign bit. -/
def neg (x : Float64) : Float64 := x ^^^ 0x8000000000000000

end Float64

/-- Go's `<` on byte strings: lexicographic on bytes. -/
def bytesLt : List UInt8 → List UInt8 → Bool
  | [], [] => false
  | [], _ :: _ => true
  | _ :: _, [] => false
  | x :: xs, y :: ys => Nat.blt x.toNat y.toNat || (Nat.beq x.toNat y.toNat && bytesLt xs ys)

/-- Go's `<` on strings, over their UTF-8 bytes. -/
def strLt (a b : String) : Bool := bytesLt a.toUTF8.toList b.toUTF8.toList

/-- The loop `for i = 2; i <= m; i++ { result *= n }` of `powI`, from the
counter `i` and the running `result`, run for at most `fuel` rounds: `none`
when it has not ended. The counter is an `int64`, so `i++` wraps. -/
def powILoop (n m : BitVec 64) : Nat → BitVec 64 → BitVec 64 → Option (BitVec 64)
  | 0, i, result => if i.sle m then none else some result
  | fuel + 1, i, result => if i.sle m then powILoop n m fuel (i + 1) (result * n) else some result

/-- `powI(n, m)` with `fuel` rounds of its loop. -/
def powIFuel (fuel : Nat) (n m : BitVec 64) : Option (BitVec 64) :=
  if m = 0 then some 1 else powILoop n m fuel 2 n

/-- `powI(n, m)`: its loop run for `m` rounds, as many as it takes whenever
it ends; `none` when it never ends. -/
def powI (n m : BitVec 64) : Option (BitVec 64) := powIFuel m.toNat n m

section

variable {W : Type} (rt : Runtime W)

/-- `mustReal`. -/
def mustReal : Val → Float64
  | .int v => rt.fofInt v
  | .real v => v
  | _ => 0

/-- The shape shared by `-`, `*` and `**`: int with int, real with real, or
mixed numbers promoted to real. -/
def numericBin (iop : BitVec 64 → BitVec 64 → Val) (rop : Float64 → Float64 → Float64)
    (msg : String) : Val → Val → Except String Val
  | .int a, .int b => .ok (iop a b)
  | .real a, .real b => .ok (.real (rop a b))
  | lhs, rhs =>
    if lhs.isNumber && rhs.isNumber then .ok (.real (rop (mustReal rt lhs) (mustReal rt rhs)))
    else .error msg

/-- The shape shared by the comparisons: int, real and string compared
within their kind, mixed numbers as reals. -/
def compareBin (iop : BitVec 64 → BitVec 64 → Bool) (rop : Float64 → Float64 → Bool)
    (sop : String → String → Bool) (msg : String) : Val → Val → Except String Val
  | .int a, .int b => .ok (.bool (iop a b))
  | .real a, .real b => .ok (.bool (rop a b))
  | .str a, .str b => .ok (.bool (sop a b))
  | lhs, rhs =>
    if lhs.isNumber && rhs.isNumber then .ok (.bool (rop (mustReal rt lhs) (mustReal rt rhs)))
    else .error msg

/-- `doBin(lhs, rhs, op)` with the world `w` that `ToString` reads: `none`
when it never returns, which `**` on two ints does when `powI`'s loop never
ends. The outer error is the `unreachable` panic of the default arm; the
inner one is the operator's error. -/
def doBin (w : W) (lhs rhs : Val) : Opcode → Option (Except String (Except String Val))
  | .sub => some (.ok (numericBin rt (fun a b => .int (a - b)) rt.fsub "invalid operand for -" lhs rhs))
  | .mul => some (.ok (numericBin rt (fun a b => .int (a * b)) rt.fmul "invalid operand for *" lhs rhs))
  | .pow =>
    match lhs, rhs with
    | .int a, .int b => (powI a b).map fun r => .ok (.ok (.int r))
    | _, _ => some (.ok (numericBin rt (fun _ _ => .null) rt.fpow "invalid operand for *" lhs rhs))
  | .mod => some <| .ok <|
    match lhs, rhs with
    | .int a, .int b => if b = 0 then .error "divide zero" else .ok (.int (a.srem b))
    | _, _ => .error "invalid operand for *"
  | .div => some <| .ok <|
    match lhs, rhs with
    | .int a, .int b => if b = 0 then .error "divide zero" else .ok (.int (a.sdiv b))
    | _, _ => numericBin rt (fun _ _ => .null) rt.fdiv "invalid operand for *" lhs rhs
  | .add => some <| .ok <|
    match lhs, rhs with
    | .int a, .int b => .ok (.int (a + b))
    | .real a, .real b => .ok (.real (rt.fadd a b))
    | .str a, .str b => .ok (.str (a ++ b))
    | lhs, rhs =>
      if lhs.isNumber && rhs.isNumber then .ok (.real (rt.fadd (mustReal rt lhs) (mustReal rt rhs)))
      else if lhs.isString || rhs.isString then
        match rt.toString w lhs, rt.toString w rhs with
        | .ok a, .ok b => .ok (.str (a ++ b))
        | _, _ => .error "invalid operator for +"
      else .error "invalid operator for +"
  | .eq => some <| .ok (compareBin rt (· == ·) Float64.eq (· == ·) "invalid operand for ==" lhs rhs)
  | .ne => some <| .ok (compareBin rt (· != ·) (fun a b => !Float64.eq a b) (· != ·)
      "invalid operand for !=" lhs rhs)
  | .lt => some <| .ok (compareBin rt BitVec.slt Float64.lt strLt
      "invalid operand for <" lhs rhs)
  | .le => some <| .ok (compareBin rt BitVec.sle Float64.le (fun a b => !strLt b a)
      "invalid operand for <=" lhs rhs)
  | .gt => some <| .ok (compareBin rt (fun a b => b.slt a) (fun a b => Float64.lt b a)
      (fun a b => strLt b a) "invalid operand for >" lhs rhs)
  | .ge => some <| .ok (compareBin rt (fun a b => b.sle a) (fun a b => Float64.le b a)
      (fun a b => !strLt a b) "invalid operand for >=" lhs rhs)
  | .regexpMatch => some <| .ok <|
    match lhs, rhs with
    | .str s, .regexp r => .ok (.bool (rt.regexpMatch r s))
    | _, _ => .error "regexp operator ~ must be applied on string and regexp"
  | .regexpNMatch => some <| .ok <|
    match lhs, rhs with
    | .str s, .regexp r => .ok (.bool (!rt.regexpMatch r s))
    | _, _ => .error "regexp operator !~ must be applied on string and regexp"
  | _ => some (.error "unreachable: binary operator")

/-! ### Equality -/

section Equality

variable {w : W} {a b : Val}

theorem compareBin_rejects {iop : BitVec 64 → BitVec 64 → Bool} {rop : Float64 → Float64 → Bool}
    {sop : String → String → Bool} {msg : String} (hnum : ¬(a.isNumber ∧ b.isNumber))
    (hstr : ¬(a.isString ∧ b.isString)) : compareBin rt iop rop sop msg a b = .error msg := by
  unfold compareBin
  split <;> simp_all [Val.isNumber, Val.isString]

/-- `==` and `!=` fail on every pair of values that are not two numbers or two
strings: two nulls, two bools, and values of different kinds alike. -/
theorem doBin_eq_rejects (hnum : ¬(a.isNumber ∧ b.isNumber)) (hstr : ¬(a.isString ∧ b.isString)) :
    doBin rt w a b .eq = some (.ok (.error "invalid operand for ==")) ∧
      doBin rt w a b .ne = some (.ok (.error "invalid operand for !=")) :=
  ⟨by rw [doBin, compareBin_rejects rt hnum hstr], by rw [doBin, compareBin_rejects rt hnum hstr]⟩

theorem null_eq_null_fails :
    ¬(Val.null.isNumber ∧ Val.null.isNumber) ∧ ¬(Val.null.isString ∧ Val.null.isString) ∧
      doBin default () .null .null .eq = some (.ok (.error "invalid operand for ==")) :=
  ⟨by decide, by decide, (doBin_eq_rejects default (by decide) (by decide)).1⟩

private theorem beq_symm {α : Type} [DecidableEq α] (x y : α) : (x == y) = (y == x) :=
  show decide (x = y) = decide (y = x) from decide_eq_decide.mpr ⟨Eq.symm, Eq.symm⟩

theorem Float64.eq_comm (x y : Float64) : Float64.eq x y = Float64.eq y x := by
  unfold Float64.eq
  rw [beq_symm x.key]
  cases x.isNaN <;> cases y.isNaN <;> rfl

theorem compareBin_comm {iop : BitVec 64 → BitVec 64 → Bool} {rop : Float64 → Float64 → Bool}
    {sop : String → String → Bool} {msg : String} (intComm : ∀ x y, iop x y = iop y x) (realComm : ∀ x y, rop x y = rop y x)
    (strComm : ∀ x y, sop x y = sop y x) : compareBin rt iop rop sop msg a b = compareBin rt iop rop sop msg b a := by
  unfold compareBin
  split
  · rw [intComm]
  · rw [realComm]
  · rw [strComm]
  · rename_i hint hreal hstr
    symm
    split
    · exact (hint _ _ rfl rfl).elim
    · exact (hreal _ _ rfl rfl).elim
    · exact (hstr _ _ rfl rfl).elim
    · rw [Bool.and_comm]
      split
      · rw [realComm]
      · rfl

/-- `==` is symmetric. -/
theorem doBin_eq_symm : doBin rt w a b .eq = doBin rt w b a .eq := by
  rw [doBin, doBin, compareBin_comm rt beq_symm Float64.eq_comm beq_symm]

end Equality

/-- `doNegate`. -/
def doNegate : Val → Except String Val
  | .int v => .ok (.int (-v))
  | .real v => .ok (.real v.neg)
  | _ => .error "invalid operand for !"

end

end Moons.Pl
