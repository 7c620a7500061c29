/-!
# Values and compiled programs

The tagged values the evaluator moves around (`pl/eval.go` and the value
system it imports) and the immutable bytecode units it runs. Containers,
regular expressions, closures, iterators and frame markers are Go pointers:
a value holds a reference, and the object behind it lives in a heap of the
evaluator (closures, iterators, frame markers) or of the host (everything
else). A `float64` is kept as its IEEE bit pattern.
-/

set_option autoImplicit false

namespace Moons.Pl

/-- The bit pattern of a Go `float64`. -/
abbrev Float64 := BitVec 64

/-- A Go `Closure` interface value: the three closure kinds, each a pointer. -/
inductive Closure where
  /-- A `*scriptFunc`: program plus captured upvalues, in the evaluator's heap. -/
  | script (ref : Nat)
  /-- A `*nativeFunc` created by the embedder. -/
  | native (ref : Nat)
  /-- A `*methodFunc`, a method bound to its receiver. -/
  | method (ref : Nat)
  deriving DecidableEq, Repr, Inhabited

/-- A Go `Iter` interface value. -/
inductive IterRef where
  /-- A `*scriptIter` (generator), in the evaluator's heap. -/
  | script (ref : Nat)
  /-- Any other iterator (list, map, pair or user iterator), owned by the host. -/
  | host (ref : Nat)
  deriving DecidableEq, Repr, Inhabited

/-- A `Val`. The kind uniquely determines the payload. -/
inductive Val where
  | null
  | int (value : BitVec 64)
  | real (value : Float64)
  | bool (value : Bool)
  | str (value : String)
  | regexp (ref : Nat)
  | pair (ref : Nat)
  | list (ref : Nat)
  | map (ref : Nat)
  | iter (it : IterRef)
  | closure (c : Closure)
  | usr (ref : Nat)
  /-- `newValFrame(ff)`: a saved `*funcframe`, in the evaluator's frame heap. -/
  | frame (ref : Nat)
  deriving DecidableEq, Repr, Inhabited

namespace Val

def isNumber : Val → Bool
  | .int _ | .real _ => true
  | _ => false

def isClosure : Val → Bool
  | .closure _ => true
  | _ => false

def isIter : Val → Bool
  | .iter _ => true
  | _ => false

def isString : Val → Bool
  | .str _ => true
  | _ => false

/-- The kinds a `GlobalStore` accepts: null, bool, int, real and string. -/
def isImmutable : Val → Bool
  | .null | .bool _ | .int _ | .real _ | .str _ => true
  | _ => false

/-- `v.frame().(*funcframe)`: the frame pointer a marker value holds. -/
def frameRef? : Val → Option Nat
  | .frame ref => some ref
  | _ => none

@[simp] theorem frameRef?_frame (ref : Nat) : (Val.frame ref).frameRef? = some ref := rfl

end Val

/-! ## Bytecode -/

/-- The opcodes `runP` dispatches on. -/
inductive Opcode where
  | action
  | add | sub | mul | div | mod | pow
  | lt | le | gt | ge | eq | ne
  | regexpMatch | regexpNMatch
  | not | negate
  | or | and
  | swap | pop | dup1 | dup2
  | jfalse | jtrue | ternary | jump | filter
  | loadInt | loadReal | loadStr | loadRegexp | loadTrue | loadFalse | loadNull
  | newList | addList | newMap | addMap | newPair
  | iCall | loadMethod | sCall | vCall | «return»
  | newClosure | loadUpvalue | storeUpvalue
  | toStr | conStr
  | loadVar | storeVar | loadDollar
  | index | indexSet | dot | dotSet
  | reserveLocal | storeLocal | loadLocal
  | template
  | setSession | loadSession | storeSession
  | pushException | popException | loadException
  | configPush | configPushWithAttr | configPop
  | configPropertySet | configPropertySetWithAttr
  | configCommand | configCommandWithAttr
  | setGlobal | loadGlobal | storeGlobal
  | newIterator | loadIterator | setUpIterator | hasIterator | derefIterator | nextIterator
  | halt | nextRule | yield
  | emit
  deriving DecidableEq, Repr, Inhabited

/-- One `bytecode`: opcode and its integer argument (a count, an index or a
jump target; the compiler never emits a negative one). -/
structure Instr where
  opcode : Opcode
  argument : Nat
  deriving DecidableEq, Repr, Inhabited

/-- An upvalue descriptor `(onStack, index)`. -/
structure UpvalueDesc where
  onStack : Bool
  index : Nat
  deriving DecidableEq, Repr, Inhabited

inductive ProgType where
  | rule | func | iter | config | session | global
  deriving DecidableEq, Repr, Inhabited

/-- A compiled `program`. `dbgList` holds each instruction's rendered source
location, aligned with `bcList`. -/
structure Program where
  name : String
  progtype : ProgType
  argSize : Nat
  localSize : Nat
  bcList : List Instr
  dbgList : List String
  upvalue : List UpvalueDesc
  deriving DecidableEq, Repr, Inhabited

namespace Program

/-- Modelled from the spec: `freeCall` (its body is not in the sources) holds
of the programs `sCall` may enter by function-table index, the functions. -/
def freeCall (prog : Program) : Bool :=
  prog.progtype == .func

end Program

/-- The immutable part of a `Module`: function table, constant pools and the
categorised entry points. -/
structure Module where
  fn : List Program
  ints : List (BitVec 64)
  reals : List Float64
  strs : List String
  regexps : List Nat
  templates : List Nat
  events : List (String × List Program)
  config : Option Program
  session : List Program
  globalProgram : List Program
  deriving Repr, Inhabited

namespace Module

/-- `findEvent`: the rule list registered under an event name, if any. -/
def findEvent (m : Module) (name : String) : Option (List Program) :=
  (m.events.find? (·.1 == name)).map (·.2)

end Module

end Moons.Pl
