import Moons.Pl.Evaluator

/-!
# The host

Everything `runP` calls that is not in `pl/eval.go`: the value system's
methods, the intrinsic table, native and method entries, `EvalContext`,
`EvalConfig`, templates, host iterators and the floating-point unit. Their
code is not in the sources, so the evaluator is modelled over every
`Runtime`: each theorem holds whatever these collaborators do.

Host code may call back into the evaluator. A `HostCall` is such code seen
from the evaluator: the re-entries it makes (`runSFunc`, `runNFunc`, or a
generator's `SetUp`/`Next`), each continued by what the code does with the
answer, and finally the answer it gives. The host's own state is the world
`W`, threaded through.
-/

set_option autoImplicit false

namespace Moons.Pl

/-- What host code answers to the instruction that called it. -/
inductive Reply where
  | unit
  | val (v : Val)
  | str (s : String)
  | bool (b : Bool)
  | kv (key value : Val)
  deriving DecidableEq, Repr, Inhabited

/-- Host code, as the calls it makes back into the evaluator. -/
inductive HostCall (W : Type) where
  /-- The code returns, leaving the world `world`. -/
  | done (world : W) (answer : Except String Reply)
  /-- `e.runSFunc(sfunc, args)`. -/
  | runSFunc (world : W) (sfunc : Nat) (args : List Val) (next : Except String Val → W → HostCall W)
  /-- `e.runNFunc(nfunc, args)`. -/
  | runNFunc (world : W) (nfunc : Nat) (args : List Val) (next : Except String Val → W → HostCall W)
  /-- `SetUp(e, args)` on a generator. -/
  | iterSetUp (world : W) (siter : Nat) (args : List Val) (next : Except String Unit → W → HostCall W)
  /-- `Next()` on a generator. -/
  | iterNext (world : W) (siter : Nat) (next : Except String Bool → W → HostCall W)

namespace HostCall

variable {W : Type}

/-- The world host code starts from. -/
def world : HostCall W → W
  | .done w _ | .runSFunc w .. | .runNFunc w .. | .iterSetUp w .. | .iterNext w .. => w

/-- Host code that fails at once. -/
instance [Inhabited W] : Inhabited (HostCall W) := ⟨.done default (.error "")⟩

end HostCall

/-- The collaborators of the evaluator, over a host world `W`. -/
structure Runtime (W : Type) where
  /-- `Val.ToBoolean`. -/
  toBoolean : W → Val → Bool
  /-- `Val.Id`, the kind name used in error texts. -/
  typeId : Val → String
  /-- `Val.ToString`. -/
  toString : W → Val → Except String String
  index : W → Val → Val → HostCall W
  indexSet : W → Val → Val → Val → HostCall W
  dot : W → Val → String → HostCall W
  dotSet : W → Val → String → Val → HostCall W
  methodClosure : W → Val → String → HostCall W
  newIterator : W → Val → HostCall W
  /-- `NewValList`, `NewValMap` and `NewValPair` allocate host objects. -/
  newList : W → W × Val
  newMap : W → W × Val
  newPair : W → Val → Val → W × Val
  /-- `AddList` and `AddMap` append to a container in place. -/
  addList : W → Val → Val → W
  addMap : W → Val → String → Val → W
  /-- A compiled regular expression matched against a string. -/
  regexpMatch : Nat → String → Bool
  /-- The process-wide intrinsic table `intrinsicFunc`. -/
  intrinsicCount : Nat
  intrinsic : Nat → W → List Val → HostCall W
  /-- `getIntrinsicByName(name)` followed by `toVal`. -/
  intrinsicByName : String → Option Val
  native : Nat → W → List Val → HostCall W
  method : Nat → W → List Val → HostCall W
  /-- `EvalContext`. -/
  action : W → String → Val → HostCall W
  loadVar : W → String → HostCall W
  storeVar : W → String → Val → HostCall W
  /-- `EvalConfig`, when the evaluator has one. -/
  hasConfig : Bool
  pushConfig : W → String → Val → HostCall W
  popConfig : W → HostCall W
  configProperty : W → String → Val → Val → HostCall W
  configCommand : W → String → List Val → Val → HostCall W
  /-- `Evaluator.Event`, the host's `EventContext`, when set: its
  `OnEventError(name, err)` answer. -/
  onEventError : Option (W → String → String → Int)
  /-- `Template.Execute`. -/
  template : W → Nat → Val → HostCall W
  /-- The `Iter` methods of host iterators. -/
  iterSetUp : W → Nat → List Val → HostCall W
  iterHas : W → Nat → Bool
  iterNext : W → Nat → HostCall W
  iterDeref : W → Nat → HostCall W
  /-- IEEE binary64 arithmetic, with conversion from `int64`. -/
  fadd : Float64 → Float64 → Float64
  fsub : Float64 → Float64 → Float64
  fmul : Float64 → Float64 → Float64
  fdiv : Float64 → Float64 → Float64
  fpow : Float64 → Float64 → Float64
  fofInt : BitVec 64 → Float64
  deriving Inhabited

end Moons.Pl
