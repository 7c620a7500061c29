import Moons.Pl.Value

/-!
# Evaluator state, stack and frames

The `Evaluator` record of `pl/eval.go`, its stack primitives (`push`, `popN`,
`popTo`, `topN`) and the frame discipline built on them (`prologue`,
`epilogue`, `prevfuncframe`, `popfuncframe`). A Go runtime panic, a failed
`must` included, is an `Except.error` carrying the panic's text.

Frame layout, as the comment in the source draws it: the callee sits at
`framep`, its `farg` arguments above it, then the saved-frame marker at
`framep + farg + 1`, then further locals and the operand stack.
-/

set_option autoImplicit false

namespace Moons.Pl

theorem except_bind_eq_ok {ε α β : Type} {x : Except ε α} {f : α → Except ε β} {b : β} :
    x >>= f = .ok b ↔ ∃ a, x = .ok a ∧ f a = .ok b := by
  cases x <;> simp [bind, Except.bind]

theorem except_pure_eq_ok {ε α : Type} {a b : α} : (pure a : Except ε α) = .ok b ↔ a = b := by
  simp [pure, Except.pure]

theorem except_map_eq_ok {ε α β : Type} {f : α → β} {x : Except ε α} {b : β} :
    f <$> x = .ok b ↔ ∃ a, x = .ok a ∧ f a = b := by
  cases x <;> simp [Functor.map, Except.map]

/-- The frame kinds `ftypeTop` … `ftypeSIter`. -/
inductive FType where
  | top | script | intrinsic | rule | method | sfunc | nfunc | siter
  deriving DecidableEq, Repr, Inhabited

/-- An `exception` record: where to resume and the stack size to cut back to. -/
structure Exception where
  handlerPc : Int
  stackSize : Nat
  deriving DecidableEq, Repr, Inhabited

/-- A `funcframe`. -/
structure FuncFrame where
  ftype : FType
  farg : Nat
  pc : Int
  framep : Nat
  prog : Option Program
  excep : List Exception
  closure : Option Closure
  deriving DecidableEq, Repr, Inhabited

namespace FuncFrame

def isTop (ff : FuncFrame) : Bool := ff.ftype == .top

/-- `isScript`: a frame that runs a program and may catch, a generator's
own frame excepted. -/
def isScript (ff : FuncFrame) : Bool := ff.prog.isSome && ff.ftype != .siter

/-- `sfunc()`: the script closure this frame runs, if any. -/
def sfunc (ff : FuncFrame) : Option Nat :=
  match ff.closure with
  | some (.script ref) => some ref
  | _ => none

/-- `markTop`. -/
def markTop : FuncFrame :=
  { ftype := .top, farg := 0, pc := 0, framep := 0, prog := none, excep := [], closure := none }

/-- `prevframepos`: the slot of the saved-frame marker. -/
def prevframepos (ff : FuncFrame) : Nat := ff.framep + ff.farg + 1

/-- `localslot(arg)`. -/
def localslot (ff : FuncFrame) (arg : Nat) : Nat := ff.framep + 1 + arg

end FuncFrame

/-- A `scriptFunc`: a script closure object. -/
structure ScriptFunc where
  prog : Program
  upvalue : List Val
  deriving DecidableEq, Repr, Inhabited

/-- A `scriptIter` (generator). Its private stack, saved pc and saved frame
are those of `runSIter`/`resumeSIter`. Modelled from the spec: the type's own
methods are not in the sources; `yields` and `returned` record what
`onYield`/`onReturn` receive, and `finished` is set by `onReturn`. -/
structure ScriptIter where
  prog : Program
  upvalue : List Val
  stack : List Val
  pc : Int
  frame : FuncFrame
  yields : List Val
  returned : Option Val
  finished : Bool
  deriving DecidableEq, Repr, Inhabited

namespace ScriptIter

/-- `newScriptIter(fn)`: a generator of `fn` that has not run yet. -/
def new (prog : Program) : ScriptIter :=
  { prog, upvalue := [], stack := [], pc := 0, frame := FuncFrame.markTop,
    yields := [], returned := none, finished := false }

def onYield (siter : ScriptIter) (v : Val) : ScriptIter :=
  { siter with yields := siter.yields ++ [v] }

def onReturn (siter : ScriptIter) (v : Val) : ScriptIter :=
  { siter with returned := some v, finished := true }

end ScriptIter

/-- The `Evaluator`, with the Go heap objects it owns: the `*funcframe`
markers (`frames`), the script closures (`sfuncs`) and the generators
(`siters`). `globals` is the module's `GlobalStore`, and `eventQ` the
in-memory FIFO queue the evaluator is created with. -/
structure Evaluator where
  stack : List Val
  session : List Val
  curframe : FuncFrame
  curexcep : Val
  eventQ : List (String × Val)
  inEventQueue : Bool
  frames : List FuncFrame
  sfuncs : List ScriptFunc
  siters : List ScriptIter
  globals : List Val
  deriving DecidableEq, Repr, Inhabited

namespace Evaluator

variable (e : Evaluator)

/-! ## Stack primitives -/

def push (v : Val) : Evaluator := { e with stack := e.stack ++ [v] }

def popN (cnt : Nat) : Except String Evaluator :=
  if cnt ≤ e.stack.length then .ok { e with stack := e.stack.take (e.stack.length - cnt) }
  else .error "invalid pop size"

def pop : Except String Evaluator := e.popN 1

def popTo (size : Nat) : Except String Evaluator :=
  if size ≤ e.stack.length then .ok { e with stack := e.stack.take size }
  else .error "invalid popTo size"

def topN (where_ : Nat) : Except String Val :=
  if h : where_ + 1 ≤ e.stack.length then .ok (e.stack.get ⟨e.stack.length - where_ - 1, by omega⟩)
  else .error "invalid topN index"

/-- `e.Stack[i]`, a Go slice read. -/
def slot (i : Nat) : Except String Val :=
  match e.stack[i]? with
  | some v => .ok v
  | none => .error "index out of range"

/-- `e.Stack[i] = v`, a Go slice write. -/
def setSlot (i : Nat) (v : Val) : Except String Evaluator :=
  if i < e.stack.length then .ok { e with stack := e.stack.set i v }
  else .error "index out of range"

/-! ### What the stack primitives compute -/

section

variable {e e' : Evaluator} {n i : Nat} {v : Val}

@[simp] theorem push_stack : (e.push v).stack = e.stack ++ [v] := rfl
@[simp] theorem push_curframe : (e.push v).curframe = e.curframe := rfl
@[simp] theorem push_frames : (e.push v).frames = e.frames := rfl
@[simp] theorem push_sfuncs : (e.push v).sfuncs = e.sfuncs := rfl
@[simp] theorem push_siters : (e.push v).siters = e.siters := rfl

theorem popN_eq_ok :
    e.popN n = .ok e' ↔ n ≤ e.stack.length ∧ e' = { e with stack := e.stack.take (e.stack.length - n) } := by
  unfold popN; split <;> simp [*, eq_comm]

theorem pop_eq_ok :
    e.pop = .ok e' ↔ 1 ≤ e.stack.length ∧ e' = { e with stack := e.stack.take (e.stack.length - 1) } :=
  popN_eq_ok

theorem popTo_eq_ok : e.popTo n = .ok e' ↔ n ≤ e.stack.length ∧ e' = { e with stack := e.stack.take n } := by
  unfold popTo; split <;> simp [*, eq_comm]

theorem topN_eq_ok : e.topN n = .ok v ↔ n < e.stack.length ∧ e.stack[e.stack.length - 1 - n]? = some v := by
  unfold topN
  split
  · rename_i h
    simp only [Except.ok.injEq, List.get_eq_getElem, List.getElem?_eq_some_iff]
    exact ⟨fun hv => ⟨by omega, by omega, by subst hv; congr 1; omega⟩,
      fun ⟨_, _, hv⟩ => by subst hv; congr 1; omega⟩
  · simp only [reduceCtorEq, false_iff]; omega

theorem slot_eq_ok : e.slot i = .ok v ↔ e.stack[i]? = some v := by
  unfold slot; cases e.stack[i]? <;> simp

theorem setSlot_eq_ok :
    e.setSlot i v = .ok e' ↔ i < e.stack.length ∧ e' = { e with stack := e.stack.set i v } := by
  unfold setSlot; split <;> simp [*, eq_comm]

end

/-! ## Heap objects -/

/-- `*ff` for a frame pointer. -/
def frameAt (ref : Nat) : Except String FuncFrame :=
  match e.frames[ref]? with
  | some ff => .ok ff
  | none => .error "nil pointer dereference"

/-- `newfuncframe`: allocate a frame and return the marker value for it. -/
def newfuncframe (ff : FuncFrame) : Evaluator × Val :=
  ({ e with frames := e.frames ++ [ff] }, .frame e.frames.length)

/-! ## Frames -/

/-- `prevfuncframe`: the pointer held by the current frame's marker slot. -/
def prevfuncframe : Except String Nat := do
  let v ← e.slot e.curframe.prevframepos
  match v.frameRef? with
  | some ref => pure ref
  | none => throw "unknown stack, corrupted?"

/-- `popfuncframe(prev)`: cut the stack back to the frame pointer and make the
saved frame current. Returns the pc and program to resume with. -/
def popfuncframe (prev : Nat) : Except String (Int × Option Program × Evaluator) := do
  let e' ← e.popTo e.curframe.framep
  let ff ← e.frameAt prev
  pure (ff.pc - 1, ff.prog, { e' with curframe := ff })

/-- `prologue`: push a marker saving the current frame (resuming one past its
pc) and make a fresh frame of `alen` arguments current. -/
def prologue (ftype : FType) (alen : Nat) (prog : Option Program) (closure : Option Closure) :
    Evaluator :=
  let (e', marker) := e.newfuncframe { e.curframe with pc := e.curframe.pc + 1 }
  let e'' := e'.push marker
  { e'' with
    curframe := { ftype, farg := alen, pc := 0, framep := e''.stack.length - 2 - alen, prog,
                  excep := [], closure } }

/-- `epilogue(v, isMethod)`: return from the current frame with result `v`. -/
def epilogue (v : Val) (isMethod : Bool) : Except String (Int × Option Program × Evaluator) := do
  let prev ← e.prevfuncframe
  let (pc, prog, e') ← e.popfuncframe prev
  let e'' ← if isMethod then e'.pop else pure e'
  pure (pc, prog, e''.push v)

/-- `closurePrologue(fn, args)`. -/
def closurePrologue (fn : Closure) (prog : Option Program) (args : List Val) : Evaluator :=
  let ftype : FType :=
    match fn with
    | .script _ => .sfunc
    | .native _ => .nfunc
    | .method _ => .method
  ({ e with stack := e.stack ++ Val.closure fn :: args }).prologue ftype args.length prog (some fn)

/-- `iterPrologue(siter, args)`. -/
def iterPrologue (ref : Nat) (prog : Program) (args : List Val) : Evaluator :=
  ({ e with stack := e.stack ++ Val.iter (.script ref) :: args }).prologue .siter args.length
    (some prog) none

/-! ### What the frame primitives compute -/

section

variable {e : Evaluator} {prev : Nat} {r : Int × Option Program × Evaluator}

theorem popfuncframe_eq_ok :
    e.popfuncframe prev = .ok r ↔ e.curframe.framep ≤ e.stack.length ∧ ∃ ff, e.frames[prev]? = some ff ∧
      r = (ff.pc - 1, ff.prog, { e with stack := e.stack.take e.curframe.framep, curframe := ff }) := by
  unfold popfuncframe popTo frameAt
  split
  · rcases e.frames[prev]? with _ | ff <;> simp [*, bind, Except.bind, pure, Except.pure, eq_comm]
  · simp [*, bind, Except.bind]

theorem epilogue_eq_ok {v : Val} {isMethod : Bool} :
    e.epilogue v isMethod = .ok r ↔ ∃ prev pc prog e₁ e₂, e.prevfuncframe = .ok prev ∧
      e.popfuncframe prev = .ok (pc, prog, e₁) ∧ (if isMethod then e₁.pop else .ok e₁) = .ok e₂ ∧
      (pc, prog, e₂.push v) = r := by
  cases isMethod <;> simp [epilogue, except_bind_eq_ok, except_pure_eq_ok, except_map_eq_ok]

end

/-! ## Exception handlers -/

def pushExcep (pc : Int) (stackSize : Nat) : Evaluator :=
  { e with curframe := { e.curframe with excep := e.curframe.excep ++ [⟨pc, stackSize⟩] } }

/-- `popExcep`; slicing an empty list panics. -/
def popExcep : Except String Evaluator :=
  if e.curframe.excep = [] then .error "slice bounds out of range"
  else .ok { e with curframe := { e.curframe with excep := e.curframe.excep.dropLast } }

/-- `curExcep`: the most recently pushed handler of the current frame. -/
def curExcep : Option Exception := e.curframe.excep.getLast?

section

variable {e e' : Evaluator} {n : Nat} {pc : Int}

@[simp] theorem pushExcep_stack : (e.pushExcep pc n).stack = e.stack := rfl
@[simp] theorem pushExcep_frames : (e.pushExcep pc n).frames = e.frames := rfl
@[simp] theorem pushExcep_curframe :
    (e.pushExcep pc n).curframe = { e.curframe with excep := e.curframe.excep ++ [⟨pc, n⟩] } := rfl

theorem popExcep_eq_ok :
    e.popExcep = .ok e' ↔ e.curframe.excep ≠ [] ∧
      e' = { e with curframe := { e.curframe with excep := e.curframe.excep.dropLast } } := by
  unfold popExcep; split <;> simp [*, eq_comm]

end

end Evaluator

end Moons.Pl
