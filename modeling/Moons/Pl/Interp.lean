import Moons.Pl.Arith

/-!
# One iteration of `runP`

`execInstr` is the body of `runP`'s `for ; ; pc++` loop for one fetched
instruction. It either continues the loop (`Step.next`, with the pc of the
next fetch: the loop's `pc++` applied, or `0` after `goto FUNC`), returns a
`runresult` (`Step.ret`), or calls host code and waits for its reply
(`Step.host`); `resume` then finishes the instruction from the reply. Go
panics (failed `must`, out-of-range index, nil dereference) are errors of
the outer `Except`.
-/

set_option autoImplicit false

namespace Moons.Pl

inductive RState where
  | interrupt | done | yield | nextRule
  deriving DecidableEq, Repr, Inhabited

/-- A `runresult`. -/
structure RunResult where
  prog : Option Program
  pc : Int
  e : Option String
  rstate : RState
  deriving DecidableEq, Repr, Inhabited

def rrErr (p : Option Program) (pc : Int) (e : String) : RunResult := ⟨p, pc, some e, .interrupt⟩
def rrNextRule (pc : Int) : RunResult := ⟨none, pc, none, .nextRule⟩
def rrDone (pc : Int) : RunResult := ⟨none, pc, none, .done⟩
def rrYield (pc : Int) : RunResult := ⟨none, pc, none, .yield⟩

/-- An instruction of `runP` waiting for host code, with the loop's `prog`
and `pc` at the call. A native or method call has set `prog` to nil. -/
inductive Pending where
  | action (prog : Program) (pc : Int)
  | loadVar (prog : Program) (pc : Int)
  | storeVar (prog : Program) (pc : Int)
  | iCall (prog : Program) (pc : Int)
  | nativeCall (pc : Int)
  | loadMethod (prog : Program) (pc : Int)
  | index (prog : Program) (pc : Int)
  | indexSet (prog : Program) (pc : Int)
  | dot (prog : Program) (pc : Int)
  | dotSet (prog : Program) (pc : Int)
  | template (prog : Program) (pc : Int)
  | config (prog : Program) (pc : Int)
  | configCommand (prog : Program) (pc : Int) (popSize : Nat)
  | newIterator (prog : Program) (pc : Int)
  | setUpIterator (prog : Program) (pc : Int) (argc : Nat)
  | nextIterator (prog : Program) (pc : Int)
  | derefIterator (prog : Program) (pc : Int)
  deriving DecidableEq, Repr

/-- What one iteration of `runP` does. -/
inductive Step (W : Type) where
  /-- Keep looping: fetch `prog.bcList[pc]` next. -/
  | next (e : Evaluator) (w : W) (prog : Option Program) (pc : Int)
  /-- `runP` returns. -/
  | ret (e : Evaluator) (w : W) (rr : RunResult)
  /-- The instruction runs host code and waits for its reply. -/
  | host (e : Evaluator) (h : HostCall W) (k : Pending)
  /-- The instruction never ends: Go loops inside it, and `runP` stays at
  `pc` of `prog` with `e`. -/
  | spin (e : Evaluator) (w : W) (prog : Option Program) (pc : Int)

namespace Module

variable (md : Module)

/-- A constant-pool read `prog.idxInt(i)` and friends; out of range panics. -/
def pool {α : Type} (xs : List α) (i : Nat) : Except String α :=
  match xs[i]? with
  | some x => .ok x
  | none => .error "index out of range"

/-- `module.fn[i]`. -/
def fnAt (i : Nat) : Except String Program := pool md.fn i

theorem pool_eq_ok {α : Type} {xs : List α} {i : Nat} {x : α} : pool xs i = .ok x ↔ xs[i]? = some x := by
  unfold pool; cases xs[i]? <;> simp

end Module

namespace Evaluator

variable (e : Evaluator)

/-- `module.global.add(v)`. Modelled from the spec: appends iff `v` is of an
immutable kind. -/
def globalAdd (v : Val) : Option Evaluator :=
  if v.isImmutable then some { e with globals := e.globals ++ [v] } else none

/-- `module.GetGlobal(i)`. Modelled from the spec. -/
def getGlobal (i : Nat) : Option Val := e.globals[i]?

/-- `module.StoreGlobal(i, v)`. Modelled from the spec: updates iff the index
exists and `v` is of an immutable kind. -/
def storeGlobal (i : Nat) (v : Val) : Option Evaluator :=
  if i < e.globals.length ∧ v.isImmutable then some { e with globals := e.globals.set i v }
  else none

/-- `emitEvent`: the evaluator's in-memory queue appends the event. -/
def emitEvent (name : String) (context : Val) : Evaluator :=
  { e with eventQ := e.eventQ ++ [(name, context)] }

section

variable {e e' : Evaluator} {i : Nat} {v : Val} {name : String}

theorem globalAdd_eq_some : e.globalAdd v = some e' ↔ v.isImmutable ∧ e' = { e with globals := e.globals ++ [v] } := by
  unfold globalAdd; split <;> simp [*, eq_comm]

theorem storeGlobal_eq_some :
    e.storeGlobal i v = some e' ↔ (i < e.globals.length ∧ v.isImmutable) ∧
      e' = { e with globals := e.globals.set i v } := by
  unfold storeGlobal
  split
  · simp [*, eq_comm]
  · simp only [reduceCtorEq, false_iff]; exact fun h => absurd h.1 ‹_›

@[simp] theorem emitEvent_stack : (e.emitEvent name v).stack = e.stack := rfl

end

/-- `curevent()`: the rule's event, its local 0. -/
def curevent : Except String Val :=
  match e.curframe.prog with
  | none => .error "nil pointer dereference"
  | some p => if p.progtype == .rule then e.slot (e.curframe.framep + 1) else .error "must be rule"

/-- The upvalue vector `bcNewClosure`/`bcLoadIterator` capture for `fn` in
the current frame. -/
def captureUpvalues (fn : Program) : Except String (List Val) :=
  fn.upvalue.mapM fun uv =>
    if uv.onStack then e.slot (e.curframe.localslot uv.index)
    else
      match e.curframe.sfunc with
      | none => .error "upvalue capture function not existed?"
      | some ref =>
        match e.sfuncs[ref]? with
        | none => .error "nil pointer dereference"
        | some sf => Module.pool sf.upvalue uv.index

/-- `mustSFunc()`. -/
def mustSFunc : Except String (Nat × ScriptFunc) :=
  match e.curframe.sfunc with
  | none => .error "must existed(sfunc)"
  | some ref =>
    match e.sfuncs[ref]? with
    | none => .error "nil pointer dereference"
    | some sf => .ok (ref, sf)

/-- The top `n` slots, `e.Stack[len(e.Stack)-n:]`. -/
def topSlice (n : Nat) : Except String (List Val) :=
  if n ≤ e.stack.length then .ok (e.stack.drop (e.stack.length - n))
  else .error "slice bounds out of range"

end Evaluator

section

variable {W : Type} (rt : Runtime W) (md : Module)

/-- Modelled from the spec: `Has()` of a generator is false once it has
returned. -/
def siterHas (e : Evaluator) (ref : Nat) : Bool :=
  match e.siters[ref]? with
  | some si => !si.finished
  | none => false

/-- Modelled from the spec: `Deref()` of a generator gives the ordinal index
of the last yield and the value yielded. -/
def siterDeref (e : Evaluator) (ref : Nat) : Except String Reply :=
  match e.siters[ref]? with
  | some si =>
    match si.yields.getLast? with
    | some v => .ok (.kv (.int (BitVec.ofNat 64 (si.yields.length - 1))) v)
    | none => .error "iterator has no value"
  | none => .error "nil pointer dereference"

/-- `Iter().Has()`. -/
def iterHas (e : Evaluator) (w : W) : IterRef → Bool
  | .script ref => siterHas e ref
  | .host ref => rt.iterHas w ref

/-- `Iter().SetUp(e, args)`: a generator's goes through `runSIter`. -/
def iterSetUpCall (w : W) (args : List Val) : IterRef → HostCall W
  | .script ref => .iterSetUp w ref args fun r w => .done w (r.map fun _ => .unit)
  | .host ref => rt.iterSetUp w ref args

/-- `Iter().Next()`: a generator's goes through `resumeSIter`. -/
def iterNextCall (w : W) : IterRef → HostCall W
  | .script ref => .iterNext w ref fun r w => .done w (r.map .bool)
  | .host ref => rt.iterNext w ref

/-- `Iter().Deref()`. -/
def iterDerefCall (e : Evaluator) (w : W) : IterRef → HostCall W
  | .script ref => .done w (siterDeref e ref)
  | .host ref => rt.iterDeref w ref

/-- A conditional jump of `runP`: fetch `target` when `taken`, else go on. -/
def jumpTo (taken : Bool) (target pc : Int) : Int := if taken then target else pc + 1

/-- The body of `runP`'s loop for the instruction `bc` fetched at `pc` of
`prog`. -/
def execInstr (e : Evaluator) (w : W) (prog : Program) (pc : Int) (bc : Instr) :
    Except String (Step W) := do
  let arg := bc.argument
  match bc.opcode with
  | .action =>
    let actName ← Module.pool md.strs arg
    let val ← e.topN 0
    pure (.host e (rt.action w actName val) (.action prog pc))
  | .add | .sub | .mul | .div | .mod | .pow | .lt | .le | .gt | .ge | .eq | .ne
  | .regexpMatch | .regexpNMatch =>
    let lhs ← e.topN 1
    let rhs ← e.topN 0
    let popped ← e.popN 2
    match doBin rt w lhs rhs bc.opcode with
    | none => pure (.spin e w prog pc)
    | some r =>
      match ← r with
      | .error err => pure (.ret popped w (rrErr prog pc err))
      | .ok v => pure (.next (popped.push v) w prog (pc + 1))
  | .not =>
    let t ← e.topN 0
    let e ← e.pop
    pure (.next (e.push (.bool !(rt.toBoolean w t))) w prog (pc + 1))
  | .negate =>
    let t ← e.topN 0
    let e ← e.pop
    match doNegate t with
    | .error err => pure (.ret e w (rrErr prog pc err))
    | .ok v => pure (.next (e.push v) w prog (pc + 1))
  | .or =>
    let cond ← e.topN 0
    if rt.toBoolean w cond then pure (.next e w prog arg)
    else pure (.next (← e.pop) w prog (pc + 1))
  | .and =>
    let cond ← e.topN 0
    if !rt.toBoolean w cond then pure (.next e w prog arg)
    else pure (.next (← e.pop) w prog (pc + 1))
  | .swap =>
    let sz := e.stack.length
    if 2 ≤ sz then
      let t0 ← e.slot (sz - 1)
      let t1 ← e.slot (sz - 2)
      pure (.next { e with stack := (e.stack.set (sz - 1) t1).set (sz - 2) t0 } w prog (pc + 1))
    else throw "index out of range"
  | .pop => pure (.next (← e.pop) w prog (pc + 1))
  | .dup1 =>
    let tos ← e.topN 0
    pure (.next (e.push tos) w prog (pc + 1))
  | .dup2 =>
    let to1 ← e.topN 1
    let to0 ← e.topN 0
    pure (.next ((e.push to1).push to0) w prog (pc + 1))
  | .jfalse =>
    let cond ← e.topN 0
    pure (.next (← e.pop) w prog (jumpTo (!rt.toBoolean w cond) arg pc))
  | .jtrue =>
    let cond ← e.topN 0
    pure (.next (← e.pop) w prog (jumpTo (rt.toBoolean w cond) arg pc))
  | .ternary =>
    let cond ← e.topN 0
    let e ← e.pop
    if rt.toBoolean w cond then pure (.next e w prog arg)
    else pure (.next (← e.pop) w prog (pc + 1))
  | .jump => pure (.next e w prog arg)
  | .filter =>
    let cond ← e.topN 0
    pure (.next (← e.pop) w prog (jumpTo (!rt.toBoolean w cond) arg pc))
  | .loadInt => pure (.next (e.push (.int (← Module.pool md.ints arg))) w prog (pc + 1))
  | .loadReal => pure (.next (e.push (.real (← Module.pool md.reals arg))) w prog (pc + 1))
  | .loadStr => pure (.next (e.push (.str (← Module.pool md.strs arg))) w prog (pc + 1))
  | .loadRegexp => pure (.next (e.push (.regexp (← Module.pool md.regexps arg))) w prog (pc + 1))
  | .loadTrue => pure (.next (e.push (.bool true)) w prog (pc + 1))
  | .loadFalse => pure (.next (e.push (.bool false)) w prog (pc + 1))
  | .loadNull => pure (.next (e.push .null) w prog (pc + 1))
  | .newList =>
    let (w, l) := rt.newList w
    pure (.next (e.push l) w prog (pc + 1))
  | .addList =>
    let l ← e.topN arg
    match l with
    | .list _ =>
      let items ← e.topSlice arg
      let w := items.foldl (fun w v => rt.addList w l v) w
      pure (.next (← e.popN arg) w prog (pc + 1))
    | _ => throw "must be list"
  | .newMap =>
    let (w, m) := rt.newMap w
    pure (.next (e.push m) w prog (pc + 1))
  | .addMap =>
    let m ← e.topN (arg * 2)
    match m with
    | .map _ =>
      let items ← e.topSlice (arg * 2)
      let w ← addPairs m items w
      pure (.next (← e.popN (arg * 2)) w prog (pc + 1))
    | _ => throw "must be map"
  | .newPair =>
    let t0 ← e.topN 1
    let t1 ← e.topN 0
    let e ← e.popN 2
    let (w, p) := rt.newPair w t0 t1
    pure (.next (e.push p) w prog (pc + 1))
  | .iCall =>
    let args ← e.topSlice arg
    match ← e.topN arg with
    | .int idx =>
      if idx.toInt < 0 then throw "function index must be none negative" else
      let e := { e with curframe := { e.curframe with pc } }.prologue .intrinsic arg none none
      if idx.toNat < rt.intrinsicCount then
        pure (.host e (rt.intrinsic idx.toNat w args) (.iCall prog pc))
      else throw "index out of range"
    | _ => throw "function indext must be indext"
  | .loadMethod =>
    let recv ← e.topN 0
    let e ← e.pop
    let name ← Module.pool md.strs arg
    pure (.host e (rt.methodClosure w recv name) (.loadMethod prog pc))
  | .sCall =>
    match ← e.topN arg with
    | .int idx =>
      let callee ← if idx.toInt < 0 then throw "index out of range" else md.fnAt idx.toNat
      if !callee.freeCall then throw "must be freecall" else
      let e := { e with curframe := { e.curframe with pc } }.prologue .script arg (some callee) none
      if arg ≠ callee.argSize then
        pure (.ret e w (rrErr callee pc "script function call, argument number mismatch"))
      else pure (.next e w (some callee) 0)
    | _ => throw "function index must be int"
  | .vCall =>
    let entry ← e.topN arg
    match entry with
    | .closure c =>
      let e := { e with curframe := { e.curframe with pc } }
      match c with
      | .script ref =>
        match e.sfuncs[ref]? with
        | none => throw "nil pointer dereference"
        | some sf =>
          let e := e.prologue .sfunc arg (some sf.prog) (some c)
          if arg ≠ sf.prog.argSize then
            pure (.ret e w (rrErr sf.prog pc "script function call, argument number mismatch"))
          else pure (.next e w (some sf.prog) 0)
      | .native ref =>
        let e := e.prologue .nfunc arg none (some c)
        let args := (e.stack.take (e.stack.length - 1)).drop (e.stack.length - arg - 1)
        pure (.host e (rt.native ref w args) (.nativeCall pc))
      | .method ref =>
        let e := e.prologue .method arg none (some c)
        let args := (e.stack.take (e.stack.length - 1)).drop (e.stack.length - arg - 1)
        pure (.host e (rt.method ref w args) (.nativeCall pc))
    | v => pure (.ret e w (rrErr prog pc ("object must be function, but got type: " ++ rt.typeId v)))
  | .return =>
    let ftype := e.curframe.ftype
    let rv ← e.topN 0
    let (pc, prog, e) ← e.epilogue rv false
    if prog.isNone || ftype == .siter then pure (.ret e w (rrDone pc))
    else pure (.next e w prog (pc + 1))
  | .newClosure =>
    let fn ← md.fnAt arg
    if fn.progtype != .func then
      pure (.ret e w (rrErr prog pc "value must be function instead of iterator"))
    else
      let upvalue ← e.captureUpvalues fn
      let e' := { e with sfuncs := e.sfuncs ++ [ScriptFunc.mk fn upvalue] }
      pure (.next (e'.push (.closure (.script e.sfuncs.length))) w prog (pc + 1))
  | .loadUpvalue =>
    let (_, sf) ← e.mustSFunc
    pure (.next (e.push (← Module.pool sf.upvalue arg)) w prog (pc + 1))
  | .storeUpvalue =>
    let (ref, sf) ← e.mustSFunc
    let v ← e.topN 0
    if arg < sf.upvalue.length then
      let e := { e with sfuncs := e.sfuncs.set ref { sf with upvalue := sf.upvalue.set arg v } }
      pure (.next (← e.pop) w prog (pc + 1))
    else throw "index out of range"
  | .toStr =>
    let top ← e.topN 0
    match rt.toString w top with
    | .error err => pure (.ret e w (rrErr prog pc err))
    | .ok s => pure (.next ((← e.pop).push (.str s)) w prog (pc + 1))
  | .conStr =>
    let items ← e.topSlice arg
    let strs ← items.mapM fun v =>
      match v with
      | .str s => pure s
      | _ => throw "must be string during concatenation"
    pure (.next ((← e.popN arg).push (.str (String.join strs))) w prog (pc + 1))
  | .loadVar =>
    let vname ← Module.pool md.strs arg
    match rt.intrinsicByName vname with
    | some v => pure (.next (e.push v) w prog (pc + 1))
    | none => pure (.host e (rt.loadVar w vname) (.loadVar prog pc))
  | .storeVar =>
    let top ← e.topN 0
    let e ← e.pop
    let vname ← Module.pool md.strs arg
    pure (.host e (rt.storeVar w vname top) (.storeVar prog pc))
  | .loadDollar => pure (.next (e.push (← e.curevent)) w prog (pc + 1))
  | .index =>
    let ee ← e.topN 1
    let er ← e.topN 0
    pure (.host e (rt.index w ee er) (.index prog pc))
  | .indexSet =>
    let recv ← e.topN 2
    let index ← e.topN 1
    let value ← e.topN 0
    let e ← e.popN 3
    pure (.host e (rt.indexSet w recv index value) (.indexSet prog pc))
  | .dot =>
    let ee ← e.topN 0
    let vname ← Module.pool md.strs arg
    pure (.host e (rt.dot w ee vname) (.dot prog pc))
  | .dotSet =>
    let recv ← e.topN 1
    let value ← e.topN 0
    let e ← e.popN 2
    let vname ← Module.pool md.strs arg
    pure (.host e (rt.dotSet w recv vname value) (.dotSet prog pc))
  | .reserveLocal => pure (.next { e with stack := e.stack ++ List.replicate arg .null } w prog (pc + 1))
  | .storeLocal =>
    let v ← e.topN 0
    let e ← e.setSlot (e.curframe.localslot arg) v
    pure (.next (← e.pop) w prog (pc + 1))
  | .loadLocal => pure (.next (e.push (← e.slot (e.curframe.localslot arg))) w prog (pc + 1))
  | .template =>
    let ctx ← e.topN 0
    let e ← e.pop
    let tmp ← Module.pool md.templates arg
    pure (.host e (rt.template w tmp ctx) (.template prog pc))
  | .setSession =>
    let ctx ← e.topN 0
    let e ← e.pop
    pure (.next { e with session := e.session ++ [ctx] } w prog (pc + 1))
  | .loadSession =>
    match e.session[arg]? with
    | none => pure (.ret e w (rrErr prog pc "session variable is not existed"))
    | some v => pure (.next (e.push v) w prog (pc + 1))
  | .storeSession =>
    if arg < e.session.length then
      let v ← e.topN 0
      pure (.next (← { e with session := e.session.set arg v }.pop) w prog (pc + 1))
    else pure (.ret e w (rrErr prog pc "session variable is not existed"))
  | .pushException => pure (.next (e.pushExcep arg e.stack.length) w prog (pc + 1))
  | .popException => pure (.next (← e.popExcep) w prog arg)
  | .loadException => pure (.next (e.push e.curexcep) w prog (pc + 1))
  | .configPush | .configPushWithAttr =>
    let (attr, e) ← if bc.opcode == .configPushWithAttr then do
        let a ← e.topN 0
        pure (a, ← e.pop)
      else pure (Val.null, e)
    if rt.hasConfig then
      let name ← Module.pool md.strs arg
      pure (.host e (rt.pushConfig w name attr) (.config prog pc))
    else pure (.next e w prog (pc + 1))
  | .configPop =>
    if rt.hasConfig then pure (.host e (rt.popConfig w) (.config prog pc))
    else pure (.next e w prog (pc + 1))
  | .configPropertySet | .configPropertySetWithAttr =>
    let name ← e.topN 1
    let value ← e.topN 0
    let e ← e.popN 2
    let (attr, e) ← if bc.opcode == .configPropertySetWithAttr then do
        let a ← e.topN 0
        pure (a, ← e.pop)
      else pure (Val.null, e)
    match rt.toString w name with
    | .error err => pure (.ret e w (rrErr prog pc err))
    | .ok str =>
      if rt.hasConfig then pure (.host e (rt.configProperty w str value attr) (.config prog pc))
      else pure (.next e w prog (pc + 1))
  | .configCommand | .configCommandWithAttr =>
    let name ← e.topN arg
    match rt.toString w name with
    | .error err => pure (.ret e w (rrErr prog pc err))
    | .ok str =>
      -- the source tests `bcConfigPropertySetWithAttr` here, which this case never sees
      let (popSize, attr) ← if bc.opcode == .configPropertySetWithAttr then do
          pure (arg + 2, ← e.topN (arg + 1))
        else pure (arg + 1, Val.null)
      let args ← e.topSlice arg
      if rt.hasConfig then
        pure (.host e (rt.configCommand w str args attr) (.configCommand prog pc popSize))
      else pure (.next (← e.popN popSize) w prog (pc + 1))
  | .setGlobal =>
    let ctx ← e.topN 0
    let e ← e.pop
    match e.globalAdd ctx with
    | some e => pure (.next e w prog (pc + 1))
    | none => pure (.ret e w (rrErr prog pc
        "global varaible must store immutable type, ie int, real, bool, string, null"))
  | .loadGlobal =>
    match e.getGlobal arg with
    | some v => pure (.next (e.push v) w prog (pc + 1))
    | none => pure (.ret e w (rrErr prog pc
        "global variable loading error, global variable is not existed"))
  | .storeGlobal =>
    let ctx ← e.topN 0
    let e ← e.pop
    match e.storeGlobal arg ctx with
    | some e => pure (.next e w prog (pc + 1))
    | none => pure (.ret e w (rrErr prog pc
        "global variable storing error, value is not immutable or global variable is not existed"))
  | .newIterator =>
    let tos ← e.topN 0
    let e ← e.pop
    pure (.host e (rt.newIterator w tos) (.newIterator prog pc))
  | .loadIterator =>
    let fn ← md.fnAt arg
    if fn.progtype != .iter then
      pure (.ret e w (rrErr prog pc "function cannot be loaded as iterator"))
    else
      let upvalue ← e.captureUpvalues fn
      let e' := { e with siters := e.siters ++ [{ ScriptIter.new fn with upvalue }] }
      pure (.next (e'.push (.iter (.script e.siters.length))) w prog (pc + 1))
  | .setUpIterator =>
    match ← e.topN arg with
    | .iter it =>
      let args ← e.topSlice arg
      pure (.host e (iterSetUpCall rt w args it) (.setUpIterator prog pc arg))
    | _ => pure (.ret e w (rrErr prog pc "value is not iterator, cannot use iter setup expression"))
  | .hasIterator =>
    match ← e.topN 0 with
    | .iter it => pure (.next (e.push (.bool (iterHas rt e w it))) w prog (pc + 1))
    | _ => throw "must be iterator(has_iterator)"
  | .derefIterator =>
    match ← e.topN 0 with
    | .iter it => pure (.host e (iterDerefCall rt e w it) (.derefIterator prog pc))
    | _ => throw "must be iterator(deref_iterator)"
  | .nextIterator =>
    match ← e.topN 0 with
    | .iter it => pure (.host e (iterNextCall rt w it) (.nextIterator prog pc))
    | _ => throw "must be iterator(next_iterator)"
  | .halt => pure (.ret (e.push .null) w (rrDone pc))
  | .nextRule => pure (.ret e w (rrNextRule pc))
  | .yield => pure (.ret e w (rrYield (pc + 1)))
  | .emit =>
    let context ← e.topN 0
    let name ← e.topN 1
    let e ← e.popN 2
    match name with
    | .str s => pure (.next (e.emitEvent s context) w prog (pc + 1))
    | _ => throw "event name must be string"
where
  /-- `m.AddMap(name, val)` over the `(name, val)` pairs of the slice. -/
  addPairs (m : Val) : List Val → W → Except String W
    | [], w => pure w
    | [_], _ => throw "index out of range"
    | name :: val :: rest, w =>
      match name with
      | .str s => addPairs m rest (rt.addMap w m s val)
      | _ => throw "must be string"

/-- Finish the instruction waiting in `k` with the host's reply. A reply of
the wrong shape breaks the host's contract and is taken as a panic. -/
def resume (e : Evaluator) (w : W) (k : Pending) (answer : Except String Reply) :
    Except String (Step W) := do
  match k, answer with
  | .action prog pc, .error err
  | .loadVar prog pc, .error err
  | .storeVar prog pc, .error err
  | .iCall prog pc, .error err
  | .loadMethod prog pc, .error err
  | .index prog pc, .error err
  | .indexSet prog pc, .error err
  | .dot prog pc, .error err
  | .dotSet prog pc, .error err
  | .template prog pc, .error err
  | .config prog pc, .error err
  | .configCommand prog pc _, .error err
  | .newIterator prog pc, .error err
  | .setUpIterator prog pc _, .error err
  | .nextIterator prog pc, .error err
  | .derefIterator prog pc, .error err => pure (.ret e w (rrErr prog pc err))
  | .nativeCall pc, .error err => pure (.ret e w (rrErr none pc err))
  | .action prog pc, .ok .unit => pure (.next (← e.pop) w prog (pc + 1))
  | .loadVar prog pc, .ok (.val v)
  | .loadMethod prog pc, .ok (.val v)
  | .newIterator prog pc, .ok (.val v) => pure (.next (e.push v) w prog (pc + 1))
  | .storeVar prog pc, .ok .unit
  | .indexSet prog pc, .ok .unit
  | .dotSet prog pc, .ok .unit
  | .config prog pc, .ok .unit => pure (.next e w prog (pc + 1))
  | .iCall _ _, .ok (.val r)
  | .nativeCall _, .ok (.val r) =>
    let (pc, prog, e) ← e.epilogue r false
    pure (.next e w prog (pc + 1))
  | .index prog pc, .ok (.val v) => pure (.next ((← e.popN 2).push v) w prog (pc + 1))
  | .dot prog pc, .ok (.val v) => pure (.next ((← e.pop).push v) w prog (pc + 1))
  | .template prog pc, .ok (.str s) => pure (.next (e.push (.str s)) w prog (pc + 1))
  | .configCommand prog pc popSize, .ok .unit => pure (.next (← e.popN popSize) w prog (pc + 1))
  | .setUpIterator prog pc argc, .ok .unit => pure (.next (← e.popN argc) w prog (pc + 1))
  | .nextIterator prog pc, .ok (.bool b) => pure (.next (e.push (.bool b)) w prog (pc + 1))
  | .derefIterator prog pc, .ok (.kv key val) =>
    pure (.next ((e.push key).push val) w prog (pc + 1))
  | _, .ok _ => throw "host reply of the wrong shape"

/-- One iteration of `runP` at `pc` of `prog`: fetch `prog.bcList[pc]` and run it. -/
def runPStep (e : Evaluator) (w : W) (prog : Option Program) (pc : Int) :
    Except String (Step W) :=
  match prog with
  | none => .error "nil pointer dereference"
  | some p =>
    match p.bcList[pc.toNat]? with
    | some bc => if 0 ≤ pc then execInstr rt md e w p pc bc else .error "index out of range"
    | none => .error "index out of range"

end

end Moons.Pl
