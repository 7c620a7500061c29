import Moons.Pl.Interp

/-!
# The evaluator as a machine

`runP` is a loop inside a driver: `runRuleImpl`, `runSFunc` or
`runSIterRest` (behind `runSIter`/`resumeSIter`). Host code called by an
instruction may enter the evaluator again, which starts another driver on
the same `Evaluator`. The Go call stack of such a run is made explicit: a
`Machine` holds what runs now (`Control`) and the Go activations waiting
under it (`Cont`, innermost first), and `Machine.step` performs one Go-level
action: one iteration of `runP`, one step of host code, or one driver
reacting to the `runresult` of its `runP`.
-/

set_option autoImplicit false

namespace Moons.Pl

/-- The result `unwindForExcep` hands back: where to resume, the backtrace,
and whether a handler caught the error. -/
structure Unwound where
  pc : Int
  prog : Option Program
  bt : List FuncFrame
  caught : Bool
  deriving DecidableEq, Repr

namespace Evaluator

variable (e : Evaluator)

/-- The handler branch of `unwindForExcep`: cut the stack to the handler's
size, resume the current frame at the handler, keep the error text in
`curexcep` and pop the handler. -/
def catchAt (xp : Exception) (err : String) (bt : List FuncFrame) :
    Except String (Unwound × Evaluator) := do
  let e ← e.popTo xp.stackSize
  let e := { e with curframe := { e.curframe with pc := xp.handlerPc }, curexcep := .str err }
  let e ← e.popExcep
  pure (⟨xp.handlerPc, e.curframe.prog, bt, true⟩, e)

/-- The loop of `unwindForExcep`. Every round that does not stop pops the
stack down to a frame pointer below the marker it read, so `fuel` at the
stack's height plus one is never exhausted. -/
def unwindLoop (breaker : FuncFrame → Bool) (err : String) :
    Nat → Evaluator → List FuncFrame → Except String (Unwound × Evaluator)
  | 0, _, _ => .error "unreachable: unwind ran past the stack"
  | fuel + 1, e, bt =>
    if e.curframe.isTop || breaker e.curframe then pure (⟨-1, none, bt, false⟩, e)
    else
      match e.curExcep, e.curframe.isScript with
      | some xp, true => e.catchAt xp err bt
      | _, _ => do
        let pframe ← e.prevfuncframe
        let ff ← e.frameAt pframe
        let bt := if ff.isTop then bt else bt ++ [ff]
        let (_, _, e) ← e.popfuncframe pframe
        unwindLoop breaker err fuel e bt

/-- `unwindForExcep(breaker, err)`. -/
def unwindForExcep (breaker : FuncFrame → Bool) (err : String) :
    Except String (Unwound × Evaluator) :=
  unwindLoop breaker err (e.stack.length + 1) e [e.curframe]

end Evaluator

section Report

variable {W : Type} (rt : Runtime W)

/-- `dbgList[pc].where()` and `bcList[pc]`, both indexed by a Go int. -/
def Program.at? {α : Type} (xs : List α) (pc : Int) : Except String α :=
  if 0 ≤ pc then Module.pool xs pc.toNat else .error "index out of range"

/-- `frameInfo`. The instruction dump and closure description are rendered
by `typeId` of the frame's pieces; the indexing is the source's. -/
def frameInfo (ff : FuncFrame) : Except String String := do
  if ff.isTop && ff.prog.isSome then throw "???"
  let head := "[pc=" ++ toString ff.pc ++ "][framep=" ++ toString ff.framep ++
    "][argcount=" ++ toString ff.farg ++ "]"
  match ff.prog with
  | some p =>
    let _ ← Program.at? p.bcList ff.pc
    let loc ← Program.at? p.dbgList ff.pc
    pure (head ++ "[name=" ++ p.name ++ "][localcount=" ++ toString p.localSize ++
      "][source=]:\n" ++ loc)
  | none =>
    match ff.closure with
    | some c => pure (head ++ "[closure_type=" ++ rt.typeId (.closure c) ++ "]")
    | none => pure head

/-- `backtrace(p, max, bt)`: at most `max + 1` frames, then a truncation mark. -/
def backtrace (max : Nat) (bt : List FuncFrame) : Except String String := do
  let sep := "....................."
  let rec go : Nat → List FuncFrame → Except String String
    | _, [] => pure ""
    | idx, cf :: rest => do
      let line := toString idx ++ ">" ++ sep ++ "\n" ++ (← frameInfo rt cf) ++ "\n" ++ sep ++ "\n"
      if idx == max then pure (line ++ ".........\n")
      else pure (line ++ (← go (idx + 1) rest))
  go 0 bt

/-- `doErr(bt, p, pc, err)`: the error an entry point reports. -/
def doErr (bt : List FuncFrame) (p : Option Program) (pc : Int) (err : String) :
    Except String String :=
  match p with
  | some p => do
    let loc ← Program.at? p.dbgList pc
    pure ("symbol(" ++ p.name ++ "), " ++ loc ++ " has error: " ++ err ++ "\n" ++
      (← backtrace rt 10 bt))
  | none => pure ("symbol([native function]): " ++ err)

end Report

/-- The generator method a `runSIterRest` serves, with the host code waiting
for its answer. -/
inductive IterMethod (W : Type) where
  | setUp (next : Except String Unit → W → HostCall W)
  | next (next : Except String Bool → W → HostCall W)

/-- A Go activation waiting under the running code. -/
inductive Cont (W : Type) where
  /-- `runRuleImpl`'s loop: the bottom of a run. -/
  | rule
  /-- `runSFunc(sfunc, args)`'s loop, called by host code waiting in `next`. -/
  | sfunc (ref : Nat) (next : Except String Val → W → HostCall W)
  /-- `runNFunc`, waiting for its native entry; host code waits in `next`. -/
  | nfunc (next : Except String Val → W → HostCall W)
  /-- `runSIterRest` for generator `ref`, inside `runSIter` or `resumeSIter`
  which saved the caller's stack `oldStack`. -/
  | siter (ref : Nat) (oldStack : List Val) (method : IterMethod W)
  /-- An instruction of `runP` waiting for host code. -/
  | instr (k : Pending)

/-- What runs now. -/
inductive Control (W : Type) where
  /-- `runP` at the top of an iteration. -/
  | run (prog : Option Program) (pc : Int)
  /-- `runP` has returned `rr` to the innermost driver. -/
  | ret (rr : RunResult)
  /-- Host code runs. -/
  | host (h : HostCall W)

structure Machine (W : Type) where
  ev : Evaluator
  world : W
  control : Control W
  conts : List (Cont W)

/-- What `runRuleImpl` returns: value, error, and whether the rule asked for
the next rule. -/
structure RuleResult where
  value : Val
  err : Option String
  nextRule : Bool
  deriving DecidableEq, Repr

inductive Outcome (W : Type) where
  | running (m : Machine W)
  /-- `runRuleImpl` returned. -/
  | finished (e : Evaluator) (w : W) (r : RuleResult)
  | panicked (msg : String)

section Step

variable {W : Type} (rt : Runtime W) (md : Module)

namespace Machine

/-- Continue a machine after one iteration of `runP` in activation `conts`. -/
def ofStep (conts : List (Cont W)) : Except String (Step W) → Outcome W
  | .ok (.next e w prog pc) => .running ⟨e, w, .run prog pc, conts⟩
  | .ok (.ret e w rr) => .running ⟨e, w, .ret rr, conts⟩
  | .ok (.host e h k) => .running ⟨e, h.world, .host h, .instr k :: conts⟩
  | .ok (.spin e w prog pc) => .running ⟨e, w, .run prog pc, conts⟩
  | .error msg => .panicked msg

/-- Continue a machine from a fallible Go computation. -/
def lift (r : Except String (Machine W)) : Outcome W :=
  match r with
  | .ok m => .running m
  | .error msg => .panicked msg

end Machine

namespace Evaluator

variable (e : Evaluator)

/-- `runSIter(siter, args)` up to its `runSIterRest`: swap in the generator's
stack and enter its frame. Returns the saved caller stack and where `runP`
starts. -/
def runSIterEnter (ref : Nat) (args : List Val) :
    Except String (List Val × Option Program × Int × Evaluator) :=
  match e.siters[ref]? with
  | none => .error "nil pointer dereference"
  | some si =>
    let e' := ({ e with stack := si.stack }).iterPrologue ref si.prog args
    pure (e.stack, e'.curframe.prog, si.pc, e')

/-- `resumeSIter(siter)` up to its `runSIterRest`: swap in the generator's
stack and frame, and point the generator's marker at the caller's frame. -/
def resumeSIterEnter (ref : Nat) :
    Except String (List Val × Option Program × Int × Evaluator) :=
  match e.siters[ref]? with
  | none => .error "nil pointer dereference"
  | some si => do
    let tempF := e.curframe
    let e' := { e with stack := si.stack, curframe := si.frame }
    let marker ← e'.prevfuncframe
    if marker < e'.frames.length then
      pure (e.stack, si.frame.prog, si.pc, { e' with frames := e'.frames.set marker tempF })
    else throw "nil pointer dereference"

/-- Update generator `ref`. -/
def modifySIter (ref : Nat) (f : ScriptIter → ScriptIter) : Evaluator :=
  { e with siters := e.siters.modify f ref }

/-- The deferred part of `runSIterRest` when the generator did not finish:
save its frame and restore the caller's. -/
def siterSuspend (ref : Nat) : Except String Evaluator := do
  let prev ← e.prevfuncframe
  let ff ← e.frameAt prev
  pure ({ e.modifySIter ref fun si => { si with frame := e.curframe } with curframe := ff })

/-- The deferred part of `runSIter`/`resumeSIter`: save the generator's stack
and give the caller its stack back. -/
def siterSwapBack (ref : Nat) (oldStack : List Val) : Evaluator :=
  { e.modifySIter ref fun si => { si with stack := e.stack } with stack := oldStack }

end Evaluator

/-- The generator method returns to the host code waiting for it, after
recording the pc its `runSIterRest` returned (`siter.pc = pc`). -/
def IterMethod.answer {W : Type} (e : Evaluator) (w : W) (ref : Nat) (err : Option String) :
    IterMethod W → HostCall W
  | .setUp k => k (match err with | some m => .error m | none => .ok ()) w
  | .next k => k (match err with | some m => .error m | none => .ok (siterHas e ref)) w

namespace Machine

/-- The driver `d` reacts to the `runresult` `rr` of its `runP`. -/
def driverRet (e : Evaluator) (w : W) (rr : RunResult) (d : Cont W) (conts : List (Cont W)) :
    Outcome W :=
  match d with
  | .rule =>
    match rr.rstate with
    | .done =>
      match (do let ret ← e.topN 0; let e ← e.pop; pure (ret, e) : Except String _) with
      | .ok (ret, e) => .finished e w ⟨ret, none, false⟩
      | .error msg => .panicked msg
    | .nextRule => .finished e w ⟨.null, none, true⟩
    | _ =>
      match rr.e with
      | none => .panicked "nil pointer dereference"
      | some err =>
        match e.unwindForExcep FuncFrame.isTop err with
        | .error msg => .panicked msg
        | .ok (u, e) =>
          if u.caught then .running ⟨e, w, .run u.prog u.pc, d :: conts⟩
          else
            match doErr rt u.bt rr.prog rr.pc err with
            | .ok msg => .finished e w ⟨.null, some msg, false⟩
            | .error msg => .panicked msg
  | .sfunc ref next =>
    match rr.rstate with
    | .done =>
      match e.topN 0 with
      | .ok ret => .running ⟨e, w, .host (next (.ok ret) w), conts⟩
      | .error msg => .panicked msg
    | _ =>
      match rr.e with
      | none => .panicked "nil pointer dereference"
      | some err =>
        match e.unwindForExcep (fun ff => ff.sfunc == some ref) err with
        | .error msg => .panicked msg
        | .ok (u, e) =>
          if u.caught then .running ⟨e, w, .run u.prog u.pc, d :: conts⟩
          else
            lift (do
              let prev ← e.prevfuncframe
              let (_, _, e) ← e.popfuncframe prev
              let msg ← doErr rt u.bt rr.prog rr.pc err
              pure ⟨e, w, .host (next (.error msg) w), conts⟩)
  | .siter ref oldStack method =>
    match rr.rstate with
    | .done =>
      lift (do
        let ret ← e.topN 0
        let e ← e.pop
        let e := (e.modifySIter ref (·.onReturn ret)).siterSwapBack ref oldStack
        let e := e.modifySIter ref fun si => { si with pc := rr.pc }
        pure ⟨e, w, .host (method.answer e w ref none), conts⟩)
    | .yield =>
      lift (do
        let ret ← e.topN 0
        let e ← e.pop
        let e ← (e.modifySIter ref (·.onYield ret)).siterSuspend ref
        let e := e.siterSwapBack ref oldStack
        let e := e.modifySIter ref fun si => { si with pc := rr.pc }
        pure ⟨e, w, .host (method.answer e w ref none), conts⟩)
    | _ =>
      match rr.e with
      | none => .panicked "nil pointer dereference"
      | some err =>
        match e.unwindForExcep (fun ff => ff.ftype == .siter) err with
        | .error msg => .panicked msg
        | .ok (u, e) =>
          if u.caught then .running ⟨e, w, .run u.prog u.pc, d :: conts⟩
          else
            lift (do
              let msg ← doErr rt u.bt rr.prog rr.pc err
              let e ← e.siterSuspend ref
              let e := e.siterSwapBack ref oldStack
              let e := e.modifySIter ref fun si => { si with pc := rr.pc }
              pure ⟨e, w, .host (method.answer e w ref (some msg)), conts⟩)
  | _ => .panicked "unreachable: runP returned to a non-driver"

/-- Host code takes one step: it answers the instruction or `runNFunc`
waiting for it, or enters the evaluator. -/
def hostStep (e : Evaluator) (h : HostCall W) (conts : List (Cont W)) : Outcome W :=
  match h with
  | .done w answer =>
    match conts with
    | .instr k :: conts => ofStep conts (resume e w k answer)
    | .nfunc next :: conts =>
      let (ret, result) : Val × Except String Val :=
        match answer with
        | .ok (.val v) => (v, .ok v)
        | .ok _ => (.null, .error "host reply of the wrong shape")
        | .error err => (.null, .error err)
      lift (do
        let (_, _, e) ← e.epilogue ret false
        let e ← e.pop
        pure ⟨e, w, .host (next result w), conts⟩)
    | _ => .panicked "unreachable: host code returned to a driver"
  | .runSFunc w ref args next =>
    match e.sfuncs[ref]? with
    | none => .panicked "nil pointer dereference"
    | some sf =>
      if args.length ≠ sf.prog.argSize then
        .running ⟨e, w, .host (next (.error "function call, argument mismatch") w), conts⟩
      else
        let e := e.closurePrologue (.script ref) (some sf.prog) args
        .running ⟨e, w, .run e.curframe.prog 0, .sfunc ref next :: conts⟩
  | .runNFunc w ref args next =>
    let e := e.closurePrologue (.native ref) none args
    .running ⟨e, w, .host (rt.native ref w args), .nfunc next :: conts⟩
  | .iterSetUp w ref args next =>
    lift (do
      let (oldStack, prog, pc, e) ← e.runSIterEnter ref args
      pure ⟨e, w, .run prog pc, .siter ref oldStack (.setUp next) :: conts⟩)
  | .iterNext w ref next =>
    if !siterHas e ref then .running ⟨e, w, .host (next (.ok false) w), conts⟩
    else
      lift (do
        let (oldStack, prog, pc, e) ← e.resumeSIterEnter ref
        pure ⟨e, w, .run prog pc, .siter ref oldStack (.next next) :: conts⟩)

/-- One Go-level step of the machine. -/
def step (m : Machine W) : Outcome W :=
  match m.control with
  | .run prog pc => ofStep m.conts (runPStep rt md m.ev m.world prog pc)
  | .host h => hostStep rt m.ev h m.conts
  | .ret rr =>
    match m.conts with
    | d :: conts => driverRet rt m.ev m.world rr d conts
    | [] => .panicked "unreachable: no driver"

/-- Run for at most `fuel` steps. -/
def run (m : Machine W) : Nat → Outcome W
  | 0 => .running m
  | fuel + 1 =>
    match step rt md m with
    | .running m' => run m' fuel
    | o => o

end Machine

end Step

end Moons.Pl
