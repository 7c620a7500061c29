import Moons.Pl.Unwind

/-!
# Re-entering the evaluator from host code

Host code called by an instruction may call a script closure back
(`runSFunc`) or a native one (`runNFunc`). Both set up a frame with
`closurePrologue` over the caller's frame `F` and stack `S`; this module
follows each way out of that frame to the host code waiting for the answer.
The marker `closurePrologue` pushes saves `F` with its pc advanced, as
every prologue does.
-/

set_option autoImplicit false

namespace Moons.Pl

namespace Evaluator

theorem epilogue_of_marker {e : Evaluator} {v : Val} {r : Nat} {ff : FuncFrame}
    (marker : e.stack[e.curframe.prevframepos]? = some (.frame r)) (saved : e.frames[r]? = some ff) :
    e.epilogue v false =
      .ok (ff.pc - 1, ff.prog, { e with stack := e.stack.take e.curframe.framep ++ [v], curframe := ff }) := by
  have hpos : e.curframe.framep ≤ e.stack.length := by
    have := (List.getElem?_eq_some_iff.mp marker).1
    simp only [FuncFrame.prevframepos] at this
    omega
  simp [epilogue, prevfuncframe, slot, marker, popfuncframe, popTo, hpos, frameAt, saved, push, bind, Except.bind,
    pure, Except.pure]

theorem closurePrologue_stack (e : Evaluator) (fn : Closure) (prog : Option Program) (args : List Val) :
    (e.closurePrologue fn prog args).stack = e.stack ++ .closure fn :: args ++ [.frame e.frames.length] := by
  simp [closurePrologue, prologue, newfuncframe, push]

theorem closurePrologue_marker (e : Evaluator) (fn : Closure) (prog : Option Program) (args : List Val) :
    (e.closurePrologue fn prog args).stack = e.stack ++ ((e.closurePrologue fn prog args).stack.drop e.stack.length) ∧
      (e.closurePrologue fn prog args).stack[e.stack.length + args.length + 1]? = some (.frame e.frames.length) := by
  rw [closurePrologue_stack]
  constructor
  · simp
  · rw [List.getElem?_append_right (by simp; omega)]
    simp only [List.length_append, List.length_cons]
    rw [show e.stack.length + args.length + 1 - (e.stack.length + (args.length + 1)) = 0 by omega]
    rfl

theorem topN_zero_of_getLast {e : Evaluator} {v : Val} (top : e.stack.getLast? = some v) : e.topN 0 = .ok v := by
  rw [List.getLast?_eq_getElem?] at top
  exact topN_eq_ok.mpr ⟨by have := (List.getElem?_eq_some_iff.mp top).1; omega, by simpa using top⟩

theorem iterPrologue_curframe (e : Evaluator) (ref : Nat) (prog : Program) (args : List Val) :
    (e.iterPrologue ref prog args).curframe.ftype = .siter ∧ (e.iterPrologue ref prog args).curframe.closure = none ∧
      (e.iterPrologue ref prog args).curframe.prog = some prog :=
  ⟨rfl, rfl, rfl⟩

theorem captureUpvalues_unbound {e : Evaluator} {fn : Program} {uv : UpvalueDesc} {rest : List UpvalueDesc}
    (upvalues : fn.upvalue = uv :: rest) (offStack : uv.onStack = false) (noClosure : e.curframe.closure = none) :
    e.captureUpvalues fn = .error "upvalue capture function not existed?" := by
  rw [captureUpvalues, upvalues, List.mapM_cons]
  simp [offStack, FuncFrame.sfunc, noClosure, bind, Except.bind]

end Evaluator

namespace Machine

variable {W : Type} (rt : Runtime W) (md : Module)

theorem sfunc_return {m : Machine W} {p : Program} {pc : Int} {a r ref : Nat} {ff : FuncFrame} {v : Val}
    {next : Except String Val → W → HostCall W} {K : List (Cont W)}
    (running : m.control = .run (some p) pc) (pcNonneg : 0 ≤ pc) (fetch : p.bcList[pc.toNat]? = some ⟨.return, a⟩)
    (caller : m.conts = .sfunc ref next :: K) (top : m.ev.stack.getLast? = some v)
    (marker : m.ev.stack[m.ev.curframe.prevframepos]? = some (.frame r)) (saved : m.ev.frames[r]? = some ff)
    (hnative : ff.prog = none) :
    run rt md m 2 =
      .running ⟨{ m.ev with stack := m.ev.stack.take m.ev.curframe.framep ++ [v], curframe := ff }, m.world,
        .host (next (.ok v) m.world), K⟩ := by
  obtain ⟨e, w, control, conts⟩ := m
  simp only at running caller top marker saved ⊢
  subst running caller
  have htop := Evaluator.topN_zero_of_getLast top
  have hstep : execInstr rt md e w p pc ⟨.return, a⟩ = .ok (.ret { e with
      stack := e.stack.take e.curframe.framep ++ [v], curframe := ff } w (rrDone (ff.pc - 1))) := by
    simp [execInstr, htop, Evaluator.epilogue_of_marker marker saved, hnative, bind, Except.bind, pure, Except.pure]
  have htop' : ({ e with stack := e.stack.take e.curframe.framep ++ [v], curframe := ff }).topN 0 = .ok v :=
    Evaluator.topN_zero_of_getLast (List.getLast?_concat _)
  simp [run, step, runPStep, fetch, pcNonneg, hstep, ofStep, driverRet, rrDone, htop']

theorem sfunc_return_resumes {m : Machine W} {p q : Program} {pc : Int} {a r ref : Nat} {ff : FuncFrame} {v : Val}
    {next : Except String Val → W → HostCall W} {K : List (Cont W)}
    (running : m.control = .run (some p) pc) (pcNonneg : 0 ≤ pc) (fetch : p.bcList[pc.toNat]? = some ⟨.return, a⟩)
    (caller : m.conts = .sfunc ref next :: K) (top : m.ev.stack.getLast? = some v) (notIter : m.ev.curframe.ftype ≠ .siter)
    (marker : m.ev.stack[m.ev.curframe.prevframepos]? = some (.frame r)) (saved : m.ev.frames[r]? = some ff)
    (hprog : ff.prog = some q) :
    step rt md m = .running ⟨{ m.ev with stack := m.ev.stack.take m.ev.curframe.framep ++ [v], curframe := ff },
      m.world, .run (some q) ff.pc, .sfunc ref next :: K⟩ := by
  obtain ⟨e, w, control, conts⟩ := m
  simp only at running caller top marker saved notIter ⊢
  subst running caller
  have htop := Evaluator.topN_zero_of_getLast top
  have hstep : execInstr rt md e w p pc ⟨.return, a⟩ = .ok (.next { e with
      stack := e.stack.take e.curframe.framep ++ [v], curframe := ff } w (some q) ff.pc) := by
    simp [execInstr, htop, Evaluator.epilogue_of_marker marker saved, hprog, notIter, bind, Except.bind, pure, Except.pure]
  simp [step, runPStep, fetch, pcNonneg, hstep, ofStep]

theorem sfunc_halt {m : Machine W} {p : Program} {pc : Int} {a ref : Nat}
    {next : Except String Val → W → HostCall W} {K : List (Cont W)}
    (running : m.control = .run (some p) pc) (pcNonneg : 0 ≤ pc) (fetch : p.bcList[pc.toNat]? = some ⟨.halt, a⟩)
    (caller : m.conts = .sfunc ref next :: K) :
    run rt md m 2 = .running ⟨m.ev.push .null, m.world, .host (next (.ok .null) m.world), K⟩ := by
  obtain ⟨e, w, control, conts⟩ := m
  simp only at running caller ⊢
  subst running caller
  have htop : (e.push .null).topN 0 = .ok .null := by rw [Evaluator.topN_eq_ok]; simp
  simp [run, step, runPStep, fetch, pcNonneg, execInstr, ofStep, driverRet, rrDone, htop, pure, Except.pure]

theorem sfunc_error {m : Machine W} {rr : RunResult} {err msg : String} {r ref : Nat} {ff : FuncFrame}
    {next : Except String Val → W → HostCall W} {K : List (Cont W)}
    (returning : m.control = .ret rr) (interrupted : rr.rstate = .interrupt) (error : rr.e = some err)
    (caller : m.conts = .sfunc ref next :: K) (inCallee : m.ev.curframe.sfunc = some ref)
    (marker : m.ev.stack[m.ev.curframe.prevframepos]? = some (.frame r)) (saved : m.ev.frames[r]? = some ff)
    (herr : doErr rt [m.ev.curframe] rr.prog rr.pc err = .ok msg) :
    step rt md m = .running ⟨{ m.ev with stack := m.ev.stack.take m.ev.curframe.framep, curframe := ff }, m.world,
      .host (next (.error msg) m.world), K⟩ := by
  obtain ⟨e, w, control, conts⟩ := m
  simp only at returning caller inCallee marker saved herr ⊢
  subst returning caller
  have hstop : e.curframe.stops (fun ff => ff.sfunc == some ref) = true := by simp [FuncFrame.stops, inCallee]
  have hunwind : e.unwindForExcep (fun ff => ff.sfunc == some ref) err = .ok (⟨-1, none, [e.curframe], false⟩, e) :=
    Evaluator.unwindLoop_stop hstop
  have hpos : e.curframe.framep ≤ e.stack.length := by
    have := (List.getElem?_eq_some_iff.mp marker).1
    simp only [FuncFrame.prevframepos] at this
    omega
  rcases rr with ⟨prog, pc, _ | err', rstate⟩ <;> simp only at interrupted error herr ⊢
  · cases error
  · subst interrupted
    obtain rfl := Option.some.inj error
    simp [step, driverRet, hunwind, lift, Evaluator.prevfuncframe, Evaluator.slot, marker, Evaluator.popfuncframe,
      Evaluator.popTo, hpos, Evaluator.frameAt, saved, herr, bind, Except.bind, pure, Except.pure]

theorem nfunc_answer {m : Machine W} {w' : W} {v : Val} {r : Nat} {ff : FuncFrame}
    {next : Except String Val → W → HostCall W} {K : List (Cont W)}
    (answered : m.control = .host (.done w' (.ok (.val v)))) (caller : m.conts = .nfunc next :: K)
    (marker : m.ev.stack[m.ev.curframe.prevframepos]? = some (.frame r)) (saved : m.ev.frames[r]? = some ff) :
    step rt md m = .running ⟨{ m.ev with stack := m.ev.stack.take m.ev.curframe.framep, curframe := ff }, w',
      .host (next (.ok v) w'), K⟩ := by
  obtain ⟨e, w, control, conts⟩ := m
  simp only at answered caller marker saved ⊢
  subst answered caller
  have hpop : ({ e with stack := e.stack.take e.curframe.framep ++ [v], curframe := ff }).pop =
      .ok { e with stack := e.stack.take e.curframe.framep, curframe := ff } :=
    Evaluator.pop_eq_ok.mpr ⟨by simp, by simp⟩
  show hostStep rt e (.done w' (.ok (.val v))) (.nfunc next :: K) = _
  unfold hostStep
  simp only [Evaluator.epilogue_of_marker marker saved, hpop, bind, Except.bind, pure, Except.pure, lift]

theorem intact_marker {m : Machine W} {S stack : List Val} {n r : Nat}
    (hpos : m.ev.curframe.prevframepos = S.length + n + 1) (htake : m.ev.stack.take (S.length + n + 2) = stack)
    (hstack : stack = S ++ (stack.drop S.length)) (marker : stack[S.length + n + 1]? = some (.frame r)) :
    m.ev.stack[m.ev.curframe.prevframepos]? = some (.frame r) ∧ m.ev.stack.take S.length = S := by
  constructor
  · rw [hpos, ← List.getElem?_take_of_lt (Nat.lt_succ_self _), htake, marker]
  · have : (m.ev.stack.take (S.length + n + 2)).take S.length = S := by
      rw [htake, hstack]; simp
    rwa [List.take_take, Nat.min_eq_left (by omega)] at this

/-! ## What `runSFunc` and `runNFunc` leave -/

/-- `runSFunc(c, args)` and `runNFunc(nf, args)`, called by host code in a
frame `F` without a program over the stack `S`, push the closure, its
arguments and a marker saving `F` with its pc advanced, and do not give `F`
and `S` back as they found them. Under `runSFunc`: when the closure's frame
returns by `bcReturn`, with the stack below its marker and the saved frame as
`runSFunc` made them, the host code gets the result with the result slot
left on `S` and `F`'s pc advanced; `bcHalt` leaves the halting frame current
with a null pushed; an error raised while a frame of the same closure is
current pops that one frame, whatever its handlers, and makes the frame its
marker saved current. Under `runNFunc`, when the native entry answers with
the stack below the native frame's marker and the saved frame intact, `S` is
given back, with `F`'s pc advanced. -/
theorem reentry_exits (e : Evaluator) (w : W) (intrinsic : e.curframe.prog = none) :
    (∀ (ref : Nat) (sf : ScriptFunc) (args : List Val) (next : Except String Val → W → HostCall W)
        (K : List (Cont W)), e.sfuncs[ref]? = some sf → args.length = sf.prog.argSize →
      hostStep rt e (.runSFunc w ref args next) K =
        .running ⟨e.closurePrologue (.script ref) (some sf.prog) args, w, .run (some sf.prog) 0, .sfunc ref next :: K⟩ ∧
      (e.closurePrologue (.script ref) (some sf.prog) args).stack =
        e.stack ++ .closure (.script ref) :: args ++ [.frame e.frames.length] ∧
      (e.closurePrologue (.script ref) (some sf.prog) args).frames =
        e.frames ++ [{ e.curframe with pc := e.curframe.pc + 1 }] ∧
      (∀ (m : Machine W) (p : Program) (pc : Int) (a : Nat) (v : Val),
        m.control = .run (some p) pc → 0 ≤ pc → p.bcList[pc.toNat]? = some ⟨.return, a⟩ →
        m.conts = .sfunc ref next :: K → m.ev.stack.getLast? = some v →
        m.ev.curframe.framep = e.stack.length → m.ev.curframe.prevframepos = e.stack.length + args.length + 1 →
        m.ev.stack.take (e.stack.length + args.length + 2) = (e.closurePrologue (.script ref) (some sf.prog) args).stack →
        m.ev.frames[e.frames.length]? = some { e.curframe with pc := e.curframe.pc + 1 } →
        run rt md m 2 = .running ⟨{ m.ev with stack := e.stack ++ [v], curframe := { e.curframe with pc := e.curframe.pc + 1 } },
          m.world, .host (next (.ok v) m.world), K⟩) ∧
      (∀ (m : Machine W) (p : Program) (pc : Int) (a : Nat),
        m.control = .run (some p) pc → 0 ≤ pc → p.bcList[pc.toNat]? = some ⟨.halt, a⟩ →
        m.conts = .sfunc ref next :: K →
        run rt md m 2 = .running ⟨m.ev.push .null, m.world, .host (next (.ok .null) m.world), K⟩) ∧
      (∀ (m : Machine W) (rr : RunResult) (err msg : String) (r : Nat) (ff : FuncFrame),
        m.control = .ret rr → rr.rstate = .interrupt → rr.e = some err → m.conts = .sfunc ref next :: K →
        m.ev.curframe.sfunc = some ref → m.ev.stack[m.ev.curframe.prevframepos]? = some (.frame r) →
        m.ev.frames[r]? = some ff → doErr rt [m.ev.curframe] rr.prog rr.pc err = .ok msg →
        step rt md m = .running ⟨{ m.ev with stack := m.ev.stack.take m.ev.curframe.framep, curframe := ff },
          m.world, .host (next (.error msg) m.world), K⟩)) ∧
    (∀ (ref : Nat) (args : List Val) (next : Except String Val → W → HostCall W) (K : List (Cont W)),
      hostStep rt e (.runNFunc w ref args next) K =
        .running ⟨e.closurePrologue (.native ref) none args, w, .host (rt.native ref w args), .nfunc next :: K⟩ ∧
      (∀ (m : Machine W) (w' : W) (v : Val),
        m.control = .host (.done w' (.ok (.val v))) → m.conts = .nfunc next :: K →
        m.ev.curframe.framep = e.stack.length → m.ev.curframe.prevframepos = e.stack.length + args.length + 1 →
        m.ev.stack.take (e.stack.length + args.length + 2) = (e.closurePrologue (.native ref) none args).stack →
        m.ev.frames[e.frames.length]? = some { e.curframe with pc := e.curframe.pc + 1 } →
        step rt md m = .running ⟨{ m.ev with stack := e.stack, curframe := { e.curframe with pc := e.curframe.pc + 1 } },
          w', .host (next (.ok v) w'), K⟩)) := by
  have hmarker := Evaluator.closurePrologue_marker e
  refine ⟨fun ref sf args next K hsf hargs => ⟨?_, Evaluator.closurePrologue_stack .., rfl, ?_, ?_, ?_⟩,
    fun ref args next K => ⟨rfl, ?_⟩⟩
  · unfold hostStep
    simp only [hsf, hargs, ne_eq, not_true_eq_false, if_false]
    rfl
  · intro m p pc a v hc hpc hbc hk hv hfp hpos htake hf
    obtain ⟨hm, hS⟩ := intact_marker hpos htake (hmarker _ _ _).1 (hmarker _ _ _).2
    rw [sfunc_return rt md hc hpc hbc hk hv hm hf intrinsic, hfp, hS]
  · intro m p pc a hc hpc hbc hk
    exact sfunc_halt rt md hc hpc hbc hk
  · intro m rr err msg r ff hc hrs he hk hs hm hf herr
    exact sfunc_error rt md hc hrs he hk hs hm hf herr
  · intro m w' v hc hk hfp hpos htake hf
    obtain ⟨hm, hS⟩ := intact_marker hpos htake (hmarker _ _ _).1 (hmarker _ _ _).2
    rw [nfunc_answer rt md hc hk hm hf, hfp, hS]

/-- `runSFunc(c, args)` called by host code while a frame `F` with a program
is current, as when an instruction calls host code (`EvalContext.Action`, an
`EvalConfig` callback, a user object's method) that calls `c` back: when
`c`'s entry frame returns by `bcReturn` with its marker intact, the nested
loop does not stop. `F` becomes current again with the result pushed, and
`runP` goes on with `F`'s program one past `F`'s saved pc, under `runSFunc`'s
driver: instructions of `F` run inside the nested loop. -/
theorem reentry_resumes_caller (e : Evaluator) (w : W) {q : Program} (scripted : e.curframe.prog = some q)
    (ref : Nat) (sf : ScriptFunc) (args : List Val) (next : Except String Val → W → HostCall W) (K : List (Cont W))
    (registered : e.sfuncs[ref]? = some sf) (arity : args.length = sf.prog.argSize) :
    hostStep rt e (.runSFunc w ref args next) K =
        .running ⟨e.closurePrologue (.script ref) (some sf.prog) args, w, .run (some sf.prog) 0, .sfunc ref next :: K⟩ ∧
      ∀ (m : Machine W) (p : Program) (pc : Int) (a : Nat) (v : Val),
        m.control = .run (some p) pc → 0 ≤ pc → p.bcList[pc.toNat]? = some ⟨.return, a⟩ →
        m.conts = .sfunc ref next :: K → m.ev.stack.getLast? = some v → m.ev.curframe.ftype = .sfunc →
        m.ev.curframe.framep = e.stack.length → m.ev.curframe.prevframepos = e.stack.length + args.length + 1 →
        m.ev.stack.take (e.stack.length + args.length + 2) = (e.closurePrologue (.script ref) (some sf.prog) args).stack →
        m.ev.frames[e.frames.length]? = some { e.curframe with pc := e.curframe.pc + 1 } →
        step rt md m = .running ⟨{ m.ev with stack := e.stack ++ [v], curframe := { e.curframe with pc := e.curframe.pc + 1 } },
          m.world, .run (some q) (e.curframe.pc + 1), .sfunc ref next :: K⟩ := by
  refine ⟨by unfold hostStep; simp only [registered, arity, ne_eq, not_true_eq_false, if_false]; rfl, ?_⟩
  intro m p pc a v hc hpc hbc hk hv hft hfp hpos htake hf
  obtain ⟨hm, hS⟩ := intact_marker hpos htake (Evaluator.closurePrologue_marker e _ _ _).1
    (Evaluator.closurePrologue_marker e _ _ _).2
  rw [sfunc_return_resumes rt md hc hpc hbc hk hv (by rw [hft]; decide) hm hf (by simpa using scripted), hfp, hS]

/-- A generator step entered through `runSIter` runs the generator's body in
a frame without a closure, whatever upvalues the generator captured:
`bcLoadUpvalue` and `bcStoreUpvalue` there fail `mustSFunc`'s assertion, and
`bcNewClosure` of a function whose first upvalue is not on the stack fails
the capture assertion. -/
theorem generator_frame_loses_upvalues (e : Evaluator) (w : W) (ref : Nat) (si : ScriptIter) (args : List Val)
    (next : Except String Unit → W → HostCall W) (K : List (Cont W)) (registered : e.siters[ref]? = some si) :
    ∃ e', hostStep rt e (.iterSetUp w ref args next) K =
        .running ⟨e', w, .run (some si.prog) si.pc, .siter ref e.stack (.setUp next) :: K⟩ ∧
      e'.curframe.ftype = .siter ∧ e'.curframe.sfunc = none ∧
      (∀ pc a, execInstr rt md e' w si.prog pc ⟨.loadUpvalue, a⟩ = .error "must existed(sfunc)") ∧
      (∀ pc a, execInstr rt md e' w si.prog pc ⟨.storeUpvalue, a⟩ = .error "must existed(sfunc)") ∧
      (∀ pc a fn uv rest, md.fn[a]? = some fn → fn.progtype = .func → fn.upvalue = uv :: rest → uv.onStack = false →
        execInstr rt md e' w si.prog pc ⟨.newClosure, a⟩ = .error "upvalue capture function not existed?") := by
  have hcur := Evaluator.iterPrologue_curframe { e with stack := si.stack } ref si.prog args
  refine ⟨({ e with stack := si.stack }).iterPrologue ref si.prog args, ?_, hcur.1, ?_, ?_, ?_, ?_⟩
  · unfold hostStep
    simp [Evaluator.runSIterEnter, registered, lift, hcur.2.2, bind, Except.bind, pure, Except.pure]
  all_goals simp [FuncFrame.sfunc, hcur.2.1, execInstr, Evaluator.mustSFunc, Module.fnAt, Module.pool, bind,
    Except.bind]
  intro pc a fn uv rest hfn hty hup hon
  simp [hfn, hty, Evaluator.captureUpvalues_unbound hup hon hcur.2.1]

end Machine

/-- A closure body that returns 5. -/
def returnsFive : Program :=
  { (default : Program) with progtype := .func, bcList := [⟨.loadInt, 0⟩, ⟨.return, 0⟩], dbgList := ["", ""] }

def fiveModule : Module := { (default : Module) with ints := [5] }

/-- An intrinsic frame over two slots, with closure 0 of body `returnsFive`. -/
def intrinsicCaller : Evaluator :=
  { (default : Evaluator) with
    stack := [.null, .null]
    curframe := { ftype := .intrinsic, farg := 0, pc := 1, framep := 0, prog := none, excep := [], closure := none }
    sfuncs := [⟨returnsFive, []⟩] }

/-- Host code that passes the answer of a call back on. -/
def passAnswer : Except String Val → Unit → HostCall Unit := fun r _ => .done () (r.map .val)

/-- Closure 0's entry frame, called back by `intrinsicCaller`, about to
return the 5 it pushed. -/
def calleeReturningFive : Evaluator :=
  { intrinsicCaller.closurePrologue (.script 0) (some returnsFive) [] with
    stack := (intrinsicCaller.closurePrologue (.script 0) (some returnsFive) []).stack ++ [.int 5] }

/-- The intrinsic calls closure 0 back through `runSFunc`, whose body returns
5: the host code gets 5 with the stack one slot higher than before the call
and the intrinsic frame's pc advanced. -/
theorem callback_leaves_result_slot :
    Machine.hostStep default intrinsicCaller (.runSFunc () 0 [] passAnswer) [] =
        .running ⟨intrinsicCaller.closurePrologue (.script 0) (some returnsFive) [], (), .run (some returnsFive) 0,
          [.sfunc 0 passAnswer]⟩ ∧
      Machine.run default fiveModule ⟨calleeReturningFive, (), .run (some returnsFive) 1, [.sfunc 0 passAnswer]⟩ 2 =
        .running ⟨{ calleeReturningFive with
            stack := intrinsicCaller.stack ++ [.int 5]
            curframe := { intrinsicCaller.curframe with pc := 2 } },
          (), .host (passAnswer (.ok (.int 5)) ()), []⟩ :=
  let entered := (Machine.reentry_exits default fiveModule intrinsicCaller () rfl).1 0 ⟨returnsFive, []⟩ []
    passAnswer [] rfl rfl
  ⟨entered.1, entered.2.2.2.1 ⟨calleeReturningFive, (), .run (some returnsFive) 1, [.sfunc 0 passAnswer]⟩ returnsFive 1 0
    (.int 5) rfl (by decide) rfl rfl rfl rfl rfl rfl rfl⟩

/-- A rule that makes closure 0 and hands it to an action: `newClosure 0;
action 0; halt`. -/
def actionRule : Program :=
  { (default : Program) with progtype := .rule, bcList := [⟨.newClosure, 0⟩, ⟨.action, 0⟩, ⟨.halt, 0⟩], dbgList := ["", "", ""] }

/-- The rule at its action, whose host code calls the closure back. The rule
frame's pc is still 0: `runP` refreshes it only at calls. -/
def ruleCaller : Evaluator :=
  { (default : Evaluator) with
    stack := [.null, .null, .frame 0, .closure (.script 0)]
    curframe := { ftype := .rule, farg := 1, pc := 0, framep := 0, prog := some actionRule, excep := [], closure := none }
    frames := [{ FuncFrame.markTop with pc := 1 }]
    sfuncs := [⟨returnsFive, []⟩] }

/-- The closure's entry frame about to return 5. -/
def calleeReturning : Evaluator :=
  { ruleCaller.closurePrologue (.script 0) (some returnsFive) [] with
    stack := (ruleCaller.closurePrologue (.script 0) (some returnsFive) []).stack ++ [.int 5] }

theorem action_callback_resumes_rule :
    ruleCaller.curframe.prog = some actionRule ∧
      Machine.step default fiveModule ⟨calleeReturning, (), .run (some returnsFive) 1, [.sfunc 0 passAnswer]⟩ =
        .running ⟨{ calleeReturning with
            stack := ruleCaller.stack ++ [.int 5]
            curframe := { ruleCaller.curframe with pc := 1 } }, (), .run (some actionRule) 1, [.sfunc 0 passAnswer]⟩ :=
  ⟨rfl, (Machine.reentry_resumes_caller default fiveModule ruleCaller () rfl 0 ⟨returnsFive, []⟩ [] passAnswer []
    rfl rfl).2 ⟨calleeReturning, (), .run (some returnsFive) 1, [.sfunc 0 passAnswer]⟩ returnsFive 1 0 (.int 5)
    rfl (by decide) rfl rfl rfl rfl rfl rfl rfl rfl⟩

/-- A generator that loads its upvalue 0 and yields it. -/
def upvalueGen : Program :=
  { (default : Program) with
    progtype := .iter
    bcList := [⟨.loadUpvalue, 0⟩, ⟨.yield, 0⟩]
    dbgList := ["", ""]
    upvalue := [⟨true, 0⟩] }

/-- A caller holding a generator of `upvalueGen` that captured 7. -/
def generatorCaller : Evaluator :=
  { (default : Evaluator) with siters := [{ ScriptIter.new upvalueGen with upvalue := [.int 7] }] }

theorem setUp_cannot_load_upvalue :
    ∃ e', e'.curframe.sfunc = none ∧
      ∀ pc, execInstr default fiveModule e' () upvalueGen pc ⟨.loadUpvalue, 0⟩ = .error "must existed(sfunc)" :=
  let ⟨e', _, _, hs, hload, _⟩ := Machine.generator_frame_loses_upvalues default fiveModule generatorCaller () 0
    { ScriptIter.new upvalueGen with upvalue := [.int 7] } [] (fun r w => .done w (r.map fun _ => .unit)) [] rfl
  ⟨e', hs, fun pc => hload pc 0⟩

end Moons.Pl
