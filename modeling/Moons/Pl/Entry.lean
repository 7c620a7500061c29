import Moons.Pl.Heap

/-!
# Entry points and the event queue

`runRuleImpl` sets the evaluator up for one rule and runs the machine until
the rule's driver returns; the module's entry points (`EvalConfig`,
`EvalGlobal`, `EvalSession`, `Eval`, `EvalWithContext`, `EvalDeferred`) run
lists of rules, and all but `EvalConfig` and `EvalDeferred` drain the event
queue in a deferred call on their way out.

Go runs these to completion or forever; the model runs the machine for at
most `fuel` steps, and `none` means the steps ran out. A Go panic is the
outer `Except`'s error.
-/

set_option autoImplicit false

namespace Moons.Pl

/-- `EventContextContinue`, `EventContextPuase` and `EventContextStopAndClear`. -/
def eventContextContinue : Int := 0
def eventContextPause : Int := 1
def eventContextStopAndClear : Int := 2

namespace Evaluator

/-- `runRuleImpl`'s set-up before its loop: an empty stack, no exception, the
top frame, a null marker under the event, then the rule's frame over them. -/
def ruleEntry (e : Evaluator) (event : Val) (prog : Program) : Evaluator :=
  (({ e with stack := [], curexcep := .null, curframe := FuncFrame.markTop }.push .null).push event).prologue
    .rule 1 (some prog) none

end Evaluator

namespace Module

/-- `HasConfig`, `HasGlobal` and `HasSession`. Modelled from the spec: a
module has the entry programs of that kind. -/
def hasConfig (md : Module) : Bool := md.config.isSome
def hasGlobal (md : Module) : Bool := !md.globalProgram.isEmpty
def hasSession (md : Module) : Bool := !md.session.isEmpty

end Module

section

variable {W : Type} (rt : Runtime W) (md : Module)

/-- What an entry point returns, with the evaluator and world it leaves:
`none` when the fuel ran out, a panic's text, or the Go results. -/
abbrev EntryResult (W α : Type) := Option (Except String (Evaluator × W × α))

/-- `runRuleImpl(event, prog)`: the rule's value, error and `nextRule` flag. -/
def runRuleImpl (fuel : Nat) (e : Evaluator) (w : W) (event : Val) (prog : Program) :
    EntryResult W RuleResult :=
  match Machine.run rt md ⟨e.ruleEntry event prog, w, .run (some prog) 0, [.rule]⟩ fuel with
  | .finished e w r => some (.ok (e, w, r))
  | .panicked msg => some (.error msg)
  | .running _ => none

/-- `runRuleList(event, progList)`: run the rules in order until one does not
ask for the next rule. -/
def runRuleList (fuel : Nat) (event : Val) :
    List Program → Evaluator → W → EntryResult W (Val × Option String)
  | [], e, w => some (.ok (e, w, .null, none))
  | prog :: progs, e, w =>
    match runRuleImpl rt md fuel e w event prog with
    | some (.ok (e, w, r)) =>
      if r.nextRule then runRuleList fuel event progs e w else some (.ok (e, w, r.value, r.err))
    | some (.error msg) => some (.error msg)
    | none => none

/-- The loop of `EvalGlobal` and `EvalSession`: `runRule(null, prog)` for each
program, stopping at the first error. -/
def runEach (fuel : Nat) : List Program → Evaluator → W → EntryResult W (Option String)
  | [], e, w => some (.ok (e, w, none))
  | prog :: progs, e, w =>
    match runRuleImpl rt md fuel e w .null prog with
    | some (.ok (e, w, r)) =>
      match r.err with
      | some err => some (.ok (e, w, some err))
      | none => runEach fuel progs e w
    | some (.error msg) => some (.error msg)
    | none => none

/-- `EvalDeferred(name, context, p)`. -/
def evalDeferred (fuel : Nat) (name : String) (context : Val) (e : Evaluator) (w : W) :
    EntryResult W (Val × Option String) :=
  match md.findEvent name with
  | some plist => runRuleList rt md fuel context plist e w
  | none => some (.ok (e, w, .null, none))

/-- The event queue's `Drain(e, p, callback)`. Modelled from the spec: the
in-memory queue hands its events out in FIFO order to `EvalDeferred`, and
on an error asks `callback` whether to go on. The callback is
`drainEventQueue`'s: it records `OnEventError`'s answer in `status`, when the
host has an `EventContext`, and goes on while `status` is
`EventContextContinue`. -/
def drain : Nat → Evaluator → W → Int → EntryResult W Int
  | 0, _, _, _ => none
  | fuel + 1, e, w, status =>
    match e.eventQ with
    | [] => some (.ok (e, w, status))
    | (name, context) :: rest =>
      match evalDeferred rt md fuel name context { e with eventQ := rest } w with
      | some (.ok (e, w, _, none)) => drain fuel e w status
      | some (.ok (e, w, _, some err)) =>
        let status := match rt.onEventError with
          | some onError => onError w name err
          | none => status
        if status = eventContextContinue then drain fuel e w status else some (.ok (e, w, status))
      | some (.error msg) => some (.error msg)
      | none => none

/-- `drainEventQueue(p)`: drain unless a drain is in progress; clear the
queue if the host answered `EventContextStopAndClear`. -/
def drainEventQueue (fuel : Nat) (e : Evaluator) (w : W) : EntryResult W Unit :=
  if e.inEventQueue then some (.ok (e, w, ()))
  else
    match drain rt md fuel { e with inEventQueue := true } w eventContextContinue with
    | some (.ok (e, w, status)) =>
      let e := if status = eventContextStopAndClear then { e with eventQ := [] } else e
      some (.ok ({ e with inEventQueue := false }, w, ()))
    | some (.error msg) => some (.error msg)
    | none => none

/-- `defer e.drainEventQueue(p)` around an entry point's body: the drain runs
on every path by which the body returns. -/
def withDrain {α : Type} (fuel : Nat) (body : EntryResult W α) : EntryResult W α :=
  match body with
  | some (.ok (e, w, a)) =>
    match drainEventQueue rt md fuel e w with
    | some (.ok (e, w, ())) => some (.ok (e, w, a))
    | some (.error msg) => some (.error msg)
    | none => none
  | r => r

/-- `EvalConfig(p)`: no deferred drain. -/
def evalConfig (fuel : Nat) (e : Evaluator) (w : W) : EntryResult W (Option String) :=
  match md.config with
  | none => some (.ok (e, w, none))
  | some config =>
    if !rt.hasConfig then some (.ok (e, w, some "evaluator's Config is not set"))
    else
      match runRuleImpl rt md fuel e w .null config with
      | some (.ok (e, w, r)) => some (.ok (e, w, r.err))
      | some (.error msg) => some (.error msg)
      | none => none

/-- `EvalGlobal(p)`: reset the global store, run the global programs. -/
def evalGlobal (fuel : Nat) (e : Evaluator) (w : W) : EntryResult W (Option String) :=
  withDrain rt md fuel <|
    if !md.hasGlobal then some (.ok (e, w, none))
    else runEach rt md fuel md.globalProgram { e with globals := [] } w

/-- `EvalSession(p)`: reset the session, run the session programs. -/
def evalSession (fuel : Nat) (e : Evaluator) (w : W) : EntryResult W (Option String) :=
  withDrain rt md fuel <|
    if !md.hasSession then some (.ok (e, w, none))
    else runEach rt md fuel md.session { e with session := [] } w

/-- `Eval(event, p)`: the event's rules get a null event value. -/
def eval (fuel : Nat) (event : String) (e : Evaluator) (w : W) : EntryResult W (Val × Option String) :=
  withDrain rt md fuel <|
    match md.findEvent event with
    | some plist => runRuleList rt md fuel .null plist e w
    | none => some (.ok (e, w, .null, none))

/-- `EvalWithContext(event, context, p)`. -/
def evalWithContext (fuel : Nat) (event : String) (context : Val) (e : Evaluator) (w : W) :
    EntryResult W (Val × Option String) :=
  withDrain rt md fuel <|
    match md.findEvent event with
    | some plist => runRuleList rt md fuel context plist e w
    | none => some (.ok (e, w, .null, none))

/-! ## What a run leaves of the queue -/

variable {rt md}

theorem Evaluator.ruleEntry_grows (e : Evaluator) (event : Val) (prog : Program) :
    Grows e (e.ruleEntry event prog) :=
  ⟨rfl, List.prefix_refl _, Nat.le_refl _⟩

theorem runRuleImpl_grows {fuel : Nat} {e e' : Evaluator} {w w' : W} {event : Val} {prog : Program}
    {r : RuleResult} (ran : runRuleImpl rt md fuel e w event prog = some (.ok (e', w', r))) : Grows e e' := by
  unfold runRuleImpl at ran
  split at ran
  · obtain ⟨m₁, steps, finished⟩ := Machine.run_finished rt md ‹_›
    simp only [Option.some.injEq, Except.ok.injEq, Prod.mk.injEq] at ran
    obtain ⟨rfl, -, -⟩ := ran
    exact (e.ruleEntry_grows event prog).trans (steps.grows.trans (Machine.step_finished rt md finished).grows)
  · cases ran
  · cases ran

theorem runRuleList_grows {fuel : Nat} {event : Val} :
    ∀ {progs : List Program} {e e' : Evaluator} {w w' : W} {res : Val × Option String},
      runRuleList rt md fuel event progs e w = some (.ok (e', w', res)) → Grows e e'
  | [], e, e', w, w', res, h => by
    simp only [runRuleList, Option.some.injEq, Except.ok.injEq, Prod.mk.injEq] at h
    obtain ⟨rfl, -⟩ := h
    exact Grows.refl e
  | prog :: progs, e, e', w, w', res, h => by
    unfold runRuleList at h
    split at h
    · rename_i e₁ w₁ r hrun
      split at h
      · exact (runRuleImpl_grows hrun).trans (runRuleList_grows h)
      · simp only [Option.some.injEq, Except.ok.injEq, Prod.mk.injEq] at h
        obtain ⟨rfl, -⟩ := h
        exact runRuleImpl_grows hrun
    · cases h
    · cases h

theorem runEach_grows {fuel : Nat} :
    ∀ {progs : List Program} {e e' : Evaluator} {w w' : W} {err : Option String},
      runEach rt md fuel progs e w = some (.ok (e', w', err)) → Grows e e'
  | [], e, e', w, w', err, h => by
    simp only [runEach, Option.some.injEq, Except.ok.injEq, Prod.mk.injEq] at h
    obtain ⟨rfl, -⟩ := h
    exact Grows.refl e
  | prog :: progs, e, e', w, w', err, h => by
    unfold runEach at h
    split at h
    · rename_i e₁ w₁ r hrun
      split at h
      · simp only [Option.some.injEq, Except.ok.injEq, Prod.mk.injEq] at h
        obtain ⟨rfl, -⟩ := h
        exact runRuleImpl_grows hrun
      · exact (runRuleImpl_grows hrun).trans (runEach_grows h)
    · cases h
    · cases h

section Dispatch

variable (rt md)

end Dispatch

/-! ## The drain -/

theorem drainEventQueue_of_draining {fuel : Nat} {e : Evaluator} {w : W} (draining : e.inEventQueue = true) :
    drainEventQueue rt md fuel e w = some (.ok (e, w, ())) := by
  simp [drainEventQueue, draining]

section

variable {α : Type} {fuel : Nat} {body : EntryResult W α}

theorem withDrain_of_draining {e₀ : Evaluator} {w₀ : W} {a : α} (bodyOk : body = some (.ok (e₀, w₀, a)))
    (draining : e₀.inEventQueue = true) : withDrain rt md fuel body = body := by
  subst bodyOk
  simp [withDrain, drainEventQueue_of_draining draining]

end

theorem evalGlobal_body_grows {fuel : Nat} {e e₀ : Evaluator} {w w₀ : W} {err : Option String}
    (ran : (if !md.hasGlobal then some (.ok (e, w, none)) else runEach rt md fuel md.globalProgram
      { e with globals := [] } w) = some (.ok (e₀, w₀, err))) : Grows e e₀ := by
  split at ran
  · simp only [Option.some.injEq, Except.ok.injEq, Prod.mk.injEq] at ran
    obtain ⟨rfl, -⟩ := ran
    exact Grows.refl e
  · refine Grows.trans ?_ (runEach_grows ran)
    exact ⟨rfl, List.prefix_refl _, Nat.le_refl _⟩

theorem evalSession_body_grows {fuel : Nat} {e e₀ : Evaluator} {w w₀ : W} {err : Option String}
    (ran : (if !md.hasSession then some (.ok (e, w, none)) else runEach rt md fuel md.session
      { e with session := [] } w) = some (.ok (e₀, w₀, err))) : Grows e e₀ := by
  split at ran
  · simp only [Option.some.injEq, Except.ok.injEq, Prod.mk.injEq] at ran
    obtain ⟨rfl, -⟩ := ran
    exact Grows.refl e
  · refine Grows.trans ?_ (runEach_grows ran)
    exact ⟨rfl, List.prefix_refl _, Nat.le_refl _⟩

theorem evalEvent_body_grows {fuel : Nat} {event : String} {context : Val} {e e₀ : Evaluator} {w w₀ : W}
    {res : Val × Option String}
    (ran : (match md.findEvent event with
      | some plist => runRuleList rt md fuel context plist e w
      | none => some (.ok (e, w, .null, none))) = some (.ok (e₀, w₀, res))) : Grows e e₀ := by
  split at ran
  · exact runRuleList_grows ran
  · simp only [Option.some.injEq, Except.ok.injEq, Prod.mk.injEq] at ran
    obtain ⟨rfl, -⟩ := ran
    exact Grows.refl e

/-- An evaluator with event `"x"` queued and no drain running. -/
def queuedEvaluator : Evaluator := { (default : Evaluator) with eventQ := [("x", .null)] }

/-- An entry point called while a drain runs starts no drain of its own: the
events it emits stay queued behind the others, for the drain in progress. -/
theorem entry_points_inside_drain {fuel : Nat} {e e' : Evaluator} {w w' : W} (draining : e.inEventQueue = true) :
    (∀ err, evalGlobal rt md fuel e w = some (.ok (e', w', err)) → Grows e e') ∧
    (∀ err, evalSession rt md fuel e w = some (.ok (e', w', err)) → Grows e e') ∧
    (∀ event res, eval rt md fuel event e w = some (.ok (e', w', res)) → Grows e e') ∧
    (∀ event context res, evalWithContext rt md fuel event context e w = some (.ok (e', w', res)) →
      Grows e e') := by
  have inside : ∀ {α : Type} {body : EntryResult W α} {a : α},
      (∀ e₀ w₀ a₀, body = some (.ok (e₀, w₀, a₀)) → Grows e e₀) →
      withDrain rt md fuel body = some (.ok (e', w', a)) → Grows e e' := by
    intro α body a hgrow h
    rcases hb : body with _ | _ | ⟨e₀, w₀, a₀⟩
    · simp [withDrain, hb] at h
    · simp [withDrain, hb] at h
    · have grew := hgrow e₀ w₀ a₀ hb
      rw [withDrain_of_draining hb (grew.inEventQueue.trans draining), hb] at h
      simp only [Option.some.injEq, Except.ok.injEq, Prod.mk.injEq] at h
      obtain ⟨rfl, -⟩ := h
      exact grew
  exact ⟨fun _ => inside fun _ _ _ hb => evalGlobal_body_grows hb,
    fun _ => inside fun _ _ _ hb => evalSession_body_grows hb,
    fun _ _ => inside fun _ _ _ hb => evalEvent_body_grows hb,
    fun _ _ _ => inside fun _ _ _ hb => evalEvent_body_grows hb⟩

/-- The same queue, met by an entry point called from inside a drain. -/
def drainingEvaluator : Evaluator := { queuedEvaluator with inEventQueue := true }

theorem eval_inside_drain_keeps_queue :
    drainingEvaluator.inEventQueue = true ∧
      ∃ e' w' res, eval (default : Runtime Unit) default 10 "y" drainingEvaluator () = some (.ok (e', w', res)) ∧
        e'.eventQ = [("x", .null)] ∧ Grows drainingEvaluator e' :=
  ⟨rfl, _, _, _, rfl, rfl, (@entry_points_inside_drain Unit default default 10 drainingEvaluator _ () _ rfl).2.2.1 "y" _ rfl⟩

end

/-! ## `EvalConfig` does not drain -/

/-- A config program that emits event `"x"` with a null context and halts. -/
def emittingConfig : Program :=
  { (default : Program) with
    progtype := .config
    bcList := [⟨.loadStr, 0⟩, ⟨.loadNull, 0⟩, ⟨.emit, 0⟩, ⟨.halt, 0⟩]
    dbgList := ["", "", "", ""] }

def emittingModule : Module := { (default : Module) with strs := ["x"], config := some emittingConfig }

/-- A host with an `EvalConfig` and nothing else. -/
def configHost : Runtime Unit := { (default : Runtime Unit) with hasConfig := true }

/-- `EvalConfig`, called while no drain runs, returns without error with the
event its program emitted still queued: nothing drained it. -/
theorem evalConfig_leaves_event_queued :
    ∃ e' w', evalConfig configHost emittingModule 10 default () = some (.ok (e', w', none)) ∧
      (default : Evaluator).inEventQueue = false ∧ e'.eventQ = [("x", .null)] ∧ e'.inEventQueue = false :=
  ⟨_, _, rfl, rfl, rfl, rfl⟩

/-! ## The report of an arity mismatch -/

/-- A function of one parameter. -/
def needsOne : Program :=
  { (default : Program) with progtype := .func, argSize := 1, bcList := [⟨.loadNull, 0⟩, ⟨.return, 0⟩], dbgList := ["", ""] }

/-- A rule that calls function 0 with no argument at its pc 3. -/
def mismatchRule : Program :=
  { (default : Program) with
    progtype := .rule
    bcList := [⟨.loadNull, 0⟩, ⟨.pop, 0⟩, ⟨.loadInt, 0⟩, ⟨.sCall, 0⟩]
    dbgList := ["", "", "", ""] }

def mismatchModule : Module := { (default : Module) with fn := [needsOne], ints := [0] }

section Arity

variable {W : Type} (rt : Runtime W) (md : Module)

end Arity

/-- `bcSCall` sets `prog` to the callee before its arity check, so the error
escapes paired with the callee and the caller's pc 3; `doErr` then reads the
callee's `dbgList[3]`, past its two entries, and the run panics. -/
theorem arity_mismatch_report_panics :
    runRuleImpl default mismatchModule 10 default () .null mismatchRule = some (.error "index out of range") :=
  rfl

end Moons.Pl
