import Moons.Pl.Instruction

/-!
# The heaps and the event queue over a run

`Instruction` follows the stack; this module follows what lives beside it:
the closure heap `sfuncs`, the generator and frame heaps, the event queue and
the drain flag. `HeapEffect` says once what an instruction may do to them;
the machine's other steps (host replies, re-entries, drivers) leave the
closure heap, the queue and the flag alone (`Calm`). A run is a sequence of
machine steps (`Machine.Steps`), and the run lemmas follow from the step
lemmas by induction.
-/

set_option autoImplicit false

namespace Moons.Pl

/-- The evaluator an iteration of `runP` leaves. -/
def Step.ev {W : Type} : Step W → Evaluator
  | .next e .. | .ret e .. | .host e .. | .spin e .. => e

namespace Evaluator

/-- The upvalue `i` of closure `ref`, when both exist. -/
def upvalueAt (e : Evaluator) (ref i : Nat) : Option Val :=
  e.sfuncs[ref]?.bind (·.upvalue[i]?)

theorem mustSFunc_eq_ok {e : Evaluator} {r : Nat × ScriptFunc} :
    e.mustSFunc = .ok r ↔ e.curframe.sfunc = some r.1 ∧ e.sfuncs[r.1]? = some r.2 := by
  unfold mustSFunc
  split <;> rename_i hs
  · simp [hs]
  · split <;> rename_i hf
    · simp only [reduceCtorEq, false_iff, not_and, hs, Option.some.injEq]
      rintro rfl; simp [hf]
    · simp only [Except.ok.injEq, hs, Option.some.injEq]
      constructor
      · rintro rfl; exact ⟨rfl, hf⟩
      · rintro ⟨h₁, h₂⟩; subst h₁; exact Prod.ext rfl (Option.some.inj (hf.symm.trans h₂))

/-- `e'` is `e` with another stack, current frame and current exception: all
that the frame and unwind primitives change. -/
structure FrameOnly (e e' : Evaluator) : Prop where
  session : e'.session = e.session
  eventQ : e'.eventQ = e.eventQ
  inEventQueue : e'.inEventQueue = e.inEventQueue
  frames : e'.frames = e.frames
  sfuncs : e'.sfuncs = e.sfuncs
  siters : e'.siters = e.siters
  globals : e'.globals = e.globals

namespace FrameOnly

theorem refl (e : Evaluator) : e.FrameOnly e := ⟨rfl, rfl, rfl, rfl, rfl, rfl, rfl⟩

theorem trans {e₁ e₂ e₃ : Evaluator} (first : e₁.FrameOnly e₂) (second : e₂.FrameOnly e₃) : e₁.FrameOnly e₃ :=
  ⟨second.1.trans first.1, second.2.trans first.2, second.3.trans first.3, second.4.trans first.4, second.5.trans first.5, second.6.trans first.6,
    second.7.trans first.7⟩

end FrameOnly

section

variable {e : Evaluator}

theorem popfuncframe_frameOnly {prev : Nat} {r : Int × Option Program × Evaluator}
    (popped : e.popfuncframe prev = .ok r) : e.FrameOnly r.2.2 := by
  obtain ⟨-, ff, -, rfl⟩ := popfuncframe_eq_ok.mp popped
  exact ⟨rfl, rfl, rfl, rfl, rfl, rfl, rfl⟩

theorem epilogue_frameOnly {v : Val} {isMethod : Bool} {r : Int × Option Program × Evaluator}
    (returned : e.epilogue v isMethod = .ok r) : e.FrameOnly r.2.2 := by
  obtain ⟨prev, pc, prog, e₁, e₂, -, hpop, he₂, rfl⟩ := epilogue_eq_ok.mp returned
  have poppedOnly := popfuncframe_frameOnly hpop
  cases isMethod <;> simp only [if_true, if_false, Bool.false_eq_true, Except.ok.injEq, pop_eq_ok] at he₂
  · subst he₂; exact poppedOnly.trans ⟨rfl, rfl, rfl, rfl, rfl, rfl, rfl⟩
  · obtain ⟨-, rfl⟩ := he₂; exact poppedOnly.trans ⟨rfl, rfl, rfl, rfl, rfl, rfl, rfl⟩

theorem catchAt_frameOnly {xp : Exception} {err : String} {bt : List FuncFrame} {r : Unwound × Evaluator}
    (caught : e.catchAt xp err bt = .ok r) : e.FrameOnly r.2 := by
  simp only [catchAt, except_bind_eq_ok, except_pure_eq_ok, popTo_eq_ok, popExcep_eq_ok] at caught
  obtain ⟨_, ⟨-, rfl⟩, _, ⟨-, rfl⟩, rfl⟩ := caught
  exact ⟨rfl, rfl, rfl, rfl, rfl, rfl, rfl⟩

theorem unwindLoop_frameOnly {breaker : FuncFrame → Bool} {err : String} :
    ∀ {fuel : Nat} {e : Evaluator} {bt : List FuncFrame} {r : Unwound × Evaluator},
      e.unwindLoop breaker err fuel bt = .ok r → e.FrameOnly r.2
  | 0, _, _, _, h => by simp [unwindLoop] at h
  | fuel + 1, e, bt, r, h => by
    unfold unwindLoop at h
    split at h
    · simp only [pure, Except.pure, Except.ok.injEq] at h; subst h; exact FrameOnly.refl _
    · split at h
      · exact catchAt_frameOnly h
      · simp only [except_bind_eq_ok] at h
        obtain ⟨_, -, _, -, ⟨_, _, e₁⟩, hpf, h⟩ := h
        exact (popfuncframe_frameOnly hpf).trans (unwindLoop_frameOnly h)

theorem unwindForExcep_frameOnly {breaker : FuncFrame → Bool} {err : String} {r : Unwound × Evaluator}
    (unwound : e.unwindForExcep breaker err = .ok r) : e.FrameOnly r.2 :=
  unwindLoop_frameOnly unwound

end

end Evaluator

/-- What the instruction `op` with argument `a` may do beside the stack:
`emit` appends one event, `newClosure` allocates a closure, `storeUpvalue`
writes slot `a` of the running closure's upvalues, `loadIterator` allocates a
generator and the calls push a frame marker. The drain flag never changes. -/
structure HeapEffect (op : Opcode) (a : Nat) (e e' : Evaluator) : Prop where
  inEventQueue : e'.inEventQueue = e.inEventQueue
  eventQ : e'.eventQ = e.eventQ ∨ op = .emit ∧ ∃ ev, e'.eventQ = e.eventQ ++ [ev]
  sfuncs : e'.sfuncs = e.sfuncs ∨ op = .newClosure ∧ (∃ sf, e'.sfuncs = e.sfuncs ++ [sf]) ∨
    op = .storeUpvalue ∧ ∃ ref sf v, e.curframe.sfunc = some ref ∧ e.sfuncs[ref]? = some sf ∧
      e'.sfuncs = e.sfuncs.set ref { sf with upvalue := sf.upvalue.set a v }
  siters : e'.siters = e.siters ∨ ∃ si : ScriptIter, si.stack = [] ∧ e'.siters = e.siters ++ [si]
  frames : e'.frames = e.frames ∨ ∃ ff, e'.frames = e.frames ++ [ff]

/-- A step that runs no instruction: the drain flag, the event queue and the
closure heap are as they were. -/
structure Calm (e e' : Evaluator) : Prop where
  inEventQueue : e'.inEventQueue = e.inEventQueue
  eventQ : e'.eventQ = e.eventQ
  sfuncs : e'.sfuncs = e.sfuncs

namespace Calm

theorem refl (e : Evaluator) : Calm e e := ⟨rfl, rfl, rfl⟩

theorem trans {e₁ e₂ e₃ : Evaluator} (first : Calm e₁ e₂) (second : Calm e₂ e₃) : Calm e₁ e₃ :=
  ⟨second.inEventQueue.trans first.inEventQueue, second.eventQ.trans first.eventQ, second.sfuncs.trans first.sfuncs⟩

theorem of_frameOnly {e e' : Evaluator} (frameOnly : e.FrameOnly e') : Calm e e' :=
  ⟨frameOnly.inEventQueue, frameOnly.eventQ, frameOnly.sfuncs⟩

end Calm

theorem HeapEffect.of_frameOnly {op : Opcode} {a : Nat} {e e' : Evaluator} (frameOnly : e.FrameOnly e') :
    HeapEffect op a e e' :=
  ⟨frameOnly.inEventQueue, .inl frameOnly.eventQ, .inl frameOnly.sfuncs, .inl frameOnly.siters, .inl frameOnly.frames⟩

/-! ## One instruction -/

section

variable {W : Type} (rt : Runtime W) (md : Module)
variable {e e' : Evaluator} {w : W} {prog : Program} {pc : Int}

theorem execInstr_heap {op : Opcode} {a : Nat} {s : Step W}
    (exec : execInstr rt md e w prog pc ⟨op, a⟩ = .ok s) : HeapEffect op a e s.ev := by
  cases op <;>
    simp only [execInstr, bind, Except.bind, pure, Except.pure, throw, throwThe, MonadExceptOf.throw] at exec <;>
    repeat' (split at exec)
  all_goals (simp only [Except.ok.injEq, reduceCtorEq] at exec)
  all_goals (subst exec)
  all_goals (simp_all only [Step.ev, Evaluator.popN_eq_ok, Evaluator.pop_eq_ok, Evaluator.setSlot_eq_ok,
    Evaluator.popExcep_eq_ok, Evaluator.globalAdd_eq_some, Evaluator.storeGlobal_eq_some])
  all_goals first
    | exact ⟨rfl, .inl rfl, .inl rfl, .inl rfl, .inl rfl⟩
    | exact HeapEffect.of_frameOnly (Evaluator.epilogue_frameOnly ‹_›)
    | exact ⟨rfl,
    by first | exact Or.inl rfl | exact Or.inr ⟨rfl, _, rfl⟩,
    by first | exact Or.inl rfl | exact Or.inr (Or.inl ⟨rfl, _, rfl⟩) |
      exact Or.inr (Or.inr ⟨rfl, _, _, _, (Evaluator.mustSFunc_eq_ok.mp ‹_›).1,
        (Evaluator.mustSFunc_eq_ok.mp ‹_›).2, rfl⟩),
    by first | exact Or.inl rfl | exact Or.inr ⟨_, rfl, rfl⟩,
    by first | exact Or.inl rfl | exact Or.inr ⟨_, rfl⟩⟩

theorem resume_calm {e : Evaluator} {k : Pending} {answer : Except String Reply} {s : Step W}
    (resumed : resume e w k answer = .ok s) : Calm e s.ev := by
  cases k <;> rcases answer with _ | (_ | _ | _ | _ | _) <;> unfold resume at resumed <;>
    simp only [bind, Except.bind, pure, Except.pure, throw, throwThe, MonadExceptOf.throw] at resumed <;>
    repeat' (split at resumed)
  all_goals (simp only [Except.ok.injEq, reduceCtorEq] at resumed)
  all_goals (subst resumed)
  all_goals (simp_all only [Step.ev, Evaluator.popN_eq_ok, Evaluator.pop_eq_ok])
  all_goals first
    | exact Calm.of_frameOnly (Evaluator.epilogue_frameOnly ‹_›)
    | exact ⟨rfl, rfl, rfl⟩

end

/-! ## Closures -/

theorem mapM_eq_ok {α β ε : Type} {f : α → Except ε β} :
    ∀ {l : List α} {r : List β}, l.mapM f = .ok r →
      r.length = l.length ∧ ∀ (i : Nat) x, l[i]? = some x → ∃ y, f x = .ok y ∧ r[i]? = some y
  | [], r, h => by
    rw [List.mapM_nil, except_pure_eq_ok] at h
    subst h
    simp
  | a :: l, r, h => by
    rw [List.mapM_cons] at h
    simp only [except_bind_eq_ok, except_pure_eq_ok] at h
    obtain ⟨b, hb, bs, hbs, rfl⟩ := h
    obtain ⟨hlen, hall⟩ := mapM_eq_ok hbs
    refine ⟨by simp [hlen], fun i x hx => ?_⟩
    cases i with
    | zero =>
      rw [List.getElem?_cons_zero, Option.some.injEq] at hx
      exact ⟨b, hx ▸ hb, List.getElem?_cons_zero⟩
    | succ i =>
      rw [List.getElem?_cons_succ] at hx ⊢
      exact hall i x hx

namespace Evaluator

/-- `v` is what `bcNewClosure` captures in state `e` for descriptor `d`: the
current frame's local slot `d.index`, or upvalue `d.index` of the closure the
frame runs. -/
def Captures (e : Evaluator) (d : UpvalueDesc) (v : Val) : Prop :=
  if d.onStack then e.stack[e.curframe.localslot d.index]? = some v
  else ∃ ref, e.curframe.sfunc = some ref ∧ e.upvalueAt ref d.index = some v

theorem captureUpvalues_eq_ok {e : Evaluator} {fn : Program} {ups : List Val}
    (captured : e.captureUpvalues fn = .ok ups) :
    ups.length = fn.upvalue.length ∧
      ∀ (i : Nat) d, fn.upvalue[i]? = some d → ∃ v, ups[i]? = some v ∧ e.Captures d v := by
  obtain ⟨hlen, hall⟩ := mapM_eq_ok captured
  refine ⟨hlen, fun i d hd => ?_⟩
  obtain ⟨v, hv, hi⟩ := hall i d hd
  refine ⟨v, hi, ?_⟩
  unfold Captures
  split at hv
  · rename_i hon
    rw [if_pos hon]
    exact slot_eq_ok.mp hv
  · rename_i hon
    rw [if_neg hon]
    split at hv
    · cases hv
    · rename_i ref hs
      split at hv
      · cases hv
      · rename_i sf hsf
        exact ⟨ref, hs, by rw [upvalueAt, hsf, Option.some_bind]; exact Module.pool_eq_ok.mp hv⟩

end Evaluator

section

variable {W : Type} (rt : Runtime W) (md : Module)
variable {e : Evaluator} {w : W} {prog : Program} {pc : Int}

theorem execInstr_newClosure {a : Nat} {e' : Evaluator} {w' : W} {prog' : Option Program} {pc' : Int}
    (exec : execInstr rt md e w prog pc ⟨.newClosure, a⟩ = .ok (.next e' w' prog' pc')) :
    ∃ fn ups, md.fn[a]? = some fn ∧ e.captureUpvalues fn = .ok ups ∧
      e' = { e with sfuncs := e.sfuncs ++ [ScriptFunc.mk fn ups] }.push (.closure (.script e.sfuncs.length)) := by
  simp only [execInstr, except_bind_eq_ok, Module.fnAt, Module.pool_eq_ok] at exec
  obtain ⟨fn, hfn, exec⟩ := exec
  split at exec
  · simp [pure, Except.pure] at exec
  · simp only [except_bind_eq_ok, except_pure_eq_ok, Step.next.injEq] at exec
    obtain ⟨ups, hups, rfl, -⟩ := exec
    exact ⟨fn, ups, hfn, hups, rfl⟩

theorem execInstr_loadUpvalue {i ref : Nat} {v : Val} (inClosure : e.curframe.sfunc = some ref)
    (upvalue : e.upvalueAt ref i = some v) :
    execInstr rt md e w prog pc ⟨.loadUpvalue, i⟩ = .ok (.next (e.push v) w prog (pc + 1)) := by
  unfold Evaluator.upvalueAt at upvalue
  cases hsf : e.sfuncs[ref]? with
  | none => simp [hsf] at upvalue
  | some sf =>
    rw [hsf, Option.some_bind] at upvalue
    simp [execInstr, Evaluator.mustSFunc, inClosure, hsf, Module.pool, upvalue, bind, Except.bind, pure, Except.pure]

theorem execInstr_storeUpvalue {i ref : Nat} {s : Step W} (inClosure : e.curframe.sfunc = some ref)
    (exec : execInstr rt md e w prog pc ⟨.storeUpvalue, i⟩ = .ok s) :
    ∃ v, e.stack.getLast? = some v ∧ s.ev.upvalueAt ref i = some v := by
  simp only [execInstr, except_bind_eq_ok] at exec
  obtain ⟨⟨ref', sf⟩, hsf, v, hv, exec⟩ := exec
  obtain ⟨hs', hsf⟩ := Evaluator.mustSFunc_eq_ok.mp hsf
  obtain rfl : ref = ref' := Option.some.inj (inClosure.symm.trans hs')
  split at exec
  · simp only [except_bind_eq_ok, except_pure_eq_ok, Evaluator.pop_eq_ok] at exec
    obtain ⟨_, ⟨-, rfl⟩, rfl⟩ := exec
    refine ⟨v, ?_, ?_⟩
    · rw [Evaluator.topN_eq_ok] at hv
      rw [List.getLast?_eq_getElem?]
      simpa using hv.2
    · have inTable : ref < e.sfuncs.length := (List.getElem?_eq_some_iff.mp hsf).1
      simp [Step.ev, Evaluator.upvalueAt, List.getElem?_set_self inTable, ‹i < sf.upvalue.length›]
  · cases exec

end

/-! ## The machine's other steps -/

/-- What an outcome keeps of the evaluator `e` it came from. -/
def Outcome.Calm {W : Type} (e : Evaluator) : Outcome W → Prop
  | .running m => Pl.Calm e m.ev
  | .finished e' _ _ => Pl.Calm e e'
  | .panicked _ => True

namespace Evaluator

variable {e e' : Evaluator} {ref : Nat}

theorem siterSuspend_calm (suspended : e.siterSuspend ref = .ok e') : Calm e e' := by
  simp only [siterSuspend, except_bind_eq_ok, except_pure_eq_ok] at suspended
  obtain ⟨_, -, _, -, rfl⟩ := suspended
  exact ⟨rfl, rfl, rfl⟩

theorem runSIterEnter_calm {args : List Val} {r : List Val × Option Program × Int × Evaluator}
    (entered : e.runSIterEnter ref args = .ok r) : Calm e r.2.2.2 := by
  unfold runSIterEnter at entered
  split at entered
  · cases entered
  · simp only [pure, Except.pure, Except.ok.injEq] at entered; subst entered; exact ⟨rfl, rfl, rfl⟩

theorem resumeSIterEnter_calm {r : List Val × Option Program × Int × Evaluator}
    (entered : e.resumeSIterEnter ref = .ok r) : Calm e r.2.2.2 := by
  unfold resumeSIterEnter at entered
  split at entered
  · cases entered
  · simp only [except_bind_eq_ok] at entered
    obtain ⟨_, -, entered⟩ := entered
    split at entered
    · simp only [pure, Except.pure, Except.ok.injEq] at entered; subst entered; exact ⟨rfl, rfl, rfl⟩
    · cases entered

end Evaluator

namespace Machine

variable {W : Type} (rt : Runtime W) (md : Module)

theorem lift_calm {e : Evaluator} {c : Except String (Machine W)} (calm : ∀ m, c = .ok m → Calm e m.ev) :
    Outcome.Calm e (lift c) := by
  unfold lift; split
  · exact calm _ rfl
  · trivial

theorem ofStep_calm {e : Evaluator} {conts : List (Cont W)} {r : Except String (Step W)}
    (calm : ∀ s, r = .ok s → Calm e s.ev) : Outcome.Calm e (ofStep conts r) := by
  unfold ofStep; split <;> first | trivial | exact calm _ rfl

theorem hostStep_calm (e : Evaluator) (call : HostCall W) (conts : List (Cont W)) :
    Outcome.Calm e (hostStep rt e call conts) := by
  unfold hostStep
  split
  · split
    · exact ofStep_calm (fun _ hs => resume_calm hs)
    · refine lift_calm fun m hm => ?_
      simp only [except_bind_eq_ok, except_pure_eq_ok, Evaluator.pop_eq_ok] at hm
      obtain ⟨_, he, _, ⟨-, rfl⟩, rfl⟩ := hm
      exact Calm.of_frameOnly ((Evaluator.epilogue_frameOnly he).trans ⟨rfl, rfl, rfl, rfl, rfl, rfl, rfl⟩)
    · trivial
  · split
    · trivial
    · split <;> exact ⟨rfl, rfl, rfl⟩
  · exact ⟨rfl, rfl, rfl⟩
  · refine lift_calm fun m hm => ?_
    simp only [except_bind_eq_ok, except_pure_eq_ok] at hm
    obtain ⟨_, he, rfl⟩ := hm
    exact Evaluator.runSIterEnter_calm he
  · split
    · exact ⟨rfl, rfl, rfl⟩
    · refine lift_calm fun m hm => ?_
      simp only [except_bind_eq_ok, except_pure_eq_ok] at hm
      obtain ⟨_, he, rfl⟩ := hm
      exact Evaluator.resumeSIterEnter_calm he

theorem driverRet_calm (e : Evaluator) (w : W) (rr : RunResult) (d : Cont W) (conts : List (Cont W)) :
    Outcome.Calm e (driverRet rt e w rr d conts) := by
  have unwound : ∀ {b err r}, e.unwindForExcep b err = .ok r → Calm e r.2 := fun h =>
    Calm.of_frameOnly (Evaluator.unwindForExcep_frameOnly h)
  unfold driverRet
  split
  · -- `runRuleImpl`
    split
    · split
      · rename_i heq
        simp only [except_bind_eq_ok, except_pure_eq_ok, Evaluator.pop_eq_ok] at heq
        obtain ⟨_, -, _, ⟨-, rfl⟩, heq⟩ := heq
        cases heq
        exact ⟨rfl, rfl, rfl⟩
      · trivial
    · exact Calm.refl e
    · repeat' split
      all_goals first | trivial | exact unwound ‹_›
  · -- `runSFunc`
    split
    · split
      · exact Calm.refl e
      · trivial
    · repeat' split
      all_goals try first | trivial | exact unwound ‹_›
      refine lift_calm fun m hm => ?_
      simp only [except_bind_eq_ok, except_pure_eq_ok] at hm
      obtain ⟨_, -, _, hpf, _, -, rfl⟩ := hm
      exact (unwound ‹_›).trans (Calm.of_frameOnly (Evaluator.popfuncframe_frameOnly hpf))
  · -- `runSIterRest`
    split
    · refine lift_calm fun m hm => ?_
      simp only [except_bind_eq_ok, except_pure_eq_ok, Evaluator.pop_eq_ok] at hm
      obtain ⟨_, -, _, ⟨-, rfl⟩, rfl⟩ := hm
      exact ⟨rfl, rfl, rfl⟩
    · refine lift_calm fun m hm => ?_
      simp only [except_bind_eq_ok, except_pure_eq_ok, Evaluator.pop_eq_ok] at hm
      obtain ⟨_, -, _, ⟨-, rfl⟩, _, hs, rfl⟩ := hm
      refine Calm.trans ?_ ((Evaluator.siterSuspend_calm hs).trans ⟨rfl, rfl, rfl⟩)
      exact ⟨rfl, rfl, rfl⟩
    · repeat' split
      all_goals try first | trivial | exact unwound ‹_›
      refine lift_calm fun m hm => ?_
      simp only [except_bind_eq_ok, except_pure_eq_ok] at hm
      obtain ⟨_, -, _, hs, rfl⟩ := hm
      have unwoundOnly := unwound ‹_›
      refine unwoundOnly.trans ((Evaluator.siterSuspend_calm hs).trans ?_)
      exact ⟨rfl, rfl, rfl⟩
  · trivial

/-- The instruction `runP` fetches next, when the machine is at the top of an
iteration. -/
def instr? (m : Machine W) : Option Instr :=
  match m.control with
  | .run (some p) pc => if 0 ≤ pc then p.bcList[pc.toNat]? else none
  | _ => none

theorem ofStep_running {conts : List (Cont W)} {r : Except String (Step W)} {m' : Machine W}
    (running : ofStep conts r = .running m') : ∃ s, r = .ok s ∧ m'.ev = s.ev := by
  unfold ofStep at running
  split at running <;> cases running <;> exact ⟨_, rfl, rfl⟩

theorem step_heap {m m' : Machine W} (stepped : step rt md m = .running m') :
    (∃ bc, m.instr? = some bc ∧ HeapEffect bc.opcode bc.argument m.ev m'.ev) ∨ Calm m.ev m'.ev := by
  unfold step at stepped
  split at stepped
  · rename_i prog pc hc
    obtain ⟨s, hs, hev⟩ := ofStep_running stepped
    unfold runPStep at hs
    split at hs
    · cases hs
    · split at hs
      · rename_i p bc hbc
        split at hs
        · left
          refine ⟨bc, by simp only [instr?, hc, hbc, if_pos ‹0 ≤ pc›], ?_⟩
          rw [hev]
          exact execInstr_heap rt md hs
        · cases hs
      · cases hs
  · right
    have hcalm := hostStep_calm rt m.ev ‹_› m.conts
    rw [stepped] at hcalm
    exact hcalm
  · right
    split at stepped
    · have hcalm := driverRet_calm rt m.ev m.world ‹_› ‹_› ‹_›
      rw [stepped] at hcalm
      exact hcalm
    · cases stepped

theorem step_finished {m : Machine W} {e : Evaluator} {w : W} {r : RuleResult}
    (finished : step rt md m = .finished e w r) : Calm m.ev e := by
  unfold step at finished
  split at finished
  · unfold ofStep at finished; split at finished <;> cases finished
  · have hcalm := hostStep_calm rt m.ev ‹_› m.conts
    rw [finished] at hcalm
    exact hcalm
  · split at finished
    · have hcalm := driverRet_calm rt m.ev m.world ‹_› ‹_› ‹_›
      rw [finished] at hcalm
      exact hcalm
    · cases finished

/-- `m'` is reached from `m` by steps of the machine. -/
inductive Steps : Machine W → Machine W → Prop
  | refl (m : Machine W) : Steps m m
  | step {m m₁ m' : Machine W} : step rt md m = .running m₁ → Steps m₁ m' → Steps m m'

theorem run_finished {m : Machine W} {fuel : Nat} {e : Evaluator} {w : W} {r : RuleResult}
    (finished : run rt md m fuel = .finished e w r) : ∃ m₁, Steps rt md m m₁ ∧ step rt md m₁ = .finished e w r := by
  induction fuel generalizing m with
  | zero => cases finished
  | succ fuel ih =>
    unfold run at finished
    split at finished
    · obtain ⟨m₁, hs, hf⟩ := ih finished
      exact ⟨m₁, .step ‹_› hs, hf⟩
    · exact ⟨m, .refl _, finished⟩

end Machine

/-- What a run keeps: the drain flag, every queued event (new ones are
appended), and every allocated closure. -/
structure Grows (e e' : Evaluator) : Prop where
  inEventQueue : e'.inEventQueue = e.inEventQueue
  eventQ : e.eventQ <+: e'.eventQ
  sfuncs_length : e.sfuncs.length ≤ e'.sfuncs.length

namespace Grows

theorem refl (e : Evaluator) : Grows e e := ⟨rfl, List.prefix_refl _, Nat.le_refl _⟩

theorem trans {e₁ e₂ e₃ : Evaluator} (first : Grows e₁ e₂) (second : Grows e₂ e₃) : Grows e₁ e₃ :=
  ⟨second.1.trans first.1, first.2.trans second.2, Nat.le_trans first.3 second.3⟩

end Grows

theorem Calm.grows {e e' : Evaluator} (calm : Calm e e') : Grows e e' :=
  ⟨calm.inEventQueue, calm.eventQ ▸ List.prefix_refl _, calm.sfuncs ▸ Nat.le_refl _⟩

theorem HeapEffect.grows {op : Opcode} {a : Nat} {e e' : Evaluator} (effect : HeapEffect op a e e') : Grows e e' where
  inEventQueue := effect.inEventQueue
  eventQ := by
    rcases effect.eventQ with heq | ⟨-, ev, heq⟩ <;> simp only [heq, List.prefix_refl, List.prefix_append]
  sfuncs_length := by
    rcases effect.sfuncs with heq | ⟨-, sf, heq⟩ | ⟨-, ref, sf, v, -, -, heq⟩ <;> rw [heq] <;> simp

namespace Machine

variable {W : Type} {rt : Runtime W} {md : Module}

theorem Steps.grows {m m' : Machine W} (steps : Steps rt md m m') : Grows m.ev m'.ev := by
  induction steps with
  | refl => exact Grows.refl _
  | step hstep _ ih =>
    rcases step_heap rt md hstep with ⟨_, -, heff⟩ | hcalm
    · exact heff.grows.trans ih
    · exact hcalm.grows.trans ih

/-- `m` is about to run `storeUpvalue i` in a frame running closure `ref`. -/
def StoresUpvalue (m : Machine W) (ref i : Nat) : Prop :=
  m.instr? = some ⟨.storeUpvalue, i⟩ ∧ m.ev.curframe.sfunc = some ref

theorem step_upvalueAt {m m' : Machine W} {ref i : Nat} (stepped : step rt md m = .running m')
    (href : ref < m.ev.sfuncs.length) (noStore : ¬ StoresUpvalue m ref i) :
    m'.ev.upvalueAt ref i = m.ev.upvalueAt ref i := by
  unfold Evaluator.upvalueAt
  rcases step_heap rt md stepped with ⟨⟨op, a⟩, hbc, heff⟩ | hcalm
  · rcases heff.sfuncs with heq | ⟨-, sf, heq⟩ | ⟨rfl, ref', sf, v, hcur, hsf, heq⟩ <;> rw [heq]
    · rw [List.getElem?_append_left href]
    · by_cases hr : ref' = ref
      · subst hr
        have otherSlot : a ≠ i := fun otherSlot => noStore ⟨otherSlot ▸ hbc, hcur⟩
        rw [List.getElem?_set_self href, hsf]
        simp only [Option.some_bind, List.getElem?_set_ne otherSlot]
      · rw [List.getElem?_set_ne hr]
  · rw [hcalm.sfuncs]

theorem Steps.upvalueAt {m m' : Machine W} {ref i : Nat} (steps : Steps rt md m m')
    (href : ref < m.ev.sfuncs.length) :
    m'.ev.upvalueAt ref i = m.ev.upvalueAt ref i ∨
      ∃ m₁ m₂, Steps rt md m m₁ ∧ StoresUpvalue m₁ ref i ∧ Machine.step rt md m₁ = .running m₂ ∧
        Steps rt md m₂ m' := by
  induction steps with
  | refl => exact .inl rfl
  | @step m m₁ m' hstep hrest ih =>
    by_cases hst : StoresUpvalue m ref i
    · exact .inr ⟨m, m₁, .refl _, hst, hstep, hrest⟩
    · have hkeep := step_upvalueAt hstep href hst
      have hlen : ref < m₁.ev.sfuncs.length :=
        Nat.lt_of_lt_of_le href (Steps.grows (.step hstep (.refl _))).sfuncs_length
      rcases ih hlen with heq | ⟨m₂, m₃, h₁, h₂, h₃, h₄⟩
      · exact .inl (heq.trans hkeep)
      · exact .inr ⟨m₂, m₃, .step hstep h₁, h₂, h₃, h₄⟩

end Machine

/-! ## The closure-capture law -/

section

variable {W : Type} (rt : Runtime W) (md : Module)

/-- A closure captures, when `newClosure` creates it, the current frame's
local slots and the running closure's upvalues its descriptors name; its
upvalues then change only by `storeUpvalue` in a frame running it, which
writes the stored value; `loadUpvalue` in such a frame reads them. -/
theorem closure_upvalues_shared :
    (∀ (e e' : Evaluator) (w w' : W) (prog : Program) (pc pc' : Int) (prog' : Option Program) (a : Nat),
      execInstr rt md e w prog pc ⟨.newClosure, a⟩ = .ok (.next e' w' prog' pc') →
      ∃ fn ups, md.fn[a]? = some fn ∧ e'.sfuncs = e.sfuncs ++ [ScriptFunc.mk fn ups] ∧
        e'.stack = e.stack ++ [.closure (.script e.sfuncs.length)] ∧ ups.length = fn.upvalue.length ∧
        ∀ (i : Nat) d, fn.upvalue[i]? = some d → ∃ v, ups[i]? = some v ∧ e.Captures d v) ∧
    (∀ (m m' : Machine W) (ref i : Nat), Machine.Steps rt md m m' → ref < m.ev.sfuncs.length →
      m'.ev.upvalueAt ref i = m.ev.upvalueAt ref i ∨
        ∃ m₁ m₂, Machine.Steps rt md m m₁ ∧ Machine.StoresUpvalue m₁ ref i ∧
          Machine.step rt md m₁ = .running m₂ ∧ Machine.Steps rt md m₂ m') ∧
    (∀ (e : Evaluator) (w : W) (prog : Program) (pc : Int) (ref i : Nat) (s : Step W),
      e.curframe.sfunc = some ref → execInstr rt md e w prog pc ⟨.storeUpvalue, i⟩ = .ok s →
      ∃ v, e.stack.getLast? = some v ∧ s.ev.upvalueAt ref i = some v) ∧
    (∀ (e : Evaluator) (w : W) (prog : Program) (pc : Int) (ref i : Nat) (v : Val),
      e.curframe.sfunc = some ref → e.upvalueAt ref i = some v →
      execInstr rt md e w prog pc ⟨.loadUpvalue, i⟩ = .ok (.next (e.push v) w prog (pc + 1))) := by
  refine ⟨fun e e' w w' prog pc pc' prog' a h => ?_, fun m m' ref i hs href => Machine.Steps.upvalueAt hs href,
    fun e w prog pc ref i s hs h => execInstr_storeUpvalue rt md hs h,
    fun e w prog pc ref i v hs hv => execInstr_loadUpvalue rt md hs hv⟩
  obtain ⟨fn, ups, hfn, hups, rfl⟩ := execInstr_newClosure rt md h
  obtain ⟨hlen, hcap⟩ := Evaluator.captureUpvalues_eq_ok hups
  exact ⟨fn, ups, hfn, rfl, rfl, hlen, hcap⟩

/-- A frame running closure 0, whose upvalue 0 holds 7. -/
def closureFrame : Evaluator :=
  { (default : Evaluator) with
    curframe := { (default : FuncFrame) with closure := some (.script 0) }
    sfuncs := [⟨default, [.int 7]⟩] }

theorem loadUpvalue_reads_closure :
    closureFrame.curframe.sfunc = some 0 ∧ closureFrame.upvalueAt 0 0 = some (.int 7) ∧
      execInstr boolHost default closureFrame () default 0 ⟨.loadUpvalue, 0⟩ =
        .ok (.next (closureFrame.push (.int 7)) () (some default) 1) :=
  ⟨rfl, rfl, (closure_upvalues_shared boolHost default).2.2.2 closureFrame () default 0 0 0 (.int 7) rfl rfl⟩

end

end Moons.Pl
