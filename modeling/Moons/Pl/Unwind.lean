import Moons.Pl.Machine

/-!
# Exception unwinding along the saved-frame chain

`unwindForExcep` reads the frames it walks from the stack: the marker slot of
the current frame points at the saved frame below it. Over a stack whose
markers link a list of frames (`Linked`), the walk is a walk over that list,
and its result is fixed by the first frame that stops it: one that is the top
frame or satisfies the driver's breaker, whose handlers are then not looked
at, or a script frame with a handler, which catches.
-/

set_option autoImplicit false

namespace Moons.Pl

/-- The frames `fs` are linked on `stack`: each frame's marker slot holds a
pointer to the next frame of the list, read from the stack that popping the
frames before it leaves. -/
def Linked (frames : List FuncFrame) : List Val → List FuncFrame → Prop
  | _, [] => True
  | _, [_] => True
  | stack, f :: g :: rest =>
    (∃ r, stack[f.prevframepos]? = some (.frame r) ∧ frames[r]? = some g) ∧
      Linked frames (stack.take f.framep) (g :: rest)

namespace FuncFrame

/-- The frame stops the walk of an unwind with breaker `breaker`. -/
def stops (breaker : FuncFrame → Bool) (ff : FuncFrame) : Bool := ff.isTop || breaker ff

/-- The frame catches: a script frame with a handler. -/
def catches (ff : FuncFrame) : Bool := ff.isScript && !ff.excep.isEmpty

end FuncFrame

namespace Evaluator

/-- The evaluator after the unwind popped the frames `pre`, with `f` the
frame after them. -/
def popAlong (e : Evaluator) : List FuncFrame → FuncFrame → Evaluator
  | [], _ => e
  | g :: rest, f => { e with stack := e.stack.take g.framep, curframe := rest.head?.getD f }.popAlong rest f

/-- The backtrace after the unwind popped the frames `pre`: each frame it pops
to, but the top frame. -/
def btAlong (bt : List FuncFrame) : List FuncFrame → FuncFrame → List FuncFrame
  | [], _ => bt
  | _ :: rest, f =>
    let next := rest.head?.getD f
    btAlong (if next.isTop then bt else bt ++ [next]) rest f

theorem popAlong_curframe (e : Evaluator) (pre : List FuncFrame) (f : FuncFrame) (top : (pre ++ [f]).head? = some e.curframe) :
    (e.popAlong pre f).curframe = f := by
  induction pre generalizing e with
  | nil => simp only [List.nil_append, List.head?_cons, Option.some.injEq] at top; exact top.symm
  | cons g rest ih => exact ih _ (by cases rest <;> rfl)

variable {breaker : FuncFrame → Bool} {err : String}

theorem unwindLoop_stop {fuel : Nat} {e : Evaluator} {bt : List FuncFrame}
    (stops : e.curframe.stops breaker = true) :
    e.unwindLoop breaker err (fuel + 1) bt = .ok (⟨-1, none, bt, false⟩, e) := by
  simp only [FuncFrame.stops] at stops
  simp [unwindLoop, stops, pure, Except.pure]

theorem unwindLoop_catch {fuel : Nat} {e : Evaluator} {bt : List FuncFrame} {xp : Exception}
    (passes : e.curframe.stops breaker = false) (hscript : e.curframe.isScript = true)
    (handler : e.curframe.excep.getLast? = some xp) :
    e.unwindLoop breaker err (fuel + 1) bt = e.catchAt xp err bt := by
  simp only [FuncFrame.stops] at passes
  simp [unwindLoop, passes, curExcep, handler, hscript]

theorem unwindLoop_pop {fuel : Nat} {e : Evaluator} {bt : List FuncFrame} {r : Nat} {g : FuncFrame}
    (passes : e.curframe.stops breaker = false) (noHandler : e.curframe.catches = false)
    (marker : e.stack[e.curframe.prevframepos]? = some (.frame r)) (saved : e.frames[r]? = some g) :
    e.unwindLoop breaker err (fuel + 1) bt =
      { e with stack := e.stack.take e.curframe.framep, curframe := g }.unwindLoop breaker err fuel
        (if g.isTop then bt else bt ++ [g]) := by
  have hpos : e.curframe.framep ≤ e.stack.length := by
    have := (List.getElem?_eq_some_iff.mp marker).1
    simp only [FuncFrame.prevframepos] at this
    omega
  simp only [FuncFrame.stops, Bool.or_eq_false_iff] at passes
  simp only [FuncFrame.catches, Bool.and_eq_false_iff, Bool.not_eq_false', List.isEmpty_iff] at noHandler
  have hcatch : ∀ xp, ¬ (e.curExcep = some xp ∧ e.curframe.isScript = true) := by
    rintro xp ⟨hx, hscript⟩
    rcases noHandler with noHandler | noHandler
    · simp [noHandler] at hscript
    · simp [curExcep, noHandler] at hx
  rw [unwindLoop, if_neg (by simp [passes])]
  split
  · rename_i xp hx hscript; exact absurd ⟨hx, hscript⟩ (hcatch xp)
  · simp [prevfuncframe, slot, marker, frameAt, saved, popfuncframe, popTo, hpos, bind, Except.bind, pure, Except.pure]

theorem Linked.framep_lt {frames : List FuncFrame} {stack : List Val} {f g : FuncFrame} {rest : List FuncFrame}
    (linked : Linked frames stack (f :: g :: rest)) : f.framep < stack.length := by
  obtain ⟨⟨r, hm, -⟩, -⟩ := linked
  have := (List.getElem?_eq_some_iff.mp hm).1
  simp only [FuncFrame.prevframepos] at this
  omega

theorem unwindLoop_linked :
    ∀ (pre : List FuncFrame) {post : List FuncFrame} {f : FuncFrame} {e : Evaluator} {bt : List FuncFrame}
      {fuel : Nat},
      (pre ++ [f]).head? = some e.curframe → Linked e.frames e.stack (pre ++ f :: post) →
      (∀ g ∈ pre, g.stops breaker = false ∧ g.catches = false) → (f.stops breaker ∨ f.catches) →
      pre.length < fuel →
      e.unwindLoop breaker err fuel bt =
        if f.stops breaker then .ok (⟨-1, none, btAlong bt pre f, false⟩, e.popAlong pre f)
        else (e.popAlong pre f).catchAt (f.excep.getLast?.getD default) err (btAlong bt pre f)
  | [], post, f, e, bt, fuel, hhead, _, _, hf, hfuel => by
    obtain ⟨fuel, rfl⟩ : ∃ k, fuel = k + 1 := ⟨fuel - 1, by simp at hfuel; omega⟩
    simp only [List.nil_append, List.head?_cons, Option.some.injEq] at hhead
    subst hhead
    by_cases hs : e.curframe.stops breaker = true
    · rw [unwindLoop_stop hs, if_pos hs]; rfl
    · rw [Bool.not_eq_true] at hs
      have catching : e.curframe.catches = true := by simpa [hs] using hf
      simp only [FuncFrame.catches, Bool.and_eq_true, Bool.not_eq_true'] at catching
      obtain ⟨xp, hxp⟩ : ∃ xp, e.curframe.excep.getLast? = some xp := by
        cases hx : e.curframe.excep.getLast? with
        | none => simp_all [List.getLast?_eq_none_iff]
        | some xp => exact ⟨xp, rfl⟩
      rw [unwindLoop_catch hs catching.1 hxp, if_neg (by simp [hs])]
      simp [popAlong, btAlong, hxp]
  | g :: rest, post, f, e, bt, fuel, hhead, hlink, hpre, hf, hfuel => by
    obtain ⟨fuel, rfl⟩ : ∃ k, fuel = k + 1 := ⟨fuel - 1, by simp at hfuel; omega⟩
    simp only [List.cons_append, List.head?_cons, Option.some.injEq] at hhead
    subst hhead
    obtain ⟨hg, hrest⟩ := hpre e.curframe (List.mem_cons_self _ _)
    have hpre' : ∀ g ∈ rest, g.stops breaker = false ∧ g.catches = false :=
      fun g hg => hpre g (List.mem_cons_of_mem _ hg)
    cases rest with
    | nil =>
      obtain ⟨⟨r, hm, hr⟩, hlink'⟩ := hlink
      rw [unwindLoop_pop hg hrest hm hr]
      exact unwindLoop_linked [] rfl hlink' hpre' hf (by simp at hfuel ⊢; omega)
    | cons h t =>
      obtain ⟨⟨r, hm, hr⟩, hlink'⟩ := hlink
      rw [unwindLoop_pop hg hrest hm hr]
      exact unwindLoop_linked (h :: t) rfl hlink' hpre' hf (by simpa using hfuel)

theorem Linked.length_le {frames : List FuncFrame} {f : FuncFrame} {post : List FuncFrame} :
    ∀ {pre : List FuncFrame} {stack : List Val}, Linked frames stack (pre ++ f :: post) → pre.length ≤ stack.length
  | [], _, _ => Nat.zero_le _
  | g :: rest, stack, h => by
    have hlt : g.framep < stack.length := by
      cases rest <;> exact Linked.framep_lt h
    have hrest : Linked frames (stack.take g.framep) (rest ++ f :: post) := by
      cases rest <;> exact h.2
    have := Linked.length_le hrest
    simp only [List.length_take, List.length_cons] at this ⊢
    omega

theorem catchAt_eq {e : Evaluator} {xp : Exception} {bt : List FuncFrame} (hsize : xp.stackSize ≤ e.stack.length)
    (hasHandler : e.curframe.excep ≠ []) :
    e.catchAt xp err bt = .ok (⟨xp.handlerPc, e.curframe.prog, bt, true⟩,
      { e with
        stack := e.stack.take xp.stackSize
        curexcep := .str err
        curframe := { e.curframe with pc := xp.handlerPc, excep := e.curframe.excep.dropLast } }) := by
  simp [catchAt, popTo, hsize, popExcep, hasHandler, bind, Except.bind, pure, Except.pure]

/-- Over every chain of linked frames from the failing frame: the unwind pops
every frame before the first one that stops it or catches. If that frame
stops the walk (the top frame, or one the driver's breaker matches), its
handlers are not looked at and the error is not caught; otherwise the frame
is a script frame with a handler, and execution resumes in it at its last
handler, with the stack cut to the handler's size, the error's text in
`curexcep` and the handler popped. -/
theorem unwindForExcep_first_handler {e : Evaluator} (pre post : List FuncFrame) (f : FuncFrame)
    (hhead : (pre ++ [f]).head? = some e.curframe) (hlink : Linked e.frames e.stack (pre ++ f :: post))
    (hpre : ∀ g ∈ pre, g.stops breaker = false ∧ g.catches = false) :
    (f.stops breaker = true → e.unwindForExcep breaker err =
      .ok (⟨-1, none, btAlong [e.curframe] pre f, false⟩, e.popAlong pre f)) ∧
    (f.stops breaker = false → f.catches = true → ∀ xp, f.excep.getLast? = some xp →
      xp.stackSize ≤ (e.popAlong pre f).stack.length →
      e.unwindForExcep breaker err = .ok (⟨xp.handlerPc, f.prog, btAlong [e.curframe] pre f, true⟩,
        { e.popAlong pre f with
          stack := (e.popAlong pre f).stack.take xp.stackSize
          curexcep := .str err
          curframe := { f with pc := xp.handlerPc, excep := f.excep.dropLast } })) := by
  have hfuel : pre.length < e.stack.length + 1 := Nat.lt_succ_of_le (Linked.length_le hlink)
  have hcur := e.popAlong_curframe pre f hhead
  constructor
  · intro hs
    rw [unwindForExcep, unwindLoop_linked pre hhead hlink hpre (.inl hs) hfuel, if_pos hs]
  · intro hs hc xp hxp hsize
    have hne : (e.popAlong pre f).curframe.excep ≠ [] := fun h => by simp [hcur ▸ h] at hxp
    rw [unwindForExcep, unwindLoop_linked pre hhead hlink hpre (.inr hc) hfuel, if_neg (by simp [hs]), hxp,
      Option.getD_some, catchAt_eq hsize hne, hcur]

end Evaluator

/-- A one-instruction program with a source line. -/
def lineProg : Program := { (default : Program) with bcList := [⟨.loadNull, 0⟩], dbgList := ["line 1"] }

/-- A rule frame with one handler, over the null marker, the event and its
marker of the top frame. -/
def handlingRule : FuncFrame :=
  { ftype := .rule, farg := 1, pc := 0, framep := 0, prog := some lineProg, excep := [⟨9, 3⟩], closure := none }

def handlingRuleState : Evaluator :=
  { (default : Evaluator) with
    stack := [.null, .null, .frame 0]
    frames := [FuncFrame.markTop]
    curframe := handlingRule }

/-- The entry frame of a `runSFunc` callback of closure 0 (over the
intrinsic frame that called it), with a handler. -/
def handlingCallback : FuncFrame :=
  { ftype := .sfunc, farg := 0, pc := 0, framep := 1, prog := some lineProg, excep := [⟨9, 2⟩],
    closure := some (.script 0) }

def callingIntrinsic : FuncFrame :=
  { ftype := .intrinsic, farg := 0, pc := 1, framep := 0, prog := none, excep := [], closure := none }

def handlingCallbackState : Evaluator :=
  { (default : Evaluator) with
    stack := [.null, .closure (.script 0), .frame 0]
    frames := [callingIntrinsic]
    curframe := handlingCallback
    sfuncs := [⟨lineProg, []⟩] }

/-- The callback's body raised an error in its entry frame; `runSFunc` is
the driver, and its host code passes the answer on. -/
def failingCallback : Machine Unit :=
  ⟨handlingCallbackState, (), .ret (rrErr (some lineProg) 0 "boom"), [.sfunc 0 fun r _ => .done () (r.map .val)]⟩

/-- The handler in a callback's own entry frame is not looked at: the
breaker of `runSFunc` stops the walk there, and `runSFunc` pops the frame and
hands the error to its host code. The same handler list in a rule frame,
under `runRuleImpl`'s breaker, catches. -/
theorem callback_handler_skipped :
    handlingCallback.stops (fun ff => ff.sfunc == some 0) = true ∧ handlingCallback.catches = true ∧
      handlingCallbackState.unwindForExcep (fun ff => ff.sfunc == some 0) "boom" =
        .ok (⟨-1, none, [handlingCallback], false⟩, handlingCallbackState) ∧
      (∃ msg, Machine.step default default failingCallback =
        .running ⟨{ handlingCallbackState with stack := [.null], curframe := callingIntrinsic }, (),
          .host (.done () (.error msg)), []⟩) ∧
      handlingRuleState.unwindForExcep FuncFrame.isTop "boom" =
        .ok (⟨9, some lineProg, [handlingRule], true⟩,
          { handlingRuleState with curexcep := .str "boom", curframe := { handlingRule with pc := 9, excep := [] } }) :=
  ⟨rfl, rfl,
    (@Evaluator.unwindForExcep_first_handler (fun ff => ff.sfunc == some 0) "boom" handlingCallbackState [] []
      handlingCallback rfl trivial (by simp)).1 rfl,
    ⟨_, rfl⟩,
    (@Evaluator.unwindForExcep_first_handler FuncFrame.isTop "boom" handlingRuleState [] [FuncFrame.markTop]
      handlingRule rfl ⟨⟨0, rfl, rfl⟩, trivial⟩ (by simp)).2 rfl rfl ⟨9, 3⟩ rfl (by decide)⟩

end Moons.Pl
