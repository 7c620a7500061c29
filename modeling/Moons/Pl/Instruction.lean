import Moons.Pl.Machine

/-!
# What one instruction does to the stack

The stack discipline the (absent) compiler relies on: every opcode but the
calls, `return`, `halt`, `nextRule` and `yield` takes a fixed number of
operand slots off the top of the stack and leaves a fixed number in their
place (`stackEffect`), touching nothing below them, nor the frame heap, nor
the current frame beyond its handler list. `and`, `or` and `ternary` pop
their condition only when they fall through, so their effect depends on the
branch.

An instruction that calls host code does part of its stack work before the
call and the rest in `resume`; `Local` composes.
-/

set_option autoImplicit false

namespace Moons.Pl

/-- The stack effect `(consumed, produced)` of an opcode with argument `a`:
the operand slots it takes off the top of the stack and the slots it leaves
there. `none` for the calls, `return`, `halt`, `nextRule`, `yield` and the
conditional pops `and`, `or` and `ternary`. `configCommandWithAttr` pops
what `configCommand` pops, since `runP` tests `bcConfigPropertySetWithAttr`
where it means `bcConfigCommandWithAttr`. -/
def stackEffect (op : Opcode) (a : Nat) : Option (Nat × Nat) :=
  match op with
  | .loadInt | .loadReal | .loadStr | .loadRegexp | .loadTrue | .loadFalse | .loadNull
  | .newList | .newMap | .newClosure | .loadIterator | .loadUpvalue | .loadLocal | .loadVar
  | .loadDollar | .loadGlobal | .loadSession | .loadException | .dup1 | .hasIterator
  | .nextIterator => some (0, 1)
  | .dup2 | .derefIterator => some (0, 2)
  | .not | .negate | .toStr | .dot | .loadMethod | .template | .newIterator => some (1, 1)
  | .swap => some (2, 2)
  | .jump | .pushException | .popException | .configPush | .configPop => some (0, 0)
  | .pop | .jtrue | .jfalse | .filter | .action | .storeVar | .storeLocal | .storeUpvalue
  | .setSession | .storeSession | .setGlobal | .storeGlobal | .configPushWithAttr => some (1, 0)
  | .add | .sub | .mul | .div | .mod | .pow | .lt | .le | .gt | .ge | .eq | .ne
  | .regexpMatch | .regexpNMatch | .index | .newPair => some (2, 1)
  | .emit | .dotSet | .configPropertySet => some (2, 0)
  | .indexSet | .configPropertySetWithAttr => some (3, 0)
  | .reserveLocal => some (0, a)
  | .addList | .setUpIterator => some (a, 0)
  | .addMap => some (2 * a, 0)
  | .conStr => some (a, 1)
  | .configCommand | .configCommandWithAttr => some (a + 1, 0)
  | .or | .and | .ternary | .iCall | .sCall | .vCall | .return | .halt | .nextRule
  | .yield => none

/-- The stack effect of `resume` finishing a pending instruction; `none` for
the calls, whose reply goes through `epilogue`. -/
def resumeEffect : Pending → Option (Nat × Nat)
  | .action .. => some (1, 0)
  | .loadVar .. | .loadMethod .. | .template .. | .newIterator .. | .nextIterator .. => some (0, 1)
  | .storeVar .. | .indexSet .. | .dotSet .. | .config .. => some (0, 0)
  | .index .. => some (2, 1)
  | .dot .. => some (1, 1)
  | .configCommand _ _ popSize => some (popSize, 0)
  | .setUpIterator _ _ argc => some (argc, 0)
  | .derefIterator .. => some (0, 2)
  | .iCall .. | .nativeCall .. => none

/-- `e'` is `e` after stack work that took `c` operand slots off the top and
left `p` in their place. The slots below them, the frame heap and the current
frame are untouched, but for the frame's handler list, which at most lost its
last handler or gained one recording the stack height. -/
structure Local (c p : Nat) (e e' : Evaluator) : Prop where
  consumed_le : c ≤ e.stack.length
  length_eq : e'.stack.length + c = e.stack.length + p
  below : ∀ i < e.stack.length - c, e'.stack[i]? = e.stack[i]?
  frames : e'.frames = e.frames
  curframe : e'.curframe = { e.curframe with excep := e'.curframe.excep }
  handlers : e'.curframe.excep = e.curframe.excep ∨ e'.curframe.excep = e.curframe.excep.dropLast ∨
    ∃ pc, e'.curframe.excep = e.curframe.excep ++ [⟨pc, e.stack.length⟩]

theorem Local.trans {c₁ c₂ p : Nat} {e e₁ e' : Evaluator} (first : Local c₁ 0 e e₁) (second : Local c₂ p e₁ e')
    (sameFrame : e'.curframe = e₁.curframe) : Local (c₁ + c₂) p e e' where
  consumed_le := by have := first.length_eq; have := second.consumed_le; omega
  length_eq := by have := first.length_eq; have := second.length_eq; omega
  below i hi := by
    have := first.length_eq
    rw [second.below i (by omega), first.below i (by omega)]
  frames := second.frames.trans first.frames
  curframe := by rw [sameFrame, first.curframe]
  handlers := by rw [sameFrame]; exact first.handlers

/-- `e'` keeps what `e` had below its top `c` slots: the stack cut at most
that far (and maybe grown again), the frame heap, and the current frame with
its handlers as `Local` allows. -/
structure Within (c : Nat) (e e' : Evaluator) : Prop where
  consumed_le : e.stack.length - c ≤ e'.stack.length
  below : ∀ i < e.stack.length - c, e'.stack[i]? = e.stack[i]?
  frames : e'.frames = e.frames
  curframe : e'.curframe = { e.curframe with excep := e'.curframe.excep }
  handlers : e'.curframe.excep = e.curframe.excep ∨ e'.curframe.excep = e.curframe.excep.dropLast ∨
    ∃ pc, e'.curframe.excep = e.curframe.excep ++ [⟨pc, e.stack.length⟩]

/-- The program a pending instruction belongs to; a native call has none. -/
def Pending.prog? : Pending → Option Program
  | .action prog _ | .loadVar prog _ | .storeVar prog _ | .iCall prog _ | .loadMethod prog _
  | .index prog _ | .indexSet prog _ | .dot prog _ | .dotSet prog _ | .template prog _
  | .config prog _ | .configCommand prog _ _ | .newIterator prog _ | .setUpIterator prog _ _
  | .nextIterator prog _ | .derefIterator prog _ => some prog
  | .nativeCall _ => none

/-- What an instruction of stack effect `(c, p)` at `prog` leaves, whichever
way its iteration of `runP` ends: it goes on in `prog` with the full effect,
returns having done part of it, or calls host code having done the part
`resume` will not do. -/
def InstrPost {W : Type} (c p : Nat) (e : Evaluator) (prog : Program) : Step W → Prop
  | .next e' _ prog' _ => Local c p e e' ∧ prog' = some prog
  | .ret e' _ rr => Within c e e' ∧ rr.rstate = .interrupt
  | .host e' _ k =>
    match resumeEffect k with
    | some (c₂, p₂) => p₂ = p ∧ c₂ ≤ c ∧ Local (c - c₂) 0 e e' ∧ k.prog? = some prog
    | none => False
  | .spin e' _ prog' _ => e' = e ∧ prog' = some prog

theorem getElem?_take_append {l l₂ : List Val} {n i : Nat} (inPrefix : i < n) (within : n ≤ l.length) :
    (l.take n ++ l₂)[i]? = l[i]? := by
  rw [List.getElem?_append_left (by simp; omega), List.getElem?_take_of_lt inPrefix]

/-! The shapes of stack work most instructions do, with the frame heap and the
current frame untouched: nothing, a push, or a cut of the top `c` slots
followed by pushes. -/

section Shapes

variable {e e' : Evaluator}

theorem Local.refl : Local 0 0 e e := ⟨Nat.zero_le _, Eq.refl _, fun _ _ => Eq.refl _, Eq.refl _, Eq.refl _, .inl (Eq.refl _)⟩

theorem Local.of_append {top : List Val} {p : Nat} (pushed : e'.stack = e.stack ++ top) (size : top.length = p)
    (sameFrames : e'.frames = e.frames) (sameFrame : e'.curframe = e.curframe) : Local 0 p e e' where
  consumed_le := Nat.zero_le _
  length_eq := by simp [pushed, size]
  below i hi := by rw [pushed, List.getElem?_append_left (by omega)]
  frames := sameFrames
  curframe := by rw [sameFrame]
  handlers := .inl (by rw [sameFrame])

theorem Local.of_take {c p : Nat} {top : List Val} (fits : c ≤ e.stack.length)
    (pushed : e'.stack = e.stack.take (e.stack.length - c) ++ top) (size : top.length = p)
    (sameFrames : e'.frames = e.frames) (sameFrame : e'.curframe = e.curframe) : Local c p e e' where
  consumed_le := fits
  length_eq := by simp only [pushed, List.length_append, List.length_take, size]; omega
  below i hi := by rw [pushed, getElem?_take_append hi (by omega)]
  frames := sameFrames
  curframe := by rw [sameFrame]
  handlers := .inl (by rw [sameFrame])

theorem Local.of_take₀ {c : Nat} (fits : c ≤ e.stack.length) (popped : e'.stack = e.stack.take (e.stack.length - c))
    (sameFrames : e'.frames = e.frames) (sameFrame : e'.curframe = e.curframe) : Local c 0 e e' :=
  @Local.of_take e e' c 0 [] fits (by rw [popped, List.append_nil]) rfl sameFrames sameFrame

theorem Within.refl {c : Nat} : Within c e e :=
  ⟨Nat.sub_le _ _, fun _ _ => Eq.refl _, Eq.refl _, Eq.refl _, .inl (Eq.refl _)⟩

theorem Within.of_take₀ {c : Nat} (popped : e'.stack = e.stack.take (e.stack.length - c))
    (sameFrames : e'.frames = e.frames) (sameFrame : e'.curframe = e.curframe) : Within c e e' where
  consumed_le := by rw [popped, List.length_take]; omega
  below i hi := by rw [popped, List.getElem?_take_of_lt hi]
  frames := sameFrames
  curframe := by rw [sameFrame]
  handlers := .inl (by rw [sameFrame])

end Shapes

section

variable {W : Type} (rt : Runtime W) (md : Module)
variable {e e₁ e' : Evaluator} {w w₁ w' : W} {prog : Program} {prog' : Option Program} {pc pc' : Int}

theorem execInstr_post {op : Opcode} {a c p : Nat} (heff : stackEffect op a = some (c, p))
    (notStore : op ≠ .storeLocal) {s : Step W} (exec : execInstr rt md e w prog pc ⟨op, a⟩ = .ok s) :
    InstrPost c p e prog s := by
  unfold stackEffect at heff
  cases op <;> simp only [Option.some.injEq, Prod.mk.injEq, reduceCtorEq] at heff <;>
    (try obtain ⟨rfl, rfl⟩ := heff) <;>
    simp only [execInstr, bind, Except.bind, pure, Except.pure, throw, throwThe, MonadExceptOf.throw] at exec <;>
    repeat' (split at exec)
  all_goals (simp only [Except.ok.injEq, reduceCtorEq] at exec)
  all_goals (subst exec)
  all_goals (simp_all only [InstrPost, rrErr, resumeEffect, Pending.prog?, Evaluator.popN_eq_ok, Evaluator.pop_eq_ok,
    Evaluator.setSlot_eq_ok, Evaluator.popExcep_eq_ok, Evaluator.globalAdd_eq_some,
    Evaluator.storeGlobal_eq_some, Evaluator.topN_eq_ok, Evaluator.push, and_true, true_and, Nat.sub_zero,
    Nat.le_refl, Nat.zero_le, ne_eq, not_true_eq_false, beq_iff_eq, reduceCtorEq, Nat.sub_self, List.length_take])
  all_goals first
    | exact Local.refl
    | exact Within.refl
    | exact Local.of_append rfl rfl rfl rfl
    | exact Local.of_take (by omega) rfl rfl rfl rfl
    | exact Local.of_take₀ (by omega) rfl rfl rfl
    | exact Within.of_take₀ rfl rfl rfl
    | exact ⟨by omega, by (try simp only [List.length_append, List.length_take, List.length_singleton, List.length_set,
          List.length_replicate, List.length_cons, List.length_nil, Evaluator.push, Nat.sub_zero,
          Evaluator.pushExcep_stack, Evaluator.emitEvent_stack, List.append_assoc]); all_goals omega, fun i hi => by first | rfl | simp (disch := omega) only [getElem?_take_append, List.getElem?_append_left,
          List.getElem?_take_of_lt, List.getElem?_set_ne, Evaluator.push, Nat.sub_zero, List.length_take, List.take_take,
          Evaluator.pushExcep_stack, Evaluator.emitEvent_stack, List.append_assoc],
        rfl, rfl, by first | exact Or.inl rfl | exact Or.inr (Or.inl rfl) | exact Or.inr (Or.inr ⟨_, rfl⟩)⟩
    | exact ⟨by (try simp only [List.length_append, List.length_take, List.length_singleton, List.length_set,
          List.length_replicate, List.length_cons, List.length_nil, Evaluator.push, Nat.sub_zero,
          Evaluator.pushExcep_stack, Evaluator.emitEvent_stack, List.append_assoc]); all_goals omega, fun i hi => by first | rfl | simp (disch := omega) only [getElem?_take_append, List.getElem?_append_left,
          List.getElem?_take_of_lt, List.getElem?_set_ne, Evaluator.push, Nat.sub_zero, List.length_take, List.take_take,
          Evaluator.pushExcep_stack, Evaluator.emitEvent_stack, List.append_assoc],
        rfl, rfl, Or.inl rfl⟩

/-- What `resume` leaves when it finishes a pending instruction of stack
effect `(c, p)`: `runP` goes on in the instruction's program with the rest of
the effect done and the current frame untouched, or returns the host's error
with the evaluator as it was. -/
def ResumePost {W : Type} (c p : Nat) (e : Evaluator) (k : Pending) : Step W → Prop
  | .next e' _ prog' _ => Local c p e e' ∧ e'.curframe = e.curframe ∧ prog' = k.prog?
  | .ret e' _ _ => e' = e
  | .host .. | .spin .. => False

theorem resume_post {k : Pending} {c p : Nat} (heff : resumeEffect k = some (c, p))
    {answer : Except String Reply} {s : Step W} (resumed : resume e w k answer = .ok s) :
    ResumePost c p e k s := by
  cases k <;> simp only [resumeEffect, Option.some.injEq, Prod.mk.injEq, reduceCtorEq] at heff <;>
    (try obtain ⟨rfl, rfl⟩ := heff) <;>
    rcases answer with _ | (_ | _ | _ | _ | _) <;>
    unfold resume at resumed <;>
    simp only [bind, Except.bind, pure, Except.pure, throw, throwThe, MonadExceptOf.throw] at resumed <;>
    repeat' (split at resumed)
  all_goals (simp only [Except.ok.injEq, reduceCtorEq] at resumed)
  all_goals (subst resumed)
  all_goals (simp_all only [ResumePost, Pending.prog?, Evaluator.popN_eq_ok, Evaluator.pop_eq_ok,
    Evaluator.push, and_true, true_and, Nat.sub_zero, List.length_take])
  all_goals exact ⟨by omega, by simp <;> omega,
    fun i hi => by simp (disch := omega) [getElem?_take_append, List.getElem?_append_left,
      List.getElem?_take_of_lt], by simp, by simp, by simp⟩

/-- The instruction `bc` at `pc` of `prog` runs to its end without an error
and without host code calling back into the evaluator: `runP` goes on from
`e'` at `pc'` of `prog'`, at once or after the host code it called answered. -/
inductive Completes (e : Evaluator) (w : W) (prog : Program) (pc : Int) (bc : Instr) :
    Evaluator → Option Program → Int → Prop
  | next {e' : Evaluator} {w' : W} {prog' : Option Program} {pc' : Int} :
      execInstr rt md e w prog pc bc = .ok (.next e' w' prog' pc') → Completes e w prog pc bc e' prog' pc'
  | reply {e₁ : Evaluator} {w₁ : W} {k : Pending} {r : Reply} {e' : Evaluator} {w' : W}
      {prog' : Option Program} {pc' : Int} :
      execInstr rt md e w prog pc bc = .ok (.host e₁ (.done w₁ (.ok r)) k) →
      resume e₁ w₁ k (.ok r) = .ok (.next e' w' prog' pc') → Completes e w prog pc bc e' prog' pc'

variable {rt md}

theorem Completes.local {op : Opcode} {a c p : Nat} (heff : stackEffect op a = some (c, p))
    (notStore : op ≠ .storeLocal) (hdone : Completes rt md e w prog pc ⟨op, a⟩ e' prog' pc') :
    Local c p e e' ∧ prog' = some prog := by
  cases hdone with
  | next h => exact execInstr_post rt md heff notStore h
  | reply h hr =>
    have hpost := execInstr_post rt md heff notStore h
    simp only [InstrPost] at hpost
    split at hpost
    · rename_i c₂ p₂ hk
      obtain ⟨rfl, hc, h₁, hprog⟩ := hpost
      obtain ⟨h₂, hcf, hprog'⟩ := resume_post hk hr
      exact ⟨by simpa [Nat.sub_add_cancel hc] using h₁.trans h₂ hcf, hprog' ▸ hprog⟩
    · exact hpost.elim

theorem execInstr_storeLocal {a : Nat} {s : Step W}
    (exec : execInstr rt md e w prog pc ⟨.storeLocal, a⟩ = .ok s) :
    ∃ v, e.curframe.localslot a < e.stack.length ∧ e.stack[e.stack.length - 1]? = some v ∧
      s = .next { e with stack := (e.stack.set (e.curframe.localslot a) v).take (e.stack.length - 1) }
        w prog (pc + 1) := by
  simp only [execInstr, except_bind_eq_ok, except_pure_eq_ok, Evaluator.topN_eq_ok,
    Evaluator.setSlot_eq_ok, Evaluator.pop_eq_ok] at exec
  obtain ⟨v, ⟨-, hv⟩, _, ⟨hslot, rfl⟩, _, ⟨-, rfl⟩, rfl⟩ := exec
  exact ⟨v, hslot, by simpa using hv, by simp⟩

theorem completes_and_or {op : Opcode} {a : Nat} (andOr : op = .and ∨ op = .or)
    (hdone : Completes rt md e w prog pc ⟨op, a⟩ e' prog' pc') :
    (pc' = a ∧ e'.stack = e.stack) ∨ (pc' = pc + 1 ∧ e'.stack = e.stack.dropLast) := by
  cases hdone with
  | next h =>
    rcases andOr with rfl | rfl <;>
    · simp only [execInstr, except_bind_eq_ok] at h
      obtain ⟨v, -, h⟩ := h
      split at h
      · simp only [except_pure_eq_ok, Step.next.injEq] at h
        obtain ⟨rfl, -, -, rfl⟩ := h
        exact .inl ⟨rfl, rfl⟩
      · simp only [except_bind_eq_ok, except_pure_eq_ok, Evaluator.pop_eq_ok, Step.next.injEq] at h
        obtain ⟨_, ⟨-, rfl⟩, rfl, -, -, rfl⟩ := h
        exact .inr ⟨rfl, (List.dropLast_eq_take _).symm⟩
  | reply h =>
    rcases andOr with rfl | rfl <;>
    · simp only [execInstr, except_bind_eq_ok] at h
      obtain ⟨v, -, h⟩ := h
      split at h <;> simp [except_bind_eq_ok, except_pure_eq_ok, except_map_eq_ok] at h

theorem completes_ternary {a : Nat} (hdone : Completes rt md e w prog pc ⟨.ternary, a⟩ e' prog' pc') :
    (pc' = a ∧ e'.stack = e.stack.dropLast) ∨ (pc' = pc + 1 ∧ e'.stack = e.stack.dropLast.dropLast) := by
  cases hdone with
  | next h =>
    simp only [execInstr, except_bind_eq_ok, Evaluator.pop_eq_ok] at h
    obtain ⟨v, -, e₁, ⟨-, rfl⟩, h⟩ := h
    split at h
    · simp only [except_pure_eq_ok, Step.next.injEq] at h
      obtain ⟨rfl, -, -, rfl⟩ := h
      exact .inl ⟨rfl, (List.dropLast_eq_take _).symm⟩
    · simp only [except_bind_eq_ok, except_pure_eq_ok, Evaluator.pop_eq_ok, Step.next.injEq] at h
      obtain ⟨_, ⟨-, rfl⟩, rfl, -, -, rfl⟩ := h
      exact .inr ⟨rfl, by simp [List.dropLast_eq_take]⟩
  | reply h =>
    simp only [execInstr, except_bind_eq_ok] at h
    obtain ⟨v, -, e₁, -, h⟩ := h
    split at h <;> simp [except_bind_eq_ok, except_pure_eq_ok, except_map_eq_ok] at h

/-- The stack discipline of every opcode but the calls, `return`, `halt`,
`nextRule` and `yield`, on every state where `runP` completes it: a fixed
change of height, and no slot below the operands touched but the local slot
`storeLocal` writes; `and`, `or` and `ternary` pop one slot more when they
fall through than when they jump. -/
theorem completes_stack_effect {op : Opcode} {a : Nat}
    (hdone : Completes rt md e w prog pc ⟨op, a⟩ e' prog' pc') :
    (∀ c p, stackEffect op a = some (c, p) →
      (e'.stack.length : Int) = e.stack.length + p - c ∧
      ∀ i < e.stack.length - c, (op = .storeLocal → i ≠ e.curframe.localslot a) →
        e'.stack[i]? = e.stack[i]?) ∧
    (op = .and ∨ op = .or →
      (pc' = a ∧ e'.stack = e.stack) ∨ (pc' = pc + 1 ∧ e'.stack = e.stack.dropLast)) ∧
    (op = .ternary →
      (pc' = a ∧ e'.stack = e.stack.dropLast) ∨ (pc' = pc + 1 ∧ e'.stack = e.stack.dropLast.dropLast)) := by
  refine ⟨fun c p heff => ?_, fun hop => completes_and_or hop hdone, by rintro rfl; exact completes_ternary hdone⟩
  by_cases hop : op = .storeLocal
  · subst hop
    obtain ⟨rfl, rfl⟩ : (1, 0) = (c, p) := Option.some.inj heff
    cases hdone with
    | next h =>
      obtain ⟨v, hslot, -, h⟩ := execInstr_storeLocal h
      simp only [Step.next.injEq] at h
      obtain ⟨rfl, -⟩ := h
      refine ⟨by simp; omega, fun i hi hne => ?_⟩
      rw [List.getElem?_take_of_lt hi, List.getElem?_set_ne (Ne.symm (hne rfl))]
    | reply h => obtain ⟨_, -, -, h⟩ := execInstr_storeLocal h; cases h
  · have framed := (hdone.local heff hop).1
    exact ⟨by have := framed.length_eq; omega, fun i hi _ => framed.below i hi⟩

/-- A host that offers nothing but `ToBoolean` on booleans. -/
def boolHost : Runtime Unit := { (default : Runtime Unit) with toBoolean := fun _ v => v == .bool true }

/-- A host whose `ToString` answers every value with `"cmd"`, and which has
no `Config`. -/
def commandHost : Runtime Unit := { boolHost with toString := fun _ _ => .ok "cmd" }

/-- An attribute, a command name and one argument, as the compiler lays out
`configCommandWithAttr 1`. -/
def attrCommandState : Evaluator := { (default : Evaluator) with stack := [.str "attr", .str "cmd", .int 1] }

/-- `configCommandWithAttr 1` pops the name and its argument and leaves the
attribute on the stack, and with a `Config` the command is sent a null
attribute; `and 0` completes leaving the stack as it was when it jumps, and
popping the condition when it falls through. -/
theorem config_command_with_attr_keeps_attr :
    Completes commandHost default attrCommandState () default 0 ⟨.configCommandWithAttr, 1⟩
        { (default : Evaluator) with stack := [.str "attr"] } (some default) 1 ∧
      (([.str "attr"] : List Val).length : Int) = attrCommandState.stack.length + (0 : Nat) - (2 : Nat) ∧
      execInstr { commandHost with hasConfig := true } default attrCommandState () default 0 ⟨.configCommandWithAttr, 1⟩ =
        .ok (.host attrCommandState (commandHost.configCommand () "cmd" [.int 1] .null) (.configCommand default 0 2)) ∧
      Completes boolHost default { (default : Evaluator) with stack := [.bool false] } () default 0 ⟨.and, 0⟩
        { (default : Evaluator) with stack := [.bool false] } (some default) 0 ∧
      Completes boolHost default { (default : Evaluator) with stack := [.bool true] } () default 0 ⟨.and, 0⟩
        { (default : Evaluator) with stack := [] } (some default) 1 :=
  have popped : Completes commandHost default attrCommandState () default 0 ⟨.configCommandWithAttr, 1⟩
      { (default : Evaluator) with stack := [.str "attr"] } (some default) 1 := .next rfl
  ⟨popped, ((completes_stack_effect popped).1 2 0 rfl).1, rfl, .next rfl, .next rfl⟩

end

end Moons.Pl
