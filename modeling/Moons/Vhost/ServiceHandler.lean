import Moons.Pl.Value

/-!
# The redis service handler

`serviceHandler` of package `vhost` serves the callbacks of redis
connections: `onAccept`, `onEvent` (one command) and `onClose`. Each builds
the script runtime's view of the connection, runs `OnInit`, emits one event,
and in a deferred call uploads the log and `finish`es: every HTTP client the
scripts took through `GetHttpClient` goes back to the virtual host's client
pool.

The script runtime (package `redis/runtime`), the client pool and the
connection are not in the sources. A call into the runtime is modelled as
the `GetHttpClient` calls its scripts make and what it ends with (`Script`),
and the pool by its answers; every theorem holds for all of them. The calls
the handler makes on the pool are kept in order (`poolCalls`), as the pool
sees them.
-/

set_option autoImplicit false

namespace Moons.Vhost

open Moons.Pl (Val)

/-- A call the handler makes on the client pool, with the pool's answer to a
`Get`. -/
inductive PoolCall (C : Type) where
  | get (url : String) (answer : Except String C)
  | put (client : C)

namespace PoolCall

variable {C : Type}

/-- The client a call got from the pool. -/
def handed : PoolCall C → Option C
  | .get _ (.ok c) => some c
  | _ => none

/-- The client a call gave back to the pool. -/
def returned : PoolCall C → Option C
  | .put c => some c
  | _ => none

end PoolCall

/-- One call into the script runtime (`OnInit` or `Emit`), seen from the
handler: the `GetHttpClient(url)` calls its scripts make, each continued by
what they do with the answer, and at the end the runtime's state and the
call's result. -/
inductive Script (R C α : Type) where
  | done (runtime : R) (result : Except String α)
  | getHttpClient (url : String) (next : Except String C → Script R C α)

/-- The context an event is emitted with: `runtime.NewCommandVal(&cmd)` over
the command's arguments, null, or the text of the connection's error. -/
inductive EventArg where
  | command (args : List String)
  | null
  | str (s : String)

/-- What a `serviceHandler` works with: the script runtime (state `R`), the
module's event table, the command categories, and the client pool (state
`P`, clients `C`). -/
structure Env (R C P : Type) where
  /-- `runtime.OnInit(connVal, s, &log)`. -/
  onInit : R → Script R C Unit
  /-- `runtime.Emit(event, context)`. -/
  emit : R → String → EventArg → Script R C Val
  /-- `runtime.Module.HaveEvent(event)`. -/
  haveEvent : String → Bool
  /-- `strings.ToUpper`. -/
  toUpper : String → String
  /-- `ru.CommandCategoryName`. -/
  categoryName : String → String
  /-- `vhost.clientPool.Get(url)`. -/
  poolGet : P → String → Except String C × P
  /-- `vhost.clientPool.Put(c)`. -/
  poolPut : P → C → P

def eventAccept : String := "redis.:accept"
def eventClose : String := "redis.:close"
def eventCommand : String := "redis.*"

/-- A `serviceHandler`: its script runtime and the HTTP clients its scripts
hold. -/
structure ServiceHandler (R C : Type) where
  runtime : R
  activeHttpClient : List C

/-- `newServiceHandler(vhost)`, over the runtime `NewRuntimeWithModule` made. -/
def newServiceHandler {R C : Type} (runtime : R) : ServiceHandler R C :=
  { runtime, activeHttpClient := [] }

/-- A handler at work: the client pool's state, the calls the handler has
made on the pool, and the errors written to its connections. -/
structure Serving (R C P : Type) where
  handler : ServiceHandler R C
  pool : P
  poolCalls : List (PoolCall C)
  written : List String

namespace Serving

variable {R C P : Type} (env : Env R C P)

/-- `GetHttpClient(url)`: a client from the pool, which the handler then
holds. -/
def getHttpClient (s : Serving R C P) (url : String) : Except String C × Serving R C P :=
  match env.poolGet s.pool url with
  | (.error err, pool) => (.error err, { s with pool := pool, poolCalls := s.poolCalls ++ [.get url (.error err)] })
  | (.ok c, pool) =>
    (.ok c, { s with
      pool := pool
      poolCalls := s.poolCalls ++ [.get url (.ok c)]
      handler := { s.handler with activeHttpClient := s.handler.activeHttpClient ++ [c] } })

/-- A call into the runtime, answering its scripts' `GetHttpClient` calls. -/
def runScript {α : Type} : Serving R C P → Script R C α → Except String α × Serving R C P
  | s, .done runtime result => (result, { s with handler := { s.handler with runtime := runtime } })
  | s, .getHttpClient url next =>
    let (answer, s) := getHttpClient env s url
    runScript s (next answer)

/-- `finish()`: put every held client back into the pool, in the order they
were taken. -/
def finish (s : Serving R C P) : Serving R C P :=
  { s with
    pool := s.handler.activeHttpClient.foldl env.poolPut s.pool
    poolCalls := s.poolCalls ++ s.handler.activeHttpClient.map .put
    handler := { s.handler with activeHttpClient := [] } }

/-- The line `err` writes: `fmt.Sprintf("Runtime(%s) error: %s", event, err.Error())`. -/
def errorLine (event err : String) : String := "Runtime(" ++ event ++ ") error: " ++ err

/-- `err(c, event, err)`: write the error to the connection. -/
def err (s : Serving R C P) (event err : String) : Serving R C P :=
  { s with written := s.written ++ [errorLine event err] }

/-- Emit `event`, reporting a failure under the name `reportAs`. -/
def emitReporting (s : Serving R C P) (event reportAs : String) (arg : EventArg) : Serving R C P :=
  match runScript env s (env.emit s.handler.runtime event arg) with
  | (.error e, s) => err s reportAs e
  | (.ok _, s) => s

/-- `onEvent(conn, cmd)` over the command's arguments: the most specific
event the module handles, the command's own, its category's, or the
wildcard, and the deferred `finish`. An empty command panics at `cmd.Args[0]`
(the outer error), with `finish` still run. -/
def onEvent (cmd : List String) (s : Serving R C P) : Except String Unit × Serving R C P :=
  match cmd with
  | [] => (.error "runtime error: index out of range [0] with length 0", finish env s)
  | name :: _ =>
    let cmdName := env.toUpper name
    let cmdCatEvent := "redis.:" ++ env.categoryName cmdName
    let cmdEvent := "redis." ++ cmdName
    match runScript env s (env.onInit s.handler.runtime) with
    | (.error e, s) => (.ok (), finish env (err s "@init" e))
    | (.ok (), s) =>
      if env.haveEvent cmdEvent then (.ok (), finish env (emitReporting env s cmdEvent cmdEvent (.command cmd)))
      else if env.haveEvent cmdCatEvent then
        (.ok (), finish env (emitReporting env s cmdCatEvent cmdEvent (.command cmd)))
      else (.ok (), finish env (emitReporting env s eventCommand cmdEvent (.command cmd)))

/-- `onAccept(conn)`: whether to keep the connection. A non-bool answer of
the accept event keeps it. -/
def onAccept (s : Serving R C P) : Bool × Serving R C P :=
  match runScript env s (env.onInit s.handler.runtime) with
  | (.error e, s) => (false, finish env (err s "@init" e))
  | (.ok (), s) =>
    match runScript env s (env.emit s.handler.runtime eventAccept .null) with
    | (.error e, s) => (false, finish env (err s eventAccept e))
    | (.ok (.bool b), s) => (b, finish env s)
    | (.ok _, s) => (true, finish env s)

/-- `onClose(conn, connErr)`: emit the close event with the error's text, or
null. -/
def onClose (connErr : Option String) (s : Serving R C P) : Serving R C P :=
  let ctx := match connErr with
    | none => EventArg.null
    | some e => .str e
  match runScript env s (env.onInit s.handler.runtime) with
  | (.error e, s) => finish env (err s "@init" e)
  | (.ok (), s) =>
    match runScript env s (env.emit s.handler.runtime eventClose ctx) with
    | (.error e, s) => finish env (err s eventClose e)
    | (.ok _, s) => finish env s

/-- A callback redcon makes on the handler. -/
inductive Callback where
  | accept
  | command (args : List String)
  | close (connErr : Option String)

def serve (s : Serving R C P) : Callback → Serving R C P
  | .accept => (onAccept env s).2
  | .command args => (onEvent env args s).2
  | .close connErr => onClose env connErr s

/-- The handler serving callbacks one after another. -/
def serveAll (s : Serving R C P) (cbs : List Callback) : Serving R C P :=
  cbs.foldl (serve env) s

/-! ## The shape of a callback -/

/-- `s'` is `s` after calls into the runtime, one after another. -/
inductive Scripted : Serving R C P → Serving R C P → Prop
  | refl (s : Serving R C P) : Scripted s s
  | run {α : Type} (s s' : Serving R C P) (sc : Script R C α) : Scripted (runScript env s sc).2 s' → Scripted s s'

theorem Scripted.step {α : Type} {s s₁ s' : Serving R C P} {sc : Script R C α} {r : Except String α}
    (ran : runScript env s sc = (r, s₁)) (rest : Scripted env s₁ s') : Scripted env s s' :=
  .run s s' sc (by rw [ran]; exact rest)

/-- The events an error written while serving `cb` can name: `@init`, or the
event the callback emits, which for a command is the command's own event,
also when its category's or the wildcard event ran. -/
def reportNames : Callback → List String
  | .accept => ["@init", eventAccept]
  | .command [] => []
  | .command (name :: _) => ["@init", "redis." ++ env.toUpper name]
  | .close _ => ["@init", eventClose]

theorem emitReporting_shape (s : Serving R C P) (event reportAs : String) (arg : EventArg) :
    ∃ s₁, Scripted env s s₁ ∧
      (emitReporting env s event reportAs arg = s₁ ∨ ∃ e, emitReporting env s event reportAs arg = err s₁ reportAs e) := by
  unfold emitReporting
  rcases hr : runScript env s (env.emit s.handler.runtime event arg) with ⟨_ | _, s₁⟩
  · exact ⟨s₁, .step env hr (.refl _), .inr ⟨_, rfl⟩⟩
  · exact ⟨s₁, .step env hr (.refl _), .inl rfl⟩

theorem serve_shape (cb : Callback) (s : Serving R C P) :
    ∃ s₁ s₂, Scripted env s s₁ ∧ (s₂ = s₁ ∨ ∃ ev ∈ reportNames env cb, ∃ e, s₂ = err s₁ ev e) ∧
      serve env s cb = finish env s₂ := by
  cases cb with
  | accept =>
    simp only [serve, onAccept]
    rcases hr : runScript env s (env.onInit s.handler.runtime) with ⟨_ | ⟨⟩, s₁⟩ <;> dsimp only
    · exact ⟨s₁, _, .step env hr (.refl _), .inr ⟨_, by simp [reportNames], _, rfl⟩, rfl⟩
    rcases he : runScript env s₁ (env.emit s₁.handler.runtime eventAccept .null) with ⟨_ | v, s₂⟩
    · exact ⟨s₂, _, .step env hr (.step env he (.refl _)), .inr ⟨_, by simp [reportNames], _, rfl⟩, rfl⟩
    · cases v <;> exact ⟨s₂, _, .step env hr (.step env he (.refl _)), .inl rfl, rfl⟩
  | command args =>
    simp only [serve, onEvent]
    rcases args with _ | ⟨name, rest⟩
    · exact ⟨s, s, .refl _, .inl rfl, rfl⟩
    rcases hr : runScript env s (env.onInit s.handler.runtime) with ⟨_ | ⟨⟩, s₁⟩ <;> dsimp only
    · exact ⟨s₁, _, .step env hr (.refl _), .inr ⟨_, by simp [reportNames], _, rfl⟩, rfl⟩
    -- the three branches emit different events and report under the command's own
    have reported : "redis." ++ env.toUpper name ∈ reportNames env (.command (name :: rest)) := by simp [reportNames]
    have emits : ∀ event, ∃ s₂ s₃, Scripted env s s₂ ∧
        (s₃ = s₂ ∨ ∃ ev ∈ reportNames env (.command (name :: rest)), ∃ e, s₃ = err s₂ ev e) ∧
          finish env (emitReporting env s₁ event ("redis." ++ env.toUpper name) (.command (name :: rest))) =
            finish env s₃ := fun event => by
      obtain ⟨s₂, hs₂, heq | ⟨e, heq⟩⟩ := emitReporting_shape env s₁ event ("redis." ++ env.toUpper name)
        (.command (name :: rest))
      · exact ⟨s₂, s₂, .step env hr hs₂, .inl rfl, by rw [heq]⟩
      · exact ⟨s₂, _, .step env hr hs₂, .inr ⟨_, reported, e, rfl⟩, by rw [heq]⟩
    split
    · exact emits _
    split
    · exact emits _
    · exact emits _
  | close connErr =>
    simp only [serve, onClose]
    rcases hr : runScript env s (env.onInit s.handler.runtime) with ⟨_ | ⟨⟩, s₁⟩ <;> dsimp only
    · exact ⟨s₁, _, .step env hr (.refl _), .inr ⟨_, by simp [reportNames], _, rfl⟩, rfl⟩
    generalize (match connErr with | none => EventArg.null | some e => .str e) = ctx
    rcases he : runScript env s₁ (env.emit s₁.handler.runtime eventClose ctx) with ⟨_ | _, s₂⟩ <;> dsimp only
    · exact ⟨s₂, _, .step env hr (.step env he (.refl _)), .inr ⟨_, by simp [reportNames], _, rfl⟩, rfl⟩
    · exact ⟨s₂, s₂, .step env hr (.step env he (.refl _)), .inl rfl, rfl⟩

/-! ## The handler's books with the pool -/

open PoolCall

/-- Every client the pool handed out has been put back or is still held, in
the order handed out; and at every point of the log the clients put back are
a prefix of those handed out. -/
structure Accounted (s : Serving R C P) : Prop where
  held : s.poolCalls.filterMap handed = s.poolCalls.filterMap returned ++ s.handler.activeHttpClient
  ordered : ∀ n, (s.poolCalls.take n).filterMap returned <+: (s.poolCalls.take n).filterMap handed

@[simp] theorem filterMap_handed_put (l : List C) : (l.map put).filterMap handed = [] := by
  induction l <;> simp_all [handed]

@[simp] theorem filterMap_returned_put (l : List C) : (l.map put).filterMap returned = l := by
  induction l <;> simp_all [returned]

theorem ordered_append {L M : List (PoolCall C)}
    (prefixOrdered : ∀ n, (L.take n).filterMap returned <+: (L.take n).filterMap handed)
    (suffixOrdered : ∀ n, L.filterMap returned ++ (M.take n).filterMap returned <+:
      L.filterMap handed ++ (M.take n).filterMap handed) :
    ∀ n, ((L ++ M).take n).filterMap returned <+: ((L ++ M).take n).filterMap handed := by
  intro n
  rw [List.take_append_eq_append_take, List.filterMap_append, List.filterMap_append]
  by_cases inPrefix : n ≤ L.length
  · simp only [Nat.sub_eq_zero_of_le inPrefix, List.take_zero, List.filterMap_nil, List.append_nil]
    exact prefixOrdered n
  · rw [List.take_of_length_le (by omega)]
    exact suffixOrdered _

theorem ordered_get {L : List (PoolCall C)} (url : String) (a : Except String C)
    (ordered : ∀ n, (L.take n).filterMap returned <+: (L.take n).filterMap handed) :
    ∀ n, ((L ++ [PoolCall.get url a]).take n).filterMap returned <+:
      ((L ++ [PoolCall.get url a]).take n).filterMap handed := by
  have whole := ordered L.length
  rw [List.take_length] at whole
  refine ordered_append ordered fun n => ?_
  rcases n with _ | n
  · simpa using whole
  · simpa [returned] using whole.trans (List.prefix_append _ _)

theorem getHttpClient_accounted {s : Serving R C P} (url : String) (accounted : Accounted s) :
    Accounted (getHttpClient env s url).2 := by
  unfold getHttpClient
  split
  · exact ⟨by simp [handed, returned, accounted.held], ordered_get url _ accounted.ordered⟩
  · exact ⟨by simp [handed, returned, accounted.held], ordered_get url _ accounted.ordered⟩

theorem runScript_accounted {α : Type} :
    ∀ (s : Serving R C P) (sc : Script R C α), Accounted s → Accounted (runScript env s sc).2
  | _, .done _ _, accounted => by rw [runScript]; exact ⟨accounted.held, accounted.ordered⟩
  | s, .getHttpClient url next, accounted => by
    rw [runScript]
    exact runScript_accounted _ _ (getHttpClient_accounted env url accounted)

theorem Scripted.accounted {s s' : Serving R C P} (scripted : Scripted env s s') (accounted : Accounted s) : Accounted s' := by
  induction scripted with
  | refl => exact accounted
  | run s _ sc _ ih => exact ih (runScript_accounted env s sc accounted)

theorem finish_accounted {s : Serving R C P} (accounted : Accounted s) :
    Accounted (finish env s) ∧ (finish env s).handler.activeHttpClient = [] := by
  refine ⟨⟨?_, ordered_append accounted.ordered fun n => ?_⟩, rfl⟩
  · simp only [finish, List.filterMap_append, filterMap_handed_put, filterMap_returned_put, List.append_nil, accounted.held]
  · rw [← List.map_take, filterMap_handed_put, filterMap_returned_put, accounted.held, List.append_nil]
    exact (List.prefix_append_right_inj _).mpr (List.take_prefix _ _)

theorem Accounted.err {s : Serving R C P} (accounted : Accounted s) (event e : String) : Accounted (s.err event e) :=
  ⟨accounted.held, accounted.ordered⟩

theorem serve_eq_finish {s : Serving R C P} (cb : Callback) (accounted : Accounted s) :
    ∃ s', Accounted s' ∧ serve env s cb = finish env s' := by
  obtain ⟨s₁, s₂, hrun, rfl | ⟨_, _, _, rfl⟩, heq⟩ := serve_shape env cb s
  · exact ⟨_, hrun.accounted env accounted, heq⟩
  · exact ⟨_, (hrun.accounted env accounted).err _ _, heq⟩

theorem serveAll_accounted :
    ∀ (cbs : List Callback) (s : Serving R C P), Accounted s → s.handler.activeHttpClient = [] →
      Accounted (serveAll env s cbs) ∧ (serveAll env s cbs).handler.activeHttpClient = []
  | [], _, h, hheld => ⟨h, hheld⟩
  | cb :: cbs, s, h, _ => by
    obtain ⟨s', hs', heq⟩ := serve_eq_finish env cb h
    have hstep := finish_accounted env hs'
    rw [← heq] at hstep
    exact serveAll_accounted cbs _ hstep.1 hstep.2

/-- Over any run of callbacks on a new handler, whatever its scripts do and
whatever the pool answers: the handler holds no client after the run, the
pool has been given back exactly the clients it handed out, each once and in
the order it handed them out, and at no point of the run was a client given
back before the pool handed it out. -/
theorem serveAll_returns_clients (runtime : R) (pool : P) (written : List String) (cbs : List Callback) :
    let s := serveAll env ⟨newServiceHandler runtime, pool, [], written⟩ cbs
    s.handler.activeHttpClient = [] ∧ s.poolCalls.filterMap handed = s.poolCalls.filterMap returned ∧
      ∀ n, (s.poolCalls.take n).filterMap returned <+: (s.poolCalls.take n).filterMap handed := by
  have hstart : Accounted (⟨newServiceHandler runtime, pool, [], written⟩ : Serving R C P) :=
    ⟨rfl, fun n => by simp⟩
  obtain ⟨hacc, hheld⟩ := serveAll_accounted env cbs _ hstart rfl
  exact ⟨hheld, by rw [hacc.held, hheld, List.append_nil], hacc.ordered⟩

/-! ## What the handler writes to its connections -/

@[simp] theorem getHttpClient_written (s : Serving R C P) (url : String) :
    (getHttpClient env s url).2.written = s.written := by
  unfold getHttpClient; split <;> rfl

@[simp] theorem runScript_written {α : Type} :
    ∀ (s : Serving R C P) (sc : Script R C α), (runScript env s sc).2.written = s.written
  | _, .done _ _ => rfl
  | s, .getHttpClient url next => by
    rw [runScript]
    exact (runScript_written _ _).trans (getHttpClient_written env s url)

theorem Scripted.written {s s' : Serving R C P} (scripted : Scripted env s s') : s'.written = s.written := by
  induction scripted with
  | refl => rfl
  | run s _ sc _ ih => exact ih.trans (runScript_written env s sc)

theorem serve_writes (cb : Callback) (s : Serving R C P) :
    (serve env s cb).written = s.written ∨
      ∃ ev ∈ reportNames env cb, ∃ e, (serve env s cb).written = s.written ++ [errorLine ev e] := by
  obtain ⟨s₁, s₂, hrun, rfl | ⟨ev, hev, e, rfl⟩, heq⟩ := serve_shape env cb s <;> rw [heq]
  · exact .inl (hrun.written env)
  · exact .inr ⟨ev, hev, e, by rw [← hrun.written env]; rfl⟩

/-- Over any run of callbacks, whatever the scripts do: the handler writes
at most one line per callback, in the order of the callbacks, and each line
is an error naming `@init` or its callback's event; a command's error always
names the command's own event `redis.<NAME>`, also when the category's or
the wildcard handler failed, and an empty command writes nothing. -/
theorem serveAll_error_lines :
    ∀ (cbs : List Callback) (s : Serving R C P), ∃ reports : List (Callback × String × String),
      (serveAll env s cbs).written = s.written ++ reports.map (fun r => errorLine r.2.1 r.2.2) ∧
        (reports.map Prod.fst).Sublist cbs ∧ ∀ r ∈ reports, r.2.1 ∈ reportNames env r.1
  | [], s => ⟨[], by simp [serveAll], List.Sublist.slnil, by simp⟩
  | cb :: cbs, s => by
    obtain ⟨reports, hw, hsub, hnames⟩ := serveAll_error_lines cbs (serve env s cb)
    rcases serve_writes env cb s with hs | ⟨ev, hev, e, hs⟩
    · exact ⟨reports, by rw [serveAll, List.foldl_cons, ← serveAll, hw, hs], hsub.cons _, hnames⟩
    · refine ⟨(cb, ev, e) :: reports, ?_, hsub.cons₂ _, ?_⟩
      · rw [serveAll, List.foldl_cons, ← serveAll, hw, hs, List.map_cons, List.append_assoc, List.singleton_append]
      · rintro r (_ | ⟨_, hr⟩)
        · exact hev
        · exact hnames r hr

end Serving

end Moons.Vhost
