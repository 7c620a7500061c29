import Moons.Pl.Value

/-!
# Readable streams

`ReadableStream` of package `hpl`: an `io.ReadCloser` with an optional
in-memory copy of its content. The underlying streams are the host's; what
the model records is every `Close` the `ReadableStream` calls on one.
Scripts see it as a `.readablestream` value with three fields and four
methods; `FuncProto.Check` is not in the sources and is a parameter.
-/

set_option autoImplicit false

namespace Moons.Hpl

open Moons.Pl (Val)

/-- An `io.ReadCloser` a `ReadableStream` can hold. -/
inductive Source where
  /-- A stream handed in by `NewReadableStreamFromStream` or `SetStream`. -/
  | user (id : Nat)
  /-- `neweofByteReadCloser(b)`, over an in-memory buffer. -/
  | bytes (b : List UInt8)
  /-- `&eofReadCloser{}`, left behind by `Close`. -/
  | eof
  deriving DecidableEq, Repr

/-- `io.ReadAll` on the host's streams: the content, or the read error. -/
abbrev Reader := Nat → Except String (List UInt8)

/-- `io.ReadAll(src)`. -/
def Source.readAll (read : Reader) : Source → Except String (List UInt8)
  | .user id => read id
  | .bytes b => .ok b
  | .eof => .ok []

structure ReadableStream where
  stream : Source
  cacheBuf : List UInt8
  hasCache : Bool
  closed : Bool
  deriving DecidableEq, Repr

namespace ReadableStream

def newFromString (data : String) : ReadableStream :=
  { stream := .bytes data.toUTF8.toList, cacheBuf := data.toUTF8.toList, hasCache := true,
    closed := false }

def newFromBuffer (b : List UInt8) : ReadableStream :=
  { stream := .bytes b, cacheBuf := b, hasCache := true, closed := false }

def newFromStream (stream : Source) : ReadableStream :=
  { stream, cacheBuf := [], hasCache := false, closed := false }

/-- A stream with the log of the underlying streams it has called `Close` on. -/
structure State where
  rs : ReadableStream
  closes : List Source
  deriving DecidableEq, Repr

/-- `Close()`: the first call closes the underlying stream and leaves an
empty cache; later calls return at once. -/
def close (s : State) : State :=
  if s.rs.closed then s
  else ⟨{ stream := .eof, cacheBuf := [], hasCache := true, closed := true }, s.closes ++ [s.rs.stream]⟩

/-- `ConsumeAsString()` through `readAll`, whose deferred `Close` runs after
the content is taken. -/
def consumeAsString (read : Reader) (s : State) : Except String String × State :=
  let content := if s.rs.hasCache then .ok s.rs.cacheBuf else s.rs.stream.readAll read
  (content.map fun b => String.fromUTF8! ⟨b.toArray⟩, close s)

/-- `CacheBuffer()`: read the whole stream once and keep it in memory,
reading later from the copy. -/
def cacheBuffer (read : Reader) (s : State) : Except String (List UInt8) × State :=
  if s.rs.hasCache then (.ok s.rs.cacheBuf, s)
  else
    match s.rs.stream.readAll read with
    | .error err => (.error err, s)
    | .ok buf => (.ok buf, { s with rs := { s.rs with cacheBuf := buf, hasCache := true, stream := .bytes buf } })

def setStream (stream : Source) (s : State) : State :=
  { s with rs := { s.rs with cacheBuf := [], hasCache := false, stream } }

def setBuffer (b : List UInt8) (s : State) : State :=
  { s with rs := { s.rs with cacheBuf := b, hasCache := true, stream := .bytes b } }

def setString (data : String) (s : State) : State :=
  setBuffer data.toUTF8.toList s

/-- The methods that change a `ReadableStream` (the others only read it). -/
inductive Method where
  | cacheBuffer
  | setStream (stream : Source)
  | setBuffer (b : List UInt8)
  | setString (data : String)
  | consumeAsString
  | close
  deriving DecidableEq, Repr

/-- The methods that end in `Close()`. -/
def Method.isClose : Method → Bool
  | .consumeAsString | .close => true
  | _ => false

def apply (read : Reader) (s : State) : Method → State
  | .cacheBuffer => (cacheBuffer read s).2
  | .setStream stream => setStream stream s
  | .setBuffer b => setBuffer b s
  | .setString data => setString data s
  | .consumeAsString => (consumeAsString read s).2
  | .close => close s

def run (read : Reader) (s : State) (ops : List Method) : State :=
  ops.foldl (apply read) s

variable (read : Reader)

@[simp] theorem run_nil (s : State) : run read s [] = s := rfl

@[simp] theorem run_cons (s : State) (op : Method) (ops : List Method) :
    run read s (op :: ops) = run read (apply read s op) ops := rfl

@[simp] theorem cacheBuffer_closes (s : State) : (cacheBuffer read s).2.closes = s.closes := by
  unfold cacheBuffer; split
  · rfl
  · split <;> rfl

@[simp] theorem cacheBuffer_closed (s : State) : (cacheBuffer read s).2.rs.closed = s.rs.closed := by
  unfold cacheBuffer; split
  · rfl
  · split <;> rfl

@[simp] theorem consumeAsString_state (s : State) : (consumeAsString read s).2 = close s := rfl

@[simp] theorem setStream_closes (src : Source) (s : State) : (setStream src s).closes = s.closes := rfl
@[simp] theorem setStream_closed (src : Source) (s : State) : (setStream src s).rs.closed = s.rs.closed := rfl
@[simp] theorem setBuffer_closes (b : List UInt8) (s : State) : (setBuffer b s).closes = s.closes := rfl
@[simp] theorem setBuffer_closed (b : List UInt8) (s : State) : (setBuffer b s).rs.closed = s.rs.closed := rfl

@[simp] theorem close_of_closed (s : State) (wasClosed : s.rs.closed = true) : close s = s := by
  simp [close, wasClosed]

@[simp] theorem close_of_open (s : State) (wasOpen : s.rs.closed = false) :
    close s = ⟨{ stream := .eof, cacheBuf := [], hasCache := true, closed := true }, s.closes ++ [s.rs.stream]⟩ := by
  simp [close, wasOpen]

theorem apply_of_closed (s : State) (op : Method) (wasClosed : s.rs.closed = true) :
    (apply read s op).rs.closed = true ∧ (apply read s op).closes = s.closes := by
  cases op <;> simp [apply, setString, wasClosed]

theorem run_of_closed (s : State) (ops : List Method) (wasClosed : s.rs.closed = true) :
    (run read s ops).closes = s.closes := by
  induction ops generalizing s with
  | nil => rfl
  | cons op ops ih =>
    obtain ⟨hc, hlog⟩ := apply_of_closed read s op wasClosed
    rw [run_cons, ih _ hc, hlog]

theorem apply_closes (s : State) (op : Method) (wasOpen : s.rs.closed = false) :
    (apply read s op).closes = s.closes ++ (if op.isClose then [s.rs.stream] else []) ∧
      (apply read s op).rs.closed = op.isClose := by
  cases op <;> simp [apply, Method.isClose, setString, wasOpen]

/-- Over any sequence of methods on an open stream, the `ReadableStream`
closes exactly one underlying stream if some method closes it, and that is
the stream installed when the first closing method runs; otherwise none. -/
theorem run_closes (s : State) (ops : List Method) (wasOpen : s.rs.closed = false) :
    (run read s ops).closes =
      s.closes ++ (if ops.any Method.isClose then
        [(run read s (ops.takeWhile fun op => !op.isClose)).rs.stream] else []) := by
  induction ops generalizing s with
  | nil => simp
  | cons op ops ih =>
    obtain ⟨hlog, hclosed⟩ := apply_closes read s op wasOpen
    cases hop : op.isClose with
    | true =>
      rw [hop] at hlog hclosed
      simp [hop, run_of_closed read _ ops hclosed, hlog]
    | false =>
      rw [hop] at hlog hclosed
      simp [hop, ih _ hclosed, hlog]

theorem run_closes_after_setStream :
    (run (fun _ => .ok []) ⟨newFromStream (.user 0), []⟩ [.setStream (.user 1), .close]).closes =
      [.user 1] := by
  rw [run_closes _ _ _ rfl]; rfl

/-- `CacheBuffer` replaces a caller's stream by a byte reader without closing
it, so the following `Close` never reaches the caller's stream. -/
theorem cacheBuffer_drops_stream :
    (run (fun _ => .ok []) ⟨newFromStream (.user 0), []⟩ [.cacheBuffer, .close]).closes =
      [.bytes []] := rfl

/-! ## The cache and the stream agree -/

/-- `ByteLength()`: the cache's length, or -1 without a cache. -/
def byteLength (rs : ReadableStream) : Int :=
  if rs.hasCache then rs.cacheBuf.length else -1

/-- The cache is a copy of the stream: when there is a cache, the stream is
an in-memory reader of exactly the cached bytes, or the empty reader `Close`
leaves behind an empty cache. -/
def Coherent (rs : ReadableStream) : Prop :=
  rs.hasCache = true → rs.stream = .bytes rs.cacheBuf ∨ (rs.stream = .eof ∧ rs.cacheBuf = [])

theorem coherent_newFromString (data : String) : Coherent (newFromString data) := fun _ => .inl rfl

theorem coherent_newFromBuffer (b : List UInt8) : Coherent (newFromBuffer b) := fun _ => .inl rfl

theorem coherent_newFromStream (src : Source) : Coherent (newFromStream src) := fun h => nomatch h

theorem coherent_close (s : State) (coherent : Coherent s.rs) : Coherent (close s).rs := by
  unfold close
  split
  · exact coherent
  · exact fun _ => .inr ⟨rfl, rfl⟩

theorem coherent_apply (s : State) (op : Method) (coherent : Coherent s.rs) : Coherent (apply read s op).rs := by
  cases op with
  | cacheBuffer =>
    simp only [apply, cacheBuffer]
    split
    · exact coherent
    · split
      · exact coherent
      · exact fun _ => .inl rfl
  | setStream src => exact fun hc => nomatch hc
  | setBuffer b => exact fun _ => .inl rfl
  | setString data => exact fun _ => .inl rfl
  | consumeAsString => exact coherent_close s coherent
  | close => exact coherent_close s coherent

theorem coherent_run (s : State) (ops : List Method) (coherent : Coherent s.rs) : Coherent (run read s ops).rs := by
  induction ops generalizing s with
  | nil => exact coherent
  | cons op ops ih => exact ih _ (coherent_apply read s op coherent)

/-- A stream made by any of the three constructors, after any sequence of
methods and whatever the host's streams hold: when it has a cache, reading
its stream (`ToStream()`) gives exactly the cached bytes, and `ByteLength()`,
whenever it is not -1, is the number of bytes that read gives. -/
theorem run_cache_is_stream (s₀ : ReadableStream) (fresh : (∃ data, s₀ = newFromString data) ∨
      (∃ b, s₀ = newFromBuffer b) ∨ ∃ src, s₀ = newFromStream src)
    (ops : List Method) (read' : Reader) :
    let rs := (run read ⟨s₀, []⟩ ops).rs
    (rs.hasCache = true → rs.stream.readAll read' = .ok rs.cacheBuf) ∧
      (0 ≤ byteLength rs → ∃ b, rs.stream.readAll read' = .ok b ∧ byteLength rs = b.length) := by
  have startCoherent : Coherent s₀ := by
    rcases fresh with ⟨data, rfl⟩ | ⟨b, rfl⟩ | ⟨src, rfl⟩
    · exact coherent_newFromString data
    · exact coherent_newFromBuffer b
    · exact coherent_newFromStream src
  have hcoh := coherent_run read ⟨s₀, []⟩ ops startCoherent
  have hread : (run read ⟨s₀, []⟩ ops).rs.hasCache = true →
      (run read ⟨s₀, []⟩ ops).rs.stream.readAll read' = .ok (run read ⟨s₀, []⟩ ops).rs.cacheBuf := fun cached => by
    rcases hcoh cached with hb | ⟨he, hnil⟩
    · rw [hb]; rfl
    · rw [he, hnil]; rfl
  refine ⟨hread, fun hlen => ?_⟩
  have cached : (run read ⟨s₀, []⟩ ops).rs.hasCache = true := by
    unfold byteLength at hlen; split at hlen <;> simp_all
  exact ⟨_, hread cached, by simp [byteLength, cached]⟩

theorem cached_user_stream_reads_back :
    ((∃ data, newFromStream (.user 0) = newFromString data) ∨ (∃ b, newFromStream (.user 0) = newFromBuffer b) ∨
        ∃ src, newFromStream (.user 0) = newFromStream src) ∧
      let rs := (run (fun _ => .ok [7]) ⟨newFromStream (.user 0), []⟩ [.cacheBuffer]).rs
      (rs.hasCache = true → rs.stream.readAll (fun _ => .ok []) = .ok rs.cacheBuf) ∧
        (0 ≤ byteLength rs → ∃ b, rs.stream.readAll (fun _ => .ok []) = .ok b ∧ byteLength rs = b.length) :=
  ⟨.inr (.inr ⟨_, rfl⟩), run_cache_is_stream _ _ (.inr (.inr ⟨_, rfl⟩)) _ _⟩

/-! ## The script's view -/

/-- `string(b)`. -/
def bytesToString (b : List UInt8) : String := String.fromUTF8! ⟨b.toArray⟩

/-- `Index(name)`, and `Dot(name)` as `Index(NewValStr(name))`. -/
def index (rs : ReadableStream) : Val → Except String Val
  | .str name =>
    if name = "hasCache" then .ok (.bool rs.hasCache)
    else if name = "close" then .ok (.bool rs.closed)
    else if name = "byteLength" then
      if 0 ≤ byteLength rs then .ok (.int (BitVec.ofInt 64 (byteLength rs))) else .ok .null
    else .error ("invalid index, unknown name " ++ name)
  | _ => .error "invalid index, .readablestream field name must be string"

/-- A call a script makes on a `.readablestream` value. -/
inductive ScriptCall where
  | index (name : Val)
  | dot (name : String)
  | indexSet (name val : Val)
  | dotSet (name : String) (val : Val)
  | method (name : String) (args : List Val)

/-- `methodProtoReadableStream*.Check(arg)` for the prototype of the given
name, all of signature `%0`. -/
abbrev Check := String → List Val → Except String Unit

/-- The `Close` result of the host's streams. -/
abbrev Closer := Source → Except String Unit

variable (check : Check) (closer : Closer)

/-- `Close()` with its result: `nil` when already closed, otherwise what the
underlying stream's `Close` answers; the state changes the same either way. -/
def closeResult (s : State) : Except String Unit :=
  if s.rs.closed then .ok () else closer s.rs.stream

/-- `Method(name, arg)`. -/
def method (s : State) (name : String) (args : List Val) : Except String Val × State :=
  if name = "cacheString" then
    match check ".readablestream.cacheString" args with
    | .error e => (.error e, s)
    | .ok () => let (r, s) := cacheBuffer read s; (r.map fun b => .str (bytesToString b), s)
  else if name = "tryCacheString" then
    match check ".readablestream.tryCacheString" args with
    | .error e => (.error e, s)
    | .ok () => (.ok (if s.rs.hasCache then .str (bytesToString s.rs.cacheBuf) else .null), s)
  else if name = "string" then
    match check ".readablestream.string" args with
    | .error e => (.error e, s)
    | .ok () => let (r, s) := consumeAsString read s; (r.map .str, s)
  else if name = "close" then
    match check ".readablestream.close" args with
    | .error e => (.error e, s)
    | .ok () => ((closeResult closer s).map fun _ => .null, close s)
  else (.error ("method: .readablestream:" ++ name ++ " is unknown"), s)

def scriptCall (s : State) : ScriptCall → Except String Val × State
  | .index name => (index s.rs name, s)
  | .dot name => (index s.rs (.str name), s)
  | .indexSet _ _ => (.error ".readablestream does not support index set", s)
  | .dotSet _ _ => (.error ".readablestream does not support dot set", s)
  | .method name args => method read check closer s name args

/-- A script's calls one after another, with their answers in order. -/
def scriptRun (s : State) : List ScriptCall → List (Except String Val) × State
  | [] => ([], s)
  | c :: cs =>
    let (r, s) := scriptCall read check closer s c
    let (rs, s) := scriptRun s cs
    (r :: rs, s)

/-- The method of the Go API a script call runs, if it changes the stream. -/
def ScriptCall.op? : ScriptCall → Option Method
  | .method name args =>
    if name = "cacheString" then (check ".readablestream.cacheString" args).toOption.map fun _ => .cacheBuffer
    else if name = "tryCacheString" then none
    else if name = "string" then (check ".readablestream.string" args).toOption.map fun _ => .consumeAsString
    else if name = "close" then (check ".readablestream.close" args).toOption.map fun _ => .close
    else none
  | _ => none

theorem scriptCall_state (s : State) (c : ScriptCall) :
    (scriptCall read check closer s c).2 = match c.op? check with
      | some op => apply read s op
      | none => s := by
  cases c with
  | method name args =>
    simp only [scriptCall, method, ScriptCall.op?]
    by_cases h1 : name = "cacheString"
    · simp only [h1, if_true]; cases check ".readablestream.cacheString" args <;> rfl
    by_cases h2 : name = "tryCacheString"
    · simp only [h1, h2, if_true, if_false]; cases check ".readablestream.tryCacheString" args <;> rfl
    by_cases h3 : name = "string"
    · simp only [h1, h2, h3, if_true, if_false]; cases check ".readablestream.string" args <;> rfl
    by_cases h4 : name = "close"
    · simp only [h1, h2, h3, h4, if_true, if_false]; cases check ".readablestream.close" args <;> rfl
    · simp only [h1, h2, h3, h4, if_false]
  | index | dot | indexSet | dotSet => rfl

/-- A script sees the stream only through the Go API: its calls change the
stream exactly as the methods they run, in order. -/
theorem scriptRun_state (s : State) (cs : List ScriptCall) :
    (scriptRun read check closer s cs).2 = run read s (cs.filterMap (ScriptCall.op? check)) := by
  induction cs generalizing s with
  | nil => rfl
  | cons c cs ih =>
    rw [scriptRun, List.filterMap_cons]
    dsimp only
    rw [ih, scriptCall_state]
    rcases c.op? check with _ | op <;> rfl

/-! ## A closed stream reads as empty -/

/-- What `Close()` leaves. -/
def closedStream : ReadableStream := { stream := .eof, cacheBuf := [], hasCache := true, closed := true }

theorem close_rs (s : State) (wasOpen : s.rs.closed = false) : (close s).rs = closedStream := by
  simp [wasOpen, closedStream]

theorem bytesToString_nil : bytesToString [] = "" := by
  have valid : String.validateUTF8 ⟨#[]⟩ = true := by
    unfold String.validateUTF8
    rw [String.validateUTF8.loop]
    rfl
  unfold bytesToString String.fromUTF8!
  rw [dif_pos valid]
  unfold String.fromUTF8
  rw [String.fromUTF8.loop]
  rfl

/-- The answer of a closed stream to a script call: the methods that read
give the empty string and `close` gives null, once the arguments pass the
check. -/
def closedAnswer : ScriptCall → Except String Val
  | .index name => index closedStream name
  | .dot name => index closedStream (.str name)
  | .indexSet _ _ => .error ".readablestream does not support index set"
  | .dotSet _ _ => .error ".readablestream does not support dot set"
  | .method name args =>
    if name = "cacheString" then (check ".readablestream.cacheString" args).map fun _ => .str ""
    else if name = "tryCacheString" then (check ".readablestream.tryCacheString" args).map fun _ => .str ""
    else if name = "string" then (check ".readablestream.string" args).map fun _ => .str ""
    else if name = "close" then (check ".readablestream.close" args).map fun _ => .null
    else .error ("method: .readablestream:" ++ name ++ " is unknown")

theorem scriptCall_closed (s : State) (consumed : s.rs = closedStream) (c : ScriptCall) :
    scriptCall read check closer s c = (closedAnswer check c, s) := by
  have wasClosed : s.rs.closed = true := by rw [consumed]; rfl
  cases c with
  | method name args =>
    simp only [scriptCall, method, closedAnswer]
    by_cases h1 : name = "cacheString"
    · simp only [h1, if_true, cacheBuffer, consumed]
      cases check ".readablestream.cacheString" args <;> simp [closedStream, Except.map, bytesToString_nil]
    by_cases h2 : name = "tryCacheString"
    · simp only [h1, h2, if_true, if_false, consumed]
      cases check ".readablestream.tryCacheString" args <;> simp [closedStream, Except.map, bytesToString_nil]
    by_cases h3 : name = "string"
    · simp only [h1, h2, h3, if_true, if_false, consumeAsString, close_of_closed s wasClosed, consumed]
      cases check ".readablestream.string" args <;> simp [closedStream, Except.map]
      exact bytesToString_nil
    by_cases h4 : name = "close"
    · simp only [h1, h2, h3, h4, if_true, if_false, closeResult, wasClosed, close_of_closed s wasClosed]
      cases check ".readablestream.close" args <;> rfl
    · simp only [h1, h2, h3, h4, if_false]
  | index name => simp only [scriptCall, closedAnswer, consumed]
  | dot name => simp only [scriptCall, closedAnswer, consumed]
  | indexSet | dotSet => rfl

/-- Once `close` or `string` has closed it, a stream answers every sequence
of script calls as a closed empty stream, reading nothing from the host and
closing nothing more: `cacheString`, `tryCacheString` and `string` give the
empty string, `close` gives null, and the fields read `hasCache` and `close`
as true and `byteLength` as 0. -/
theorem scriptRun_closed (s : State) (consumed : s.rs = closedStream) (cs : List ScriptCall) :
    scriptRun read check closer s cs = (cs.map (closedAnswer check), s) := by
  induction cs with
  | nil => rfl
  | cons c cs ih => rw [scriptRun, scriptCall_closed read check closer s consumed c]; dsimp only; rw [ih]; rfl

theorem consumed_stream_reads_empty :
    (close ⟨newFromStream (.user 0), []⟩).rs = closedStream ∧
      scriptRun (fun _ => .ok [1]) (fun _ _ => .ok ()) (fun _ => .ok ()) (close ⟨newFromStream (.user 0), []⟩)
          [.method "string" [], .dot "byteLength"] =
        ([.method "string" [], .dot "byteLength"].map (closedAnswer fun _ _ => .ok ()),
          close ⟨newFromStream (.user 0), []⟩) :=
  ⟨close_rs _ rfl, scriptRun_closed _ _ _ _ (close_rs _ rfl) _⟩

example : [ScriptCall.method "string" [], .dot "byteLength"].map (closedAnswer fun _ _ => .ok ()) =
    [.ok (.str ""), .ok (.int 0)] :=
  rfl

end ReadableStream

end Moons.Hpl
