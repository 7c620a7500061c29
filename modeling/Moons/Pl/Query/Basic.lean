import Moons.Pl.Interp

/-!
# The `q` module: host objects, callbacks and signatures

`pl/mod_query.go` is host code. Its intrinsics read the value system's
lists, maps and pairs, build new ones, and call closures back through
`Closure.Call`, which re-enters the evaluator. None of the value system,
`Closure.Call` or `IntrinsicInfo.Check` is in the sources, so this module
models them from what the intrinsics use and from the spec:

* the host objects are a store of lists (their `Data`), maps (their entries
  in the order `Foreach` visits them) and pairs;
* a callback is a call model over any world `W` that holds that store: it
  answers each `Closure.Call` and may change anything in the world;
* a signature is a list of overloads of argument kinds, and `Check` accepts
  an argument vector iff some overload matches it.

A Go panic is the outer `Except`'s error, as in the evaluator.
-/

set_option autoImplicit false

namespace Moons.Pl

/-- `Set(key, v)` and `AddMap(key, v)` on a map's entries: a present key keeps
its place and takes the new value, a new key goes last. -/
def mapSet : List (String × Val) → String → Val → List (String × Val)
  | [], key, v => [(key, v)]
  | (k, v') :: rest, key, v => if k = key then (key, v) :: rest else (k, v') :: mapSet rest key v

/-- `Get(key)` on a map's entries. -/
def mapGet (m : List (String × Val)) (key : String) : Option Val :=
  (m.find? (·.1 == key)).map (·.2)

theorem mapSet_keys (m : List (String × Val)) (key : String) (v : Val) :
    (mapSet m key v).map Prod.fst =
      if key ∈ m.map Prod.fst then m.map Prod.fst else m.map Prod.fst ++ [key] := by
  induction m with
  | nil => simp [mapSet]
  | cons e rest ih =>
    by_cases h : e.1 = key
    · simp [mapSet, h]
    · have hne : key ≠ e.1 := fun h' => h h'.symm
      simp only [mapSet, h, if_false, List.map_cons, ih, List.mem_cons, hne, false_or]
      split <;> rfl

theorem mapSet_of_not_mem {m : List (String × Val)} {key : String} (v : Val) (absent : key ∉ m.map Prod.fst) :
    mapSet m key v = m ++ [(key, v)] := by
  induction m with
  | nil => rfl
  | cons e rest ih =>
    have hne : e.1 ≠ key := fun h' => absent (by simp [h'])
    simp only [mapSet, hne, if_false, List.cons_append]
    exact congrArg _ (ih fun h' => absent (List.mem_cons_of_mem _ h'))

/-- A map: its entries in the order `Foreach` visits them, each key once. -/
structure MapData where
  entries : List (String × Val)
  nodup : (entries.map Prod.fst).Nodup

namespace MapData

def empty : MapData := ⟨[], List.nodup_nil⟩

/-- `Set(key, v)`. -/
def set (m : MapData) (key : String) (v : Val) : MapData :=
  ⟨mapSet m.entries key v, by
    rw [mapSet_keys]
    split
    · exact m.nodup
    · rename_i hk
      exact List.pairwise_append.mpr ⟨m.nodup, List.pairwise_singleton _ _,
        fun a ha b hb => by rw [List.mem_singleton.mp hb]; exact fun h => hk (h ▸ ha)⟩⟩

/-- `Get(key)`. -/
def get (m : MapData) (key : String) : Option Val := mapGet m.entries key

@[simp] theorem set_entries (m : MapData) (key : String) (v : Val) : (m.set key v).entries = mapSet m.entries key v :=
  rfl

end MapData

/-- The host objects the `q` intrinsics read and build. -/
structure Objects where
  lists : List (List Val)
  maps : List MapData
  pairs : List (Val × Val)

instance : Inhabited Objects := ⟨⟨[], [], []⟩⟩

namespace Objects

variable (o : Objects)

/-- `v.List().Data`. -/
def listOf : Val → Except String (List Val)
  | .list ref => match o.lists[ref]? with
    | some l => .ok l
    | none => .error "nil pointer dereference"
  | _ => .error "interface conversion: Val is not a list"

/-- `v.Map()`. -/
def mapOf : Val → Except String MapData
  | .map ref => match o.maps[ref]? with
    | some m => .ok m
    | none => .error "nil pointer dereference"
  | _ => .error "interface conversion: Val is not a map"

/-- `v.Pair()`. -/
def pairOf : Val → Except String (Val × Val)
  | .pair ref => match o.pairs[ref]? with
    | some p => .ok p
    | none => .error "nil pointer dereference"
  | _ => .error "interface conversion: Val is not a pair"

@[simp] theorem listOf_list {ref : Nat} {l : List Val} (stored : o.lists[ref]? = some l) :
    o.listOf (.list ref) = .ok l := by
  simp [listOf, stored]

@[simp] theorem mapOf_map {ref : Nat} {m : MapData} (stored : o.maps[ref]? = some m) :
    o.mapOf (.map ref) = .ok m := by
  simp [mapOf, stored]

@[simp] theorem pairOf_pair {ref : Nat} {p : Val × Val} (stored : o.pairs[ref]? = some p) :
    o.pairOf (.pair ref) = .ok p := by
  simp [pairOf, stored]

end Objects

/-- The world the `q` intrinsics run in: where its host objects are, and
`Closure.Call`, which runs a callback (re-entering the evaluator for a
script closure) and may change anything the world holds. -/
structure QueryHost (W : Type) where
  objects : W → Objects
  setObjects : W → Objects → W
  objects_setObjects : ∀ w o, objects (setObjects w o) = o
  call : W → Closure → List Val → Except String Val × W

namespace QueryHost

/-- The world that is the host objects alone, with callbacks answered by `call`. -/
def ofStore (call : Objects → Closure → List Val → Except String Val × Objects) : QueryHost Objects where
  objects := id
  setObjects := fun _ o => o
  objects_setObjects := fun _ _ => rfl
  call := call

variable {W : Type} (q : QueryHost W)

/-- `NewValList()` filled by `AddList`: the list the intrinsic built in a Go
local, published when it returns it. -/
def allocList (w : W) (l : List Val) : W × Val :=
  let o := q.objects w
  (q.setObjects w { o with lists := o.lists ++ [l] }, .list o.lists.length)

/-- `NewValMap()` filled by `AddMap`. -/
def allocMap (w : W) (m : MapData) : W × Val :=
  let o := q.objects w
  (q.setObjects w { o with maps := o.maps ++ [m] }, .map o.maps.length)

end QueryHost

/-! ## Values as the intrinsics read them -/

theorem toInt_range (x : BitVec 64) : -9223372036854775808 ≤ x.toInt ∧ x.toInt < 9223372036854775808 := by
  rw [BitVec.toInt_eq_toNat_cond]; have := x.isLt; split <;> omega

namespace Val

/-- `int(v.Int())`: a Go `int` is 64 bits wide. -/
def goInt : Val → Except String Int
  | .int v => .ok v.toInt
  | _ => .error "interface conversion: Val is not an int"

/-- `v.String()` of a string value. -/
def goString : Val → Except String String
  | .str s => .ok s
  | _ => .error "interface conversion: Val is not a string"

/-- `v.Closure()`. -/
def goClosure : Val → Except String Closure
  | .closure c => .ok c
  | _ => .error "interface conversion: Val is not a closure"

def isList : Val → Bool
  | .list _ => true
  | _ => false

def isMap : Val → Bool
  | .map _ => true
  | _ => false

def isPair : Val → Bool
  | .pair _ => true
  | _ => false

end Val

/-- `must(cond, msg)`. -/
def must (cond : Bool) (msg : String) : Except String Unit :=
  if cond then pure () else throw msg

@[simp] theorem must_true (msg : String) : must true msg = .ok () := rfl

/-- `args[i]`: out of range panics. -/
def argAt (args : List Val) (i : Nat) : Except String Val := Module.pool args i

/-! ## Signatures -/

/-- An argument kind of a signature: `%d`, `%s`, `%l`, `%m`, `%p` and `%c`. -/
inductive ArgKind where
  | int | str | list | map | pair | closure
  deriving DecidableEq, Repr

def ArgKind.accepts : ArgKind → Val → Bool
  | .int, .int _ | .str, .str _ | .list, .list _ | .map, .map _ | .pair, .pair _
  | .closure, .closure _ => true
  | _, _ => false

/-- One overload `{...}` of a signature: its kinds, then the kind a trailing
`*` repeats, if any. -/
structure Overload where
  kinds : List ArgKind
  rest : Option ArgKind
  deriving DecidableEq, Repr

/-- Whether an argument vector matches an overload. -/
def Overload.matches (kinds : List ArgKind) (rest : Option ArgKind) : List Val → Bool
  | [] => kinds.isEmpty
  | a :: args =>
    match kinds with
    | k :: ks => k.accepts a && Overload.matches ks rest args
    | [] => match rest with
      | some k => k.accepts a && Overload.matches [] rest args
      | none => false

def Overload.accepts (o : Overload) (args : List Val) : Bool := Overload.matches o.kinds o.rest args

/-- `info.Check(args)`, modelled from the spec: the index of the first
overload the arguments match, or an error. -/
def check (sig : List Overload) (args : List Val) : Except String Nat :=
  match sig.findIdx? (·.accepts args) with
  | some i => .ok i
  | none => .error "argument does not match any signature of the function"

theorem check_of_accepts {sig : List Overload} {args : List Val} {o : Overload} (member : o ∈ sig)
    (accepts : o.accepts args = true) : ∃ i, check sig args = .ok i := by
  unfold check
  split
  · exact ⟨_, rfl⟩
  · rename_i hn
    rw [List.findIdx?_eq_none_iff] at hn
    exact absurd accepts (by simpa using hn o member)

/-- `if _, err := info.Check(args); err != nil { return NewValNull(), err }`,
then `body`. An intrinsic returns its Go `(Val, error)` pair as an `Except`,
with the world it leaves; the outer error is a panic. -/
def checked {W : Type} (sig : List Overload) (w : W) (args : List Val)
    (body : Except String (W × Except String Val)) : Except String (W × Except String Val) :=
  match check sig args with
  | .error err => .ok (w, .error err)
  | .ok _ => body

theorem checked_of_accepts {W : Type} {sig : List Overload} {w : W} {args : List Val} {body : Except String (W × Except String Val)}
    {o : Overload} (member : o ∈ sig) (accepts : o.accepts args = true) : checked sig w args body = body := by
  obtain ⟨i, hi⟩ := check_of_accepts member accepts
  simp [checked, hi]

end Moons.Pl
