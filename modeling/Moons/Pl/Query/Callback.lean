import Moons.Pl.Query.Basic
import Mathlib.Algebra.Order.Ring.Nat

/-!
# `q::map`, `q::filter` and `q::filter_not`

The intrinsics of `pl/mod_query.go` that call a closure back on every
element: a list's `(index, element)` pairs in order, or a map's
`(key, value)` entries in the order `Foreach` visits them. Each stops at the
first callback that fails or answers what it cannot use. The list or map a
call builds is a Go local that no callback can reach; it is kept here as a
Lean value and published when the intrinsic returns it.

A `range` loop over a list fixes its number of rounds when it begins and
reads element `k` at round `k`, after the earlier callbacks ran: a callback
that writes a later element is seen by that later round. Each round is given
as the arguments it reads from the world it starts in (`listReads`), and the
callback's calls along a loop as `callEach`.
-/

set_option autoImplicit false

namespace Moons.Pl

section

variable {W : Type} (q : QueryHost W)

/-- `"{%l%c}{%m%c}"`, the signature of `q::map`, `q::filter` and `q::filter_not`. -/
def callbackSig : List Overload := [⟨[.list, .closure], none⟩, ⟨[.map, .closure], none⟩]

/-- `NewValInt(k)` for the index of a list element. -/
def indexVal (k : Nat) : Val := .int (BitVec.ofNat 64 k)

/-- Element `k` of the list `a0` as round `k` of a `range` loop reads it, from
the world the earlier callbacks left. A list that no longer reaches `k` there
keeps the element `v` it had when the loop began. -/
def rangeElem (w : W) (a0 : Val) (k : Nat) (v : Val) : Val :=
  match (q.objects w).listOf a0 with
  | .ok l => l.getD k v
  | .error _ => v

/-- The rounds of a `range` loop over the list `a0` from index `k`, whose
elements were `vs` when it began: each reads its `(index, element)` from the
world it starts in. -/
def listReads (a0 : Val) : Nat → List Val → List (W → List Val)
  | _, [] => []
  | k, v :: vs => (fun w => [indexVal k, rangeElem q w a0 k v]) :: listReads a0 (k + 1) vs

/-- The rounds of `Foreach` over a map's entries, read when the walk begins. -/
def entryReads (es : List (String × Val)) : List (W → List Val) :=
  es.map fun (key, value) _ => [.str key, value]

/-- The callback `fn`'s results along the rounds `reads`, each call made in
the world the one before it left, with the world it leaves. -/
def callEach (fn : Closure) : List (W → List Val) → W → List (Except String Val × W)
  | [], _ => []
  | read :: rest, w => q.call w fn (read w) :: callEach fn rest (q.call w fn (read w)).2

/-- The world `fn`'s calls along the rounds `reads` leave. -/
def worldAfter (fn : Closure) (reads : List (W → List Val)) (w : W) : W :=
  reads.foldl (fun w read => (q.call w fn (read w)).2) w

@[simp] theorem worldAfter_nil (fn : Closure) (w : W) : worldAfter q fn [] w = w := rfl

@[simp] theorem worldAfter_cons (fn : Closure) (read : W → List Val) (rest : List (W → List Val)) (w : W) :
    worldAfter q fn (read :: rest) w = worldAfter q fn rest (q.call w fn (read w)).2 := rfl

theorem length_callEach (fn : Closure) : ∀ (reads : List (W → List Val)) (w : W),
    (callEach q fn reads w).length = reads.length
  | [], _ => rfl
  | _ :: rest, _ => congrArg (· + 1) (length_callEach fn rest _)

theorem rangeElem_of_listOf {w : W} {a0 : Val} {l : List Val} {k : Nat} {v : Val}
    (current : (q.objects w).listOf a0 = .ok l) (elem : l[k]? = some v) : rangeElem q w a0 k v = v := by
  simp [rangeElem, current, elem]

/-! ## Filters -/

/-- The list loop of `filterImpl` over `a0`, from index `k`, building `o`;
`vs` are the elements from `k` on as they were when the loop began. -/
def filterList (name : String) (should : Bool → Bool) (fn : Closure) (a0 : Val) :
    Nat → List Val → W → List Val → W × Except String (List Val)
  | _, [], w, o => (w, .ok o)
  | k, v :: vs, w, o =>
    let v := rangeElem q w a0 k v
    match q.call w fn [indexVal k, v] with
    | (.error err, w) => (w, .error err)
    | (.ok (.bool b), w) => filterList name should fn a0 (k + 1) vs w (if should b then o ++ [v] else o)
    | (.ok _, w) => (w, .error (name ++ " callback function must return bool"))

/-- The map loop of `filterImpl`: `Foreach` with a visitor that stops the walk
by answering `false`. -/
def filterEntries (name : String) (should : Bool → Bool) (fn : Closure) :
    List (String × Val) → W → MapData → W × Except String MapData
  | [], w, o => (w, .ok o)
  | (k, v) :: rest, w, o =>
    match q.call w fn [.str k, v] with
    | (.error err, w) => (w, .error err)
    | (.ok (.bool b), w) => filterEntries name should fn rest w (if should b then o.set k v else o)
    | (.ok _, w) => (w, .error (name ++ " callback function must return bool"))

/-- `filterImpl(name, info, eval, _, args, should)`. It reads `args[0]` and
`args[1]` without running `Check` first. -/
def filterImpl (name : String) (should : Bool → Bool) (w : W) (args : List Val) :
    Except String (W × Except String Val) := do
  let a0 ← argAt args 0
  let fn ← (← argAt args 1).goClosure
  if a0.isList then
    let data ← (q.objects w).listOf a0
    match filterList q name should fn a0 0 data w [] with
    | (w, .ok o) => pure ((q.allocList w o).1, .ok (q.allocList w o).2)
    | (w, .error err) => pure (w, .error err)
  else
    must a0.isMap "must be map"
    let m ← (q.objects w).mapOf a0
    match filterEntries q name should fn m.entries w .empty with
    | (w, .ok o) => pure ((q.allocMap w o).1, .ok (q.allocMap w o).2)
    | (w, .error err) => pure (w, .error err)

/-- `qFilter`: keep what the callback answers `true` for. -/
def qFilter (w : W) (args : List Val) : Except String (W × Except String Val) :=
  filterImpl q "q::filter" (fun p => p) w args

/-- `qFilterNot`: keep what the callback answers `false` for. -/
def qFilterNot (w : W) (args : List Val) : Except String (W × Except String Val) :=
  filterImpl q "q::filter_not" (fun p => !p) w args

/-! ### What the filters keep -/

section Filter

variable (name : String) (should : Bool → Bool) (fn : Closure) (p : Val → Val → Bool)

/-- The elements of the indexed list `es` whose pair `should (p k v)` keeps. -/
def keptElems (es : List (Nat × Val)) : List Val := (es.filter fun e => should (p (indexVal e.1) e.2)).map Prod.snd

/-- The entries of the map `es` whose pair `should (p k v)` keeps. -/
def keptEntries (es : List (String × Val)) : List (String × Val) := es.filter fun e => should (p (.str e.1) e.2)

/-- The callback's answers along a loop when it answers the bool `p k v` on
every `(index, element)` pair. -/
def boolAnswers (es : List (Nat × Val)) : List (Except String Val) :=
  es.map fun e => .ok (.bool (p (indexVal e.1) e.2))

/-- The callback's answers along a map walk when it answers the bool
`p key value` on every entry. -/
def entryAnswers (es : List (String × Val)) : List (Except String Val) :=
  es.map fun e => .ok (.bool (p (.str e.1) e.2))

theorem keptElems_perm (l : List Val) : (keptElems id p l.enum ++ keptElems not p l.enum).Perm l := by
  have split := (List.filter_append_perm (fun e : Nat × Val => p (indexVal e.1) e.2) l.enum).map Prod.snd
  rw [List.map_append, List.enum_map_snd] at split
  exact split

theorem keptEntries_perm (es : List (String × Val)) : (keptEntries id p es ++ keptEntries not p es).Perm es :=
  List.filter_append_perm _ es

theorem filterList_cons_bool {a0 : Val} {k : Nat} {v : Val} {vs : List Val} {w : W} {o : List Val} {b : Bool}
    (answer : (q.call w fn [indexVal k, rangeElem q w a0 k v]).1 = .ok (.bool b)) :
    filterList q name should fn a0 k (v :: vs) w o =
      filterList q name should fn a0 (k + 1) vs (q.call w fn [indexVal k, rangeElem q w a0 k v]).2
        (if should b then o ++ [rangeElem q w a0 k v] else o) := by
  rcases call : q.call w fn [indexVal k, rangeElem q w a0 k v] with ⟨r, w'⟩
  rw [call] at answer
  subst answer
  simp only [filterList, call]

theorem filterList_cons_not_bool {a0 : Val} {k : Nat} {v : Val} {vs : List Val} {w : W} {o : List Val}
    (notBool : ∀ b, (q.call w fn [indexVal k, rangeElem q w a0 k v]).1 ≠ .ok (.bool b)) :
    ∃ err, filterList q name should fn a0 k (v :: vs) w o =
      ((q.call w fn [indexVal k, rangeElem q w a0 k v]).2, .error err) := by
  rcases call : q.call w fn [indexVal k, rangeElem q w a0 k v] with ⟨r, w'⟩
  rw [call] at notBool
  simp only [filterList, call]
  cases r with
  | error err => exact ⟨err, rfl⟩
  | ok r => cases r <;> first | exact ⟨_, rfl⟩ | exact absurd rfl (notBool _)

theorem filterList_keeps {a0 : Val} {l : List Val} : ∀ (vs : List Val) (k : Nat) (w : W) (o : List Val),
    (q.objects w).listOf a0 = .ok l → (∀ i v, (i, v) ∈ vs.enumFrom k → l[i]? = some v) →
    (callEach q fn (listReads q a0 k vs) w).map Prod.fst = boolAnswers p (vs.enumFrom k) →
    (∀ r ∈ callEach q fn (listReads q a0 k vs) w, (q.objects r.2).listOf a0 = .ok l) →
    filterList q name should fn a0 k vs w o =
      (worldAfter q fn (listReads q a0 k vs) w, .ok (o ++ keptElems should p (vs.enumFrom k)))
  | [], _, _, _, _, _, _, _ => by simp [filterList, listReads, keptElems]
  | v :: vs, k, w, o, current, elems, answers, unchanged => by
    have read := rangeElem_of_listOf q current (elems k v (List.mem_cons_self _ _))
    simp only [listReads, callEach, List.map_cons, List.enumFrom_cons, boolAnswers, List.cons.injEq, read]
      at answers unchanged
    rw [filterList_cons_bool q name should fn (read ▸ answers.1), read,
      filterList_keeps vs (k + 1) _ _ (unchanged _ (List.mem_cons_self _ _))
        (fun i u mem => elems i u (List.mem_cons_of_mem _ mem)) answers.2
        (fun r mem => unchanged r (List.mem_cons_of_mem _ mem))]
    simp only [listReads, worldAfter_cons, read, List.enumFrom_cons, keptElems, List.filter_cons]
    cases should (p (indexVal k) v) <;> simp

theorem filterList_stops {a0 : Val} {l : List Val} (v : Val) (post : List Val) :
    ∀ (pre : List Val) (k : Nat) (w : W) (o : List Val),
    (q.objects w).listOf a0 = .ok l → (∀ i u, (i, u) ∈ (pre ++ v :: post).enumFrom k → l[i]? = some u) →
    (callEach q fn (listReads q a0 k pre) w).map Prod.fst = boolAnswers p (pre.enumFrom k) →
    (∀ r ∈ callEach q fn (listReads q a0 k pre) w, (q.objects r.2).listOf a0 = .ok l) →
    (∀ b, (q.call (worldAfter q fn (listReads q a0 k pre) w) fn [indexVal (k + pre.length), v]).1 ≠ .ok (.bool b)) →
    ∃ err, filterList q name should fn a0 k (pre ++ v :: post) w o =
      ((q.call (worldAfter q fn (listReads q a0 k pre) w) fn [indexVal (k + pre.length), v]).2, .error err)
  | [], k, w, o, current, elems, _, _, notBool => by
    have read := rangeElem_of_listOf q current (elems k v (List.mem_cons_self _ _))
    simp only [listReads, worldAfter_nil, List.length_nil, Nat.add_zero, List.nil_append] at notBool ⊢
    obtain ⟨err, stops⟩ := @filterList_cons_not_bool W q name should fn a0 k v post w o (by rw [read]; exact notBool)
    exact ⟨err, by rw [stops, read]⟩
  | u :: pre, k, w, o, current, elems, answers, unchanged, notBool => by
    have read := rangeElem_of_listOf q current (elems k u (List.mem_cons_self _ _))
    simp only [listReads, callEach, List.map_cons, List.enumFrom_cons, boolAnswers, List.cons.injEq, read]
      at answers unchanged
    have index : k + (pre.length + 1) = k + 1 + pre.length := by omega
    simp only [listReads, worldAfter_cons, read, List.length_cons, index] at notBool ⊢
    rw [List.cons_append, filterList_cons_bool q name should fn (read ▸ answers.1), read]
    exact filterList_stops v post pre (k + 1) _ _ (unchanged _ (List.mem_cons_self _ _))
      (fun i u' mem => elems i u' (List.mem_cons_of_mem _ mem)) answers.2
      (fun r mem => unchanged r (List.mem_cons_of_mem _ mem)) notBool

theorem filterEntries_cons_bool {k : String} {v : Val} {rest : List (String × Val)} {w : W} {o : MapData} {b : Bool}
    (answer : (q.call w fn [.str k, v]).1 = .ok (.bool b)) :
    filterEntries q name should fn ((k, v) :: rest) w o =
      filterEntries q name should fn rest (q.call w fn [.str k, v]).2 (if should b then o.set k v else o) := by
  rcases call : q.call w fn [.str k, v] with ⟨r, w'⟩
  rw [call] at answer
  subst answer
  simp only [filterEntries, call]

theorem filterEntries_cons_not_bool {k : String} {v : Val} {rest : List (String × Val)} {w : W} {o : MapData}
    (notBool : ∀ b, (q.call w fn [.str k, v]).1 ≠ .ok (.bool b)) :
    ∃ err, filterEntries q name should fn ((k, v) :: rest) w o = ((q.call w fn [.str k, v]).2, .error err) := by
  rcases call : q.call w fn [.str k, v] with ⟨r, w'⟩
  rw [call] at notBool
  simp only [filterEntries, call]
  cases r with
  | error err => exact ⟨err, rfl⟩
  | ok r => cases r <;> first | exact ⟨_, rfl⟩ | exact absurd rfl (notBool _)

theorem filterEntries_keeps : ∀ (es : List (String × Val)) (w : W) (o : MapData),
    (es.map Prod.fst).Nodup → (∀ e ∈ es, e.1 ∉ o.entries.map Prod.fst) →
    (callEach q fn (entryReads es) w).map Prod.fst = entryAnswers p es →
    ∃ o', filterEntries q name should fn es w o = (worldAfter q fn (entryReads es) w, .ok o') ∧
      o'.entries = o.entries ++ keptEntries should p es
  | [], w, o, _, _, _ => ⟨o, rfl, by simp [keptEntries]⟩
  | (k, v) :: rest, w, o, distinct, fresh, answers => by
    rw [List.map_cons, List.nodup_cons] at distinct
    simp only [entryReads, List.map_cons, callEach, entryAnswers, List.cons.injEq] at answers
    have absent : k ∉ o.entries.map Prod.fst := fresh (k, v) (List.mem_cons_self _ _)
    have kept : (if should (p (.str k) v) then o.set k v else o).entries =
        o.entries ++ if should (p (.str k) v) then [(k, v)] else [] := by
      by_cases keep : should (p (.str k) v) <;> simp [keep, mapSet_of_not_mem _ absent]
    have fresh' : ∀ e ∈ rest, e.1 ∉ (if should (p (.str k) v) then o.set k v else o).entries.map Prod.fst := by
      intro e mem found
      rw [kept, List.map_append, List.mem_append] at found
      rcases found with old | new
      · exact fresh e (List.mem_cons_of_mem _ mem) old
      · split at new
        · exact distinct.1 ((List.mem_singleton.mp new) ▸ List.mem_map_of_mem Prod.fst mem)
        · simp at new
    obtain ⟨o', run, entries⟩ := filterEntries_keeps rest _ _ distinct.2 fresh' answers.2
    refine ⟨o', by rw [filterEntries_cons_bool q name should fn answers.1, run]; rfl, ?_⟩
    rw [entries, kept]
    by_cases keep : should (p (.str k) v) <;> simp [keep, keptEntries, List.filter_cons]

theorem filterEntries_stops (k : String) (v : Val) (post : List (String × Val)) :
    ∀ (pre : List (String × Val)) (w : W) (o : MapData),
    (callEach q fn (entryReads pre) w).map Prod.fst = entryAnswers p pre →
    (∀ b, (q.call (worldAfter q fn (entryReads pre) w) fn [.str k, v]).1 ≠ .ok (.bool b)) →
    ∃ err, filterEntries q name should fn (pre ++ (k, v) :: post) w o =
      ((q.call (worldAfter q fn (entryReads pre) w) fn [.str k, v]).2, .error err)
  | [], w, o, _, notBool => filterEntries_cons_not_bool q name should fn notBool
  | (k', u) :: pre, w, o, answers, notBool => by
    simp only [entryReads, List.map_cons, callEach, entryAnswers, List.cons.injEq] at answers
    rw [List.cons_append, filterEntries_cons_bool q name should fn answers.1]
    exact filterEntries_stops k v post pre _ _ answers.2 notBool

theorem filterImpl_list {w : W} {ref : Nat} {l : List Val} (current : (q.objects w).lists[ref]? = some l) :
    filterImpl q name should w [.list ref, .closure fn] =
      match filterList q name should fn (.list ref) 0 l w [] with
      | (w, .ok o) => .ok ((q.allocList w o).1, .ok (q.allocList w o).2)
      | (w, .error err) => .ok (w, .error err) := by
  simp only [filterImpl, argAt, Module.pool, List.getElem?_cons_zero, List.getElem?_cons_succ, Val.goClosure,
    Val.isList, if_true, Objects.listOf_list _ current, bind, Except.bind]
  rcases filterList q name should fn (.list ref) 0 l w [] with ⟨_, _ | _⟩ <;> rfl

theorem filterImpl_map {w : W} {ref : Nat} {m : MapData} (current : (q.objects w).maps[ref]? = some m) :
    filterImpl q name should w [.map ref, .closure fn] =
      match filterEntries q name should fn m.entries w .empty with
      | (w, .ok o) => .ok ((q.allocMap w o).1, .ok (q.allocMap w o).2)
      | (w, .error err) => .ok (w, .error err) := by
  simp only [filterImpl, argAt, Module.pool, List.getElem?_cons_zero, List.getElem?_cons_succ, Val.goClosure,
    Val.isList, Val.isMap, Bool.false_eq_true, if_false, must_true, Objects.mapOf_map _ current, bind, Except.bind]
  rcases filterEntries q name should fn m.entries w .empty with ⟨_, _ | _⟩ <;> rfl

theorem filterImpl_list_keeps {w : W} {ref : Nat} {l : List Val} (current : (q.objects w).lists[ref]? = some l)
    (answers : (callEach q fn (listReads q (.list ref) 0 l) w).map Prod.fst = boolAnswers p l.enum)
    (unchanged : ∀ r ∈ callEach q fn (listReads q (.list ref) 0 l) w, (q.objects r.2).lists[ref]? = some l) :
    let w' := worldAfter q fn (listReads q (.list ref) 0 l) w
    filterImpl q name should w [.list ref, .closure fn] =
      .ok ((q.allocList w' (keptElems should p l.enum)).1, .ok (q.allocList w' (keptElems should p l.enum)).2) := by
  rw [filterImpl_list q name should fn current, filterList_keeps q name should fn p l 0 w []
    (Objects.listOf_list _ current) (fun i v mem => List.mem_enum_iff_getElem?.mp mem) answers
    (fun r mem => Objects.listOf_list _ (unchanged r mem))]
  rfl

theorem filterImpl_list_stops {w : W} {ref : Nat} {pre post : List Val} {v : Val}
    (current : (q.objects w).lists[ref]? = some (pre ++ v :: post))
    (answers : (callEach q fn (listReads q (.list ref) 0 pre) w).map Prod.fst = boolAnswers p pre.enum)
    (unchanged : ∀ r ∈ callEach q fn (listReads q (.list ref) 0 pre) w,
      (q.objects r.2).lists[ref]? = some (pre ++ v :: post))
    (notBool : ∀ b, (q.call (worldAfter q fn (listReads q (.list ref) 0 pre) w) fn [indexVal pre.length, v]).1 ≠
      .ok (.bool b)) :
    ∃ err, filterImpl q name should w [.list ref, .closure fn] =
      .ok ((q.call (worldAfter q fn (listReads q (.list ref) 0 pre) w) fn [indexVal pre.length, v]).2, .error err) := by
  obtain ⟨err, stops⟩ := filterList_stops q name should fn p v post pre 0 w [] (Objects.listOf_list _ current)
    (fun i u mem => List.mem_enum_iff_getElem?.mp mem) answers (fun r mem => Objects.listOf_list _ (unchanged r mem))
    (by simpa using notBool)
  refine ⟨err, ?_⟩
  rw [filterImpl_list q name should fn current, stops, Nat.zero_add]

theorem filterImpl_map_keeps {w : W} {ref : Nat} {m : MapData} (current : (q.objects w).maps[ref]? = some m)
    (answers : (callEach q fn (entryReads m.entries) w).map Prod.fst = entryAnswers p m.entries) :
    ∃ o, filterImpl q name should w [.map ref, .closure fn] =
        .ok ((q.allocMap (worldAfter q fn (entryReads m.entries) w) o).1,
          .ok (q.allocMap (worldAfter q fn (entryReads m.entries) w) o).2) ∧
      o.entries = keptEntries should p m.entries := by
  obtain ⟨o, run, entries⟩ := filterEntries_keeps q name should fn p m.entries w .empty m.nodup
    (by simp [MapData.empty]) answers
  exact ⟨o, by rw [filterImpl_map q name should fn current, run], by simpa [MapData.empty] using entries⟩

theorem filterImpl_map_stops {w : W} {ref : Nat} {m : MapData} {pre post : List (String × Val)} {k : String}
    {v : Val} (current : (q.objects w).maps[ref]? = some m) (entries : m.entries = pre ++ (k, v) :: post)
    (answers : (callEach q fn (entryReads pre) w).map Prod.fst = entryAnswers p pre)
    (notBool : ∀ b, (q.call (worldAfter q fn (entryReads pre) w) fn [.str k, v]).1 ≠ .ok (.bool b)) :
    ∃ err, filterImpl q name should w [.map ref, .closure fn] =
      .ok ((q.call (worldAfter q fn (entryReads pre) w) fn [.str k, v]).2, .error err) := by
  obtain ⟨err, stops⟩ := filterEntries_stops q name should fn p k v post pre w .empty answers notBool
  exact ⟨err, by rw [filterImpl_map q name should fn current, entries, stops]⟩

end Filter

/-- `q::filter(c, f)` and `q::filter_not(c, f)` on a list `c` whose callback
`f`, called on each `(index, element)` pair in the world the call before it
left, answers the bool `p(k, v)` and leaves `c` as it was: both end in the
world the calls leave, `q::filter` returns the elements `p` keeps and
`q::filter_not` those it drops, in order, as new lists that merge back into
`c`. On a map the same holds of its entries in `Foreach` order. When `f` fails
or answers a non-bool on some element, both fail, leaving the world that call
left: `f` is not called on a later element. -/
theorem filters_split {w : W} {fn : Closure} (p : Val → Val → Bool) :
    (∀ ref l, (q.objects w).lists[ref]? = some l →
      (callEach q fn (listReads q (.list ref) 0 l) w).map Prod.fst = boolAnswers p l.enum →
      (∀ r ∈ callEach q fn (listReads q (.list ref) 0 l) w, (q.objects r.2).lists[ref]? = some l) →
      let w' := worldAfter q fn (listReads q (.list ref) 0 l) w
      qFilter q w [.list ref, .closure fn] =
          .ok ((q.allocList w' (keptElems id p l.enum)).1, .ok (q.allocList w' (keptElems id p l.enum)).2) ∧
        qFilterNot q w [.list ref, .closure fn] =
          .ok ((q.allocList w' (keptElems not p l.enum)).1, .ok (q.allocList w' (keptElems not p l.enum)).2) ∧
        (keptElems id p l.enum ++ keptElems not p l.enum).Perm l) ∧
    (∀ ref m, (q.objects w).maps[ref]? = some m →
      (callEach q fn (entryReads m.entries) w).map Prod.fst = entryAnswers p m.entries →
      let w' := worldAfter q fn (entryReads m.entries) w
      ∃ o o', qFilter q w [.map ref, .closure fn] = .ok ((q.allocMap w' o).1, .ok (q.allocMap w' o).2) ∧
        qFilterNot q w [.map ref, .closure fn] = .ok ((q.allocMap w' o').1, .ok (q.allocMap w' o').2) ∧
        o.entries = keptEntries id p m.entries ∧ o'.entries = keptEntries not p m.entries ∧
        (o.entries ++ o'.entries).Perm m.entries) ∧
    (∀ ref pre v post, (q.objects w).lists[ref]? = some (pre ++ v :: post) →
      (callEach q fn (listReads q (.list ref) 0 pre) w).map Prod.fst = boolAnswers p pre.enum →
      (∀ r ∈ callEach q fn (listReads q (.list ref) 0 pre) w, (q.objects r.2).lists[ref]? = some (pre ++ v :: post)) →
      let r := q.call (worldAfter q fn (listReads q (.list ref) 0 pre) w) fn [indexVal pre.length, v]
      (∀ b, r.1 ≠ .ok (.bool b)) →
      (∃ err, qFilter q w [.list ref, .closure fn] = .ok (r.2, .error err)) ∧
        ∃ err, qFilterNot q w [.list ref, .closure fn] = .ok (r.2, .error err)) ∧
    (∀ ref m pre k v post, (q.objects w).maps[ref]? = some m → m.entries = pre ++ (k, v) :: post →
      (callEach q fn (entryReads pre) w).map Prod.fst = entryAnswers p pre →
      let r := q.call (worldAfter q fn (entryReads pre) w) fn [.str k, v]
      (∀ b, r.1 ≠ .ok (.bool b)) →
      (∃ err, qFilter q w [.map ref, .closure fn] = .ok (r.2, .error err)) ∧
        ∃ err, qFilterNot q w [.map ref, .closure fn] = .ok (r.2, .error err)) := by
  refine ⟨fun ref l current answers unchanged => ?_, fun ref m current answers => ?_,
    fun ref pre v post current answers unchanged notBool => ?_,
    fun ref m pre k v post current entries answers notBool => ?_⟩
  · exact ⟨filterImpl_list_keeps q _ _ fn p current answers unchanged,
      filterImpl_list_keeps q _ _ fn p current answers unchanged, keptElems_perm p l⟩
  · obtain ⟨o, kept, entries⟩ := filterImpl_map_keeps q "q::filter" (fun b => b) fn p current answers
    obtain ⟨o', dropped, entries'⟩ := filterImpl_map_keeps q "q::filter_not" (fun b => !b) fn p current answers
    exact ⟨o, o', kept, dropped, entries, entries', entries ▸ entries' ▸ keptEntries_perm p m.entries⟩
  · exact ⟨filterImpl_list_stops q _ _ fn p current answers unchanged notBool,
      filterImpl_list_stops q _ _ fn p current answers unchanged notBool⟩
  · exact ⟨filterImpl_map_stops q _ _ fn p current entries answers notBool,
      filterImpl_map_stops q _ _ fn p current entries answers notBool⟩

/-! ## Grouping -/

/-- `addMapResult(m, key, val)` on the result map, whose values are the group
lists `addMapResult` itself creates, so its `must`s hold: append to the
key's group, or start one. -/
def addMapResult (m : List (String × List Val)) (key : String) (val : Val) : List (String × List Val) :=
  if m.any (·.1 == key) then m.map fun g => if g.1 = key then (g.1, g.2 ++ [val]) else g
  else m ++ [(key, [val])]

/-- What `qMap` makes of a callback's answer: the key and value of a pair
whose first slot is a string. -/
def mapAnswer (o : Objects) (v : Val) : Except String (Except String (String × Val)) :=
  if v.isPair then do
    let (first, second) ← o.pairOf v
    match first with
    | .str key => pure (.ok (key, second))
    | _ => pure (.error "q::map's filter function must returns a pair with first to be string")
  else pure (.error "q::map's filter function must returns a pair")

/-- The loop of `qMap` along the rounds `reads`, grouping into `m`. -/
def mapLoop (closure : Closure) :
    List (W → List Val) → W → List (String × List Val) → Except String (W × Except String (List (String × List Val)))
  | [], w, m => pure (w, .ok m)
  | read :: rest, w, m =>
    match q.call w closure (read w) with
    | (.error err, w) => pure (w, .error err)
    | (.ok v, w) => do
      match ← mapAnswer (q.objects w) v with
      | .ok (key, second) => mapLoop closure rest w (addMapResult m key second)
      | .error err => pure (w, .error err)

/-- Publish the groups: each group list, then the map of them in order. -/
def allocGroups : W → List (String × List Val) → MapData → W × MapData
  | w, [], md => (w, md)
  | w, (key, l) :: gs, md => allocGroups ((q.allocList w l).1) gs (md.set key (q.allocList w l).2)

/-- `qMap`: a list's `(index, element)` pairs or a map's entries, grouped by
the callback's keys. -/
def qMap (w : W) (args : List Val) : Except String (W × Except String Val) :=
  checked callbackSig w args do
    let a0 ← argAt args 0
    let closure ← (← argAt args 1).goClosure
    let reads ← if a0.isList then do
        let data ← (q.objects w).listOf a0
        pure (listReads q a0 0 data)
      else do
        must a0.isMap "must be map"
        let m ← (q.objects w).mapOf a0
        pure (entryReads m.entries)
    match ← mapLoop q closure reads w [] with
    | (w, .ok groups) =>
      let (w, md) := allocGroups q w groups .empty
      pure ((q.allocMap w md).1, .ok (q.allocMap w md).2)
    | (w, .error err) => pure (w, .error err)

end

/-! ### What `q::map` groups -/

/-- The keys of `ks` in order of first occurrence. -/
def firstKeys : List String → List String
  | [] => []
  | k :: ks => k :: (firstKeys ks).erase k

/-- The groups `q::map` is meant to return: for each key in order of first
occurrence, the values under it in order. -/
def groupsOf (kvs : List (String × Val)) : List (String × List Val) :=
  (firstKeys (kvs.map Prod.fst)).map fun k => (k, (kvs.filter (·.1 == k)).map Prod.snd)

theorem mem_firstKeys {k : String} : ∀ {ks : List String}, k ∈ firstKeys ks ↔ k ∈ ks
  | [] => Iff.rfl
  | k' :: ks => by
    simp only [firstKeys, List.mem_cons]
    by_cases h : k = k'
    · simp [h]
    · rw [List.mem_erase_of_ne h, mem_firstKeys]

theorem firstKeys_append_singleton (key : String) : ∀ (ks : List String),
    firstKeys (ks ++ [key]) = if key ∈ ks then firstKeys ks else firstKeys ks ++ [key]
  | [] => by simp [firstKeys]
  | k :: ks => by
    rw [List.cons_append, firstKeys, firstKeys_append_singleton key ks]
    by_cases hks : key ∈ ks
    · simp [hks, firstKeys]
    · have hF : key ∉ firstKeys ks := fun h => hks (mem_firstKeys.mp h)
      by_cases hk : key = k
      · subst hk
        simp [hks, firstKeys, List.erase_append_right _ hF, List.erase_of_not_mem hF]
      · have hne : ¬(key == k) = true := by simpa using hk
        by_cases hkF : k ∈ firstKeys ks
        · simp [hks, hk, firstKeys, List.erase_append_left _ hkF, List.erase_cons, hne]
        · simp [hks, hk, firstKeys, List.erase_append_right _ hkF, List.erase_cons, hne, List.erase_of_not_mem hkF]

theorem groupsOf_append_singleton (pre : List (String × Val)) (key : String) (val : Val) :
    groupsOf (pre ++ [(key, val)]) = addMapResult (groupsOf pre) key val := by
  have hany : (groupsOf pre).any (·.1 == key) = decide (key ∈ pre.map Prod.fst) := by
    by_cases h : key ∈ pre.map Prod.fst
    · simp only [h, decide_True, List.any_eq_true]
      exact ⟨(key, _), List.mem_map.mpr ⟨key, mem_firstKeys.mpr h, rfl⟩, by simp⟩
    · simp only [h, decide_False, Bool.eq_false_iff, ne_eq, List.any_eq_true, not_exists, not_and]
      intro g hg hgk
      obtain ⟨k, hk, rfl⟩ := List.mem_map.mp hg
      exact h ((beq_iff_eq.mp hgk) ▸ mem_firstKeys.mp hk)
  unfold addMapResult
  rw [hany]
  unfold groupsOf
  rw [List.map_append, List.map_cons, List.map_nil, firstKeys_append_singleton]
  by_cases hkey : key ∈ pre.map Prod.fst
  · simp only [hkey, decide_True, if_true, List.map_map]
    apply List.map_congr_left
    intro k _
    by_cases hk : k = key
    · subst hk; simp [List.filter_append]
    · simp [List.filter_append, hk, Ne.symm hk]
  · simp only [hkey, decide_False, if_false, List.map_append, List.map_cons, List.map_nil, Bool.false_eq_true]
    congr 1
    · apply List.map_congr_left
      intro k hk
      have hne : k ≠ key := fun h => hkey (h ▸ mem_firstKeys.mp hk)
      simp [List.filter_append, hne, Ne.symm hne]
    · have hnil : pre.filter (·.1 == key) = [] := List.filter_eq_nil_iff.mpr fun kv hkv h =>
        hkey (List.mem_map.mpr ⟨kv, hkv, by simpa using h⟩)
      simp [List.filter_append, hnil]

theorem nodup_firstKeys : ∀ ks : List String, (firstKeys ks).Nodup
  | [] => List.nodup_nil
  | k :: ks => List.nodup_cons.mpr ⟨(nodup_firstKeys ks).not_mem_erase, (nodup_firstKeys ks).erase k⟩

theorem flatMap_insert {F : String → List Val} {k₀ : String} {v₀ : Val} :
    ∀ {ks : List String}, ks.Nodup → k₀ ∈ ks →
      (ks.flatMap fun k => if k₀ = k then v₀ :: F k else F k).Perm (v₀ :: ks.flatMap F)
  | k :: ks, hnd, hmem => by
    obtain ⟨hk, hnd⟩ := List.nodup_cons.mp hnd
    rw [List.flatMap_cons, List.flatMap_cons]
    by_cases h : k₀ = k
    · subst h
      have hrest : (ks.flatMap fun k => if k₀ = k then v₀ :: F k else F k) = ks.flatMap F := by
        simp only [List.flatMap]
        congr 1
        exact List.map_congr_left fun k hkm => if_neg fun (h : k₀ = k) => hk (h ▸ hkm)
      rw [if_pos rfl, hrest]
      rfl
    · rw [if_neg h]
      have hmem : k₀ ∈ ks := (List.mem_cons.mp hmem).resolve_left h
      exact ((flatMap_insert hnd hmem).append_left (F k)).trans List.perm_middle

theorem flatMap_filter_perm : ∀ (kvs : List (String × Val)) {ks : List String}, ks.Nodup → (∀ kv ∈ kvs, kv.1 ∈ ks) →
    (ks.flatMap fun k => (kvs.filter (·.1 == k)).map Prod.snd).Perm (kvs.map Prod.snd)
  | [], ks, _, _ => by simp [List.flatMap]
  | (k₀, v₀) :: kvs, ks, hnd, hkeys => by
    have hstep : (fun k => (((k₀, v₀) :: kvs).filter (·.1 == k)).map Prod.snd) =
        fun k => if k₀ = k then v₀ :: (kvs.filter (·.1 == k)).map Prod.snd else (kvs.filter (·.1 == k)).map Prod.snd := by
      funext k
      by_cases h : k₀ = k <;> simp [List.filter_cons, h]
    rw [hstep, List.map_cons]
    exact (flatMap_insert hnd (hkeys _ (List.mem_cons_self _ _))).trans
      ((flatMap_filter_perm kvs hnd fun kv hkv => hkeys kv (List.mem_cons_of_mem _ hkv)).cons v₀)

theorem groupsOf_perm (kvs : List (String × Val)) :
    ((groupsOf kvs).flatMap Prod.snd).Perm (kvs.map Prod.snd) ∧
      ((groupsOf kvs).map fun g => g.2.length).sum = kvs.length := by
  have hperm : ((groupsOf kvs).flatMap Prod.snd).Perm (kvs.map Prod.snd) := by
    have perm := flatMap_filter_perm kvs (nodup_firstKeys (kvs.map Prod.fst))
      fun kv hkv => mem_firstKeys.mpr (List.mem_map_of_mem _ hkv)
    simpa [groupsOf, List.flatMap, Function.comp_def] using perm
  refine ⟨hperm, ?_⟩
  have hlen := hperm.length_eq
  simp only [List.flatMap, List.length_flatten, List.map_map, List.length_map] at hlen
  exact hlen

/-! ### `q::map` over every callback -/

/-- A callback's result that is a pair of the store `o` whose first slot is a
string: that key and the second slot. -/
def keyedPair (o : Objects) : Except String Val → Option (String × Val)
  | .ok (.pair ref) =>
    match o.pairs[ref]? with
    | some (.str key, second) => some (key, second)
    | _ => none
  | _ => none

/-- The entries of a map whose values are lists of the store `o`, read back:
each key with its list. -/
def Objects.listEntries (o : Objects) : List (String × Val) → Option (List (String × List Val))
  | [] => some []
  | (key, .list ref) :: rest => o.lists[ref]?.bind fun l => (o.listEntries rest).map ((key, l) :: ·)
  | _ :: _ => none

/-- A map of lists of the store, read back. -/
def Objects.mapOfLists (o : Objects) : Val → Option (List (String × List Val))
  | .map ref => o.maps[ref]?.bind fun m => o.listEntries m.entries
  | _ => none

theorem keyedPair_eq_some {o : Objects} {r : Except String Val} {key : String} {second : Val}
    (keyed : keyedPair o r = some (key, second)) : ∃ ref, r = .ok (.pair ref) ∧ o.pairs[ref]? = some (.str key, second) := by
  unfold keyedPair at keyed
  split at keyed
  · split at keyed
    · cases keyed; exact ⟨_, rfl, ‹_›⟩
    · cases keyed
  · cases keyed

theorem Objects.listEntries_extend {o o' : Objects} {xs : List (List Val)} (extended : o'.lists = o.lists ++ xs) :
    ∀ {es : List (String × Val)} {gs : List (String × List Val)}, o.listEntries es = some gs → o'.listEntries es = some gs
  | [], _, h => h
  | (key, .list ref) :: rest, gs, h => by
    simp only [listEntries, Option.bind_eq_some, Option.map_eq_some'] at h ⊢
    obtain ⟨l, hr, gs', hrest, rfl⟩ := h
    exact ⟨l, by rw [extended, List.getElem?_append_left (List.getElem?_eq_some_iff.mp hr).1, hr],
      gs', listEntries_extend extended hrest, rfl⟩
  | (_, .null) :: _, _, h | (_, .int _) :: _, _, h | (_, .real _) :: _, _, h | (_, .bool _) :: _, _, h
  | (_, .str _) :: _, _, h | (_, .regexp _) :: _, _, h | (_, .pair _) :: _, _, h | (_, .map _) :: _, _, h
  | (_, .iter _) :: _, _, h | (_, .closure _) :: _, _, h | (_, .usr _) :: _, _, h | (_, .frame _) :: _, _, h => h

theorem Objects.listEntries_append {o : Objects} {key : String} {ref : Nat} {l : List Val} (stored : o.lists[ref]? = some l) :
    ∀ {es : List (String × Val)} {gs : List (String × List Val)}, o.listEntries es = some gs →
      o.listEntries (es ++ [(key, .list ref)]) = some (gs ++ [(key, l)])
  | [], gs, h => by cases h; simp [listEntries, stored]
  | (key', .list ref') :: rest, gs, h => by
    simp only [listEntries, List.cons_append, Option.bind_eq_some, Option.map_eq_some'] at h ⊢
    obtain ⟨l', hr', gs', hrest, rfl⟩ := h
    exact ⟨l', hr', gs' ++ [(key, l)], listEntries_append stored hrest, rfl⟩
  | (_, .null) :: _, _, h | (_, .int _) :: _, _, h | (_, .real _) :: _, _, h | (_, .bool _) :: _, _, h
  | (_, .str _) :: _, _, h | (_, .regexp _) :: _, _, h | (_, .pair _) :: _, _, h | (_, .map _) :: _, _, h
  | (_, .iter _) :: _, _, h | (_, .closure _) :: _, _, h | (_, .usr _) :: _, _, h | (_, .frame _) :: _, _, h => by
    cases h

section

variable {W : Type} (q : QueryHost W) (fn : Closure)

/-- The rounds `q::map`'s loop makes over its first argument: a list's
`(index, element)` pairs, each read when its round begins, or a map's
`(key, value)` entries in the order `Foreach` visits them. -/
def callbackReads (w : W) : Val → Option (List (W → List Val))
  | .list ref => (q.objects w).lists[ref]?.map (listReads q (.list ref) 0)
  | .map ref => (q.objects w).maps[ref]?.map fun m => entryReads m.entries
  | _ => none

theorem mapLoop_keyed_head {read : W → List Val} {rest : List (W → List Val)} {w : W}
    {m : List (String × List Val)} {key : String} {second : Val}
    (keyed : keyedPair (q.objects (q.call w fn (read w)).2) (q.call w fn (read w)).1 = some (key, second)) :
    mapLoop q fn (read :: rest) w m = mapLoop q fn rest (q.call w fn (read w)).2 (addMapResult m key second) := by
  obtain ⟨ref, answer, stored⟩ := keyedPair_eq_some keyed
  rcases call : q.call w fn (read w) with ⟨r, w₁⟩
  rw [call] at answer stored
  subst answer
  simp [mapLoop, call, mapAnswer, Val.isPair, Objects.pairOf_pair _ stored, bind, Except.bind, pure, Except.pure]

theorem mapLoop_keyed_append : ∀ (pre rest : List (W → List Val)) (w : W) (acc kvs : List (String × Val)),
    (callEach q fn pre w).map (fun r => keyedPair (q.objects r.2) r.1) = kvs.map some →
    mapLoop q fn (pre ++ rest) w (groupsOf acc) = mapLoop q fn rest (worldAfter q fn pre w) (groupsOf (acc ++ kvs))
  | [], rest, w, acc, [], _ => by rw [List.nil_append, List.append_nil]; rfl
  | read :: pre, rest, w, acc, (key, second) :: kvs, keyed => by
    simp only [callEach, List.map_cons, List.cons.injEq] at keyed
    rw [List.cons_append, mapLoop_keyed_head q fn keyed.1, ← groupsOf_append_singleton,
      mapLoop_keyed_append pre rest _ _ kvs keyed.2, List.append_assoc, List.singleton_append]
    rfl

theorem mapLoop_call_error {read : W → List Val} {rest : List (W → List Val)} {w : W} {m : List (String × List Val)}
    {err : String} (failed : (q.call w fn (read w)).1 = .error err) :
    mapLoop q fn (read :: rest) w m = .ok ((q.call w fn (read w)).2, .error err) := by
  rcases call : q.call w fn (read w) with ⟨r, w₁⟩
  rw [call] at failed
  subst failed
  simp [mapLoop, call, pure, Except.pure]

theorem mapLoop_not_pair {read : W → List Val} {rest : List (W → List Val)} {w : W} {m : List (String × List Val)}
    {v : Val} (answer : (q.call w fn (read w)).1 = .ok v) (notPair : v.isPair = false) :
    mapLoop q fn (read :: rest) w m = .ok ((q.call w fn (read w)).2, .error "q::map's filter function must returns a pair") := by
  rcases call : q.call w fn (read w) with ⟨r, w₁⟩
  rw [call] at answer
  subst answer
  simp [mapLoop, call, mapAnswer, notPair, bind, Except.bind, pure, Except.pure]

theorem mapLoop_not_string {read : W → List Val} {rest : List (W → List Val)} {w : W} {m : List (String × List Val)}
    {ref : Nat} {first second : Val} (answer : (q.call w fn (read w)).1 = .ok (.pair ref))
    (stored : (q.objects (q.call w fn (read w)).2).pairs[ref]? = some (first, second)) (notString : ∀ key, first ≠ .str key) :
    mapLoop q fn (read :: rest) w m =
      .ok ((q.call w fn (read w)).2, .error "q::map's filter function must returns a pair with first to be string") := by
  rcases call : q.call w fn (read w) with ⟨r, w₁⟩
  rw [call] at answer stored
  subst answer
  cases first <;> simp_all [mapLoop, mapAnswer, Val.isPair, Objects.pairOf_pair, bind, Except.bind, pure, Except.pure]

theorem qMap_reads {w : W} {a0 : Val} {reads : List (W → List Val)} (rounds : callbackReads q w a0 = some reads) :
    qMap q w [a0, .closure fn] =
      match mapLoop q fn reads w [] with
      | .ok (w', .ok groups) =>
        let p := allocGroups q w' groups .empty
        .ok ((q.allocMap p.1 p.2).1, .ok (q.allocMap p.1 p.2).2)
      | .ok (w', .error err) => .ok (w', .error err)
      | .error panic => .error panic := by
  match a0, rounds with
  | .list ref, rounds =>
    simp only [callbackReads, Option.map_eq_some'] at rounds
    obtain ⟨l, current, rfl⟩ := rounds
    have accepts : (⟨[.list, .closure], none⟩ : Overload).accepts [.list ref, .closure fn] = true := rfl
    rw [qMap, checked_of_accepts (by simp [callbackSig]) accepts]
    simp only [argAt, Module.pool, List.getElem?_cons_zero, List.getElem?_cons_succ, Val.goClosure, Val.isList,
      if_true, Objects.listOf_list _ current, bind, Except.bind, pure, Except.pure]
    rcases mapLoop q fn _ w [] with _ | ⟨w', _ | groups⟩ <;> rfl
  | .map ref, rounds =>
    simp only [callbackReads, Option.map_eq_some'] at rounds
    obtain ⟨m, current, rfl⟩ := rounds
    have accepts : (⟨[.map, .closure], none⟩ : Overload).accepts [.map ref, .closure fn] = true := rfl
    rw [qMap, checked_of_accepts (by simp [callbackSig]) accepts]
    simp only [argAt, Module.pool, List.getElem?_cons_zero, List.getElem?_cons_succ, Val.goClosure, Val.isList,
      Val.isMap, Bool.false_eq_true, if_false, must_true, Objects.mapOf_map _ current, bind, Except.bind, pure,
      Except.pure]
    rcases mapLoop q fn _ w [] with _ | ⟨w', _ | groups⟩ <;> rfl

theorem allocGroups_listEntries : ∀ (gs : List (String × List Val)) (w : W) (md : MapData) (G : List (String × List Val)),
    (q.objects w).listEntries md.entries = some G → (md.entries.map Prod.fst ++ gs.map Prod.fst).Nodup →
    (q.objects (allocGroups q w gs md).1).listEntries (allocGroups q w gs md).2.entries = some (G ++ gs)
  | [], w, md, G, h, _ => by rw [List.append_nil]; exact h
  | (key, l) :: gs, w, md, G, h, hnd => by
    have hkey : key ∉ md.entries.map Prod.fst := fun hk =>
      (List.pairwise_append.mp hnd).2.2 key hk key (List.mem_cons_self _ _) rfl
    have hobj : q.objects (q.allocList w l).1 = { q.objects w with lists := (q.objects w).lists ++ [l] } := by
      simp [QueryHost.allocList, q.objects_setObjects]
    have hnew : (q.objects (q.allocList w l).1).lists[(q.objects w).lists.length]? = some l := by simp [hobj]
    have stepEntries : (q.objects (q.allocList w l).1).listEntries (md.set key (q.allocList w l).2).entries =
        some (G ++ [(key, l)]) := by
      rw [MapData.set_entries, mapSet_of_not_mem _ hkey]
      exact Objects.listEntries_append hnew (Objects.listEntries_extend (by rw [hobj]) h)
    have nodupNext : ((md.set key (q.allocList w l).2).entries.map Prod.fst ++ gs.map Prod.fst).Nodup := by
      rw [MapData.set_entries, mapSet_of_not_mem _ hkey, List.map_append, List.append_assoc]
      exact hnd
    rw [allocGroups, allocGroups_listEntries gs _ _ _ stepEntries nodupNext, List.append_assoc, List.singleton_append]

theorem mapOfLists_alloc (w : W) (kvs : List (String × Val)) :
    let p := allocGroups q w (groupsOf kvs) .empty
    (q.objects (q.allocMap p.1 p.2).1).mapOfLists (q.allocMap p.1 p.2).2 = some (groupsOf kvs) := by
  intro p
  have nodup : (MapData.empty.entries.map Prod.fst ++ (groupsOf kvs).map Prod.fst).Nodup := by
    simpa [MapData.empty, groupsOf, List.map_map, Function.comp_def] using nodup_firstKeys (kvs.map Prod.fst)
  have allocated := allocGroups_listEntries q (groupsOf kvs) w .empty [] rfl nodup
  simp only [QueryHost.allocMap, Objects.mapOfLists, q.objects_setObjects, List.getElem?_append_right (Nat.le_refl _),
    Nat.sub_self, List.getElem?_cons_zero, Option.some_bind]
  have sameLists : ({ q.objects p.1 with maps := (q.objects p.1).maps ++ [p.2] } : Objects).lists =
      (q.objects p.1).lists ++ [] := (List.append_nil _).symm
  exact Objects.listEntries_extend sameLists allocated

/-- `q::map(a0, f)` on a list or map `a0` of the store, for every callback
`f`, each call made in the world the one before it left and, on a list, on
the element as that world holds it. When every call answers a pair of the
store whose first slot is a string, the answers being `kvs` in order,
`q::map` returns a new map that reads back as the groups of `kvs`: the
distinct keys in order of first occurrence, each with the values answered
with it, in order. The groups hold every answered value once, and their
lengths add up to the number of elements. When the calls before one answer
so and that call fails, answers something that is not a pair, or answers a
pair whose first slot is not a string, `q::map` fails with the world that
call left: no later element is passed to `f`. -/
theorem qMap_groups {w : W} {a0 : Val} {reads : List (W → List Val)} (rounds : callbackReads q w a0 = some reads) :
    (∀ kvs : List (String × Val), (callEach q fn reads w).map (fun r => keyedPair (q.objects r.2) r.1) = kvs.map some →
      (∃ w' v, qMap q w [a0, .closure fn] = .ok (w', .ok v) ∧ (q.objects w').mapOfLists v = some (groupsOf kvs)) ∧
      ((groupsOf kvs).map Prod.fst).Nodup ∧ ((groupsOf kvs).flatMap Prod.snd).Perm (kvs.map Prod.snd) ∧
      ((groupsOf kvs).map fun g => g.2.length).sum = reads.length) ∧
    (∀ (pre : List (W → List Val)) (read : W → List Val) (rest : List (W → List Val)) (kvs : List (String × Val)),
      reads = pre ++ read :: rest →
      (callEach q fn pre w).map (fun r => keyedPair (q.objects r.2) r.1) = kvs.map some →
      let r := q.call (worldAfter q fn pre w) fn (read (worldAfter q fn pre w))
      (∀ err, r.1 = .error err → qMap q w [a0, .closure fn] = .ok (r.2, .error err)) ∧
      (∀ v, r.1 = .ok v → v.isPair = false →
        qMap q w [a0, .closure fn] = .ok (r.2, .error "q::map's filter function must returns a pair")) ∧
      (∀ ref first second, r.1 = .ok (.pair ref) → (q.objects r.2).pairs[ref]? = some (first, second) →
        (∀ key, first ≠ .str key) →
        qMap q w [a0, .closure fn] =
          .ok (r.2, .error "q::map's filter function must returns a pair with first to be string"))) := by
  refine ⟨fun kvs keyed => ?_, fun pre read rest kvs split keyed => ?_⟩
  · have loop : mapLoop q fn reads w [] = .ok (worldAfter q fn reads w, .ok (groupsOf kvs)) := by
      simpa only [List.append_nil] using mapLoop_keyed_append q fn reads [] w [] kvs keyed
    have counted : kvs.length = reads.length := by
      simpa only [List.length_map, length_callEach] using (congrArg List.length keyed).symm
    obtain ⟨perm, sum⟩ := groupsOf_perm kvs
    refine ⟨⟨_, _, by rw [qMap_reads q fn rounds, loop], mapOfLists_alloc q _ kvs⟩, ?_, perm, sum.trans counted⟩
    simpa [groupsOf, List.map_map, Function.comp_def] using nodup_firstKeys (kvs.map Prod.fst)
  · subst split
    have loop : mapLoop q fn (pre ++ read :: rest) w [] =
        mapLoop q fn (read :: rest) (worldAfter q fn pre w) (groupsOf kvs) :=
      mapLoop_keyed_append q fn pre (read :: rest) w [] kvs keyed
    intro r
    refine ⟨fun err failed => ?_, fun v answer notPair => ?_, fun ref first second answer stored notString => ?_⟩
    · rw [qMap_reads q fn rounds, loop, mapLoop_call_error q fn failed]
    · rw [qMap_reads q fn rounds, loop, mapLoop_not_pair q fn answer notPair]
    · rw [qMap_reads q fn rounds, loop, mapLoop_not_string q fn answer stored notString]

end

/-- A callback that keys every element by the parity of its index, storing
the answer pair. -/
def parityHost : QueryHost Objects := .ofStore fun o _ args =>
  match args with
  | [.int i, v] => (.ok (.pair o.pairs.length),
      { o with pairs := o.pairs ++ [(.str (if i.toNat % 2 = 0 then "even" else "odd"), v)] })
  | _ => (.error "no answer", o)

/-- A store holding the list `[5, 6, 7]`. -/
def tripleStore : Objects := ⟨[[.int 5, .int 6, .int 7]], [], []⟩

theorem map_groups_by_parity :
    ∃ w' v, qMap parityHost tripleStore [.list 0, .closure (.script 0)] = .ok (w', .ok v) ∧
      (parityHost.objects w').mapOfLists v = some [("even", [.int 5, .int 7]), ("odd", [.int 6])] :=
  ((@qMap_groups Objects parityHost (.script 0) tripleStore (.list 0)
    (listReads parityHost (.list 0) 0 [.int 5, .int 6, .int 7]) rfl).1
    [("even", .int 5), ("odd", .int 6), ("even", .int 7)] rfl).1

/-- A callback that answers whether an element's index is even, and changes nothing. -/
def evenIndexHost : QueryHost Objects := .ofStore fun o _ args =>
  match args with
  | [.int i, _] => (.ok (.bool (i.toNat % 2 == 0)), o)
  | _ => (.error "no answer", o)

/-- Whether an index value is even. -/
def evenIndex : Val → Val → Bool
  | .int i, _ => i.toNat % 2 == 0
  | _, _ => false

theorem filter_by_even_index :
    qFilter evenIndexHost tripleStore [.list 0, .closure (.script 0)] =
        .ok ((evenIndexHost.allocList tripleStore [.int 5, .int 7]).1,
          .ok (evenIndexHost.allocList tripleStore [.int 5, .int 7]).2) ∧
      qFilterNot evenIndexHost tripleStore [.list 0, .closure (.script 0)] =
        .ok ((evenIndexHost.allocList tripleStore [.int 6]).1, .ok (evenIndexHost.allocList tripleStore [.int 6]).2) :=
  let split := (@filters_split Objects evenIndexHost tripleStore (.script 0) evenIndex).1 0
    [.int 5, .int 6, .int 7] rfl rfl (by
      intro r mem
      simp only [callEach, listReads, List.mem_cons, List.not_mem_nil, or_false] at mem
      rcases mem with rfl | rfl | rfl <;> rfl)
  ⟨split.1, split.2.1⟩

end Moons.Pl
