import Moons.Pl.Query.Basic

/-!
# Template contexts

`toctx` in `pl/template.go` converts a value into what Go's template engine
reads: scalars pass through, a pair becomes a map with keys `"first"` and
`"second"`, a list a slice of its converted elements, and a map a
string-keyed map of its converted values; any other kind is an error.
`goTemplate.Execute` converts its context so before it renders.
`pongoTemplate.tocontext` builds pongo2's top-level context from a pair's
slots or a map's values with `toctx`, and gives any other kind the empty
context; on an acyclic value it agrees with `toctx`. The template engines
themselves are not in the sources.

`toctx` recurses into what a value holds, and does not end on a value that
holds itself; it runs here on fuel. A value that unfolds into a finite tree
(`Objects.Tree`) converts within its height.
-/

set_option autoImplicit false

namespace Moons.Pl

/-- What the template engine is given: Go's `nil`, `int64`, `float64`,
`string` and `bool`, an `[]interface{}`, and a `map[string]interface{}`
with its entries in the order they were set. -/
inductive Ctx where
  | nil
  | int (value : BitVec 64)
  | real (value : Float64)
  | str (value : String)
  | bool (value : Bool)
  | seq (items : List Ctx)
  | dict (entries : List (String × Ctx))
  deriving Repr, Inhabited

/-- A conversion's outcome: `none` when it has not ended; the outer error is
a panic (a dangling reference, which a Go value never holds), the inner one
`toctx`'s error. -/
abbrev CtxResult (α : Type) := Option (Except String (Except String α))

/-- The loops of `toctx` over a list's elements and over a map's values:
convert each in order with `conv`, and stop at the first error. -/
def toctxEach (conv : Val → CtxResult Ctx) : List Val → CtxResult (List Ctx)
  | [] => some (.ok (.ok []))
  | d :: ds => (conv d).bind fun
    | .error panic => some (.error panic)
    | .ok (.error err) => some (.ok (.error err))
    | .ok (.ok c) => (toctxEach conv ds).map fun
      | .ok (.ok cs) => .ok (.ok (c :: cs))
      | r => r

/-- `toctx(ctx)` over the store `o`, with at most `fuel` nested calls. Both
slots of a pair are converted before either error is looked at; the first
slot's error wins. -/
def toctx (o : Objects) : Nat → Val → CtxResult Ctx
  | 0, _ => none
  | fuel + 1, ctx =>
    match ctx with
    | .null => some (.ok (.ok .nil))
    | .int v => some (.ok (.ok (.int v)))
    | .real v => some (.ok (.ok (.real v)))
    | .str s => some (.ok (.ok (.str s)))
    | .bool b => some (.ok (.ok (.bool b)))
    | .pair ref =>
      match o.pairs[ref]? with
      | none => some (.error "nil pointer dereference")
      | some (first, second) => (toctx o fuel first).bind fun
        | .error panic => some (.error panic)
        | .ok k => (toctx o fuel second).map fun
          | .error panic => .error panic
          | .ok v => .ok (do
              let k ← k
              let v ← v
              pure (.dict [("first", k), ("second", v)]))
    | .list ref =>
      match o.lists[ref]? with
      | none => some (.error "nil pointer dereference")
      | some data => (toctxEach (toctx o fuel) data).map fun r => r.map fun r => r.map .seq
    | .map ref =>
      match o.maps[ref]? with
      | none => some (.error "nil pointer dereference")
      | some m => (toctxEach (toctx o fuel) (m.entries.map Prod.snd)).map fun r => r.map fun r =>
          r.map fun cs => .dict ((m.entries.map Prod.fst).zip cs)
    | _ => some (.ok (.error "invalid context type"))

/-- `goTemplate.Execute(ctx)`: convert the context, then run the compiled
template on it (`render`: Go's template engine, which is not in the
sources). -/
def goExecute (render : Ctx → Except String String) (o : Objects) (fuel : Nat) (ctx : Val) :
    CtxResult String :=
  (toctx o fuel ctx).map fun r => r.map fun r => r.bind render

/-- `pongoTemplate.tocontext(v)`: the top-level context pongo2 renders
with. A pair gives the keys `"first"` and `"second"`; unlike `toctx`, the
first slot's error returns before the second slot is converted. A map gives
its converted values under their keys; any other kind the empty context. -/
def pongoTocontext (o : Objects) (fuel : Nat) : Val → CtxResult (List (String × Ctx))
  | .pair ref =>
    match o.pairs[ref]? with
    | none => some (.error "nil pointer dereference")
    | some (first, second) => (toctx o fuel first).bind fun
      | .error panic => some (.error panic)
      | .ok (.error e1) => some (.ok (.error e1))
      | .ok (.ok k) => (toctx o fuel second).map fun r => r.map fun r => r.map fun v => [("first", k), ("second", v)]
  | .map ref =>
    match o.maps[ref]? with
    | none => some (.error "nil pointer dereference")
    | some m => (toctxEach (toctx o fuel) (m.entries.map Prod.snd)).map fun r => r.map fun r =>
        r.map fun cs => (m.entries.map Prod.fst).zip cs
  | _ => some (.ok (.ok []))

/-- `pongoTemplate.Execute(ctx)`: build the top-level context, then run the
compiled pongo2 template on it (`render`, not in the sources). -/
def pongoExecute (render : List (String × Ctx) → Except String String) (o : Objects) (fuel : Nat)
    (ctx : Val) : CtxResult String :=
  (pongoTocontext o fuel ctx).map fun r => r.map fun r => r.bind render

/-- The entries of a converted map; nothing for any other context. -/
def Ctx.entries : Ctx → List (String × Ctx)
  | .dict entries => entries
  | _ => []

/-- The kinds `toctx` converts: null, bool, int, real, string, pair, list and
map. -/
def Val.isCtxKind : Val → Bool
  | .null | .bool _ | .int _ | .real _ | .str _ | .pair _ | .list _ | .map _ => true
  | _ => false

/-! ## Values as trees -/

namespace Objects

variable (o : Objects)

/-- The values `v` holds directly: a pair's slots, a list's elements, a map's
values; `none` for a dangling reference. -/
def children : Val → Option (List Val)
  | .pair ref => o.pairs[ref]?.map fun p => [p.1, p.2]
  | .list ref => o.lists[ref]?
  | .map ref => o.maps[ref]?.map fun m => m.entries.map Prod.snd
  | _ => some []

/-- `u` is reachable from `v` through pair slots, list elements and map
values. -/
inductive Reach : Val → Val → Prop
  | refl (v : Val) : Reach v v
  | child {v c u : Val} {cs : List Val} : o.children v = some cs → c ∈ cs → Reach c u → Reach v u

/-- `v` is an acyclic value of the store: every value reachable from it
resolves, as the references of a Go value do, and none reaches itself again
through what it holds. -/
def Acyclic (v : Val) : Prop := ∀ u, o.Reach v u → ∃ cs, o.children u = some cs ∧ ∀ c ∈ cs, ¬o.Reach c u

/-- `v` unfolds in the store into a finite tree of height below `n`. -/
def Tree : Nat → Val → Prop
  | 0, _ => False
  | n + 1, v => ∃ cs, o.children v = some cs ∧ ∀ c ∈ cs, Tree n c

/-- Every value reachable from `v` is of a kind `toctx` converts. -/
def AllCtx (v : Val) : Prop := ∀ u, o.Reach v u → u.isCtxKind = true

/-- What the spec's mapping makes of `v`: scalars pass through, a pair
becomes a map from `"first"` and `"second"` to its converted slots, a list
the sequence of its converted elements, and a map the string-keyed map of its
converted values. -/
inductive Mirrors : Val → Ctx → Prop
  | null : Mirrors .null .nil
  | int (x : BitVec 64) : Mirrors (.int x) (.int x)
  | real (x : Float64) : Mirrors (.real x) (.real x)
  | str (s : String) : Mirrors (.str s) (.str s)
  | bool (b : Bool) : Mirrors (.bool b) (.bool b)
  | pair {ref : Nat} {a b : Val} {ca cb : Ctx} : o.pairs[ref]? = some (a, b) → Mirrors a ca → Mirrors b cb →
      Mirrors (.pair ref) (.dict [("first", ca), ("second", cb)])
  | list {ref : Nat} {l : List Val} {cs : List Ctx} : o.lists[ref]? = some l → cs.length = l.length →
      (∀ p ∈ l.zip cs, Mirrors p.1 p.2) → Mirrors (.list ref) (.seq cs)
  | map {ref : Nat} {m : MapData} {cs : List Ctx} : o.maps[ref]? = some m → cs.length = m.entries.length →
      (∀ p ∈ m.entries.zip cs, Mirrors p.1.2 p.2) → Mirrors (.map ref) (.dict ((m.entries.map Prod.fst).zip cs))

variable {o}

theorem Reach.trans {v u w : Val} (first : o.Reach v u) (second : o.Reach u w) : o.Reach v w := by
  induction first with
  | refl => exact second
  | child hv hc _ ih => exact .child hv hc (ih second)

theorem allCtx_iff {v : Val} {cs : List Val} (childList : o.children v = some cs) :
    o.AllCtx v ↔ v.isCtxKind = true ∧ ∀ c ∈ cs, o.AllCtx c := by
  refine ⟨fun h => ⟨h v (.refl v), fun c hc u hu => h u (.child childList hc hu)⟩, fun ⟨hk, hcs⟩ u hu => ?_⟩
  cases hu with
  | refl => exact hk
  | child hv' hc hu => rw [childList] at hv'; cases hv'; exact hcs _ hc _ hu

theorem Tree.mono {n m : Nat} {v : Val} (tree : o.Tree n v) (deeper : n ≤ m) : o.Tree m v := by
  induction n generalizing m v with
  | zero => exact tree.elim
  | succ n ih =>
    obtain ⟨cs, hcs, hsub⟩ := tree
    obtain ⟨m, rfl⟩ : ∃ k, m = k + 1 := ⟨m - 1, by omega⟩
    exact ⟨cs, hcs, fun c hc => ih (hsub c hc) (by omega)⟩

theorem Tree.reach {k : Nat} {x y : Val} (tree : o.Tree k x) (reach : o.Reach x y) : ∃ j ≤ k, o.Tree j y := by
  induction reach generalizing k with
  | refl => exact ⟨k, Nat.le_refl k, tree⟩
  | child hv hc _ ih =>
    match k, tree with
    | k + 1, ⟨cs, hcs, hsub⟩ =>
      rw [hv] at hcs
      cases hcs
      obtain ⟨j, hj, hty⟩ := ih (hsub _ hc)
      exact ⟨j, by omega, hty⟩

theorem Tree.not_cycle {u c : Val} {cs : List Val} (childList : o.children u = some cs) (member : c ∈ cs)
    (hreach : o.Reach c u) (m : Nat) : ∀ k ≤ m, ¬o.Tree k u := by
  induction m with
  | zero => intro k hk ht; cases Nat.le_zero.mp hk; exact ht
  | succ m ih =>
    intro k hk ht
    match k, ht with
    | k + 1, ⟨cs', hcs', hsub⟩ =>
      rw [childList] at hcs'
      cases hcs'
      obtain ⟨j, hj, hu⟩ := (hsub c member).reach hreach
      exact ih j (by omega) hu

/-- The containers of the store: its pairs, lists and maps. -/
def containers (o : Objects) : List Val :=
  (List.range o.pairs.length).map .pair ++ (List.range o.lists.length).map .list ++
    (List.range o.maps.length).map .map

@[simp] theorem length_containers : o.containers.length = o.pairs.length + o.lists.length + o.maps.length := by
  simp only [containers, List.length_append, List.length_map, List.length_range]

theorem mem_containers {v c : Val} {cs : List Val} (childList : o.children v = some cs) (member : c ∈ cs) :
    v ∈ o.containers := by
  cases v with
  | pair ref =>
    simp only [children, Option.map_eq_some'] at childList
    obtain ⟨_, hp, -⟩ := childList
    simp [containers, (List.getElem?_eq_some_iff.mp hp).1]
  | list ref => simp [containers, (List.getElem?_eq_some_iff.mp childList).1]
  | map ref =>
    simp only [children, Option.map_eq_some'] at childList
    obtain ⟨_, hm, -⟩ := childList
    simp [containers, (List.getElem?_eq_some_iff.mp hm).1]
  | _ => simp only [children, Option.some.injEq] at childList; subst childList; cases member

theorem countP_lt_countP {α : Type} {p q : α → Bool} :
    ∀ {l : List α}, (∀ x ∈ l, p x → q x) → ∀ x ∈ l, q x → ¬p x → l.countP p < l.countP q
  | y :: l, h, x, hx, hq, hp => by
    rw [List.countP_cons, List.countP_cons]
    have hmono := List.countP_mono_left fun z hz => h z (List.mem_cons_of_mem _ hz)
    have ofY := h y (List.mem_cons_self _ _)
    rcases List.mem_cons.mp hx with rfl | hx
    · simp only [hq, hp, if_true, Bool.false_eq_true, if_false]; omega
    · have := countP_lt_countP (fun z hz => h z (List.mem_cons_of_mem _ hz)) x hx hq hp
      split <;> split <;> first | omega | exact absurd (ofY ‹_›) ‹_›

theorem Acyclic.tree {v : Val} (acyclic : o.Acyclic v) : o.Tree (o.containers.length + 1) v := by
  classical
  let μ : Val → Nat := fun u => o.containers.countP fun x => decide (o.Reach u x)
  have hdec : ∀ u, o.Reach v u → ∀ cs, o.children u = some cs → ∀ c ∈ cs, μ c < μ u := by
    intro u hu cs hcs c hc
    obtain ⟨cs', hcs', hnot⟩ := acyclic u hu
    rw [hcs] at hcs'
    cases hcs'
    exact countP_lt_countP (fun x _ hx => decide_eq_true (.child hcs hc (of_decide_eq_true hx))) u
      (mem_containers hcs hc) (decide_eq_true (.refl u)) fun h => hnot c hc (of_decide_eq_true h)
  have trees : ∀ k u, o.Reach v u → μ u < k → o.Tree k u := by
    intro k
    induction k with
    | zero => intro u _ h; omega
    | succ k ih =>
      intro u hu hlt
      obtain ⟨cs, hcs, -⟩ := acyclic u hu
      exact ⟨cs, hcs, fun c hc =>
        ih c (hu.trans (.child hcs hc (.refl c))) (by have := hdec u hu cs hcs c hc; omega)⟩
  exact (trees _ v (.refl v) (Nat.lt_succ_of_le (List.countP_le_length _))).mono (Nat.le_refl _)

theorem Acyclic.of_reach {v u : Val} (acyclic : o.Acyclic v) (reach : o.Reach v u) : o.Acyclic u :=
  fun w hw => acyclic w (reach.trans hw)

theorem Tree.acyclic {n : Nat} {v : Val} (tree : o.Tree n v) : o.Acyclic v := by
  intro u hu
  obtain ⟨j, -, hj⟩ := tree.reach hu
  match j, hj with
  | j + 1, ⟨cs, hcs, hsub⟩ =>
    exact ⟨cs, hcs, fun c hc hreach => Tree.not_cycle hcs hc hreach (j + 1) (j + 1) (Nat.le_refl _) ⟨cs, hcs, hsub⟩⟩

end Objects

/-! ## `toctx` on trees -/

section Each

variable {conv : Val → CtxResult Ctx}

theorem toctxEach_ok {R : Val → Ctx → Prop} :
    ∀ {ds : List Val}, (∀ d ∈ ds, ∃ c, conv d = some (.ok (.ok c)) ∧ R d c) →
      ∃ cs, toctxEach conv ds = some (.ok (.ok cs)) ∧ cs.length = ds.length ∧ ∀ p ∈ ds.zip cs, R p.1 p.2
  | [], _ => ⟨[], rfl, rfl, fun _ h => by cases h⟩
  | d :: ds, h => by
    obtain ⟨c, hc, hR⟩ := h d (List.mem_cons_self _ _)
    obtain ⟨cs, hcs, hlen, hzip⟩ := toctxEach_ok fun d' hd' => h d' (List.mem_cons_of_mem _ hd')
    refine ⟨c :: cs, by simp [toctxEach, hc, hcs], by simp [hlen], fun p hp => ?_⟩
    rcases List.mem_cons.mp hp with rfl | hp
    · exact hR
    · exact hzip p hp

theorem toctxEach_error {err : String} :
    ∀ {ds : List Val}, (∀ d ∈ ds, (∃ c, conv d = some (.ok (.ok c))) ∨ conv d = some (.ok (.error err))) →
      (∃ d ∈ ds, conv d = some (.ok (.error err))) → toctxEach conv ds = some (.ok (.error err))
  | d :: ds, h, ⟨d', hd', herr⟩ => by
    rcases h d (List.mem_cons_self _ _) with ⟨c, hc⟩ | hc
    · have hrest : ∃ d ∈ ds, conv d = some (.ok (.error err)) := by
        rcases List.mem_cons.mp hd' with rfl | hd'
        · rw [hc] at herr; cases herr
        · exact ⟨d', hd', herr⟩
      simp [toctxEach, hc, toctxEach_error (fun d hd => h d (List.mem_cons_of_mem _ hd)) hrest]
    · simp [toctxEach, hc]

end Each

section Tree

variable {o : Objects}

/-- What `toctx` with fuel `n` does on `v`: when every value reachable from
`v` is of a kind it converts, it succeeds with the spec's mirror of `v`;
otherwise it fails with `"invalid context type"`. -/
def Converts (o : Objects) (n : Nat) (v : Val) : Prop :=
  (o.AllCtx v → ∃ c, toctx o n v = some (.ok (.ok c)) ∧ o.Mirrors v c) ∧
    (¬o.AllCtx v → toctx o n v = some (.ok (.error "invalid context type")))

theorem Converts.ends {n : Nat} {v : Val} (converts : Converts o n v) :
    (∃ c, toctx o n v = some (.ok (.ok c))) ∨ toctx o n v = some (.ok (.error "invalid context type")) := by
  by_cases hv : o.AllCtx v
  · obtain ⟨c, hc, -⟩ := converts.1 hv
    exact .inl ⟨c, hc⟩
  · exact .inr (converts.2 hv)

theorem converts_leaf {n : Nat} {v : Val} (leaf : o.children v = some [])
    (hconv : v.isCtxKind = true → ∃ c, toctx o (n + 1) v = some (.ok (.ok c)) ∧ o.Mirrors v c)
    (hbad : v.isCtxKind = false → toctx o (n + 1) v = some (.ok (.error "invalid context type"))) :
    Converts o (n + 1) v := by
  have hall : o.AllCtx v ↔ v.isCtxKind = true := by simp [Objects.allCtx_iff leaf]
  exact ⟨fun h => hconv (hall.mp h), fun h => hbad (by simpa [hall] using h)⟩

theorem converts_pair {n ref : Nat} {a b : Val} (stored : o.pairs[ref]? = some (a, b)) (first : Converts o n a)
    (second : Converts o n b) : Converts o (n + 1) (.pair ref) := by
  have hall : o.AllCtx (.pair ref) ↔ o.AllCtx a ∧ o.AllCtx b := by
    rw [Objects.allCtx_iff (show o.children (.pair ref) = some [a, b] by simp [Objects.children, stored])]
    simp [Val.isCtxKind]
  refine ⟨fun h => ?_, fun h => ?_⟩
  · obtain ⟨ca, firstEnds, hma⟩ := first.1 (hall.mp h).1
    obtain ⟨cb, secondEnds, hmb⟩ := second.1 (hall.mp h).2
    exact ⟨_, by simp only [toctx, stored, firstEnds, secondEnds, Option.some_bind, Option.map_some']; rfl, .pair stored hma hmb⟩
  · by_cases hA : o.AllCtx a
    · obtain ⟨ca, firstEnds, -⟩ := first.1 hA
      have secondEnds := second.2 fun hB => h (hall.mpr ⟨hA, hB⟩)
      simp only [toctx, stored, firstEnds, secondEnds, Option.some_bind, Option.map_some']
      rfl
    · have firstEnds := first.2 hA
      rcases second.ends with ⟨cb, secondEnds⟩ | secondEnds <;>
        simp only [toctx, stored, firstEnds, secondEnds, Option.some_bind, Option.map_some'] <;> rfl

theorem converts_list {n ref : Nat} {l : List Val} (stored : o.lists[ref]? = some l) (elems : ∀ d ∈ l, Converts o n d) :
    Converts o (n + 1) (.list ref) := by
  have hall : o.AllCtx (.list ref) ↔ ∀ d ∈ l, o.AllCtx d := by
    rw [Objects.allCtx_iff (show o.children (.list ref) = some l from stored)]
    simp [Val.isCtxKind]
  refine ⟨fun h => ?_, fun h => ?_⟩
  · obtain ⟨cs, hcs, hlen, hzip⟩ := toctxEach_ok fun d hdl => (elems d hdl).1 (hall.mp h d hdl)
    exact ⟨_, by simp only [toctx, stored, hcs, Option.map_some']; rfl, .list stored hlen hzip⟩
  · simp only [hall, Classical.not_forall, Classical.not_imp] at h
    obtain ⟨d, hdl, hbad⟩ := h
    have herr := toctxEach_error (fun d' hd' => (elems d' hd').ends) ⟨d, hdl, (elems d hdl).2 hbad⟩
    simp only [toctx, stored, herr, Option.map_some']
    rfl

theorem converts_map {n ref : Nat} {m : MapData} (stored : o.maps[ref]? = some m)
    (values : ∀ d ∈ m.entries.map Prod.snd, Converts o n d) : Converts o (n + 1) (.map ref) := by
  have hall : o.AllCtx (.map ref) ↔ ∀ d ∈ m.entries.map Prod.snd, o.AllCtx d := by
    rw [Objects.allCtx_iff (show o.children (.map ref) = some (m.entries.map Prod.snd) by simp [Objects.children, stored])]
    simp [Val.isCtxKind]
  refine ⟨fun h => ?_, fun h => ?_⟩
  · obtain ⟨cs, hcs, hlen, hzip⟩ := toctxEach_ok fun d hdm => (values d hdm).1 (hall.mp h d hdm)
    refine ⟨_, by simp only [toctx, stored, hcs, Option.map_some']; rfl,
      .map stored (by simpa using hlen) fun p hp => hzip (p.1.2, p.2) ?_⟩
    rw [List.zip_map_left]
    exact List.mem_map_of_mem _ hp
  · simp only [hall, Classical.not_forall, Classical.not_imp] at h
    obtain ⟨d, hdm, hbad⟩ := h
    have herr := toctxEach_error (fun d' hd' => (values d' hd').ends) ⟨d, hdm, (values d hdm).2 hbad⟩
    simp only [toctx, stored, herr, Option.map_some']
    rfl

theorem converts_of_tree : ∀ {n : Nat} {v : Val}, o.Tree n v → Converts o n v
  | n + 1, v, ⟨cs, hcs, hsub⟩ => by
    have ih : ∀ c ∈ cs, Converts o n c := fun c hc => converts_of_tree (hsub c hc)
    cases v with
    | pair ref =>
      simp only [Objects.children, Option.map_eq_some'] at hcs
      obtain ⟨⟨a, b⟩, hp, rfl⟩ := hcs
      exact converts_pair hp (ih a (by simp)) (ih b (by simp))
    | list ref => exact converts_list hcs ih
    | map ref =>
      simp only [Objects.children, Option.map_eq_some'] at hcs
      obtain ⟨m, hm, rfl⟩ := hcs
      exact converts_map hm ih
    | null => exact converts_leaf rfl (fun _ => ⟨_, rfl, .null⟩) fun h => nomatch h
    | int x => exact converts_leaf rfl (fun _ => ⟨_, rfl, .int x⟩) fun h => nomatch h
    | real x => exact converts_leaf rfl (fun _ => ⟨_, rfl, .real x⟩) fun h => nomatch h
    | str x => exact converts_leaf rfl (fun _ => ⟨_, rfl, .str x⟩) fun h => nomatch h
    | bool x => exact converts_leaf rfl (fun _ => ⟨_, rfl, .bool x⟩) fun h => nomatch h
    | regexp _ | iter _ | closure _ | usr _ | frame _ => exact converts_leaf rfl (fun h => nomatch h) fun _ => rfl

theorem converts_of_acyclic {v : Val} (acyclic : o.Acyclic v) {fuel : Nat}
    (hfuel : o.pairs.length + o.lists.length + o.maps.length < fuel) : Converts o fuel v :=
  converts_of_tree (acyclic.tree.mono (by simp only [Objects.length_containers]; omega))

/-- `toctx` on an acyclic value, with fuel for one nested call more than the
store has pairs, lists and maps: it succeeds exactly when every value
reachable from `v` is of a kind it converts, its result then mirrors `v`,
and otherwise it returns the error `"invalid context type"`. -/
theorem toctx_of_acyclic {v : Val} (acyclic : o.Acyclic v) (fuel : Nat)
    (hfuel : o.pairs.length + o.lists.length + o.maps.length < fuel) :
    ((∃ c, toctx o fuel v = some (.ok (.ok c))) ↔ o.AllCtx v) ∧
      (∀ c, toctx o fuel v = some (.ok (.ok c)) → o.Mirrors v c) ∧
      (¬o.AllCtx v → toctx o fuel v = some (.ok (.error "invalid context type"))) := by
  have hconv := converts_of_acyclic acyclic hfuel
  have converted : ∀ c, toctx o fuel v = some (.ok (.ok c)) → o.AllCtx v ∧ o.Mirrors v c := by
    intro c hc
    by_cases hall : o.AllCtx v
    · obtain ⟨c', hc', hm⟩ := hconv.1 hall
      rw [hc] at hc'
      cases hc'
      exact ⟨hall, hm⟩
    · rw [hconv.2 hall] at hc
      cases hc
  exact ⟨⟨fun ⟨c, hc⟩ => (converted c hc).1, fun h => (hconv.1 h).imp fun _ => And.left⟩,
    fun c hc => (converted c hc).2, hconv.2⟩

/-- A store holding the pair `("a", [1, null])` as pair 0 and the list
`[1, null]` as list 0. -/
def ctxStore : Objects := ⟨[[.int 1, .null]], [], [(.str "a", .list 0)]⟩

theorem ctxStore_acyclic : ctxStore.Acyclic (.pair 0) :=
  Objects.Tree.acyclic (show ctxStore.Tree 3 (.pair 0) by simp [Objects.Tree, Objects.children, ctxStore])

theorem pair_of_list_to_ctx :
    ctxStore.Acyclic (.pair 0) ∧ ctxStore.pairs.length + ctxStore.lists.length + ctxStore.maps.length < 3 ∧
      ((∃ c, toctx ctxStore 3 (.pair 0) = some (.ok (.ok c))) ↔ ctxStore.AllCtx (.pair 0)) :=
  ⟨ctxStore_acyclic, by decide, (toctx_of_acyclic ctxStore_acyclic 3 (by decide)).1⟩

example : toctx ctxStore 3 (.pair 0) = some (.ok (.ok (.dict [("first", .str "a"), ("second", .seq [.int 1, .nil])]))) :=
  rfl

example : toctx ⟨[[.int 1, .closure (.script 0)]], [], []⟩ 2 (.list 0) = some (.ok (.error "invalid context type")) :=
  rfl

/-- `goTemplate.Execute` on an acyclic context renders the spec's mirror of
it, or returns `toctx`'s error without rendering. -/
theorem goExecute_of_acyclic (render : Ctx → Except String String) {v : Val} (acyclic : o.Acyclic v) {fuel : Nat}
    (hfuel : o.pairs.length + o.lists.length + o.maps.length < fuel) :
    (o.AllCtx v → ∃ c, o.Mirrors v c ∧ goExecute render o fuel v = some (.ok (render c))) ∧
      (¬o.AllCtx v → goExecute render o fuel v = some (.ok (.error "invalid context type"))) := by
  have hconv := converts_of_acyclic acyclic hfuel
  refine ⟨fun h => ?_, fun h => by simp only [goExecute, hconv.2 h, Option.map_some']; rfl⟩
  obtain ⟨c, hc, hm⟩ := hconv.1 h
  exact ⟨c, hm, by simp only [goExecute, hc, Option.map_some']; rfl⟩

theorem render_pair_context :
    ctxStore.Acyclic (.pair 0) ∧ ctxStore.pairs.length + ctxStore.lists.length + ctxStore.maps.length < 3 ∧
      (ctxStore.AllCtx (.pair 0) → ∃ c, ctxStore.Mirrors (.pair 0) c ∧
        goExecute (fun _ => .ok "page") ctxStore 3 (.pair 0) = some (.ok (.ok "page"))) ∧
      (¬ctxStore.AllCtx (.pair 0) →
        goExecute (fun _ => .ok "page") ctxStore 3 (.pair 0) = some (.ok (.error "invalid context type"))) :=
  ⟨ctxStore_acyclic, by decide, goExecute_of_acyclic (fun _ => .ok "page") ctxStore_acyclic (by decide)⟩

/-! ### The pongo2 context -/

/-- On an acyclic pair, pongo's context is the entries of the map `toctx`
makes of it: both slots end, so converting the second before looking at the
first's error changes nothing. -/
theorem pongoTocontext_pair {ref fuel : Nat} (acyclic : o.Acyclic (.pair ref))
    (hfuel : o.pairs.length + o.lists.length + o.maps.length < fuel) :
    pongoTocontext o fuel (.pair ref) = (toctx o (fuel + 1) (.pair ref)).map fun r => r.map fun r => r.map Ctx.entries := by
  obtain ⟨cs, hcs, -⟩ := acyclic _ (.refl _)
  simp only [Objects.children, Option.map_eq_some'] at hcs
  obtain ⟨⟨a, b⟩, hp, rfl⟩ := hcs
  have hslot : ∀ c ∈ [a, b], Converts o fuel c := fun c hc =>
    converts_of_acyclic (acyclic.of_reach (.child (by simp [Objects.children, hp]) hc (.refl c))) hfuel
  rcases (hslot a (by simp)).ends with ⟨ca, hta⟩ | hta <;> rcases (hslot b (by simp)).ends with ⟨cb, htb⟩ | htb <;>
    simp only [pongoTocontext, toctx, hp, hta, htb, Option.some_bind, Option.map_some'] <;> rfl

theorem pongo_context_of_pair :
    ctxStore.Acyclic (.pair 0) ∧ ctxStore.pairs.length + ctxStore.lists.length + ctxStore.maps.length < 3 ∧
      pongoTocontext ctxStore 3 (.pair 0) =
        (toctx ctxStore 4 (.pair 0)).map fun r => r.map fun r => r.map Ctx.entries :=
  ⟨ctxStore_acyclic, by decide, pongoTocontext_pair ctxStore_acyclic (by decide)⟩

end Tree

end Moons.Pl
