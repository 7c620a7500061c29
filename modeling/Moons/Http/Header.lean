import Moons.Pl.Value

/-!
# Header middlewares

`HeaderAdd`, `HeaderSet` and `HeaderDel` of package `http/module` change an
`http.Header` from the arguments of a `header_add`, `header_set` or
`header_del` middleware; `modheader.Accept` (packages `request` and
`response`) runs one on the request's or the response's header and answers
500 with its error.

Each walks its arguments in order and changes the header as it goes, so an
argument that fails leaves the changes of those before it in place.
`HeaderDel` deletes, for each pattern, every header name matching it while
ranging over the header, a Go map, in an order the language leaves open; its
result does not depend on that order.

The hpl argument reader, the value system, `util.ToMatcher` and
`textproto.CanonicalMIMEHeaderKey` are not in the sources; they are
parameters.
-/

set_option autoImplicit false

namespace Moons.Http

open Moons.Pl (Val)

/-- An `http.Header`: each header name once, with its values. The order of
the list is the model's; a Go map has none. -/
structure Header where
  entries : List (String × List String)
  nodup : (entries.map Prod.fst).Nodup

namespace Header

/-- The names in the header. -/
def keys (h : Header) : List String := h.entries.map Prod.fst

/-- `h[key]`, absent as `none`. -/
def get (h : Header) (key : String) : Option (List String) := h.entries.lookup key

/-- The header restricted to the names satisfying `p`. -/
def filter (h : Header) (p : String → Bool) : Header :=
  ⟨h.entries.filter (p ·.1), h.nodup.sublist (List.Sublist.map _ (List.filter_sublist _))⟩

/-- `h[key] = vs`. -/
def put (h : Header) (key : String) (vs : List String) : Header :=
  if hk : key ∈ h.keys then
    ⟨h.entries.map fun e => if e.1 = key then (key, vs) else e, by
      have hfst : (h.entries.map fun e => if e.1 = key then (key, vs) else e).map Prod.fst = h.keys := by
        simp only [keys, List.map_map]
        exact List.map_congr_left fun e _ => by by_cases he : e.1 = key <;> simp [he]
      exact hfst ▸ h.nodup⟩
  else ⟨h.entries ++ [(key, vs)], by
    rw [List.map_append]
    refine List.pairwise_append.mpr ⟨h.nodup, List.pairwise_singleton _ _, fun a ha b hb => ?_⟩
    rw [List.map_singleton, List.mem_singleton] at hb
    exact fun e => hk ((e.trans hb : a = key) ▸ ha)⟩

variable (canon : String → String)

/-- `h.Add(key, value)`: append to the values of the canonical name. -/
def add (h : Header) (key value : String) : Header :=
  h.put (canon key) ((h.get (canon key)).getD [] ++ [value])

/-- `h.Set(key, value)`: the canonical name's values become `[value]`. -/
def set (h : Header) (key value : String) : Header :=
  h.put (canon key) [value]

/-- `h.Del(key)`: delete the canonical name. -/
def del (h : Header) (key : String) : Header :=
  h.filter (· != canon key)

/-! ### Reading a header back -/

theorem ext_entries {h₁ h₂ : Header} (sameEntries : h₁.entries = h₂.entries) : h₁ = h₂ := by
  cases h₁; cases h₂; cases sameEntries; rfl

theorem lookup_cons_ite (a k : String) (b : List String) (l : List (String × List String)) :
    ((a, b) :: l).lookup k = if k = a then some b else l.lookup k := by
  by_cases h : k = a
  · subst h; rw [if_pos rfl, List.lookup_cons_self]
  · rw [if_neg h, List.lookup_cons, beq_eq_false_iff_ne.mpr h]

theorem lookup_map_replace (key : String) (vs : List String) (k : String) :
    ∀ l : List (String × List String),
      (l.map fun e => if e.1 = key then (key, vs) else e).lookup k =
        if k = key ∧ key ∈ l.map Prod.fst then some vs else l.lookup k
  | [] => by simp
  | (a, b) :: l => by
    have ih := lookup_map_replace key vs k l
    by_cases ha : a = key
    · subst ha
      by_cases hk : k = a <;> simp [hk, lookup_cons_ite, ih]
    · by_cases hk : k = key
      · subst hk
        simp only [ha, if_false, lookup_cons_ite, Ne.symm ha, ih, List.map_cons, List.mem_cons, false_or]
      · simp [ha, hk, lookup_cons_ite, ih]

theorem lookup_eq_none_of_not_mem {k : String} :
    ∀ {l : List (String × List String)}, k ∉ l.map Prod.fst → l.lookup k = none
  | [], _ => rfl
  | (a, b) :: l, hk => by
    simp only [List.map_cons, List.mem_cons, not_or] at hk
    rw [lookup_cons_ite, if_neg hk.1, lookup_eq_none_of_not_mem hk.2]

@[simp] theorem get_put (h : Header) (key k : String) (vs : List String) :
    (h.put key vs).get k = if k = key then some vs else h.get k := by
  unfold put get
  split
  · simp_all [lookup_map_replace, keys]
  · rw [List.lookup_append]
    by_cases hk : k = key
    · subst hk
      simp [lookup_eq_none_of_not_mem ‹_›, lookup_cons_ite]
    · simp [hk, lookup_cons_ite]

theorem mem_keys_filter (h : Header) (p : String → Bool) (k : String) :
    k ∈ (h.filter p).keys ↔ k ∈ h.keys ∧ p k = true := by
  simp only [filter, keys, List.mem_map, List.mem_filter]
  constructor
  · rintro ⟨e, ⟨he, hp⟩, rfl⟩
    exact ⟨⟨e, he, rfl⟩, hp⟩
  · rintro ⟨⟨e, he, rfl⟩, hp⟩
    exact ⟨e, ⟨he, hp⟩, rfl⟩

theorem filter_filter (h : Header) (p q : String → Bool) : (h.filter p).filter q = h.filter fun k => q k && p k :=
  ext_entries (List.filter_filter _ _)

theorem filter_congr (h : Header) {p q : String → Bool} (agree : ∀ k ∈ h.keys, p k = q k) : h.filter p = h.filter q :=
  ext_entries (List.filter_congr fun e he => agree e.1 (List.mem_map_of_mem _ he))

theorem filter_true (h : Header) : h.filter (fun _ => true) = h :=
  ext_entries (List.filter_eq_self.mpr fun _ _ => rfl)

end Header

/-- The value system as the header helpers use it. -/
structure Values where
  /-- `v.IsPair()`, and then `v.Pair().First` and `v.Pair().Second`. -/
  pairOf : Val → Option (Val × Val)
  /-- `v.ToString()`. -/
  toString : Val → Except String String

variable (vs : Values)

/-- The name and value an argument of `foreachHeaderKV` stands for. -/
def kvOf (context : String) (v : Val) : Except String (String × String) :=
  match vs.pairOf v with
  | none => .error (context ++ ": the argument must be pair to represent header kv")
  | some (first, second) =>
    match vs.toString first with
    | .error e => .error (context ++ ": key is not string, " ++ e)
    | .ok key =>
      match vs.toString second with
      | .error e => .error (context ++ ": value is not string, " ++ e)
      | .ok val => .ok (key, val)

/-- The name an argument of `foreachHeaderKey` stands for. -/
def keyOf (context : String) (v : Val) : Except String String :=
  match vs.toString v with
  | .error e => .error (context ++ ": key is not string, " ++ e)
  | .ok key => .ok key

/-- `foreachHeaderKV(context, args, ctx, callback)`, over what `cfg.Get(i)`
answers for each argument in turn: run `callback` on each argument's name
and value, and stop at the first error with the changes made so far. -/
def foreachHeaderKV (context : String) (callback : Header → String → String → Header) :
    List (Except String Val) → Header → Option String × Header
  | [], h => (none, h)
  | arg :: args, h =>
    match arg >>= kvOf vs context with
    | .error e => (some e, h)
    | .ok (key, val) => foreachHeaderKV context callback args (callback h key val)

/-- `foreachHeaderKey(context, args, ctx, callback)`. -/
def foreachHeaderKey (context : String) (callback : Header → String → Header) :
    List (Except String Val) → Header → Option String × Header
  | [], h => (none, h)
  | arg :: args, h =>
    match arg >>= keyOf vs context with
    | .error e => (some e, h)
    | .ok key => foreachHeaderKey context callback args (callback h key)

/-- The names and values the arguments of `foreachHeaderKV` stand for, up to
the first that fails, and that failure. -/
def convertKVs (context : String) : List (Except String Val) → List (String × String) × Option String
  | [] => ([], none)
  | arg :: args =>
    match arg >>= kvOf vs context with
    | .error e => ([], some e)
    | .ok kv => (kv :: (convertKVs context args).1, (convertKVs context args).2)

/-- The names the arguments of `foreachHeaderKey` stand for, up to the first
that fails, and that failure. -/
def convertKeys (context : String) : List (Except String Val) → List String × Option String
  | [] => ([], none)
  | arg :: args =>
    match arg >>= keyOf vs context with
    | .error e => ([], some e)
    | .ok key => (key :: (convertKeys context args).1, (convertKeys context args).2)

theorem foreachHeaderKV_eq (context : String) (callback : Header → String → String → Header) :
    ∀ (args : List (Except String Val)) (h : Header), foreachHeaderKV vs context callback args h =
      ((convertKVs vs context args).2, (convertKVs vs context args).1.foldl (fun h kv => callback h kv.1 kv.2) h)
  | [], _ => rfl
  | arg :: args, h => by
    rw [foreachHeaderKV, convertKVs]
    rcases arg >>= kvOf vs context with _ | ⟨key, val⟩
    · rfl
    · exact foreachHeaderKV_eq context callback args _

theorem foreachHeaderKey_eq (context : String) (callback : Header → String → Header) :
    ∀ (args : List (Except String Val)) (h : Header), foreachHeaderKey vs context callback args h =
      ((convertKeys vs context args).2, (convertKeys vs context args).1.foldl callback h)
  | [], _ => rfl
  | arg :: args, h => by
    rw [foreachHeaderKey, convertKeys]
    rcases arg >>= keyOf vs context with _ | key
    · rfl
    · exact foreachHeaderKey_eq context callback args _

variable (canon : String → String)

/-- `HeaderAdd(context, args, header, ctx)`. -/
def headerAdd (context : String) (args : List (Except String Val)) (h : Header) : Option String × Header :=
  foreachHeaderKV vs context (Header.add canon) args h

/-- `HeaderSet(context, args, header, ctx)`. -/
def headerSet (context : String) (args : List (Except String Val)) (h : Header) : Option String × Header :=
  foreachHeaderKV vs context (Header.set canon) args h

/-- The loop `for k, _ := range header { if m(k, key) { header.Del(k) } }`,
visiting the names in the order `order`: a name deleted before it is
reached is not visited. -/
def delVisit (m : String → String → Bool) (key : String) : List String → Header → Header
  | [], h => h
  | k :: ks, h => delVisit m key ks (if k ∈ h.keys then (if m k key then h.del canon k else h) else h)

/-- `HeaderDel(context, args, header, ctx)`, with `util.ToMatcher` as
`toMatcher`. Each range over the header visits its names in the order
`order` gives for it. -/
def headerDel (toMatcher : String → String → String → Bool) (order : Header → String → List String)
    (context : String) (args : List (Except String Val)) (h : Header) : Option String × Header :=
  foreachHeaderKey vs context (fun h key => delVisit canon (toMatcher key) key (order h key) h) args h

/-! ## `HeaderSet` and `HeaderAdd` -/

/-- The values the names and values `kvs` give the canonical name `name`, in
order. -/
def valuesFor (kvs : List (String × String)) (name : String) : List String :=
  (kvs.filter fun kv => canon kv.1 == name).map Prod.snd

theorem valuesFor_cons (kv : String × String) (kvs : List (String × String)) (name : String) :
    valuesFor canon (kv :: kvs) name =
      if canon kv.1 = name then kv.2 :: valuesFor canon kvs name else valuesFor canon kvs name := by
  by_cases h : canon kv.1 = name <;> simp [valuesFor, List.filter_cons, h]

theorem get_foldl_set : ∀ (kvs : List (String × String)) (h : Header) (name : String),
    (kvs.foldl (fun h kv => h.set canon kv.1 kv.2) h).get name =
      match (valuesFor canon kvs name).getLast? with
      | none => h.get name
      | some v => some [v]
  | [], _, _ => rfl
  | kv :: kvs, h, name => by
    rw [List.foldl_cons, get_foldl_set kvs, valuesFor_cons, Header.set, Header.get_put]
    by_cases hk : canon kv.1 = name
    · cases hl : (valuesFor canon kvs name).getLast? <;> simp [hk, hl, List.getLast?_cons]
    · simp [hk, Ne.symm hk]

theorem get_foldl_add : ∀ (kvs : List (String × String)) (h : Header) (name : String),
    (kvs.foldl (fun h kv => h.add canon kv.1 kv.2) h).get name =
      if valuesFor canon kvs name = [] then h.get name
      else some ((h.get name).getD [] ++ valuesFor canon kvs name)
  | [], _, _ => rfl
  | kv :: kvs, h, name => by
    rw [List.foldl_cons, get_foldl_add kvs, valuesFor_cons, Header.add, Header.get_put]
    by_cases hk : canon kv.1 = name
    · subst hk
      by_cases hv : valuesFor canon kvs (canon kv.1) = [] <;> simp [hv]
    · simp [hk, Ne.symm hk]

/-- `HeaderSet` stops at the first argument that fails and returns its error;
the arguments before it have already set their names. Every canonical name
they set holds the last value set for it, every other name is as it was. -/
theorem headerSet_spec (context : String) (args : List (Except String Val)) (h : Header) :
    (headerSet vs canon context args h).1 = (convertKVs vs context args).2 ∧
      ∀ name, (headerSet vs canon context args h).2.get name =
        match (valuesFor canon (convertKVs vs context args).1 name).getLast? with
        | none => h.get name
        | some v => some [v] := by
  rw [headerSet, foreachHeaderKV_eq]
  exact ⟨rfl, get_foldl_set canon _ h⟩

/-- `HeaderAdd` stops at the first argument that fails and returns its error;
the arguments before it have already added their values. Every canonical
name holds its old values followed by those added to it, in order. -/
theorem headerAdd_spec (context : String) (args : List (Except String Val)) (h : Header) :
    (headerAdd vs canon context args h).1 = (convertKVs vs context args).2 ∧
      ∀ name, (headerAdd vs canon context args h).2.get name =
        if valuesFor canon (convertKVs vs context args).1 name = [] then h.get name
        else some ((h.get name).getD [] ++ valuesFor canon (convertKVs vs context args).1 name) := by
  rw [headerAdd, foreachHeaderKV_eq]
  exact ⟨rfl, get_foldl_add canon _ h⟩

/-! ## `HeaderDel` and the order of a map's range -/

section Del

variable (m : String → String → Bool) (key : String)

/-- What a pass of `HeaderDel` for the pattern `key` leaves: the header
without each name that is the canonical form of one of its names matching
`key`. -/
def delSpec (h : Header) : Header :=
  h.filter fun name => !(h.keys.any fun k => m k key && canon k == name)

/-- The names a pass has not deleted after visiting `p`. -/
def keptAfter (p : List String) (name : String) : Bool :=
  !(p.any fun k => m k key && canon k == name)

variable {canon}

theorem keptAfter_snoc (p : List String) (k name : String) :
    keptAfter canon m key (p ++ [k]) name = (keptAfter canon m key p name && !(m k key && canon k == name)) := by
  simp [keptAfter, List.any_append]

theorem delVisit_filter (hcanon : ∀ k, canon (canon k) = canon k) (h₀ : Header) :
    ∀ (o p : List String), (∀ k ∈ o, k ∈ h₀.keys) →
      delVisit canon m key o (h₀.filter (keptAfter canon m key p)) = h₀.filter (keptAfter canon m key (p ++ o))
  | [], p, _ => by rw [List.append_nil]; rfl
  | k :: o, p, ho => by
    have hstep : (if k ∈ (h₀.filter (keptAfter canon m key p)).keys then
        (if m k key then (h₀.filter (keptAfter canon m key p)).del canon k else h₀.filter (keptAfter canon m key p))
        else h₀.filter (keptAfter canon m key p)) = h₀.filter (keptAfter canon m key (p ++ [k])) := by
      split
      · split
        · next hm =>
          rw [Header.del, Header.filter_filter]
          refine Header.filter_congr _ fun name _ => ?_
          by_cases hn : canon k = name
          · simp [keptAfter_snoc, hn, hm]
          · have notName : (canon k == name) = false := beq_eq_false_iff_ne.mpr hn
            have differs : (name != canon k) = true := bne_iff_ne.mpr (Ne.symm hn)
            simp [keptAfter_snoc, notName, differs]
        · exact Header.filter_congr _ fun name _ => by simp [keptAfter_snoc, *]
      · rename_i hk
        have hdel : keptAfter canon m key p k = false := Bool.eq_false_iff.mpr fun hne =>
          hk ((Header.mem_keys_filter _ _ _).mpr ⟨ho k (List.mem_cons_self _ _), hne⟩)
        obtain ⟨k', hk', hmk'⟩ : ∃ k' ∈ p, m k' key = true ∧ canon k' = k := by simpa [keptAfter] using hdel
        refine Header.filter_congr _ fun name _ => ?_
        rw [keptAfter_snoc]
        by_cases hn : canon k = name
        · have hgone : keptAfter canon m key p name = false := by
            simp only [keptAfter, Bool.not_eq_false', List.any_eq_true, Bool.and_eq_true, beq_iff_eq]
            exact ⟨k', hk', hmk'.1, by rw [← hn, ← hmk'.2, hcanon]⟩
          simp [hgone]
        · simp [hn]
    rw [delVisit, hstep, delVisit_filter hcanon h₀ o (p ++ [k]) fun k' hk' => ho k' (List.mem_cons_of_mem _ hk'),
      List.append_assoc, List.singleton_append]

theorem delVisit_perm (hcanon : ∀ k, canon (canon k) = canon k) (h : Header) (o : List String)
    (perm : o.Perm h.keys) : delVisit canon m key o h = delSpec canon m key h := by
  have hrun := delVisit_filter m key hcanon h o [] fun k hk => perm.mem_iff.mp hk
  have hnone : h.filter (keptAfter canon m key []) = h := by
    simpa [keptAfter] using Header.filter_true h
  rw [hnone] at hrun
  rw [hrun, delSpec]
  exact Header.filter_congr _ fun name _ => by
    simp only [List.nil_append, keptAfter, Bool.not_inj_iff]
    exact Bool.eq_iff_iff.mpr (by simp only [List.any_eq_true]; exact exists_congr fun k => and_congr_left' perm.mem_iff)

end Del

/-- `HeaderDel` stops at the first argument that fails and returns its
error, the patterns before it having done their deletions. Whatever order
each range over the header visits its names in, every pass deletes exactly
the canonical forms of the names matching its pattern. -/
theorem headerDel_any_order (hcanon : ∀ k, canon (canon k) = canon k)
    (toMatcher : String → String → String → Bool) (order : Header → String → List String)
    (hord : ∀ h key, (order h key).Perm h.keys) (context : String) (args : List (Except String Val))
    (h : Header) :
    headerDel vs canon toMatcher order context args h =
      ((convertKeys vs context args).2,
        (convertKeys vs context args).1.foldl (fun h key => delSpec canon (toMatcher key) key h) h) := by
  rw [headerDel, foreachHeaderKey_eq]
  congr 2
  funext h' key
  exact delVisit_perm _ key hcanon h' _ (hord h' key)

/-- Arguments read as strings, none of them a pair. -/
def stringArgs : Values :=
  ⟨fun _ => none, fun v => match v with
    | .str s => .ok s
    | _ => .error "not a string"⟩

/-- A header with the names `X-Id` and `X-Tag`. -/
def idTagHeader : Header := ⟨[("X-Id", ["1"]), ("X-Tag", ["2"])], by decide⟩

theorem headerDel_in_reverse_order :
    (∀ k : String, id (id k) = id k) ∧ (∀ (h : Header) (_ : String), h.keys.reverse.Perm h.keys) ∧
      headerDel stringArgs id (fun key k _ => k == key) (fun h _ => h.keys.reverse) "response.header_del"
          [.ok (.str "X-Id")] idTagHeader =
        ((convertKeys stringArgs "response.header_del" [.ok (.str "X-Id")]).2,
          (convertKeys stringArgs "response.header_del" [.ok (.str "X-Id")]).1.foldl
            (fun h key => delSpec id (fun k _ => k == key) key h) idTagHeader) :=
  ⟨fun _ => rfl, fun _ _ => List.reverse_perm _,
    headerDel_any_order stringArgs id (fun _ => rfl) _ _ (fun _ _ => List.reverse_perm _) _ _ _⟩

/-- `modheader.Accept(r, p, w, ctx)`: run the middleware's `modFn` on the
header under the middleware's name; on an error answer 500 with it
(`w.ReplyError(name, 500, err)`, the third component) and stop the chain. -/
def modheaderAccept (modFn : String → List (Except String Val) → Header → Option String × Header)
    (name : String) (args : List (Except String Val)) (h : Header) : Bool × Header × Option (String × Nat × String) :=
  match modFn name args h with
  | (none, h) => (true, h, none)
  | (some e, h) => (false, h, some (name, 500, e))

end Moons.Http
