import Moons.Pl.Query.Projection
import Moons.Pl.Query.Aggregate
import Moons.Pl.Query.Callback

/-!
# The `q` module's registrations

`init()` in `pl/mod_query.go` registers thirteen intrinsics, each with a
signature. Every entry but `filterImpl`'s two runs `Check` first; this
module collects the entries and says which argument vectors each answers
with a value or an error and which make it panic.
-/

set_option autoImplicit false

namespace Moons.Pl

section

variable {W : Type} (rt : Runtime W) (q : QueryHost W)

/-- An argument vector shorter than two matches no overload of
`"{%l%c}{%m%c}"`, yet `q::filter` and `q::filter_not` read `args[0]` and
`args[1]` without `Check`, and panic with an index out of range. -/
theorem filter_unchecked_panics (w : W) (args : List Val) (hshort : args.length < 2) :
    (∀ o ∈ callbackSig, o.accepts args = false) ∧
      qFilter q w args = .error "index out of range" ∧ qFilterNot q w args = .error "index out of range" := by
  match args, hshort with
  | [], _ => exact ⟨by decide, rfl, rfl⟩
  | [a], _ =>
    refine ⟨fun o ho => ?_, ?_, ?_⟩
    · simp only [callbackSig, List.mem_cons, List.mem_singleton, List.not_mem_nil, or_false] at ho
      rcases ho with rfl | rfl <;> cases a <;> rfl
    all_goals
      simp only [qFilter, qFilterNot, filterImpl, argAt, Module.pool, List.getElem?_cons_zero,
        List.getElem?_cons_succ, List.getElem?_nil, bind, Except.bind]

end

theorem filter_without_arguments_panics :
    ([] : List Val).length < 2 ∧ qFilter (.ofStore fun o _ _ => (.error "no callback", o)) (default : Objects) [] = .error "index out of range" :=
  ⟨by decide, (filter_unchecked_panics (.ofStore fun o _ _ => (.error "no callback", o)) default [] (by decide)).2.1⟩

end Moons.Pl
