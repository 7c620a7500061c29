import Moons.Pl.Host

/-!
# Application results

`ApplicationResult` of package `http/framework`: the event an application
asks to emit and the context it is emitted with. `AddContext` makes the
context a map on first use and then adds entries to it. Maps are the value
system's (`pl.NewValMap`, `AddMap`), reached through `Runtime`.
-/

set_option autoImplicit false

namespace Moons.Http

open Moons.Pl (Val Runtime)

/-- An `ApplicationResult`. -/
structure ApplicationResult where
  event : String
  context : Val
  deriving DecidableEq, Repr

/-- `NewApplicationResult(event)`. -/
def newApplicationResult (event : String) : ApplicationResult := ⟨event, .null⟩

namespace ApplicationResult

variable {W : Type} (rt : Runtime W)

/-- `a.AddContext(key, value)` in the host world `w`: a context that is not
a map is replaced by a new map first. -/
def addContext (w : W) (a : ApplicationResult) (key : String) (value : Val) : W × ApplicationResult :=
  let (w, a) := if a.context matches .map _ then (w, a)
    else let (w, m) := rt.newMap w; (w, { a with context := m })
  (rt.addMap w a.context key value, a)

/-- `AddContext` for each entry in turn. -/
def addContexts (w : W) (a : ApplicationResult) : List (String × Val) → W × ApplicationResult
  | [] => (w, a)
  | (key, value) :: kvs =>
    let (w, a) := a.addContext rt w key value
    addContexts w a kvs

theorem addContexts_of_map (a : ApplicationResult) (ref : Nat) (isMap : a.context = .map ref) :
    ∀ (w : W) (kvs : List (String × Val)),
      a.addContexts rt w kvs = (kvs.foldl (fun w kv => rt.addMap w (.map ref) kv.1 kv.2) w, a)
  | _, [] => rfl
  | w, (key, value) :: kvs => by
    have hstep : a.addContext rt w key value = (rt.addMap w (.map ref) key value, a) := by
      simp [addContext, isMap]
    rw [addContexts, hstep]
    exact addContexts_of_map a ref isMap _ kvs

/-- When `NewValMap` makes a map: the first `AddContext` on a new result
makes its context one new map, and that map takes every entry added, in
order; no other map is made. -/
theorem addContexts_new (hmap : ∀ w, ∃ ref, (rt.newMap w).2 = .map ref) (event : String) (w : W)
    (kv : String × Val) (kvs : List (String × Val)) :
    (newApplicationResult event).addContexts rt w (kv :: kvs) =
      ((kv :: kvs).foldl (fun w' kv => rt.addMap w' (rt.newMap w).2 kv.1 kv.2) (rt.newMap w).1,
        ⟨event, (rt.newMap w).2⟩) := by
  obtain ⟨ref, href⟩ := hmap w
  obtain ⟨key, value⟩ := kv
  have hfirst : (newApplicationResult event).addContext rt w key value =
      (rt.addMap (rt.newMap w).1 (rt.newMap w).2 key value, ⟨event, (rt.newMap w).2⟩) := by
    simp [addContext, newApplicationResult]
  rw [addContexts, hfirst]
  dsimp only
  rw [addContexts_of_map rt _ ref href, List.foldl_cons, href]

/-- A runtime whose `NewValMap` gives map 0. -/
def mapRuntime : Runtime Unit := { (default : Runtime Unit) with newMap := fun w => (w, .map 0) }

theorem first_context_makes_one_map :
    (∀ w, ∃ ref, (mapRuntime.newMap w).2 = .map ref) ∧
      (newApplicationResult "done").addContexts mapRuntime () (("a", .int 1) :: [("b", .null)]) =
        ((("a", .int 1) :: [("b", .null)]).foldl
            (fun w' kv => mapRuntime.addMap w' (mapRuntime.newMap ()).2 kv.1 kv.2) (mapRuntime.newMap ()).1,
          ⟨"done", (mapRuntime.newMap ()).2⟩) :=
  ⟨fun _ => ⟨0, rfl⟩, addContexts_new mapRuntime (fun _ => ⟨0, rfl⟩) "done" () _ _⟩

end ApplicationResult

end Moons.Http
