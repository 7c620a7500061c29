import Mathlib.Data.List.Perm.Basic

/-!
# The virtual host's service-handler pool

`servicePool` of package `vhost`: a LIFO cache of idle handlers. Every
method holds the pool's mutex for its whole body, so any interleaving of
goroutines is a sequence of whole `get`/`put` calls, which is what `run`
executes.
-/

set_option autoImplicit false

open scoped List

namespace Moons.Vhost

/-- A `servicePool` over handlers `H` (the `*serviceHandler` pointers). -/
structure ServicePool (H : Type) where
  idle : List H
  maxSize : Int

namespace ServicePool

variable {H : Type}

/-- `newServicePool(cacheSize)`; a size of 0 takes the configured default. -/
def newServicePool (defaultSize cacheSize : Int) : ServicePool H :=
  { idle := [], maxSize := if cacheSize = 0 then defaultSize else cacheSize }

def idleSize (s : ServicePool H) : Nat := s.idle.length

/-- `get`: hand out the most recently returned handler, or nil. -/
def get (s : ServicePool H) : Option H × ServicePool H :=
  match s.idle.getLast? with
  | none => (none, s)
  | some last => (some last, { s with idle := s.idle.dropLast })

/-- `put(h)`: keep `h` unless `len(s.idle)+1 >= s.maxSize`. -/
def put (s : ServicePool H) (h : H) : Bool × ServicePool H :=
  if (s.idle.length : Int) + 1 ≥ s.maxSize then (false, s)
  else (true, { s with idle := s.idle ++ [h] })

/-- One call made under the mutex. -/
inductive Op (H : Type) where
  | get
  | put (h : H)

/-- What a call returns. -/
inductive Reply (H : Type) where
  | handler (h : Option H)
  | accepted (ok : Bool)

def apply (s : ServicePool H) : Op H → Reply H × ServicePool H
  | .get => let (h, s) := s.get; (.handler h, s)
  | .put h => let (ok, s) := s.put h; (.accepted ok, s)

/-- A sequence of calls, with the replies in order. -/
def run (s : ServicePool H) : List (Op H) → List (Reply H) × ServicePool H
  | [] => ([], s)
  | op :: ops =>
    let (r, s') := s.apply op
    let (rs, s'') := s'.run ops
    (r :: rs, s'')

/-- The handlers a run hands out. -/
def taken : List (Reply H) → List H
  | [] => []
  | .handler (some h) :: rs => h :: taken rs
  | _ :: rs => taken rs

/-- The handlers a run's calls put back and the pool keeps. -/
def kept : List (Op H) → List (Reply H) → List H
  | .put h :: ops, .accepted true :: rs => h :: kept ops rs
  | _ :: ops, _ :: rs => kept ops rs
  | _, _ => []

theorem get_eq (s : ServicePool H) : s.get = (s.idle.getLast?, { s with idle := s.idle.dropLast }) := by
  obtain ⟨idle, maxSize⟩ := s
  unfold get
  cases hlast : idle.getLast? <;> simp_all [List.getLast?_eq_none_iff]

theorem apply_bounded (s : ServicePool H) (op : Op H) (bounded : (s.idle.length : Int) + 1 ≤ s.maxSize) :
    ((s.apply op).2.idle.length : Int) + 1 ≤ (s.apply op).2.maxSize := by
  cases op with
  | get => simp only [apply, get_eq, List.length_dropLast]; omega
  | put h =>
    simp only [apply, put]
    split
    · exact bounded
    · simp only [List.length_append, List.length_singleton]; omega

/-- Over any run from a pool of capacity `m ≥ 1` holding fewer than `m`
handlers, the idle list never holds `m` handlers. -/
theorem run_bounded (s : ServicePool H) (ops : List (Op H)) (bounded : (s.idle.length : Int) + 1 ≤ s.maxSize) :
    ((s.run ops).2.idle.length : Int) + 1 ≤ (s.run ops).2.maxSize := by
  induction ops generalizing s with
  | nil => exact bounded
  | cons op ops ih => exact ih _ (apply_bounded s op bounded)

/-- A pool with room for two handlers and none idle. -/
def twoSlotPool : ServicePool Nat := ⟨[], 2⟩

theorem two_slot_pool_stays_bounded :
    (twoSlotPool.idle.length : Int) + 1 ≤ twoSlotPool.maxSize ∧
      ((twoSlotPool.run [.put 0, .put 1, .get]).2.idle.length : Int) + 1 ≤
        (twoSlotPool.run [.put 0, .put 1, .get]).2.maxSize :=
  ⟨by decide, run_bounded twoSlotPool [.put 0, .put 1, .get] (by decide)⟩

theorem run_cons (s : ServicePool H) (op : Op H) (ops : List (Op H)) :
    s.run (op :: ops) = ((s.apply op).1 :: ((s.apply op).2.run ops).1, ((s.apply op).2.run ops).2) :=
  rfl

theorem taken_cons (r : Reply H) (rs : List (Reply H)) : taken (r :: rs) = taken [r] ++ taken rs := by
  rcases r with (_ | _) | _ <;> rfl

theorem kept_cons (op : Op H) (ops : List (Op H)) (r : Reply H) (rs : List (Reply H)) :
    kept (op :: ops) (r :: rs) = kept [op] [r] ++ kept ops rs := by
  rcases op with _ | _ <;> rcases r with _ | (_ | _) <;> rfl

theorem apply_perm (s : ServicePool H) (op : Op H) :
    taken [(s.apply op).1] ++ (s.apply op).2.idle ~ s.idle ++ kept [op] [(s.apply op).1] := by
  cases op with
  | get =>
    simp only [apply, get_eq]
    cases hlast : s.idle.getLast? with
    | none => simp_all [List.getLast?_eq_none_iff, taken, kept]
    | some last =>
      have hidle : s.idle = s.idle.dropLast ++ [last] := by
        rw [List.getLast?_eq_some_iff] at hlast
        obtain ⟨ys, hys⟩ := hlast
        simp [hys]
      simp only [taken, kept, List.append_nil, List.singleton_append]
      calc last :: s.idle.dropLast ~ s.idle.dropLast ++ [last] := List.perm_append_singleton _ _ |>.symm
        _ = s.idle := hidle.symm
  | put h =>
    simp only [apply, put]
    split <;> simp [taken, kept]

/-- Conservation for a run: every handler the pool kept is either still idle
or handed out, and none is handed out twice. -/
theorem run_perm (s : ServicePool H) (ops : List (Op H)) :
    taken (s.run ops).1 ++ (s.run ops).2.idle ~ s.idle ++ kept ops (s.run ops).1 := by
  induction ops generalizing s with
  | nil => simp [run, taken, kept]
  | cons op ops ih =>
    rcases hstep : s.apply op with ⟨r, s'⟩
    have one : taken [r] ++ s'.idle ~ s.idle ++ kept [op] [r] := by
      simpa only [hstep] using apply_perm s op
    rw [run_cons, hstep, taken_cons, kept_cons]
    calc taken [r] ++ taken (s'.run ops).1 ++ (s'.run ops).2.idle
        = taken [r] ++ (taken (s'.run ops).1 ++ (s'.run ops).2.idle) := List.append_assoc ..
      _ ~ taken [r] ++ (s'.idle ++ kept ops (s'.run ops).1) := (ih s').append_left _
      _ = (taken [r] ++ s'.idle) ++ kept ops (s'.run ops).1 := (List.append_assoc ..).symm
      _ ~ (s.idle ++ kept [op] [r]) ++ kept ops (s'.run ops).1 := one.append_right _
      _ = s.idle ++ (kept [op] [r] ++ kept ops (s'.run ops).1) := List.append_assoc ..

/-- A pool of capacity 1 refuses the first handler put back into it, though
no handler is idle. -/
theorem put_refuses_below_capacity : (put (⟨[], 1⟩ : ServicePool Nat) 0).1 = false := rfl

end ServicePool

end Moons.Vhost
