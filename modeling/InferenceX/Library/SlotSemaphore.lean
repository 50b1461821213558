import Mathlib

/-!
# The bounded semaphore of asyncio

A semaphore counts free permits and keeps a queue of futures. Releasing hands
the permit to the first future that is not done, so a permit can be in
flight: taken from the count, but its task has not resumed yet. A cancelled
future stays queued until its task runs. The permits a semaphore still owns
are the free ones and the ones in flight; every operation is stated by what
it does to that number. The semantics is the one of CPython 3.13.
-/

set_option autoImplicit false

namespace Library.SlotSemaphore

theorem find_erase_perm {A : Type*} (q : A → Bool) (xs : List A) (a : A)
    (h : xs.find? q = some a) : (a::xs.eraseP q).Perm xs := by
  induction xs with
  | nil => cases h
  | cons x xs ih =>
    by_cases hx : q x = true
    · rw [List.find?_cons_of_pos hx] at h
      obtain rfl := Option.some.inj h
      rw [List.eraseP_cons_of_pos hx]
    · rw [List.find?_cons_of_neg hx] at h
      rw [List.eraseP_cons_of_neg hx]
      exact (List.Perm.swap x a _).trans ((ih h).cons x)

theorem find_erase_counts {A : Type*} (q p : A → Bool) (xs : List A) (a : A)
    (h : xs.find? q = some a) :
    (xs.eraseP q).countP p+(if p a then 1 else 0) = xs.countP p := by
  rw [← (find_erase_perm q xs a h).countP_eq p, List.countP_cons]

inductive Fut where
  | pending
  | woken
  | cancelled
  deriving DecidableEq, Repr

structure Waiter (T : Type*) where
  task : T
  fut : Fut
  deriving DecidableEq, Repr

structure Semaphore (T : Type*) where
  bound : ℕ
  value : ℕ
  waiters : List (Waiter T)
  deriving DecidableEq, Repr

namespace Semaphore

variable {T : Type*}

def create (n : ℕ) : Semaphore T := ⟨n, n, []⟩

def locked (s : Semaphore T) : Bool :=
  s.value == 0 || s.waiters.any fun w => w.fut != .cancelled

def handed (s : Semaphore T) : ℕ := s.waiters.countP fun w => w.fut == .woken

def owned (s : Semaphore T) : ℕ := s.value+s.handed

def wake : List (Waiter T) → Option (List (Waiter T))
  | [] => none
  | w::ws =>
    if w.fut = .pending then some ({ w with fut := .woken }::ws) else (wake ws).map (w::·)

/-- `_wake_up_next`; `none` when no future is left to wake. -/
def wakeUpNext (s : Semaphore T) : Option (Semaphore T) :=
  (wake s.waiters).map fun ws => { s with value := s.value-1, waiters := ws }

/-- `while self._value > 0: if not self._wake_up_next(): break`. Every turn
takes one permit, so the value bounds the number of turns. -/
def drain : ℕ → Semaphore T → Semaphore T
  | 0, s => s
  | n+1, s =>
    match s.wakeUpNext with
    | none => s
    | some t => drain n t

def wakeAll (s : Semaphore T) : Semaphore T := drain s.value s

def acquireNow (s : Semaphore T) : Semaphore T := { s with value := s.value-1 }

def enqueue (task : T) (s : Semaphore T) : Semaphore T :=
  { s with waiters := s.waiters++[⟨task, .pending⟩] }

/-- `BoundedSemaphore.release`; `none` is the `ValueError`. -/
def release (s : Semaphore T) : Option (Semaphore T) :=
  if s.bound ≤ s.value then none
  else
    let t := { s with value := s.value+1 }
    some (t.wakeUpNext.getD t)

section Tasks
variable [DecidableEq T]

def interrupt (task : T) (s : Semaphore T) : Semaphore T :=
  { s with waiters := s.waiters.map fun w =>
      if w.task = task ∧ w.fut = .pending then { w with fut := .cancelled } else w }

/-- The rest of `acquire` when the task of a done future resumes. `thrown`
says that a cancellation is delivered although the future had a result; the
flag returned says whether the permit was acquired. -/
def resume (task : T) (thrown : Bool) (s : Semaphore T) : Option (Semaphore T × Bool) :=
  match s.waiters.find? fun w => w.task = task with
  | none => none
  | some w =>
    let rest := { s with waiters := s.waiters.eraseP fun w => w.task = task }
    match w.fut with
    | .pending => none
    | .cancelled => some (rest.wakeAll, false)
    | .woken =>
      if thrown then some (wakeAll { rest with value := rest.value+1 }, false)
      else some (rest.wakeAll, true)

end Tasks

theorem wake_counts (ws us : List (Waiter T)) (h : wake ws = some us) :
    us.countP (fun w => w.fut == .woken) = ws.countP (fun w => w.fut == .woken)+1 := by
  induction ws generalizing us with
  | nil => cases h
  | cons w ws ih =>
    rw [wake] at h
    split_ifs at h with hw
    · obtain rfl := Option.some.inj h
      simp [hw]
    · obtain ⟨vs, hvs, rfl⟩ := Option.map_eq_some_iff.mp h
      simp only [List.countP_cons, ih vs hvs]
      omega

theorem wakeUpNext_owned (s t : Semaphore T) (hv : 0 < s.value) (h : s.wakeUpNext = some t) :
    t.owned = s.owned ∧ t.bound = s.bound := by
  obtain ⟨us, hus, rfl⟩ := Option.map_eq_some_iff.mp h
  have hc := wake_counts s.waiters us hus
  refine ⟨?_, rfl⟩
  simp only [owned, handed] at hc ⊢
  omega

theorem drain_owned (n : ℕ) (s : Semaphore T) (hn : n ≤ s.value) :
    (drain n s).owned = s.owned ∧ (drain n s).bound = s.bound := by
  induction n generalizing s with
  | zero => exact ⟨rfl, rfl⟩
  | succ n ih =>
    rw [drain]
    cases hw : s.wakeUpNext with
    | none => exact ⟨rfl, rfl⟩
    | some t =>
      have ht := wakeUpNext_owned s t (by omega) hw
      have hv : t.value = s.value-1 := by
        obtain ⟨us, -, rfl⟩ := Option.map_eq_some_iff.mp hw
        rfl
      have hd := ih t (by omega)
      exact ⟨hd.1.trans ht.1, hd.2.trans ht.2⟩

theorem wakeAll_owned (s : Semaphore T) : s.wakeAll.owned = s.owned :=
  (drain_owned s.value s (le_refl _)).1

theorem wakeAll_bound (s : Semaphore T) : s.wakeAll.bound = s.bound :=
  (drain_owned s.value s (le_refl _)).2

theorem acquireNow_owned (s : Semaphore T) (h : s.locked = false) :
    s.acquireNow.owned+1 = s.owned := by
  have hv : s.value ≠ 0 := by
    intro h0
    simp [locked, h0] at h
  simp only [owned, handed, acquireNow]
  omega

theorem enqueue_owned (task : T) (s : Semaphore T) : (s.enqueue task).owned = s.owned := by
  simp [owned, handed, enqueue]

theorem release_owned (s t : Semaphore T) (h : s.release = some t) :
    t.owned = s.owned+1 ∧ t.bound = s.bound := by
  rw [release] at h
  split_ifs at h with hb
  obtain rfl := Option.some.inj h
  have hs : ({ s with value := s.value+1 } : Semaphore T).owned = s.owned+1 := by
    simp only [owned, handed]
    omega
  cases hw : ({ s with value := s.value+1 } : Semaphore T).wakeUpNext with
  | none => exact ⟨hs, rfl⟩
  | some u =>
    have hu := wakeUpNext_owned _ u (Nat.succ_pos _) hw
    exact ⟨hu.1.trans hs, hu.2⟩

theorem release_defined (s : Semaphore T) (h : s.owned < s.bound) : ∃ t, s.release = some t := by
  have hv : ¬ s.bound ≤ s.value := by
    simp only [owned] at h
    omega
  exact ⟨_, if_neg hv⟩

theorem wake_none (ws : List (Waiter T)) (h : ∀ w ∈ ws, w.fut = .cancelled) : wake ws = none := by
  induction ws with
  | nil => rfl
  | cons w ws ih =>
    have hw : w.fut ≠ .pending := by simp [h w (by simp)]
    rw [wake, if_neg hw, ih fun v hv => h v (by simp [hv])]
    rfl

/-- A permit taken without waiting and given back leaves no trace. -/
theorem release_acquireNow (s : Semaphore T) (h : s.locked = false) (hb : s.value ≤ s.bound) :
    s.acquireNow.release = some s := by
  obtain ⟨hv, hw⟩ : s.value ≠ 0 ∧ ∀ w ∈ s.waiters, w.fut = .cancelled := by
    simpa [locked] using h
  have hlt : ¬ s.acquireNow.bound ≤ s.acquireNow.value := by
    simp only [acquireNow]
    omega
  have hsame : (⟨s.acquireNow.bound, s.acquireNow.value+1, s.acquireNow.waiters⟩ :
      Semaphore T) = s := by
    simp only [acquireNow, Nat.sub_add_cancel (Nat.one_le_iff_ne_zero.mpr hv)]
  have hnone : s.wakeUpNext = none := by simp [wakeUpNext, wake_none s.waiters hw]
  rw [release, if_neg hlt]
  simp only [hsame, hnone, Option.getD_none]

def tasks (s : Semaphore T) : List T := s.waiters.map Waiter.task

@[simp] theorem tasks_acquireNow (s : Semaphore T) : s.acquireNow.tasks = s.tasks := rfl

@[simp] theorem tasks_enqueue (task : T) (s : Semaphore T) :
    (s.enqueue task).tasks = s.tasks++[task] := by simp [tasks, enqueue]

theorem wake_tasks (ws us : List (Waiter T)) (h : wake ws = some us) :
    us.map Waiter.task = ws.map Waiter.task := by
  induction ws generalizing us with
  | nil => cases h
  | cons w ws ih =>
    rw [wake] at h
    split_ifs at h
    · obtain rfl := Option.some.inj h
      rfl
    · obtain ⟨vs, hvs, rfl⟩ := Option.map_eq_some_iff.mp h
      simp only [List.map_cons, ih vs hvs]

theorem wakeUpNext_tasks (s t : Semaphore T) (h : s.wakeUpNext = some t) : t.tasks = s.tasks := by
  obtain ⟨us, hus, rfl⟩ := Option.map_eq_some_iff.mp h
  exact wake_tasks s.waiters us hus

theorem drain_tasks (n : ℕ) (s : Semaphore T) : (drain n s).tasks = s.tasks := by
  induction n generalizing s with
  | zero => rfl
  | succ n ih =>
    rw [drain]
    cases hw : s.wakeUpNext with
    | none => rfl
    | some t => exact (ih t).trans (wakeUpNext_tasks s t hw)

theorem release_tasks (s t : Semaphore T) (h : s.release = some t) : t.tasks = s.tasks := by
  rw [release] at h
  split_ifs at h
  obtain rfl := Option.some.inj h
  cases hw : ({ s with value := s.value+1 } : Semaphore T).wakeUpNext with
  | none => rfl
  | some u => exact wakeUpNext_tasks { s with value := s.value+1 } u hw

section Tasks
variable [DecidableEq T]

@[simp] theorem interrupt_tasks (task : T) (s : Semaphore T) :
    (s.interrupt task).tasks = s.tasks := by
  simp only [tasks, interrupt, List.map_map]
  refine List.map_congr_left fun w _ => ?_
  simp only [Function.comp_apply]
  split_ifs <;> rfl

/-- A task that resumes leaves the line; the others keep their places. -/
theorem resume_tasks (task : T) (thrown : Bool) (s t : Semaphore T) (got : Bool)
    (h : s.resume task thrown = some (t, got)) :
    t.tasks = (s.waiters.eraseP fun w => w.task = task).map Waiter.task := by
  rw [resume] at h
  cases hf : s.waiters.find? fun w => w.task = task with
  | none => simp [hf] at h
  | some w =>
    simp only [hf] at h
    cases hw : w.fut with
    | pending => simp [hw] at h
    | cancelled =>
      simp only [hw, Option.some.injEq, Prod.mk.injEq] at h
      obtain ⟨rfl, -⟩ := h
      exact drain_tasks _ _
    | woken =>
      simp only [hw] at h
      split_ifs at h <;>
      · obtain ⟨rfl, -⟩ := Prod.mk.inj (Option.some.inj h)
        exact drain_tasks _ _

theorem mem_resume_tasks (task other : T) (thrown : Bool) (s t : Semaphore T) (got : Bool)
    (h : s.resume task thrown = some (t, got)) (hne : other ≠ task) (hmem : other ∈ s.tasks) :
    other ∈ t.tasks := by
  obtain ⟨w, hw, rfl⟩ := List.mem_map.mp hmem
  rw [resume_tasks task thrown s t got h]
  refine List.mem_map_of_mem ((List.mem_eraseP_of_neg ?_).mpr hw)
  simpa using hne

theorem interrupt_owned (task : T) (s : Semaphore T) : (s.interrupt task).owned = s.owned := by
  have h : ∀ ws : List (Waiter T),
      (ws.map fun w => if w.task = task ∧ w.fut = .pending then
        ({ w with fut := .cancelled } : Waiter T) else w).countP (fun w => w.fut == .woken) =
      ws.countP (fun w => w.fut == .woken) := by
    intro ws
    induction ws with
    | nil => rfl
    | cons w ws ih =>
      rw [List.map_cons, List.countP_cons, List.countP_cons, ih]
      split_ifs with hw <;> simp_all
  simp only [owned, handed, interrupt, h]

/-- Resuming takes a permit out exactly when it reports one as acquired. -/
theorem resume_owned (task : T) (thrown : Bool) (s t : Semaphore T) (got : Bool)
    (h : s.resume task thrown = some (t, got)) :
    t.owned+(if got then 1 else 0) = s.owned ∧ t.bound = s.bound := by
  rw [resume] at h
  cases hf : s.waiters.find? fun w => w.task = task with
  | none => simp [hf] at h
  | some w =>
    have hc := find_erase_counts _ (fun w => w.fut == .woken) s.waiters w hf
    simp only [hf] at h
    cases hw : w.fut with
    | pending => simp [hw] at h
    | cancelled =>
      simp only [hw, Option.some.injEq, Prod.mk.injEq] at h
      obtain ⟨rfl, rfl⟩ := h
      refine ⟨?_, wakeAll_bound _⟩
      rw [wakeAll_owned]
      simp [owned, handed, ← hc, hw]
    | woken =>
      rw [if_pos (by simp [hw])] at hc
      simp only [hw] at h
      split_ifs at h with ht
      · obtain ⟨rfl, rfl⟩ := Prod.mk.inj (Option.some.inj h)
        refine ⟨?_, wakeAll_bound _⟩
        rw [wakeAll_owned]
        simp only [owned, handed, ← hc, Bool.false_eq_true, if_false]
        omega
      · obtain ⟨rfl, rfl⟩ := Prod.mk.inj (Option.some.inj h)
        refine ⟨?_, wakeAll_bound _⟩
        rw [wakeAll_owned]
        simp only [owned, handed, ← hc, if_true]
        omega

end Tasks

end Semaphore

end Library.SlotSemaphore
