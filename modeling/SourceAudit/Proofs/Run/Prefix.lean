import SourceAudit.Run.Schedule

/-!
# A thread runs a prefix of its tasks

A thread calls its tasks in order up to the first that ends it: one that takes the thread with it,
or under fail-fast one that fails. `takeThrough p l` is the part of a list up to and including its
first element with `p`.

    job.runTasks failFast false tasks =
      job.threadLog failFast (takeThrough (job.ends failFast) tasks)              (runTasks_eq)
-/

namespace SourceAudit

/-! ## Cutting a list behind an element -/

/-- The part of a list up to the first element with `p`, that element included. -/
def takeThrough {α : Type} (p : α → Bool) : List α → List α
  | [] => []
  | x :: rest => if p x then [x] else x :: takeThrough p rest

section takeThrough

variable {α β : Type} {p : α → Bool}

theorem takeThrough_eq_self {l : List α} (h : ∀ x ∈ l, p x = false) : takeThrough p l = l := by
  induction l with
  | nil => rfl
  | cons x rest ih =>
    rw [takeThrough, h x List.mem_cons_self, ih fun y hy => h y (List.mem_cons_of_mem x hy)]
    rfl

theorem takeThrough_congr {q : α → Bool} {l : List α} (h : ∀ x ∈ l, p x = q x) :
    takeThrough p l = takeThrough q l := by
  induction l with
  | nil => rfl
  | cons x rest ih =>
    rw [takeThrough, takeThrough, h x List.mem_cons_self,
      ih fun y hy => h y (List.mem_cons_of_mem x hy)]

theorem isPrefix_takeThrough (l : List α) : takeThrough p l <+: l := by
  induction l with
  | nil => exact List.prefix_rfl
  | cons x rest ih =>
    rw [takeThrough]
    split
    · exact ⟨rest, rfl⟩
    · exact (List.prefix_cons_inj x).2 ih

theorem any_takeThrough (l : List α) : (takeThrough p l).any p = l.any p := by
  induction l with
  | nil => rfl
  | cons x rest ih =>
    rw [takeThrough]
    cases hx : p x <;> simp [hx, ih]

theorem takeThrough_append (l m : List α) :
    takeThrough p (l ++ m) = if l.any p then takeThrough p l else l ++ takeThrough p m := by
  induction l with
  | nil => rfl
  | cons x rest ih =>
    rw [List.cons_append, takeThrough, takeThrough, ih]
    cases hx : p x
    · cases hr : rest.any p <;> simp [hx, hr]
    · simp [hx]

theorem map_takeThrough (f : β → α) (l : List β) :
    (takeThrough (fun x => p (f x)) l).map f = takeThrough p (l.map f) := by
  induction l with
  | nil => rfl
  | cons x rest ih =>
    rw [takeThrough, List.map_cons, takeThrough]
    split
    · rfl
    · rw [List.map_cons, ih]

end takeThrough

/-! ## One thread -/

namespace Job

/-- Is a task the last of its thread? -/
def ends (job : Job) (failFast : Bool) (task : Task) : Bool :=
  task.dies || (failFast && job.fails task)

/-- The log of a thread that has called these tasks. -/
def threadLog (job : Job) (failFast : Bool) (called : List Task) : RunLog where
  findings := called.filterMap job.finding?
  called := called
  stopped := failFast && called.any job.fails
  died := called.any Task.dies

variable {job : Job} {failFast : Bool}

theorem runTasks_stopped (tasks : List Task) :
    job.runTasks failFast true tasks = ⟨[], [], true, false⟩ := by
  cases tasks <;> rfl

theorem finding?_eq_none_iff {task : Task} : job.finding? task = none ↔ task.dies = true := by
  cases h : task.attempt <;> simp [finding?, Task.dies, h]

theorem runTasks_eq (tasks : List Task) :
    job.runTasks failFast false tasks =
      job.threadLog failFast (takeThrough (job.ends failFast) tasks) := by
  induction tasks with
  | nil => simp [runTasks, takeThrough, threadLog]
  | cons task rest ih =>
    rw [runTasks]
    cases hf : job.finding? task with
    | none =>
      have hd : task.dies = true := finding?_eq_none_iff.1 hf
      simp [takeThrough, ends, threadLog, fails, hf, hd]
    | some finding =>
      have hd : task.dies = false := by
        rw [← Bool.not_eq_true]
        intro hd
        rw [finding?_eq_none_iff.2 hd] at hf
        cases hf
      have hfail : job.fails task = finding.outcome.isFailure := by simp [fails, hf]
      have hends : job.ends failFast task = (failFast && finding.outcome.isFailure) := by
        rw [ends, hd, hfail, Bool.false_or]
      rw [takeThrough, hends]
      cases hstop : failFast && finding.outcome.isFailure with
      | true => simp [hstop, runTasks_stopped, threadLog, hf, hd, hfail]
      | false =>
        simp only [hstop, ih, threadLog, hf, hd, hfail, Bool.false_eq_true, if_false,
          List.filterMap_cons, List.any_cons, Bool.and_or_distrib_left, Bool.false_or]

end Job

end SourceAudit
