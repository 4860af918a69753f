import SourceAudit.Proofs.Run.Prefix

/-!
# What a crew comes to

Every turn of a worker leaves its chunk as it is, and as long as no failure raises the flag what it
has called and what it will still call make up what it calls alone.

    Steady crew → CrewStep job failFast crew crew' → Steady crew'          (steady_of_crewStep)
    a crew at its end, none of whose tasks raises the flag, has called in every chunk the tasks
      up to the first that dies                                      (eq_map_ended_of_turns)
    Runs options jobs (runJobs options jobs)                                  (runs_runJobs)
-/

namespace SourceAudit

open Relation

variable {job : Job} {failFast : Bool}

/-! ## Crews that nothing stops -/

/-- The worker of a chunk at its end, if no flag stops it. -/
def Worker.ended (chunk : List Task) : Worker := ⟨chunk, takeThrough Task.dies chunk, []⟩

/-- What a worker has called and what it has still to call, if no flag stops it. -/
def Worker.Steady (w : Worker) : Prop :=
  w.called ++ takeThrough Task.dies w.todo = takeThrough Task.dies w.chunk

/-- No task of a crew can raise the flag. -/
def Quiet (job : Job) (failFast : Bool) (crew : List Worker) : Prop :=
  ∀ w ∈ crew, ∀ task ∈ w.chunk, (failFast && job.fails task) = false

theorem Worker.Steady.subset {w : Worker} (h : w.Steady) : w.called ⊆ w.chunk := by
  intro task ht
  apply (isPrefix_takeThrough (p := Task.dies) w.chunk).subset
  rw [← h]
  exact List.mem_append_left _ ht

theorem raised_eq_false {crew : List Worker} (hq : Quiet job failFast crew)
    (hs : ∀ w ∈ crew, w.Steady) {w : Worker} (hw : w ∈ crew) : w.raised job failFast = false := by
  cases failFast with
  | false => rfl
  | true =>
    simp only [Worker.raised, Bool.true_and, List.any_eq_false, Bool.not_eq_true]
    intro task ht
    simpa using hq w hw task ((hs w hw).subset ht)

theorem map_chunk_of_crewStep {crew crew' : List Worker} (h : CrewStep job failFast crew crew') :
    crew'.map Worker.chunk = crew.map Worker.chunk := by
  cases h <;> simp [Worker.call, Worker.halt]

theorem Worker.Steady.call {w : Worker} {task : Task} {rest : List Task} (h : w.Steady)
    (hw : w.todo = task :: rest) : (w.call task rest).Steady := by
  unfold Worker.Steady at h ⊢
  rw [hw, takeThrough] at h
  cases hd : task.dies <;> simpa [Worker.call, hd, takeThrough] using h

theorem steady_of_crewStep {crew crew' : List Worker} (hq : Quiet job failFast crew)
    (hs : ∀ w ∈ crew, w.Steady) (h : CrewStep job failFast crew crew') :
    ∀ w ∈ crew', w.Steady := by
  cases h with
  | @call before after w task rest next lowered =>
    intro v hv
    rcases List.mem_append.1 hv with hv | hv
    · exact hs v (List.mem_append_left _ hv)
    · rcases List.mem_cons.1 hv with rfl | hv
      · exact (hs w (by simp)).call next
      · exact hs v (by simp [hv])
  | @halt before after w more up =>
    obtain ⟨v, hv, hr⟩ := List.any_eq_true.1 up
    rw [raised_eq_false hq hs hv] at hr
    cases hr

theorem quiet_of_map_chunk {crew crew' : List Worker} (hq : Quiet job failFast crew)
    (h : crew'.map Worker.chunk = crew.map Worker.chunk) : Quiet job failFast crew' := by
  intro w hw task ht
  have hmem : w.chunk ∈ crew.map Worker.chunk := by
    rw [← h]
    exact List.mem_map_of_mem hw
  obtain ⟨v, hv, hc⟩ := List.mem_map.1 hmem
  exact hq v hv task (by rwa [hc])

/-- Nothing that a crew does while the flag is down depends on the order of its turns. -/
theorem steady_of_turns {crew crew' : List Worker} (hq : Quiet job failFast crew)
    (hs : ∀ w ∈ crew, w.Steady) (h : ReflTransGen (CrewStep job failFast) crew crew') :
    crew'.map Worker.chunk = crew.map Worker.chunk ∧ ∀ w ∈ crew', w.Steady := by
  induction h with
  | refl => exact ⟨rfl, hs⟩
  | tail _ step ih =>
    refine ⟨(map_chunk_of_crewStep step).trans ih.1, ?_⟩
    exact steady_of_crewStep (quiet_of_map_chunk hq ih.1) ih.2 step

theorem eq_map_ended_of_turns {pieces : List (List Task)} {crew : List Worker}
    (hq : ∀ chunk ∈ pieces, ∀ task ∈ chunk, (failFast && job.fails task) = false)
    (h : ReflTransGen (CrewStep job failFast) (pieces.map Worker.start) crew)
    (hdone : ∀ w ∈ crew, w.todo = []) : crew = pieces.map Worker.ended := by
  have hquiet : Quiet job failFast (pieces.map Worker.start) := by
    intro w hw task ht
    obtain ⟨chunk, hc, rfl⟩ := List.mem_map.1 hw
    exact hq chunk hc task ht
  have hsteady : ∀ w ∈ pieces.map Worker.start, w.Steady := by
    intro w hw
    obtain ⟨chunk, -, rfl⟩ := List.mem_map.1 hw
    rfl
  obtain ⟨hchunks, hs⟩ := steady_of_turns hquiet hsteady h
  have hpieces : crew.map Worker.chunk = pieces := by
    rw [hchunks, List.map_map]
    exact List.map_id _
  rw [← hpieces, List.map_map]
  conv => lhs; rw [← List.map_id crew]
  apply List.map_congr_left
  rintro ⟨chunk, called, todo⟩ hw
  have hend := hs _ hw
  have htodo : todo = [] := hdone _ hw
  subst htodo
  simp only [Worker.Steady, takeThrough, List.append_nil] at hend
  simp [Worker.ended, hend]

/-! ## The crew whose workers take their turns one after the other -/

/-- The crew at its end. `stopped` says whether the flag is up before the first turn. -/
def Job.crewInTurn (job : Job) (failFast : Bool) : Bool → List (List Task) → List Worker
  | _, [] => []
  | stopped, chunk :: rest =>
    let w : Worker := ⟨chunk, if stopped then [] else takeThrough (job.ends failFast) chunk, []⟩
    w :: crewInTurn job failFast (stopped || w.raised job failFast) rest

theorem todo_of_mem_crewInTurn {stopped : Bool} {pieces : List (List Task)} {w : Worker}
    (h : w ∈ job.crewInTurn failFast stopped pieces) : w.todo = [] := by
  induction pieces generalizing stopped with
  | nil => cases h
  | cons chunk rest ih =>
    rcases List.mem_cons.1 h with rfl | h
    · rfl
    · exact ih h

theorem runChunks_eq (stopped : Bool) (pieces : List (List Task)) :
    job.runChunks failFast stopped pieces =
      { crewLog job failFast (job.crewInTurn failFast stopped pieces) with
        stopped := stopped || (job.crewInTurn failFast stopped pieces).any (·.raised job failFast) }
    := by
  induction pieces generalizing stopped with
  | nil => simp [Job.runChunks, Job.crewInTurn, crewLog]
  | cons chunk rest ih =>
    cases stopped with
    | true =>
      simp [Job.runChunks, Job.runTasks_stopped, ih, Job.crewInTurn, crewLog, Worker.findings,
        Worker.raised]
    | false =>
      simp only [Job.runChunks, Job.runTasks_eq, ih, Job.crewInTurn, crewLog, Worker.findings,
        Worker.raised, Job.threadLog, Bool.false_or, Bool.false_eq_true, if_false,
        List.flatMap_cons, List.any_cons]

/-- The turns of one worker, up to its end. -/
theorem turns_of_worker {before after : List Worker} {chunk called tasks : List Task}
    (hc : (failFast && called.any job.fails) = false) :
    ReflTransGen (CrewStep job failFast) (before ++ ⟨chunk, called, tasks⟩ :: after)
      (before ++ ⟨chunk, called ++ takeThrough (job.ends failFast) tasks, []⟩ :: after) := by
  induction tasks generalizing called with
  | nil => simpa [takeThrough] using ReflTransGen.refl
  | cons task rest ih =>
    refine ReflTransGen.head (CrewStep.call rfl hc) ?_
    rw [takeThrough]
    cases hd : task.dies with
    | true => simpa [Worker.call, hd, Job.ends] using ReflTransGen.refl
    | false =>
      cases hf : failFast && job.fails task with
      | false =>
        have hcalled : (failFast && (called ++ [task]).any job.fails) = false := by
          rw [List.any_append, Bool.and_or_distrib_left, hc]
          simpa using hf
        simpa [Worker.call, hd, Job.ends, hf] using ih hcalled
      | true =>
        simp only [Worker.call, hd, Job.ends, hf, Bool.or_true, if_true, Bool.false_eq_true,
          if_false]
        by_cases hr : rest = []
        · subst hr
          exact ReflTransGen.refl
        · refine ReflTransGen.single (CrewStep.halt hr ?_)
          have hup : (failFast && (called ++ [task]).any job.fails) = true := by
            rw [List.any_append, Bool.and_or_distrib_left, hc]
            simpa using hf
          exact List.any_eq_true.2 ⟨⟨chunk, called ++ [task], rest⟩, by simp, hup⟩

theorem halt_of_worker {before after : List Worker} {chunk : List Task}
    (hb : before.any (·.raised job failFast) = true) :
    ReflTransGen (CrewStep job failFast) (before ++ Worker.start chunk :: after)
      (before ++ ⟨chunk, [], []⟩ :: after) := by
  by_cases hc : chunk = []
  · subst hc
    exact ReflTransGen.refl
  · refine ReflTransGen.single (CrewStep.halt hc ?_)
    rw [List.any_append, hb]
    rfl

theorem turns_of_crewInTurn (before : List Worker) (pieces : List (List Task)) :
    ReflTransGen (CrewStep job failFast) (before ++ pieces.map Worker.start)
      (before ++ job.crewInTurn failFast (before.any (·.raised job failFast)) pieces) := by
  induction pieces generalizing before with
  | nil => exact ReflTransGen.refl
  | cons chunk rest ih =>
    -- the worker of the first chunk joins those that have ended
    have hfirst : ∀ w : Worker, ReflTransGen (CrewStep job failFast)
        (before ++ w :: rest.map Worker.start)
        (before ++ w :: job.crewInTurn failFast
          (before.any (·.raised job failFast) || w.raised job failFast) rest) := by
      intro w
      simpa [List.any_append] using ih (before ++ [w])
    rw [Job.crewInTurn, List.map_cons]
    refine ReflTransGen.trans ?_ (hfirst _)
    cases hb : before.any (·.raised job failFast) with
    | true => exact halt_of_worker hb
    | false => exact turns_of_worker (by simp)

/-- The run that is computed is one that can happen. -/
theorem Job.runs_run (options : RunOptions) : job.Runs options (job.run options) := by
  by_cases h : job.tasks = [] ∨ options.usesWorkers = false
  · exact Job.Runs.alone h
  · rw [not_or, Bool.not_eq_false] at h
    have hturns : ReflTransGen (CrewStep job options.failFast) (options.crew job.tasks)
        (job.crewInTurn options.failFast false
          (chunks (chunkSize job.tasks.length options.workers) job.tasks)) :=
      turns_of_crewInTurn [] _
    have hrun := Job.Runs.workers h.1 h.2 hturns fun w hw => todo_of_mem_crewInTurn hw
    have hne : job.tasks.isEmpty = false := by simpa using h.1
    rw [Job.run, hne, h.2, runChunks_eq]
    exact hrun

theorem runs_runJobs (options : RunOptions) (jobs : List Job) :
    Runs options jobs (runJobs options jobs) := by
  induction jobs with
  | nil => exact Runs.nil
  | cons job rest ih =>
    rw [runJobs]
    split
    · next h => exact Runs.last (Job.runs_run options) h
    · next h => exact Runs.cons (Job.runs_run options) (by simpa using h) ih

end SourceAudit
