import SourceAudit.Proofs.Run.LostWorkers
import Mathlib.Data.Rat.Floor

/-!
# How tasks are shared out to workers

A worker's share is the number of tasks for each worker, rounded up. Cut into shares, the tasks make
no more chunks than there are workers: with one chunk more, the full ones before it would already
hold all the tasks. Every chunk but the last is a full share, none is empty, and no turn of a worker
changes any of this.

    job.share options = ⌈tasks / workers⌉                                         (share_eq_ceil)
    a crew of a job has one worker at least, and no more than were asked for or than there are
      tasks                                                          (workers_share_out_tasks)
-/

namespace SourceAudit

open Relation

/-! ## The rule -/

/-- The tasks are divided among the workers of a crew, in full shares but for the last one. -/
structure SharesOut (share : Nat) (tasks : List Task) (crew : List Worker) : Prop where
  nonempty : ∀ w ∈ crew, w.chunk ≠ []
  full : ∀ w ∈ crew.dropLast, w.chunk.length = share
  within : ∀ w ∈ crew, w.chunk.length ≤ share
  whole : crew.flatMap (·.chunk) = tasks

/-! ## The size of a share -/

variable {job : Job} {options : RunOptions}

theorem one_lt_workers (many : options.usesWorkers = true) : 1 < options.workers := by
  unfold RunOptions.usesWorkers at many
  simpa using (Bool.and_eq_true_iff.1 many).2

/-- The tasks fit into so many shares as there are workers, and into no smaller ones. -/
theorem chunkSize_le_iff {tasks workers size : Nat} (ht : 0 < tasks) (hw : 0 < workers) :
    chunkSize tasks workers ≤ size ↔ tasks ≤ size * workers := by
  have hdiv : (tasks + workers - 1) / workers ≤ size ↔ tasks ≤ size * workers := by
    rw [← Nat.lt_succ_iff, Nat.div_lt_iff_lt_mul hw, Nat.succ_mul]
    omega
  unfold chunkSize
  rw [Nat.max_le, hdiv]
  constructor
  · exact fun h => h.2
  · intro h
    refine ⟨?_, h⟩
    rcases Nat.eq_zero_or_pos size with rfl | hpos
    · omega
    · exact hpos

theorem Job.share_le_iff (hne : job.tasks ≠ []) (hw : 0 < options.workers) {size : Nat} :
    job.share options ≤ size ↔ job.tasks.length ≤ size * options.workers :=
  chunkSize_le_iff (List.length_pos_iff.2 hne) hw

theorem Job.share_eq_ceil (hne : job.tasks ≠ []) (hw : 0 < options.workers) :
    job.share options = ⌈(job.tasks.length / options.workers : ℚ)⌉₊ := by
  have hpos : (0 : ℚ) < options.workers := by exact_mod_cast hw
  refine eq_of_forall_ge_iff fun size => ?_
  rw [Job.share_le_iff hne hw, Nat.ceil_le, div_le_iff₀ hpos]
  norm_cast

theorem Job.share_le_length (hne : job.tasks ≠ []) (hw : 0 < options.workers) :
    job.share options ≤ job.tasks.length :=
  (Job.share_le_iff hne hw).2 (Nat.le_mul_of_pos_right _ hw)

/-! ## The chunks of a crew -/

theorem map_chunk_crew (job : Job) (options : RunOptions) :
    (options.crew job.tasks).map Worker.chunk = chunks (job.share options) job.tasks := by
  unfold RunOptions.crew
  rw [List.map_map]
  exact List.map_id _

theorem map_chunk_of_turns {failFast : Bool} {crew crew' : List Worker}
    (h : ReflTransGen (CrewStep job failFast) crew crew') :
    crew'.map Worker.chunk = crew.map Worker.chunk := by
  induction h with
  | refl => rfl
  | tail _ step ih => exact (map_chunk_of_crewStep step).trans ih

section

variable {crew : List Worker} (hcrew : crew.map Worker.chunk = chunks (job.share options) job.tasks)

include hcrew

theorem lt_length_crew_iff {k : Nat} :
    k < crew.length ↔ k * job.share options < job.tasks.length := by
  rw [← lt_length_chunks_iff (job.share_pos options), ← hcrew, List.length_map]

/-- The worker at a place has the tasks of its share, as far as there are any. -/
theorem chunk_of_getElem? {k : Nat} {w : Worker} (hk : crew[k]? = some w) :
    w.chunk = (job.tasks.drop (k * job.share options)).take (job.share options) := by
  have hlt : k * job.share options < job.tasks.length :=
    (lt_length_crew_iff hcrew).1 (List.getElem?_eq_some_iff.1 hk).1
  have hchunk : (crew.map Worker.chunk)[k]? = some w.chunk := by
    rw [List.getElem?_map, hk, Option.map_some]
  rw [hcrew, getElem?_chunks (job.share_pos options), if_pos hlt] at hchunk
  exact (Option.some.inj hchunk).symm

theorem sharesOut_of_map_chunk : SharesOut (job.share options) job.tasks crew := by
  have hpos : 0 < job.share options := job.share_pos options
  refine ⟨?_, ?_, ?_, ?_⟩
  · intro w hw
    obtain ⟨k, hk⟩ := List.mem_iff_getElem?.1 hw
    have hlt : k * job.share options < job.tasks.length :=
      (lt_length_crew_iff hcrew).1 (List.getElem?_eq_some_iff.1 hk).1
    rw [chunk_of_getElem? hcrew hk, ← List.length_pos_iff, List.length_take, List.length_drop]
    omega
  · intro w hw
    -- the place behind a worker that is not the last is taken too, so its share is full
    obtain ⟨k, hk⟩ := List.mem_iff_getElem?.1 hw
    have hlast : k < crew.length - 1 := by
      simpa using (List.getElem?_eq_some_iff.1 hk).1
    rw [List.dropLast_eq_take, List.getElem?_take_of_lt hlast] at hk
    have hlt : (k + 1) * job.share options < job.tasks.length :=
      (lt_length_crew_iff hcrew).1 (by omega)
    rw [Nat.succ_mul] at hlt
    rw [chunk_of_getElem? hcrew hk, List.length_take, List.length_drop]
    omega
  · intro w hw
    obtain ⟨k, hk⟩ := List.mem_iff_getElem?.1 hw
    rw [chunk_of_getElem? hcrew hk]
    exact List.length_take_le _ _
  · rw [List.flatMap_def, hcrew, flatten_chunks]

theorem length_crew_pos (hne : job.tasks ≠ []) : 1 ≤ crew.length := by
  have hlength : 0 < job.tasks.length := List.length_pos_iff.2 hne
  exact (lt_length_crew_iff hcrew).2 (by rwa [Nat.zero_mul])

theorem length_crew_le_length : crew.length ≤ job.tasks.length := by
  have hlength : job.tasks.length ≤ job.tasks.length * job.share options :=
    Nat.le_mul_of_pos_right _ (job.share_pos options)
  exact Nat.le_of_not_lt fun hlt =>
    Nat.not_lt.2 hlength ((lt_length_crew_iff hcrew).1 hlt)

/-- The shares of as many workers as were asked for hold all the tasks. -/
theorem length_crew_le_workers (hne : job.tasks ≠ []) (hw : 0 < options.workers) :
    crew.length ≤ options.workers := by
  have hall : job.tasks.length ≤ options.workers * job.share options := by
    rw [Nat.mul_comm]
    exact (Job.share_le_iff hne hw).1 (Nat.le_refl _)
  exact Nat.le_of_not_lt fun hlt => Nat.not_lt.2 hall ((lt_length_crew_iff hcrew).1 hlt)

end

/-! ## Top theorem -/

/-- Where the tasks of a job are run on workers, there is a worker to divide them by, a share is the
number of tasks for each worker, rounded up, and it is neither empty nor more than all the tasks.
What is run are the chunks of a crew, and at every turn the crew has no more workers than were asked
for and than there are tasks, and the tasks divided among them in full shares but for the last. -/
theorem workers_share_out_tasks (job : Job) (options : RunOptions) (hne : job.tasks ≠ [])
    (many : options.usesWorkers = true) :
    0 < options.workers ∧
      job.share options = ⌈(job.tasks.length / options.workers : ℚ)⌉₊ ∧
      1 ≤ job.share options ∧ job.share options ≤ job.tasks.length ∧
      (job.run options).findings = job.warningFindings ++
        (job.runChunks options.failFast false
          ((options.crew job.tasks).map Worker.chunk)).findings ∧
      ∀ crew, ReflTransGen (CrewStep job options.failFast) (options.crew job.tasks) crew →
        1 ≤ crew.length ∧ crew.length ≤ min job.tasks.length options.workers ∧
          SharesOut (job.share options) job.tasks crew := by
  have hw : 0 < options.workers := Nat.lt_of_succ_lt (one_lt_workers many)
  refine ⟨hw, Job.share_eq_ceil hne hw, job.share_pos options, Job.share_le_length hne hw, ?_, ?_⟩
  · have htasks : job.tasks.isEmpty = false := by simpa using hne
    rw [map_chunk_crew, Job.run, htasks, many]
    rfl
  · intro crew turns
    have hcrew : crew.map Worker.chunk = chunks (job.share options) job.tasks :=
      (map_chunk_of_turns turns).trans (map_chunk_crew job options)
    refine ⟨length_crew_pos hcrew hne, ?_, sharesOut_of_map_chunk hcrew⟩
    exact Nat.le_min.2 ⟨length_crew_le_length hcrew, length_crew_le_workers hcrew hne hw⟩

/-- Four workers share five tasks out: shares of two, and so one worker is not needed. -/
theorem workers_share_out_tasks_ragged :
    lossyJob.tasks ≠ [] ∧ RunOptions.usesWorkers ⟨true, true, 4⟩ = true ∧
      lossyJob.share ⟨true, true, 4⟩ = 2 ∧
      (RunOptions.crew ⟨true, true, 4⟩ lossyJob.tasks).map (·.chunk.length) = [2, 2, 1] ∧
      SharesOut 2 lossyJob.tasks (RunOptions.crew ⟨true, true, 4⟩ lossyJob.tasks) := by
  have hne : lossyJob.tasks ≠ [] := List.cons_ne_nil _ _
  have h := workers_share_out_tasks lossyJob ⟨true, true, 4⟩ hne rfl
  obtain ⟨-, -, -, -, -, hturns⟩ := h
  refine ⟨hne, rfl, rfl, ?_, (hturns _ ReflTransGen.refl).2.2⟩
  decide +kernel

end SourceAudit
