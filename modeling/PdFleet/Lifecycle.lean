import PdFleet.Json
import PdFleet.Orchestrator
import PdFleet.PlanText

/-!
# The life of a task

`TaskLifecycle`: the states of a task, the transitions between them, and what each operation
asks before it makes one.
-/

set_option autoImplicit false

namespace PdFleet

inductive LifecycleError where
  | transition
  | agent
  | completion
  | exhausted
  | reason
  | taskId
  | maxAttempts
  | state
  deriving DecidableEq, Repr

/-- `VALID_TRANSITIONS`. -/
def validTransitions : LifecycleState → List LifecycleState
  | .pending => [.ready, .skipped, .blocked]
  | .ready => [.running, .skipped, .blocked]
  | .running => [.completed, .failed, .blocked]
  | .failed => [.ready]
  | .blocked => []
  | .completed => []
  | .skipped => []

structure TaskLifecycle where
  taskId : String
  state : LifecycleState
  attempt : ℕ
  maxAttempts : ℕ
  agent : Option String
  outputs : Json
  evidence : Json
  reason : Option String
  error : Option String
  history : List (LifecycleState × LifecycleState × Option String)
  retryable : Bool

namespace TaskLifecycle

def transition (l : TaskLifecycle) (target : LifecycleState) (reason : Option String) :
    Except LifecycleError TaskLifecycle :=
  if target ∈ validTransitions l.state then
    .ok { l with
      state := target
      reason := reason.orElse (fun _ => l.reason)
      history := l.history ++ [(l.state,target,reason)] }
  else .error .transition

def markReady (l : TaskLifecycle) : Except LifecycleError TaskLifecycle := l.transition .ready none

def start (l : TaskLifecycle) (agent : String) : Except LifecycleError TaskLifecycle :=
  if agent = "" then .error .agent
  else match l.transition .running none with
    | .error e => .error e
    | .ok l => .ok { l with
        attempt := if l.attempt = 0 then 1 else l.attempt
        agent := some agent }

/-- `_has` is `Json.present`. -/
def complete (l : TaskLifecycle) (outputs evidence : Json) : Except LifecycleError TaskLifecycle :=
  if l.state = .completed then .ok l
  else if l.state ≠ .running then .error .transition
  else if !outputs.present || !evidence.present then .error .completion
  else transition { l with outputs := outputs, evidence := evidence } .completed none

def fail (l : TaskLifecycle) (error : String) (retryable : Bool) :
    Except LifecycleError TaskLifecycle :=
  if l.state ≠ .running then .error .transition
  else transition { l with error := some error, retryable := retryable } .failed (some error)

def retry (l : TaskLifecycle) : Except LifecycleError TaskLifecycle :=
  if l.state ≠ .failed then .error .transition
  else if l.maxAttempts ≤ l.attempt then .error .exhausted
  else if !l.retryable then .error .exhausted
  else transition { l with attempt := l.attempt+1, error := none } .ready (some "explicit_retry")

def block (l : TaskLifecycle) (reason : String) : Except LifecycleError TaskLifecycle :=
  if Contracts.isBlank reason.toList then .error .reason else l.transition .blocked (some reason)

/-! ## What the operations do -/

section

variable {l l' : TaskLifecycle}

theorem transition_ok {target : LifecycleState} {reason : Option String}
    (h : l.transition target reason = .ok l') :
    target ∈ validTransitions l.state ∧ l'.state = target ∧ l'.attempt = l.attempt ∧
      l'.maxAttempts = l.maxAttempts ∧ l'.retryable = l.retryable := by
  rw [transition] at h
  split_ifs at h with hmem
  cases h
  exact ⟨hmem,rfl,rfl,rfl,rfl⟩

theorem markReady_pending (h : l.state = .pending) : ∃ l', l.markReady = .ok l' ∧
    l'.state = .ready ∧ l'.attempt = l.attempt ∧ l'.maxAttempts = l.maxAttempts := by
  rw [markReady, transition, h, if_pos (by decide)]
  exact ⟨_,rfl,rfl,rfl,rfl⟩

theorem start_ready (h : l.state = .ready) {agent : String} (hagent : agent ≠ "") :
    ∃ l', l.start agent = .ok l' ∧ l'.state = .running ∧
      l'.attempt = (if l.attempt = 0 then 1 else l.attempt) ∧ l'.maxAttempts = l.maxAttempts := by
  rw [start, if_neg hagent, transition, h, if_pos (by decide)]
  exact ⟨_,rfl,rfl,rfl,rfl⟩

theorem complete_running (h : l.state = .running) {outputs evidence : Json}
    (ho : outputs.present = true) (he : evidence.present = true) :
    ∃ l', l.complete outputs evidence = .ok l' ∧ l'.state = .completed ∧ l'.attempt = l.attempt ∧
      l'.maxAttempts = l.maxAttempts := by
  rw [complete, h, if_neg (by decide), if_neg (by decide), ho, he, if_neg (by decide), transition,
    if_pos (by simp [validTransitions])]
  exact ⟨_,rfl,rfl,rfl,rfl⟩

theorem fail_running (h : l.state = .running) (error : String) (retryable : Bool) :
    ∃ l', l.fail error retryable = .ok l' ∧ l'.state = .failed ∧ l'.attempt = l.attempt ∧
      l'.maxAttempts = l.maxAttempts ∧ l'.retryable = retryable := by
  rw [fail, h, if_neg (by decide), transition, if_pos (by simp [validTransitions])]
  exact ⟨_,rfl,rfl,rfl,rfl,rfl⟩

theorem retry_failed (h : l.state = .failed) (hlt : l.attempt < l.maxAttempts)
    (hr : l.retryable = true) : ∃ l', l.retry = .ok l' ∧ l'.state = .ready ∧
      l'.attempt = l.attempt+1 ∧ l'.maxAttempts = l.maxAttempts := by
  rw [retry, h, if_neg (by decide), if_neg (not_le.mpr hlt), hr, if_neg (by decide), transition,
    if_pos (by simp [validTransitions])]
  exact ⟨_,rfl,rfl,rfl,rfl⟩

theorem block_open (h : l.state = .pending ∨ l.state = .ready) {reason : String}
    (hr : Contracts.isBlank reason.toList = false) : ∃ l', l.block reason = .ok l' ∧
      l'.state = .blocked ∧ l'.attempt = l.attempt ∧ l'.maxAttempts = l.maxAttempts := by
  have hmem : LifecycleState.blocked ∈ validTransitions l.state := by
    rcases h with h | h <;> rw [h] <;> decide
  rw [block, hr, if_neg (by decide), transition, if_pos hmem]
  exact ⟨_,rfl,rfl,rfl,rfl⟩

end

end TaskLifecycle

/-- `TaskLifecycle(...)`, of a task that has no checkpoint. -/
def newLifecycle (taskId status : String) (maxAttempts : ℕ) : Except LifecycleError TaskLifecycle :=
  match LifecycleState.ofText (if status = "running" then "ready" else status) with
  | none => .error .state
  | some state =>
    if taskId = "" then .error .taskId
    else if maxAttempts < 1 then .error .maxAttempts
    else .ok {
      taskId := taskId, state := state, attempt := 0, maxAttempts := maxAttempts, agent := none,
      outputs := .null, evidence := .null, reason := none, error := none, history := [],
      retryable := true }

theorem newLifecycle_pending {taskId : String} {maxAttempts : ℕ} {l : TaskLifecycle}
    (h : newLifecycle taskId "pending" maxAttempts = .ok l) :
    l.state = .pending ∧ l.attempt = 0 ∧ l.maxAttempts = maxAttempts ∧ 1 ≤ maxAttempts := by
  have hstate : LifecycleState.ofText (if "pending" = "running" then "ready" else "pending") =
      some .pending := by decide
  rw [newLifecycle, hstate] at h
  dsimp only at h
  split_ifs at h with hid hmax
  cases h
  exact ⟨rfl,rfl,rfl,by omega⟩

end PdFleet
