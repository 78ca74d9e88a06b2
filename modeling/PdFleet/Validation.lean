import PdFleet.FleetPlan
import PdFleet.Lib.Dict
import PdFleet.Lib.Sha256
import PdFleet.Lib.Search

/-!
# Validation and readiness of plans

The checks of a plan with the texts of their errors, and the tasks that are ready
once a plan is valid. A wave is a barrier: its tasks wait for the tasks of earlier
waves.
-/

set_option autoImplicit false

namespace PdFleet

/-! ## Rendering -/

def hexEscape (n : ℕ) : List Char :=
  let digits := (Nat.digits 16 n).reverse.map Sha256.hexDigit
  ['\\','x']++List.replicate (2-digits.length) '0'++digits

/-- `safe_text`, of a text. -/
def safeText (text : String) : List Char :=
  text.toList.flatMap (fun c =>
    if 32 ≤ c.toNat ∧ c.toNat < 127 ∨ c = '\n' ∨ c = '\t' then [c] else hexEscape c.toNat)

/-- `safe_repr`, of a text. -/
def safeRepr (text : String) : String :=
  "'" ++ String.ofList ((safeText text).take 128) ++ "'"

/-! ## Order and lookup -/

def sortTexts (l : List String) : List String := l.insertionSort (· ≤ ·)

/-- `sorted(set(l))`. -/
def sortedSet (l : List String) : List String := sortTexts l.dedup

section

variable {W : Type}

def sortTasks (tasks : List (TaskSpec W)) : List (TaskSpec W) :=
  tasks.insertionSort (fun a b => a.id ≤ b.id)

/-- `{task.id: task for task in plan.tasks}`. -/
def byId (plan : FleetPlan W) : Dict String (TaskSpec W) :=
  plan.tasks.foldl (fun d t => d.insert t.id t) ∅

def dependsOn (tasks : Dict String (TaskSpec W)) (id : String) : List String :=
  (tasks.lookup id).elim [] TaskSpec.dependsOn

/-! ## Dependencies -/

def missingErrors (plan : FleetPlan W) : List String :=
  (sortTasks plan.tasks).flatMap (fun t =>
    ((sortedSet t.dependsOn).filter (fun dep => dep ∉ byId plan)).map (fun dep =>
      "task " ++ t.id ++ ": dependência inexistente " ++ safeRepr dep ++ "; crie-a ou remova-a"))

/-- The dependencies that `visit` goes through. -/
def knownDeps (plan : FleetPlan W) (id : String) : List String :=
  (sortTexts (dependsOn (byId plan) id)).filter (· ∈ byId plan)

def visitAll (plan : FleetPlan W) : Search.Visit String :=
  (sortTexts (byId plan).keys).foldl
    (Search.enter (Search.visit (knownDeps plan) ((byId plan).size+1))) Search.unvisited

/-- The least rotation of the cycle that an edge back to `dep` closes. -/
def cycleOf (stack : List String) (dep : String) : List String :=
  let cycle := stack.drop (stack.idxOf dep)++[dep]
  let rotations := (List.range (cycle.length-1)).map (fun i =>
    (cycle.drop i).dropLast++cycle.take i++(cycle.drop i).take 1)
  rotations.foldl (fun least r => if r < least then r else least) cycle

def cycleErrors (plan : FleetPlan W) : List String :=
  ((visitAll plan).back.map (fun e => cycleOf e.1 e.2)).dedup.map
    (fun cycle => "ciclo no DAG: " ++ " -> ".intercalate cycle)

def validateDag (plan : FleetPlan W) : List String :=
  sortTexts (missingErrors plan++cycleErrors plan)

/-! ## Gates and contracts -/

def validateWaveGates (plan : FleetPlan W) : List String :=
  sortTexts ((plan.waves.insertionSort (fun a b => a.id ≤ b.id)).flatMap (fun wave =>
    ((sortedSet wave.gates).filter (· ∉ plan.gates.map GateSpec.id)).map (fun gate =>
      "wave " ++ wave.id ++ ": gate inexistente " ++ safeRepr gate ++
        "; adicione-o a FleetPlan.gates ou remova-o de wave.gates")))

def validateTaskContract (T : Tables) (t : TaskSpec W) : List String :=
  let blank := fun s : String => strip T s.toList = []
  (if blank t.id then ["task sem id: informe um identificador não vazio"] else [])++
  (if blank t.role then ["task " ++ t.id ++ ": role obrigatório"] else [])++
  (if blank t.objective then ["task " ++ t.id ++ ": objective obrigatório"] else [])++
  (if t.acceptanceCriteria = [] then
    ["task " ++ t.id ++ ": contrato incompleto; informe acceptance_criteria"] else [])++
  (if t.outputs = [] then ["task " ++ t.id ++ ": contrato incompleto; informe outputs"] else [])++
  (if t.validationCommands = [] then
    ["task " ++ t.id ++ ": contrato incompleto; informe validation_commands"] else [])

/-! ## Ownership -/

/-- `_path_overlap`. -/
def pathOverlap (left right : String) : Bool :=
  let a := stripChar '/' left.toList
  let b := stripChar '/' right.toList
  a = b || (b++['/']).isPrefixOf a || (a++['/']).isPrefixOf b

/-- The ids that a search over dependencies can come to. -/
def graphNodes (plan : FleetPlan W) : List String :=
  (byId plan).keys++(byId plan).keys.flatMap (dependsOn (byId plan))

def reaches (plan : FleetPlan W) (start target : String) : Bool :=
  (Search.reaches (dependsOn (byId plan)) target ((graphNodes plan).length+1) start []).1

/-- `_parallel`. -/
def parallel [Label W] (plan : FleetPlan W) (a b : TaskSpec W) : Bool :=
  Label.same a.wave b.wave && !reaches plan a.id b.id && !reaches plan b.id a.id

def forbiddenErrors (t : TaskSpec W) : List String :=
  (sortedSet t.allowedPaths).flatMap (fun a =>
    ((sortedSet t.forbiddenPaths).filter (pathOverlap a)).map (fun f =>
      "task " ++ t.id ++ ": allowed_path " ++ safeRepr a ++ " conflita com forbidden_path " ++
        safeRepr f ++ "; ajuste um dos paths"))

def pairErrors (left right : TaskSpec W) : List String :=
  (sortedSet left.allowedPaths).flatMap (fun a =>
    ((sortedSet right.allowedPaths).filter (pathOverlap a)).map (fun b =>
      "ownership conflitante: tasks " ++ left.id ++ " e " ++ right.id ++
        " podem rodar em paralelo e sobrepõem " ++ safeRepr a ++ "/" ++ safeRepr b ++
        "; serialize ou separe os paths"))

def parallelErrors [Label W] (plan : FleetPlan W) : List (TaskSpec W) → List String
  | [] => []
  | left :: rest =>
    rest.flatMap (fun right => if parallel plan left right then pairErrors left right else [])++
      parallelErrors plan rest

def validateOwnership [Label W] (plan : FleetPlan W) : List String :=
  sortTexts ((sortTasks plan.tasks).flatMap forbiddenErrors++
    parallelErrors plan (sortTasks plan.tasks))

/-- `validate_plan`: the ids of the tasks, or the errors of the plan. -/
def validatePlan (T : Tables) [Label W] (plan : FleetPlan W) :
    Except (List String) (List String) :=
  let errors := validateDag plan++validateWaveGates plan++
    (sortTasks plan.tasks).flatMap (validateTaskContract T)++validateOwnership plan
  if errors = [] then .ok (sortTexts (plan.tasks.map TaskSpec.id)) else .error (sortedSet errors)

/-! ## Waves -/

/-- What `canonical_wave_id` makes of a label: `wave-` with a number or with a name. -/
inductive WaveId where
  | number (n : ℤ)
  | name (s : List Char)
  deriving DecidableEq, Repr

def waveText (T : Tables) (label : List Char) : List Char :=
  removePrefix "wave-".toList (T.lower (strip T label))

def canonicalWaveId (T : Tables) (label : List Char) : WaveId :=
  match intText T (waveText T label) with
  | some n => .number n
  | none => .name (waveText T label)

/-- The order of `wave_key`: numbers before names. -/
def WaveId.before : WaveId → WaveId → Bool
  | number m, number n => m < n
  | number _, name _ => true
  | name _, number _ => false
  | name s, name t => s < t

def TaskSpec.waveId (T : Tables) [Label W] (t : TaskSpec W) : WaveId :=
  canonicalWaveId T (Label.text t.wave)

/-! ## Readiness -/

def requiredGates (T : Tables) [Label W] (plan : FleetPlan W) (t : TaskSpec W) : List String :=
  (plan.waves.filter (fun wave => canonicalWaveId T wave.id.toList = t.waveId T)).flatMap
    WaveSpec.gates

/-- The tasks that are done or that the plan calls completed or skipped. -/
def terminalIds (plan : FleetPlan W) (done : List String) : List String :=
  done++(plan.tasks.filter (fun t => t.status = "completed" ∨ t.status = "skipped")).map
    TaskSpec.id

def isReady (T : Tables) [Label W] (plan : FleetPlan W) (done passed : List String)
    (t : TaskSpec W) : Bool :=
  (t.status = "pending" ∨ t.status = "ready") &&
    t.dependsOn.all (· ∈ terminalIds plan done) &&
    plan.tasks.all (fun other =>
      (other.waveId T).before (t.waveId T) → other.id ∈ terminalIds plan done) &&
    (requiredGates T plan t).all (· ∈ passed)

/-- `compute_ready_tasks`. -/
def computeReadyTasks (T : Tables) [Label W] (plan : FleetPlan W)
    (completed skipped gatesPassed : List String) : Except (List String) (List String) := do
  let _ ← validatePlan T plan
  return ((sortTasks plan.tasks).filter (isReady T plan (completed++skipped) gatesPassed)).map
    TaskSpec.id

end

end PdFleet
