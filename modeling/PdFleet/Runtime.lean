import PdFleet.Json
import PdFleet.Text
import PdFleet.Lib.Format

/-!
# Runtime adapters

A named adapter fills the template of its runtime with the prompt of a task, and hands
the argument list to a sandbox runner. The request is what `execute` does up to its call
of `runner.run`; the runner itself is a given.
-/

set_option autoImplicit false

namespace PdFleet.Runtime

/-! ## Profiles, commands and tasks -/

mutual

/-- `==` of two values. -/
def same : Json → Json → Bool
  | .null, .null => true
  | .bool a, .bool b => a = b
  | .int m, .int n => m = n
  | .float r, .float r' => r = r'
  | .str s, .str t => s = t
  | .arr xs, .arr ys => sameItems xs ys
  | .obj o, .obj o' => o.length = o'.length && sameFields o o'
  | _, _ => false

def sameItems : List Json → List Json → Bool
  | [], [] => true
  | x :: xs, y :: ys => same x y && sameItems xs ys
  | _, _ => false

def sameFields : List (String × Json) → List (String × Json) → Bool
  | [], _ => true
  | (k,v) :: o, o' => (o'.lookup k).any (same v) && sameFields o o'

end

instance : BEq Json := ⟨same⟩

structure CommandMetadata where
  executable : String
  arguments : List String

structure RuntimePolicy where
  enabled : Bool
  allowNestedSubagents : Bool
  allowProviderNetwork : Bool
  allowedCapabilities : List String
  deriving BEq

inductive ReadinessStatus where
  | ready
  | notReady
  | blocked
  deriving DecidableEq

structure RuntimeProviderProfile where
  providerName : String
  runtimeName : String
  authRef : Option String
  capabilities : List String
  /-- The redacted view of the command. -/
  command : Option Json
  policy : RuntimePolicy
  metadata : Json
  deriving BEq

/-- `_derive_readiness`. -/
def RuntimeProviderProfile.readiness (p : RuntimeProviderProfile) : ReadinessStatus :=
  if !p.policy.enabled then .blocked
  else if p.providerName = "claude-code" && p.runtimeName = "claude-code" &&
      !p.policy.allowNestedSubagents then .blocked
  else if !p.capabilities.all (· ∈ p.policy.allowedCapabilities) then .blocked
  else if "provider_network" ∈ p.capabilities && !p.policy.allowProviderNetwork then .blocked
  else if p.authRef = none then .notReady
  else if p.command.isNone then .notReady
  else .ready

inductive RuntimeErrorCode where
  | invalidEnvelope
  | capabilityDenied
  | pathDenied
  | nestedAgentsDenied
  | runnerRequired
  | commandUnresolved
  | invalidTimeout
  deriving DecidableEq, Repr

inductive RuntimeError where
  | configuration (code : RuntimeErrorCode)
  | capability (code : RuntimeErrorCode)
  | runnerRequired
  /-- A `RuntimeFactoryError` with its code. -/
  | factory (code : String)
  /-- A `KeyError`, an `IndexError` or a `ValueError` of `str.format`. -/
  | format
  /-- Any other exception that a replacement field raises. -/
  | fieldRaises
  deriving DecidableEq, Repr

def refuse {α : Type} (code : RuntimeErrorCode) : Except RuntimeError α :=
  .error (.configuration code)

def require (b : Bool) (e : RuntimeError) : Except RuntimeError Unit :=
  if b then .ok () else .error e

structure RuntimeTaskEnvelope where
  taskId : String
  prompt : String
  providerProfile : RuntimeProviderProfile
  allowedPaths : List String
  capabilities : List String
  metadata : Obj

def allowedCapabilities : List String :=
  ["read","write","execute","network","provider_network","shell","nested_agents"]

def productionDenied : List String := ["shell","network"]

/-- What a task with provider egress must not be able to do. -/
def egressConflicts : List String := ["write","execute","shell","nested_agents"]

def isControl (c : Char) : Bool := c.toNat < 32 || c.toNat = 127

def slashed (path : List Char) : List Char := path.map (fun c => if c = '\\' then '/' else c)

/-- The checks of `_safe_paths` on one path. -/
def safePath (path : String) : Bool :=
  let t := path.toList
  let parts := (slashed t).splitOn '/'
  !(t.head?.any (· ∈ ['/','\\','~'])) &&
    !(t.head?.any (fun c => c.isUpper || c.isLower) && t.tail.head? = some ':') &&
    (parts.headD []) ∈ ["workspace","artifacts","inputs","outputs"].map String.toList &&
    "..".toList ∉ parts && !t.any isControl

def sorted (l : List String) : List String := l.dedup.insertionSort (· ≤ ·)

/-- `RuntimeTaskEnvelope.__post_init__`, of values of the declared types. -/
def RuntimeTaskEnvelope.make (taskId prompt : String) (profile : RuntimeProviderProfile)
    (allowedPaths capabilities : List String) (nestedAgents : Bool) (metadata : Obj) :
    Except RuntimeError RuntimeTaskEnvelope := do
  require (taskId ≠ "" && prompt ≠ "") (.configuration .invalidEnvelope)
  require (allowedPaths.all (· ≠ "")) (.configuration .invalidEnvelope)
  require (allowedPaths.all safePath) (.capability .pathDenied)
  require (capabilities.all (· ≠ "")) (.configuration .invalidEnvelope)
  require (capabilities.all (· ∈ allowedCapabilities)) (.capability .capabilityDenied)
  require (!capabilities.any (· ∈ productionDenied)) (.capability .capabilityDenied)
  require ("provider_network" ∉ capabilities || profile.policy.allowProviderNetwork &&
    !capabilities.any (· ∈ egressConflicts)) (.capability .capabilityDenied)
  require ("nested_agents" ∉ capabilities && !nestedAgents) (.capability .nestedAgentsDenied)
  require (capabilities.all (· ∈ profile.capabilities)) (.capability .capabilityDenied)
  require (capabilities.all (· ∈ profile.policy.allowedCapabilities))
    (.capability .capabilityDenied)
  return ⟨taskId,prompt,profile,sorted allowedPaths,sorted capabilities,metadata⟩

/-! ## Formatting -/

/-- What `str.format` asks of the platform: the decimal digits beyond ASCII, and what a
field with attributes, items, a conversion or a specification becomes. -/
structure Platform where
  decimal : Char → Bool
  rich : Obj → List Char → Except RuntimeError (List Char)

def isDecimal (P : Platform) (c : Char) : Bool := if c.toNat < 128 then c.isDigit else P.decimal c

/-- A replacement field over named values: a bare name stands for its value, and a
number for a positional argument, of which there is none. -/
def fieldText (P : Platform) (values : Obj) (source : List Char) :
    Except RuntimeError (List Char) :=
  if source.any (· ∈ ['.','[',':','!']) then P.rich values source
  else if source.all (isDecimal P) then .error .format
  else match values.field (String.ofList source) with
    | some (.str s) => .ok s.toList
    | some (.int n) => .ok (toString n).toList
    | _ => .error .format

/-- `part.format(**values)`. -/
def formatPart (P : Platform) (values : Obj) (part : String) : Except RuntimeError String := do
  let r ← Format.format .format (fieldText P values) part.toList
  return String.ofList r

/-! ## The template adapter -/

inductive Runner where
  | missing
  /-- A sandbox runner; `issued` tells that its capability is its own. -/
  | sandbox (issued : Bool) (network : Option Bool) (pathRoots : Option Obj)

/-- The arguments of `runner.run`. -/
structure Call where
  argv : List String
  cwd : String
  timeout : ℤ
  deriving DecidableEq, Repr

/-- What `execute` does: a denied result, or the call of the runner. -/
inductive Request where
  | denied (code : RuntimeErrorCode)
  | call (c : Call)
  deriving DecidableEq, Repr

/-- `_runtime_timeout`, in seconds. -/
def runtimeTimeout (metadata : Obj) : Except RuntimeError ℤ :=
  match metadata.field "timeout_seconds" with
  | none => .ok 10
  | some (.int n) => if 1 ≤ n ∧ n ≤ 120 then .ok n else refuse .invalidTimeout
  | some _ => refuse .invalidTimeout

structure TemplateRuntimeAdapter where
  name : String
  profile : RuntimeProviderProfile
  template : List String
  commandMetadata : Option CommandMetadata

def isScalar : Json → Bool
  | .str _ | .int _ => true
  | _ => false

/-- The values that an argument is formatted with; the metadata goes first. -/
def formatValues (env : RuntimeTaskEnvelope) : Obj :=
  env.metadata.filter (fun e => e.1 ≠ "timeout_seconds" && isScalar e.2)++
    [("prompt",.str env.prompt),("task_id",.str env.taskId)]

def isUnsafe (c : Char) : Bool := isControl c || c ∈ [';','&','|','<','>','$','`']

/-- `TemplateRuntimeAdapter.build_argv`. -/
def TemplateRuntimeAdapter.buildArgv (P : Platform) (a : TemplateRuntimeAdapter)
    (env : RuntimeTaskEnvelope) : Except RuntimeError (List String) := do
  require (env.providerProfile == a.profile) (.configuration .invalidEnvelope)
  match a.template.mapM (formatPart P (formatValues env)) with
  | .error .format => refuse .invalidEnvelope
  | .error e => .error e
  | .ok argv =>
    if argv = [] ∨ argv.any (fun item => item.toList.any isUnsafe) then refuse .invalidEnvelope
    else return argv

/-- `_trusted_command`. -/
def TemplateRuntimeAdapter.trustedCommand (a : TemplateRuntimeAdapter) :
    Except RuntimeError (Option CommandMetadata) :=
  match a.commandMetadata with
  | none => .ok none
  | some command =>
    if String.ofList (a.name.toList.takeWhile (· ≠ '/')) ≠ a.profile.providerName ∧
        a.name ≠ a.profile.runtimeName then refuse .commandUnresolved
    else .ok (some command)

/-- The first part of a path under either separator. -/
def pathNamespace (path : String) : String :=
  String.ofList ((slashed path.toList).takeWhile (· ≠ '/'))

/-- The root of the one namespace that all paths share. -/
def workingDir (paths : List String) (pathRoots : Option Obj) : Option String :=
  match paths, pathRoots with
  | path :: rest, some roots =>
    if rest.all (fun p => pathNamespace p = pathNamespace path) then
      match roots.field (pathNamespace path) with
      | some (.str cwd) => if cwd = "" then none else some cwd
      | _ => none
    else none
  | _, _ => none

/-- `TemplateRuntimeAdapter.execute`, up to the call of the runner. -/
def TemplateRuntimeAdapter.execute (P : Platform) (a : TemplateRuntimeAdapter)
    (env : RuntimeTaskEnvelope) (runner : Runner) : Except RuntimeError Request := do
  require (env.providerProfile == a.profile) (.configuration .invalidEnvelope)
  let timeout ← runtimeTimeout env.metadata
  require (!env.capabilities.any (· ∈ productionDenied)) (.capability .capabilityDenied)
  let egress := decide ("provider_network" ∈ env.capabilities)
  if egress && !a.profile.policy.allowProviderNetwork then return .denied .capabilityDenied
  else
    require (!(egress && env.capabilities.any (· ∈ egressConflicts)))
      (.capability .capabilityDenied)
    if a.profile.readiness ≠ .ready then return .denied .capabilityDenied
    else match runner with
      | .missing | .sandbox false _ _ => .error .runnerRequired
      | .sandbox true network pathRoots =>
        if network ≠ some egress then return .denied .capabilityDenied
        else
          let argv ← a.buildArgv P env
          let command ← a.trustedCommand
          match command, workingDir env.allowedPaths pathRoots with
          | none, _ => return .denied .commandUnresolved
          | some command, cwd =>
            if command.executable.toList.head? ≠ some '/' || '\x00' ∈ command.executable.toList
            then return .denied .commandUnresolved
            else match cwd with
              | none => return .denied .pathDenied
              | some cwd => return .call ⟨command.executable :: argv.tail,cwd,timeout⟩

/-! ## Named adapters -/

/-- `_TEMPLATES`. -/
def templates : List (String × List String) :=
  [("openai-codex",["hermes","chat","-q","\x7bprompt\x7d","--provider","openai-codex","--model",
      "\x7bmodel\x7d","-Q","--safe-mode","--ignore-rules","--max-turns","1"]),
    ("codex-cli",["codex","exec","--json","--ephemeral","--sandbox","read-only",
      "--skip-git-repo-check","\x7bprompt\x7d"]),
    ("opencode-go",["opencode","run","--format","json","--pure","\x7bprompt\x7d"]),
    ("claude-code",["claude","-p","\x7bprompt\x7d","--output-format","json",
      "--no-session-persistence","--tools=","--max-budget-usd","0.10"])]

def runtimeProviders : List (String × String) :=
  [("openai-codex","hermes"),("codex-cli","codex-cli"),("opencode-go","opencode"),
    ("claude-code","claude-code")]

def runtimeAliases : List (String × String) :=
  [("hermes","openai-codex"),("codex","codex-cli"),("opencode","opencode-go"),
    ("opencode-go","opencode-go"),("claude","claude-code"),("claude-code","claude-code"),
    ("openai-codex","openai-codex"),("codex-cli","codex-cli")]

structure NamedRuntimeAdapter where
  name : String
  profile : RuntimeProviderProfile
  commandMetadata : CommandMetadata
  runtime : String

/-- `_metadata_value`, of the key `model`. -/
def modelOf (env : RuntimeTaskEnvelope) : Except RuntimeError String :=
  match env.metadata.field "model" with
  | some (.str s) =>
    if s = "" ∨ s.toList.any isUnsafe then .error (.factory "invalid_model") else .ok s
  | _ => .error (.factory "invalid_model")

/-- `_template`. -/
def NamedRuntimeAdapter.filledTemplate (P : Platform) (a : NamedRuntimeAdapter)
    (env : RuntimeTaskEnvelope) : Except RuntimeError (List String) := do
  require (env.providerProfile == a.profile) (.factory "profile_runtime_mismatch")
  match templates.lookup a.runtime with
  | none => .error .format
  | some template =>
    if a.runtime = "openai-codex" then
      let model ← modelOf env
      template.mapM (formatPart P [("prompt",.str env.prompt),("model",.str model)])
    else template.mapM (formatPart P [("prompt",.str env.prompt)])

def NamedRuntimeAdapter.buildArgv (P : Platform) (a : NamedRuntimeAdapter)
    (env : RuntimeTaskEnvelope) : Except RuntimeError (List String) := do
  let argv ← a.filledTemplate P env
  return a.commandMetadata.executable :: argv.tail

/-- `NamedRuntimeAdapter.execute`, up to the call of the runner. -/
def NamedRuntimeAdapter.execute (P : Platform) (a : NamedRuntimeAdapter)
    (env : RuntimeTaskEnvelope) (runner : Runner) : Except RuntimeError Request := do
  let template ← a.filledTemplate P env
  TemplateRuntimeAdapter.execute P ⟨a.name,a.profile,template,some a.commandMetadata⟩ env runner

def createRuntimeAdapter (runtime : String) (profile : RuntimeProviderProfile)
    (command : CommandMetadata) : Except RuntimeError NamedRuntimeAdapter :=
  match runtimeAliases.lookup runtime with
  | none => .error (.factory "unknown_runtime")
  | some canonical => do
    require (profile.runtimeName = canonical &&
      runtimeProviders.lookup canonical = some profile.providerName)
      (.factory "profile_runtime_mismatch")
    require (command.executable.toList.head? = some '/' &&
      !command.executable.toList.any isUnsafe) (.factory "invalid_executable")
    require (command.arguments = []) (.factory "command_arguments_unsupported")
    return ⟨profile.providerName ++ "/" ++ canonical,profile,command,canonical⟩

/-! ## The command that is executed -/

def promptArg : String := "\x7bprompt\x7d"

def modelArg : String := "\x7bmodel\x7d"

/-- What the named adapter makes of a part of its template. -/
def fill (prompt model part : String) : String :=
  if part = promptArg then prompt else if part = modelArg then model else part

/-- A text that formatting with the values of a task leaves as it is: one without braces,
or one whose replacement fields respell it. -/
def Kept (P : Platform) (env : RuntimeTaskEnvelope) (s : String) : Prop :=
  Format.Plain s.toList ∨ Format.Respelled (fieldText P (formatValues env)) s.toList

theorem formatPart_eq_self_iff {P : Platform} {values : Obj} {s : String} :
    formatPart P values s = .ok s ↔
      Format.Plain s.toList ∨ Format.Respelled (fieldText P values) s.toList := by
  rw [← @Format.format_eq_self_iff RuntimeError .format, formatPart]
  cases h : Format.format .format (fieldText P values) s.toList with
  | error e => simp [bind,Except.bind]
  | ok r =>
    simp only [bind, Except.bind, pure, Except.pure, Except.ok.injEq]
    constructor
    · intro hr
      rw [← hr, String.toList_ofList]
    · intro hr
      rw [hr, String.ofList_toList]

/-- Where each item becomes what `f` makes of it, the list stays as it is exactly if `f`
leaves each item as it is. -/
theorem forall₂_eq_self_iff {α ε : Type} {f : α → Except ε α} {l l' : List α}
    (h : List.Forall₂ (fun a b => f a = .ok b) l l') : l' = l ↔ ∀ a ∈ l, f a = .ok a := by
  induction h with
  | nil => simp
  | cons hab _ ih =>
    simp only [List.cons.injEq, ih, List.forall_mem_cons, hab, Except.ok.injEq]

/-- Each template names the prompt behind the executable, and only that of
`openai-codex` names the model; the other parts have no braces. -/
theorem of_lookup_templates {runtime : String} {template : List String}
    (h : templates.lookup runtime = some template) :
    promptArg ∈ template.tail ∧ (modelArg ∈ template.tail ↔ runtime = "openai-codex") ∧
    (modelArg ∈ template → runtime = "openai-codex") ∧ template.head? ≠ some promptArg ∧
    ∀ part ∈ template, part = promptArg ∨ part = modelArg ∨ Format.Plain part.toList := by
  have hmem : (runtime,template) ∈ templates := by
    obtain ⟨l,l',hl,-⟩ := List.lookup_eq_some_iff.mp h
    simp [hl]
  simp only [templates, List.mem_cons, Prod.mk.injEq, List.not_mem_nil, or_false] at hmem
  rcases hmem with ⟨rfl,rfl⟩ | ⟨rfl,rfl⟩ | ⟨rfl,rfl⟩ | ⟨rfl,rfl⟩
  · refine ⟨by decide,by decide,by decide,by decide,?_⟩
    simp [promptArg,modelArg,Format.Plain]
  · refine ⟨by decide,by decide,by decide,by decide,?_⟩
    simp [promptArg,modelArg,Format.Plain]
  · refine ⟨by decide,by decide,by decide,by decide,?_⟩
    simp [promptArg,modelArg,Format.Plain]
  · refine ⟨by decide,by decide,by decide,by decide,?_⟩
    simp [promptArg,modelArg,Format.Plain]

theorem formatPart_prompt (P : Platform) (values : Obj) (prompt : String) :
    formatPart P (("prompt",.str prompt) :: values) promptArg = .ok prompt := by
  have h : promptArg.toList = '{' :: 'p' :: ['r','o','m','p','t']++['}'] := by simp [promptArg]
  rw [formatPart, h, Format.format_name (by simp) (r := prompt.toList)
    (by simp [fieldText,isDecimal,Obj.field])]
  simp [bind,Except.bind,pure,Except.pure]

theorem formatPart_model (P : Platform) (prompt model : String) :
    formatPart P [("prompt",.str prompt),("model",.str model)] modelArg = .ok model := by
  have h : modelArg.toList = '{' :: 'm' :: ['o','d','e','l']++['}'] := by simp [modelArg]
  rw [formatPart, h, Format.format_name (by simp) (r := model.toList)
    (by simp [fieldText,isDecimal,Obj.field,List.lookup_cons])]
  simp [bind,Except.bind,pure,Except.pure]

theorem formatPart_plain {P : Platform} {values : Obj} {s : String}
    (h : Format.Plain s.toList) : formatPart P values s = .ok s :=
  formatPart_eq_self_iff.mpr (Or.inl h)

theorem mapM_fill {P : Platform} {values : Obj} {prompt model : String} {template : List String}
    (h : ∀ part ∈ template, formatPart P values part = .ok (fill prompt model part)) :
    template.mapM (formatPart P values) = .ok (template.map (fill prompt model)) := by
  rw [mapM_ok, List.forall₂_map_right_iff, List.forall₂_same]
  exact h

theorem modelOf_ok {env : RuntimeTaskEnvelope} {model : String} (h : modelOf env = .ok model) :
    env.metadata.field "model" = some (.str model) := by
  unfold modelOf at h
  split at h
  · split_ifs at h
    cases h
    assumption
  · cases h

theorem fill_promptArg (prompt model : String) : fill prompt model promptArg = prompt := by
  rw [fill, if_pos rfl]

theorem fill_modelArg (prompt model : String) : fill prompt model modelArg = model := by
  rw [fill, if_neg (by decide), if_pos rfl]

theorem fill_plain (prompt model : String) {part : String} (h : Format.Plain part.toList) :
    fill prompt model part = part := by
  have hp : part ≠ promptArg := by
    rintro rfl
    exact (h '{' (by simp [promptArg])).1 rfl
  have hm : part ≠ modelArg := by
    rintro rfl
    exact (h '{' (by simp [modelArg])).1 rfl
  rw [fill, if_neg hp, if_neg hm]

/-- What the named adapter makes of its template. -/
theorem of_filledTemplate {P : Platform} {a : NamedRuntimeAdapter} {env : RuntimeTaskEnvelope}
    {filled : List String} (h : a.filledTemplate P env = .ok filled) :
    ∃ template model, templates.lookup a.runtime = some template ∧
      filled = template.map (fill env.prompt model) ∧
      (a.runtime = "openai-codex" → env.metadata.field "model" = some (.str model)) := by
  obtain ⟨-,-,h⟩ := ok_of_bind h
  cases ht : templates.lookup a.runtime with
  | none => simp [ht] at h
  | some template =>
    obtain ⟨-,-,hmodel,-,hparts⟩ := of_lookup_templates ht
    simp only [ht] at h
    by_cases hr : a.runtime = "openai-codex"
    · rw [if_pos hr] at h
      obtain ⟨model,hm,h⟩ := ok_of_bind h
      refine ⟨template,model,rfl,?_,fun _ => modelOf_ok hm⟩
      rw [mapM_fill] at h
      · exact (Except.ok.inj h).symm
      · intro part hpart
        rcases hparts part hpart with rfl | rfl | hplain
        · rw [fill_promptArg]
          exact formatPart_prompt P _ env.prompt
        · rw [fill_modelArg]
          exact formatPart_model P env.prompt model
        · rw [fill_plain _ _ hplain]
          exact formatPart_plain hplain
    · rw [if_neg hr] at h
      refine ⟨template,"",rfl,?_,fun hr' => absurd hr' hr⟩
      rw [mapM_fill] at h
      · exact (Except.ok.inj h).symm
      · intro part hpart
        rcases hparts part hpart with rfl | rfl | hplain
        · rw [fill_promptArg]
          exact formatPart_prompt P _ env.prompt
        · exact absurd (hmodel hpart) hr
        · rw [fill_plain _ _ hplain]
          exact formatPart_plain hplain

theorem of_buildArgv {P : Platform} {a : TemplateRuntimeAdapter} {env : RuntimeTaskEnvelope}
    {argv : List String} (h : a.buildArgv P env = .ok argv) :
    a.template.mapM (formatPart P (formatValues env)) = .ok argv := by
  obtain ⟨-,-,h⟩ := ok_of_bind h
  cases hm : a.template.mapM (formatPart P (formatValues env)) with
  | error e => cases e <;> simp [hm,refuse] at h
  | ok argv' =>
    simp only [hm] at h
    split_ifs at h
    · cases h
    · exact h

theorem of_trustedCommand {a : TemplateRuntimeAdapter} {command : CommandMetadata}
    (h : a.trustedCommand = .ok (some command)) : a.commandMetadata = some command := by
  rw [TemplateRuntimeAdapter.trustedCommand] at h
  cases hc : a.commandMetadata with
  | none => simp [hc] at h
  | some found =>
    simp only [hc] at h
    split_ifs at h
    · cases h
    · exact Except.ok.inj h

/-- The call that the template adapter makes: the parts of its template, formatted once
more, behind the absolute executable, to a runner whose network flag and whose root for
the paths fit the task. -/
theorem of_execute_template {P : Platform} {a : TemplateRuntimeAdapter}
    {env : RuntimeTaskEnvelope} {runner : Runner} {c : Call}
    (h : a.execute P env runner = .ok (.call c)) :
    ∃ argv command pathRoots, a.template.mapM (formatPart P (formatValues env)) = .ok argv ∧
      a.commandMetadata = some command ∧ c.argv = command.executable :: argv.tail ∧
        command.executable.toList.head? = some '/' ∧
          runner = .sandbox true (some (decide ("provider_network" ∈ env.capabilities))) pathRoots ∧
            workingDir env.allowedPaths pathRoots = some c.cwd := by
  obtain ⟨-,-,h⟩ := ok_of_bind h
  obtain ⟨timeout,-,h⟩ := ok_of_bind h
  obtain ⟨-,-,h⟩ := ok_of_bind h
  dsimp only at h
  split at h
  · cases h
  obtain ⟨-,-,h⟩ := ok_of_bind h
  split at h
  · cases h
  cases runner with
  | missing => cases h
  | sandbox issued network pathRoots =>
    cases issued with
    | false => cases h
    | true =>
      dsimp only at h
      split at h
      · cases h
      rename_i hnetwork
      obtain ⟨argv,hargv,h⟩ := ok_of_bind h
      obtain ⟨found,hfound,h⟩ := ok_of_bind h
      cases found with
      | none => cases h
      | some command =>
        dsimp only at h
        split at h
        · cases h
        rename_i habsolute
        split at h
        · cases h
        rename_i hcwd
        cases h
        simp only [Bool.or_eq_true, decide_eq_true_iff, not_or, not_not] at habsolute
        exact ⟨argv,command,pathRoots,of_buildArgv hargv,of_trustedCommand hfound,rfl,habsolute.1,
          by rw [not_not.mp hnetwork],hcwd⟩

/-- The command that reaches the runner is the one that `build_argv` declares, with the
length of the template and the prompt in its place, exactly if formatting leaves the
prompt and the model as they are. -/
theorem executed_command_iff {P : Platform} {a : NamedRuntimeAdapter}
    {env : RuntimeTaskEnvelope} {runner : Runner} {c : Call}
    (h : a.execute P env runner = .ok (.call c)) :
    (a.buildArgv P env = .ok c.argv ∧ ∃ template, templates.lookup a.runtime = some template ∧
      c.argv.length = template.length ∧
      c.argv[template.idxOf promptArg]? = some env.prompt) ↔
    Kept P env env.prompt ∧ (a.runtime = "openai-codex" →
      ∀ model, env.metadata.field "model" = some (.str model) → Kept P env model) := by
  obtain ⟨filled,hfilled,h⟩ := ok_of_bind h
  obtain ⟨template,model,ht,rfl,hmodel⟩ := of_filledTemplate hfilled
  obtain ⟨argv,command,-,hargv,hcommand,hc,-⟩ := of_execute_template h
  obtain ⟨hprompt,hmodels,-,hhead,hparts⟩ := of_lookup_templates ht
  obtain rfl : a.commandMetadata = command := by simpa using hcommand
  have hbuild : a.buildArgv P env =
      .ok (a.commandMetadata.executable :: (template.map (fill env.prompt model)).tail) := by
    rw [NamedRuntimeAdapter.buildArgv, hfilled]
    rfl
  cases template with
  | nil => simp at hprompt
  | cons exe rest =>
    dsimp only at hargv
    rw [mapM_ok, List.map_cons, List.forall₂_cons_left_iff] at hargv
    obtain ⟨exe',argv',-,hrest,rfl⟩ := hargv
    rw [List.tail_cons] at hc hprompt hmodels
    have hself := forall₂_eq_self_iff hrest
    have hkept : (∀ part ∈ rest.map (fill env.prompt model),
        formatPart P (formatValues env) part = .ok part) ↔
        Kept P env env.prompt ∧ (a.runtime = "openai-codex" →
          ∀ m, env.metadata.field "model" = some (.str m) → Kept P env m) := by
      rw [List.forall_mem_map]
      constructor
      · intro hall
        constructor
        · have := hall promptArg hprompt
          rw [fill_promptArg] at this
          exact formatPart_eq_self_iff.mp this
        · intro hr m hm
          have := hall modelArg (hmodels.mpr hr)
          rw [fill_modelArg] at this
          obtain rfl : m = model := by simpa [hm] using hmodel hr
          exact formatPart_eq_self_iff.mp this
      · rintro ⟨hp,hm⟩ part hpart
        rcases hparts part (List.mem_cons_of_mem exe hpart) with rfl | rfl | hplain
        · rw [fill_promptArg]
          exact formatPart_eq_self_iff.mpr hp
        · rw [fill_modelArg]
          have hr := hmodels.mp hpart
          exact formatPart_eq_self_iff.mpr (hm hr model (hmodel hr))
        · rw [fill_plain _ _ hplain]
          exact formatPart_plain hplain
    rw [hbuild, hc, ← hkept, ← hself]
    constructor
    · rintro ⟨heq,-⟩
      simpa using heq.symm
    · intro heq
      refine ⟨by simp [heq],exe :: rest,ht,?_,?_⟩
      · simp [heq]
      · have hne : exe ≠ promptArg := by simpa using hhead
        rw [List.idxOf_cons_ne _ hne, List.getElem?_cons_succ, heq,
          List.getElem?_map, List.getElem?_idxOf hprompt, Option.map_some, fill_promptArg]

def sampleProfile : RuntimeProviderProfile where
  providerName := "codex-cli"
  runtimeName := "codex-cli"
  authRef := some "env:KEY"
  capabilities := ["read"]
  command := some (.obj [])
  policy := ⟨true,false,false,["read"]⟩
  metadata := .obj []

def sampleAdapter : NamedRuntimeAdapter where
  name := "codex-cli/codex-cli"
  profile := sampleProfile
  commandMetadata := ⟨"/usr/bin/codex",[]⟩
  runtime := "codex-cli"

def sampleTask (prompt : String) : RuntimeTaskEnvelope where
  taskId := "T1"
  prompt := prompt
  providerProfile := sampleProfile
  allowedPaths := ["workspace"]
  capabilities := ["read"]
  metadata := []

def sampleRunner : Runner := .sandbox true (some false) (some [("workspace",.str "/w")])

def samplePlatform : Platform where
  decimal _ := false
  rich _ _ := .error .fieldRaises

def sampleCall (prompt : String) : Call where
  argv := ["/usr/bin/codex","exec","--json","--ephemeral","--sandbox","read-only",
    "--skip-git-repo-check",prompt]
  cwd := "/w"
  timeout := 10

theorem executed_command_plain :
    sampleAdapter.buildArgv samplePlatform (sampleTask "fix the bug") =
      .ok (sampleCall "fix the bug").argv :=
  ((executed_command_iff (c := sampleCall "fix the bug")
    (show sampleAdapter.execute samplePlatform (sampleTask "fix the bug") sampleRunner = _ by
      decide)).mpr ⟨Or.inl (by simp [Format.Plain,sampleTask]),
      fun h => absurd h (by decide)⟩).1

/-- A prompt with doubled braces reaches the runner with single ones. -/
theorem executed_command_differs :
    createRuntimeAdapter "codex" sampleProfile ⟨"/usr/bin/codex",[]⟩ = .ok sampleAdapter ∧
    RuntimeTaskEnvelope.make "T1" "use \x7b\x7bx\x7d\x7d" sampleProfile ["workspace"] ["read"]
      false [] = .ok (sampleTask "use \x7b\x7bx\x7d\x7d") ∧
    sampleAdapter.execute samplePlatform (sampleTask "use \x7b\x7bx\x7d\x7d") sampleRunner =
      .ok (.call (sampleCall "use \x7bx\x7d")) ∧
    sampleAdapter.buildArgv samplePlatform (sampleTask "use \x7b\x7bx\x7d\x7d") =
      .ok (sampleCall "use \x7b\x7bx\x7d\x7d").argv ∧
    (sampleCall "use \x7bx\x7d").argv ≠ (sampleCall "use \x7b\x7bx\x7d\x7d").argv := by
  refine ⟨rfl,rfl,?_,?_,by decide⟩
  · decide
  · decide

end PdFleet.Runtime
