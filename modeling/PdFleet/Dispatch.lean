import PdFleet.Runtime
import PdFleet.Lib.Pattern

/-!
# Provider dispatch

A route policy selects the first eligible profile of the catalog; the boundary looks up its
adapter and its runner, and the sandbox runner starts an argument list of its allowlist.
Every layer has checks of its own. What a process needs to be started is what all of them
have let pass.
-/

set_option autoImplicit false

namespace PdFleet.Runtime

open Pattern

/-! ## The router -/

def forbiddenCapabilities : List String := ["shell","network","nested_agents"]

/-- The errors of routing and of dispatch, and what passes through from below. -/
inductive DispatchError where
  | routing (msg : String)
  | dispatch (msg : String)
  | runtime (e : RuntimeError)
  deriving DecidableEq

def isSlugChar (c : Char) : Bool := c.isDigit || c.isLower

def lowerChar (c : Char) : Char := c.toLower

/-- `_SENSITIVE_ID`, of an ASCII text. -/
def sensitiveId (s : String) : Bool :=
  let gap := opt (char (· ∈ ['_', ' ', '-']))
  let named (w : String) := word lowerChar w
  search (oneOf [named "credential", named "secret", named "token", named "password",
    named "passwd", seq (named "api") (seq gap (named "key")),
    seq (named "access") (seq gap (alt (named "key") (named "token"))),
    seq (named "private") (seq gap (named "key")), named "authorization", named "bearer",
    named "prompt"]) s.toList

/-- What `_ids` asks of an id. -/
def safeId (s : String) : Bool :=
  let t := s.toList
  t.head?.any isSlugChar && t.all (fun c => isSlugChar c || c ∈ ['.', '_', '/', '-']) &&
    (t.splitOn '/').all (fun part => part ≠ "..".toList) && !decide ("//".toList <:+: t) &&
    !sensitiveId s

/-- `_SAFE_SLUG`, with the bounds of an audit identity. -/
def safeSlug (s : String) : Bool :=
  (s.toList.splitOn '-').all (fun part => part ≠ [] && part.all isSlugChar) &&
    s.length ≤ 128 && !sensitiveId s

/-- A policy that its constructor accepts. -/
structure ProviderRoutePolicy where
  preferredIds : List String
  fallbackIds : List String
  requiredCapabilities : List String
  allowFallback : Bool
  maxCandidates : ℕ
  ids_safe : ∀ id ∈ preferredIds++fallbackIds, safeId id = true
  ids_nodup : (preferredIds++fallbackIds).Nodup
  required_allowed : ∀ c ∈ requiredCapabilities, c ∉ forbiddenCapabilities
  one_candidate : 1 ≤ maxCandidates

def ProviderRoutePolicy.orderedIds (p : ProviderRoutePolicy) : List String :=
  p.preferredIds++(if p.allowFallback then p.fallbackIds else [])

inductive RouteStatus where
  | selected
  | blocked
  | noProvider
  deriving DecidableEq

structure ProviderAuditEvent where
  taskId : String
  runId : String
  candidates : List String
  selected : Option String
  status : RouteStatus
  reason : String
  deriving DecidableEq

/-- The checks of an audit event that a route can fail. -/
def ProviderAuditEvent.make (taskId runId : String) (candidates : List String)
    (selected : Option String) (status : RouteStatus) (reason : String) :
    Except DispatchError ProviderAuditEvent :=
  if !safeSlug taskId || !safeSlug runId then .error (.routing "invalid audit identity")
  else if selected.any (· ∉ candidates) then
    .error (.routing "selected audit provider is not a candidate")
  else if candidates = [] ∧ status ≠ .noProvider then
    .error (.routing "audit candidates cannot be empty")
  else .ok ⟨taskId,runId,candidates,selected,status,reason⟩

structure ProviderRouteResult where
  status : RouteStatus
  selected : Option RuntimeProviderProfile
  audit : ProviderAuditEvent

def profileId (p : RuntimeProviderProfile) : String := p.providerName++"/"++p.runtimeName

abbrev Catalog := List RuntimeProviderProfile

/-- `_catalog_map`. -/
def profileOf (catalog : Catalog) (id : String) : Option RuntimeProviderProfile :=
  catalog.find? (fun p => profileId p = id)

/-- Enabled, ready, with a reference to its credentials and what the policy requires. -/
def eligible (policy : ProviderRoutePolicy) (p : RuntimeProviderProfile) : Bool :=
  p.policy.enabled && p.readiness = .ready && p.authRef.isSome &&
    policy.requiredCapabilities.all (· ∈ p.capabilities)

/-- The eligible ids in order, unless one of them has a forbidden capability. -/
def eligibleIds (policy : ProviderRoutePolicy) (catalog : Catalog) :
    List String → Except DispatchError (List String)
  | [] => .ok []
  | id :: ids =>
    match profileOf catalog id with
    | none => .error (.routing "unknown provider ID")
    | some p =>
      if !eligible policy p then eligibleIds policy catalog ids
      else if p.capabilities.any (· ∈ forbiddenCapabilities) then
        .error (.routing "forbidden capability")
      else do
        let rest ← eligibleIds policy catalog ids
        return id :: rest

def routeProvider (taskId runId : String) (policy : ProviderRoutePolicy) (catalog : Catalog) :
    Except DispatchError ProviderRouteResult :=
  let configured := policy.preferredIds++policy.fallbackIds
  if !(catalog.map profileId).Nodup then .error (.routing "duplicate catalog identity")
  else if configured.any (fun id => (profileOf catalog id).isNone) then
    .error (.routing "unknown provider ID")
  else do
    let ids ← eligibleIds policy catalog policy.orderedIds
    let selectedId := (ids.take policy.maxCandidates).head?
    let candidates := if policy.orderedIds = [] then policy.fallbackIds else policy.orderedIds
    let (status,reason) : RouteStatus × String :=
      match selectedId with
      | some id => (.selected,if id ∈ policy.preferredIds then "preferred_selected"
          else "explicit_fallback_selected")
      | none =>
        if configured = [] then (.noProvider,"no_provider_configured")
        else (.blocked,if policy.allowFallback then "no_eligible_provider"
          else "fallback_not_permitted")
    let audit ← ProviderAuditEvent.make taskId runId candidates selectedId status reason
    return ⟨status,selectedId.bind (profileOf catalog),audit⟩

/-! ## The sandbox runner -/

structure LocalSandboxRunner where
  allowlist : List (List String)
  env : List (String × String)
  network : Bool
  pathRoots : List (String × String)

/-- A process that was started. -/
structure Started where
  argv : List String
  cwd : String
  env : List (String × String)
  deriving DecidableEq

inductive SandboxResult where
  | denied (code : String)
  /-- A process that ran, with its status and its output. -/
  | ran (status stdout : String)
  | failed
  deriving DecidableEq

/-- The file system and the processes as a runner finds them: whether a working directory
and a pinned executable pass their checks, whether the process starts, and what it does. -/
structure Host where
  directory : LocalSandboxRunner → String → Except String Unit
  pinned : LocalSandboxRunner → String → Except String Unit
  starts : Started → Bool
  outcome : Started → SandboxResult

/-- `LocalSandboxRunner.run`: its result, and the processes it has started. -/
def LocalSandboxRunner.run (H : Host) (r : LocalSandboxRunner) (c : Call)
    (env : List (String × String)) : SandboxResult × List Started :=
  if c.argv ∉ r.allowlist then (.denied "argv_not_allowlisted",[])
  else
    match H.directory r c.cwd, H.pinned r (c.argv.headD "") with
    | .error code, _ => (.denied code,[])
    | .ok (), .error code => (.denied code,[])
    | .ok (), .ok () =>
      if c.timeout ≤ 0 then (.denied "timeout_invalid",[])
      else if env ≠ r.env then (.denied "environment_mismatch",[])
      else
        let process : Started := ⟨c.argv,c.cwd,r.env⟩
        if H.starts process then (H.outcome process,[process]) else (.failed,[])

/-- What an adapter sees of a sandbox runner. -/
def LocalSandboxRunner.toRunner (r : LocalSandboxRunner) : Runner :=
  .sandbox true (some r.network) (some (r.pathRoots.map (fun e => (e.1,.str e.2))))

/-! ## The boundary -/

/-- `path.replace("\\\\", "/")`: a doubled backslash becomes a slash. -/
def slashDoubled : List Char → List Char
  | '\\' :: '\\' :: t => '/' :: slashDoubled t
  | c :: t => c :: slashDoubled t
  | [] => []

/-- What `_request_paths` asks of a path. -/
def requestPath (path : String) : Bool :=
  let t := path.toList
  let parts := (slashDoubled t).splitOn '/'
  t ≠ [] && !t.head?.any (· ∈ ['/', '~']) && !("\\\\".toList).isPrefixOf t &&
    !(t.head?.any (fun c => c.isUpper || c.isLower) && t.tail.head? = some ':') &&
    (parts.headD []) ∈ ["workspace","artifacts","inputs","outputs"].map String.toList &&
    "..".toList ∉ parts && !t.any isControl

/-- A request that its constructor accepts. -/
structure ProviderDispatchRequest where
  taskId : String
  prompt : String
  allowedPaths : List String
  capabilities : List String
  metadata : Obj
  named : taskId ≠ "" ∧ prompt ≠ ""
  paths : ∀ p ∈ allowedPaths, requestPath p = true
  allowed : ∀ c ∈ capabilities, c ∈ allowedCapabilities ∧ c ∉ forbiddenCapabilities

inductive DispatchStatus where
  | ok
  | blocked
  | failed
  | noProvider
  deriving DecidableEq

structure ProviderDispatchResult where
  status : DispatchStatus
  route : ProviderRouteResult
  reason : String

/-- The adapters, the runners and the catalog of a boundary. -/
structure Boundary where
  catalog : Catalog
  adapters : List (String × NamedRuntimeAdapter)
  runners : List (String × LocalSandboxRunner)

/-- `adapter.execute`, with the processes that its runner has started; `parsed` tells
whether the output of a run counts as a result of the runtime. -/
def NamedRuntimeAdapter.start (P : Platform) (H : Host) (parsed : String → SandboxResult → Bool)
    (a : NamedRuntimeAdapter) (env : RuntimeTaskEnvelope) (r : LocalSandboxRunner) :
    Bool × List Started :=
  match a.execute P env r.toRunner with
  | .ok (.call c) =>
    let (result,started) := r.run H c r.env
    (parsed a.runtime result,started)
  | _ => (false,[])

/-- The capabilities that adapter, profile and policy agree on. -/
def effectiveCapabilities (a : NamedRuntimeAdapter) (selected : RuntimeProviderProfile) :
    List String :=
  a.profile.capabilities.filter (fun c => c ∈ selected.capabilities ∧
    c ∈ selected.policy.allowedCapabilities)

/-- `ProviderDispatchBoundary._execute`: its result, and the processes it has started. -/
def Boundary.execute (P : Platform) (H : Host) (parsed : String → SandboxResult → Bool)
    (b : Boundary) (request : ProviderDispatchRequest) (route : ProviderRouteResult) :
    Except DispatchError ProviderDispatchResult × List Started :=
  if route.status = .noProvider then (.ok ⟨.noProvider,route,"provider_not_configured"⟩,[])
  else match route.selected with
  | none => (.ok ⟨.blocked,route,"route_blocked"⟩,[])
  | some selected =>
    match b.adapters.lookup (profileId selected) with
    | none => (.ok ⟨.blocked,route,"adapter_missing"⟩,[])
    | some adapter =>
      if !(adapter.profile == selected) then (.error (.dispatch "adapter_profile_mismatch"),[])
      else if !adapter.profile.capabilities.all (· ∈ allowedCapabilities) then
        (.error (.dispatch "adapter_capabilities_invalid"),[])
      else if !request.capabilities.all (· ∈ effectiveCapabilities adapter selected) then
        (.ok ⟨.blocked,route,"unsupported_runtime_capability"⟩,[])
      else match b.runners.lookup (profileId selected) with
      | none => (.ok ⟨.blocked,route,"runner_missing"⟩,[])
      | some runner =>
        match RuntimeTaskEnvelope.make request.taskId request.prompt selected
          request.allowedPaths request.capabilities false request.metadata with
        | .error e => (.error (.runtime e),[])
        | .ok envelope =>
          let (done,started) := adapter.start P H parsed envelope runner
          (.ok (if done then ⟨.ok,route,"provider_executed"⟩
            else ⟨.failed,route,"provider_failed"⟩),started)

/-- `dispatch_request`. -/
def Boundary.dispatchRequest (P : Platform) (H : Host) (parsed : String → SandboxResult → Bool)
    (b : Boundary) (request : ProviderDispatchRequest) (policy : ProviderRoutePolicy)
    (runId : String) : Except DispatchError ProviderDispatchResult × List Started :=
  if runId = "" then (.error (.dispatch "invalid_identity"),[])
  else match routeProvider request.taskId runId policy b.catalog with
  | .error e => (.error e,[])
  | .ok route => b.execute P H parsed request route

/-! ## What a process needs -/

/-- A profile that a policy may select. -/
structure Covers (policy : ProviderRoutePolicy) (p : RuntimeProviderProfile) : Prop where
  enabled : p.policy.enabled = true
  ready : p.readiness = .ready
  required : ∀ c ∈ policy.requiredCapabilities, c ∈ p.capabilities

/-- The first id in the order of the policy that names a profile which it may select. -/
def FirstOf (policy : ProviderRoutePolicy) (catalog : Catalog) (ids : List String) (id : String)
    (p : RuntimeProviderProfile) : Prop :=
  profileOf catalog id = some p ∧ Covers policy p ∧ ∃ before after, ids = before++id :: after ∧
    ∀ id' ∈ before, ∀ q, profileOf catalog id' = some q → ¬Covers policy q

/-- What the layers have checked of a process that was started. -/
structure Authorized (b : Boundary) (policy : ProviderRoutePolicy)
    (request : ProviderDispatchRequest) (p : Started) (id : String)
    (selected : RuntimeProviderProfile) (adapter : NamedRuntimeAdapter)
    (runner : LocalSandboxRunner) : Prop where
  first : FirstOf policy b.catalog policy.orderedIds id selected
  fallback : id ∈ policy.preferredIds ∨ policy.allowFallback = true ∧ id ∈ policy.fallbackIds
  adapter_of : b.adapters.lookup (profileId selected) = some adapter
  runner_of : b.runners.lookup (profileId selected) = some runner
  capabilities : ∀ c ∈ request.capabilities, c ∈ adapter.profile.capabilities ∧
    c ∈ selected.capabilities ∧ c ∈ selected.policy.allowedCapabilities ∧
      c ∉ forbiddenCapabilities
  network : runner.network = true ↔ "provider_network" ∈ request.capabilities
  cwd : request.allowedPaths ≠ [] ∧ ∃ root, (∀ path ∈ request.allowedPaths,
    pathNamespace path = root) ∧ runner.pathRoots.lookup root = some p.cwd
  argv : p.argv ∈ runner.allowlist ∧ p.argv.head? = some adapter.commandMetadata.executable ∧
    adapter.commandMetadata.executable.toList.head? = some '/'

variable {policy : ProviderRoutePolicy} {catalog : Catalog} {ids found : List String} {id : String}

theorem authRef_of_ready {p : RuntimeProviderProfile} (h : p.readiness = .ready) :
    p.authRef.isSome = true := by
  rw [RuntimeProviderProfile.readiness] at h
  split_ifs at h with h1 h2 h3 h4 h5 h6
  exact Option.isSome_iff_ne_none.mpr h5

theorem eligible_iff {p : RuntimeProviderProfile} : eligible policy p = true ↔ Covers policy p := by
  rw [eligible, Bool.and_eq_true, Bool.and_eq_true, Bool.and_eq_true, decide_eq_true_iff,
    List.all_eq_true]
  constructor
  · rintro ⟨⟨⟨h1,h2⟩,-⟩,h3⟩
    exact ⟨h1,h2,fun c hc => of_decide_eq_true (h3 c hc)⟩
  · rintro ⟨h1,h2,h3⟩
    exact ⟨⟨⟨h1,h2⟩,authRef_of_ready h2⟩,fun c hc => decide_eq_true (h3 c hc)⟩

/-- The first eligible id comes behind none that could have been selected. -/
theorem eligibleIds_head (h : eligibleIds policy catalog ids = .ok found)
    (hid : found.head? = some id) : ∃ p, FirstOf policy catalog ids id p := by
  induction ids with
  | nil =>
    rw [eligibleIds, Except.ok.injEq] at h
    subst h
    cases hid
  | cons id' ids ih =>
    rw [eligibleIds] at h
    split at h
    · cases h
    · rename_i p hp
      split_ifs at h with hc hf
      · obtain ⟨q,hq,hcq,before,after,hsplit,hbefore⟩ := ih h
        refine ⟨q,hq,hcq,id' :: before,after,by rw [hsplit, List.cons_append],?_⟩
        rw [List.forall_mem_cons]
        refine ⟨?_,hbefore⟩
        intro q' hq' hcov
        rw [hp, Option.some.injEq] at hq'
        subst hq'
        rw [eligible_iff.mpr hcov] at hc
        cases hc
      · obtain ⟨rest,-,h⟩ := ok_of_bind h
        obtain rfl := Except.ok.inj h
        obtain rfl := Option.some.inj hid
        rw [Bool.not_eq_true', Bool.not_eq_false, eligible_iff] at hc
        exact ⟨p,hp,hc,[],ids,rfl,fun x hx => absurd hx List.not_mem_nil⟩

/-- The route of a selected profile. -/
theorem of_routeProvider {taskId runId : String} {route : ProviderRouteResult}
    {selected : RuntimeProviderProfile} (h : routeProvider taskId runId policy catalog = .ok route)
    (hs : route.selected = some selected) :
    ∃ id, FirstOf policy catalog policy.orderedIds id selected := by
  rw [routeProvider] at h
  dsimp only at h
  split_ifs at h
  all_goals
    obtain ⟨found,hfound,h⟩ := ok_of_bind h
    obtain ⟨audit,-,h⟩ := ok_of_bind h
    obtain rfl := Except.ok.inj h
    obtain ⟨id,hid,hp⟩ := Option.bind_eq_some_iff.mp hs
    rw [List.head?_take, if_neg (Nat.one_le_iff_ne_zero.mp policy.one_candidate)] at hid
    obtain ⟨p,hp',hrest⟩ := eligibleIds_head hfound hid
    obtain rfl := Option.some.inj (hp'.symm.trans hp)
    exact ⟨id,hp',hrest⟩

theorem mem_ordered (h : id ∈ policy.orderedIds) :
    id ∈ policy.preferredIds ∨ policy.allowFallback = true ∧ id ∈ policy.fallbackIds := by
  rw [ProviderRoutePolicy.orderedIds, List.mem_append] at h
  rcases h with h | h
  · exact .inl h
  · split_ifs at h with hf
    · exact .inr ⟨hf,h⟩
    · cases h

/-- A sandbox runner starts at most one process, which is on its allowlist. -/
theorem run_started (H : Host) (r : LocalSandboxRunner) (c : Call) (env : List (String × String)) :
    (r.run H c env).2 = [] ∨
      (c.argv ∈ r.allowlist ∧ (r.run H c env).2 = [⟨c.argv,c.cwd,r.env⟩]) := by
  rw [LocalSandboxRunner.run]
  by_cases ha : c.argv ∉ r.allowlist
  · rw [if_pos ha]
    exact .inl rfl
  · rw [if_neg ha]
    split
    · exact .inl rfl
    · exact .inl rfl
    · split_ifs
      · exact .inl rfl
      · exact .inl rfl
      · dsimp only
        split_ifs
        · exact .inr ⟨not_not.mp ha,rfl⟩
        · exact .inl rfl

theorem lookup_roots {roots : List (String × String)} {k v : String}
    (h : Obj.field (roots.map (fun e => (e.1,Json.str e.2))) k = some (.str v)) :
    roots.lookup k = some v := by
  induction roots with
  | nil => cases h
  | cons e roots ih =>
    obtain ⟨root,cwd⟩ := e
    simp only [Obj.field, List.map_cons, List.lookup_cons] at h ih ⊢
    cases hk : k == root with
    | true =>
      rw [hk] at h
      exact congrArg some (Json.str.inj (Option.some.inj h))
    | false =>
      rw [hk] at h
      exact ih h

/-- The one namespace of the paths, and its root. -/
theorem of_workingDir {paths : List String} {roots : List (String × String)} {cwd : String}
    (h : workingDir paths (some (roots.map (fun e => (e.1,Json.str e.2)))) = some cwd) :
    paths ≠ [] ∧ ∃ root, (∀ path ∈ paths, pathNamespace path = root) ∧
      roots.lookup root = some cwd := by
  cases paths with
  | nil => cases h
  | cons path rest =>
    rw [workingDir] at h
    split_ifs at h with hall
    refine ⟨List.cons_ne_nil path rest,pathNamespace path,?_,?_⟩
    · rw [List.forall_mem_cons]
      exact ⟨rfl,fun p hp => of_decide_eq_true (List.all_eq_true.mp hall p hp)⟩
    · split at h
      · rename_i hf
        split_ifs at h
        obtain rfl := Option.some.inj h
        exact lookup_roots hf
      · cases h

theorem mem_sorted {l : List String} {s : String} : s ∈ sorted l ↔ s ∈ l := by
  rw [sorted, List.mem_insertionSort, List.mem_dedup]

theorem sorted_ne_nil {l : List String} : sorted l ≠ [] ↔ l ≠ [] := by
  rw [ne_eq, ne_eq, not_iff_not, List.eq_nil_iff_forall_not_mem, List.eq_nil_iff_forall_not_mem]
  exact forall_congr' (fun s => not_congr mem_sorted)

theorem of_make {taskId prompt : String} {profile : RuntimeProviderProfile}
    {paths capabilities : List String} {nested : Bool} {metadata : Obj} {env : RuntimeTaskEnvelope}
    (h : RuntimeTaskEnvelope.make taskId prompt profile paths capabilities nested metadata = .ok env) :
    env.allowedPaths = sorted paths ∧ env.capabilities = sorted capabilities := by
  repeat (obtain ⟨-,-,h⟩ := ok_of_bind h)
  obtain rfl := Except.ok.inj h
  exact ⟨rfl,rfl⟩

/-- Every process of a request is authorized. -/
theorem start_authorized {P : Platform} {H : Host} {parsed : String → SandboxResult → Bool}
    {b : Boundary} {request : ProviderDispatchRequest} {selected : RuntimeProviderProfile}
    {adapter : NamedRuntimeAdapter} {runner : LocalSandboxRunner} {envelope : RuntimeTaskEnvelope}
    (hfirst : FirstOf policy b.catalog policy.orderedIds id selected)
    (hadapter : b.adapters.lookup (profileId selected) = some adapter)
    (hrunner : b.runners.lookup (profileId selected) = some runner)
    (hcaps : ∀ c ∈ request.capabilities, c ∈ effectiveCapabilities adapter selected)
    (henv : RuntimeTaskEnvelope.make request.taskId request.prompt selected request.allowedPaths
      request.capabilities false request.metadata = .ok envelope) :
    (adapter.start P H parsed envelope runner).2.length ≤ 1 ∧
      ∀ p ∈ (adapter.start P H parsed envelope runner).2,
        Authorized b policy request p id selected adapter runner := by
  rw [NamedRuntimeAdapter.start]
  split
  · rename_i c hc
    dsimp only
    rcases run_started H runner c runner.env with hnone | ⟨hallowed,hone⟩
    · rw [hnone]
      exact ⟨Nat.zero_le 1,fun p hp => absurd hp List.not_mem_nil⟩
    · rw [hone]
      refine ⟨le_refl 1,fun p hp => ?_⟩
      obtain rfl := List.mem_singleton.mp hp
      obtain ⟨filled,-,hcall⟩ := ok_of_bind hc
      obtain ⟨argv,command,pathRoots,-,hcommand,hargv,habsolute,hnetwork,hcwd⟩ :=
        of_execute_template hcall
      obtain rfl := Option.some.inj hcommand
      obtain ⟨hpaths,hcapabilities⟩ := of_make henv
      rw [LocalSandboxRunner.toRunner, Runner.sandbox.injEq] at hnetwork
      obtain ⟨-,hflag,rfl⟩ := hnetwork
      obtain ⟨hne,root,hroot,hlookup⟩ := of_workingDir hcwd
      rw [hpaths] at hne hroot
      refine ⟨hfirst,?_,hadapter,hrunner,?_,?_,?_,hallowed,by rw [hargv]; rfl,habsolute⟩
      · obtain ⟨-,-,before,after,hsplit,-⟩ := hfirst
        exact mem_ordered (hsplit ▸ List.mem_append_right before List.mem_cons_self)
      · intro c hmem
        obtain ⟨hc1,hc2⟩ := List.mem_filter.mp (hcaps c hmem)
        exact ⟨hc1,(of_decide_eq_true hc2).1,(of_decide_eq_true hc2).2,(request.allowed c hmem).2⟩
      · rw [Option.some.inj hflag, decide_eq_true_iff, hcapabilities, mem_sorted]
      · exact ⟨sorted_ne_nil.mp hne,root,fun path hpath => hroot path (mem_sorted.mpr hpath),hlookup⟩
  · exact ⟨Nat.zero_le 1,fun p hp => absurd hp List.not_mem_nil⟩

/-- **Provider dispatch is default-deny**: a request starts at most one process, and only
one that every layer has authorized. -/
theorem dispatch_default_deny (P : Platform) (H : Host) (parsed : String → SandboxResult → Bool)
    (b : Boundary) (request : ProviderDispatchRequest) (policy : ProviderRoutePolicy)
    (runId : String) :
    (b.dispatchRequest P H parsed request policy runId).2.length ≤ 1 ∧
      ∀ p ∈ (b.dispatchRequest P H parsed request policy runId).2,
        ∃ id selected adapter runner, Authorized b policy request p id selected adapter runner := by
  have hnone : ∀ {r : Except DispatchError ProviderDispatchResult},
      (r,([] : List Started)).2.length ≤ 1 ∧ ∀ p ∈ (r,([] : List Started)).2,
        ∃ id selected adapter runner, Authorized b policy request p id selected adapter runner :=
    ⟨Nat.zero_le 1,fun p hp => absurd hp List.not_mem_nil⟩
  rw [Boundary.dispatchRequest]
  split_ifs
  · exact hnone
  split
  · exact hnone
  rename_i route hroute
  rw [Boundary.execute]
  split_ifs
  · exact hnone
  split
  · exact hnone
  rename_i selected hselected
  obtain ⟨id,hfirst⟩ := of_routeProvider hroute hselected
  split
  · exact hnone
  rename_i adapter hadapter
  split_ifs with h1 h2 h3
  · exact hnone
  · exact hnone
  · exact hnone
  rw [Bool.not_eq_true', Bool.not_eq_false, List.all_eq_true] at h3
  split
  · exact hnone
  rename_i runner hrunner
  split
  · exact hnone
  rename_i envelope henvelope
  obtain ⟨hlen,hall⟩ := start_authorized (P := P) (H := H) hfirst hadapter hrunner
    (fun c hc => of_decide_eq_true (h3 c hc)) henvelope
  exact ⟨hlen,fun p hp => ⟨id,selected,adapter,runner,hall p hp⟩⟩

def sampleHost : Host where
  directory _ _ := .ok ()
  pinned _ _ := .ok ()
  starts _ := true
  outcome _ := .ran "passed" "done"

def sampleBoundary : Boundary where
  catalog := [sampleProfile]
  adapters := [("codex-cli/codex-cli",sampleAdapter)]
  runners := [("codex-cli/codex-cli",⟨[(sampleCall "fix the bug").argv],[],false,[("workspace","/w")]⟩)]

def sampleRequest : ProviderDispatchRequest where
  taskId := "t1"
  prompt := "fix the bug"
  allowedPaths := ["workspace"]
  capabilities := ["read"]
  metadata := []
  named := by decide
  paths := by decide
  allowed := by decide

def samplePolicy : ProviderRoutePolicy where
  preferredIds := ["codex-cli/codex-cli"]
  fallbackIds := []
  requiredCapabilities := ["read"]
  allowFallback := false
  maxCandidates := 1
  ids_safe := by decide
  ids_nodup := by decide
  required_allowed := by decide
  one_candidate := by decide

example : (sampleBoundary.dispatchRequest samplePlatform sampleHost (fun _ _ => true)
    sampleRequest samplePolicy "r1").2 = [⟨(sampleCall "fix the bug").argv,"/w",[]⟩] := by decide

end PdFleet.Runtime
