import PdFleet.Dispatch
import PdFleet.Lib.PathTree

/-!
# Requests and envelopes

A dispatch request is checked when it is made, and once more, by other code, when the
boundary makes the envelope of the selected profile from it. The two checks of paths
disagree on backslashes: the request reads a doubled one as a slash, the envelope each.
-/

set_option autoImplicit false

namespace PdFleet.Runtime

/-! ## Profiles -/

/-- `_PROVIDER_NETWORK_CONFLICTS`. -/
def networkConflicts : List String := ["write","execute","shell","network","nested_agents"]

/-- `_runtime_caps`, with the check that provider egress stands alone. -/
def runtimeCaps (network : Bool) (capabilities : List String) : Bool :=
  capabilities.all (fun c => c ≠ "" && c ∈ allowedCapabilities) &&
    !(network && capabilities.any (· ∈ networkConflicts))

/-- What `RuntimePolicy.__post_init__` lets pass. -/
def RuntimePolicy.constructed (p : RuntimePolicy) : Bool :=
  runtimeCaps p.allowProviderNetwork p.allowedCapabilities &&
    (!p.allowProviderNetwork || "provider_network" ∈ p.allowedCapabilities)

/-- What `RuntimeProviderProfile.__post_init__` lets pass, as far as capabilities go. -/
def RuntimeProviderProfile.constructed (p : RuntimeProviderProfile) : Bool :=
  runtimeCaps ("provider_network" ∈ p.capabilities) p.capabilities && p.policy.constructed

/-- The profile and its policy have every capability of the request. -/
def Contains (p : RuntimeProviderProfile) (request : ProviderDispatchRequest) : Prop :=
  ∀ c ∈ request.capabilities, c ∈ p.capabilities ∧ c ∈ p.policy.allowedCapabilities

/-- The envelope that `_execute` makes. -/
def envelopeOf (request : ProviderDispatchRequest) (p : RuntimeProviderProfile) :
    Except RuntimeError RuntimeTaskEnvelope :=
  RuntimeTaskEnvelope.make request.taskId request.prompt p request.allowedPaths
    request.capabilities false request.metadata

/-! ## Paths -/

def isSeparator (c : Char) : Bool := c = '/' || c = '\\'

/-- Somewhere in the path, separators of either kind or its ends enclose two dots. -/
def Climbs (path : String) : Prop :=
  ∃ before after, path.toList = before ++ '.' :: '.' :: after ∧
    (∀ c ∈ before.getLast?, isSeparator c = true) ∧ ∀ c ∈ after.head?, isSeparator c = true

theorem slashed_append (s t : List Char) : slashed (s++t) = slashed s++slashed t :=
  List.map_append

theorem slashed_separator {c : Char} :
    isSeparator c = true ↔ (if c = '\\' then '/' else c) = '/' := by
  by_cases h : c = '\\' <;> simp [isSeparator, h]

/-- Two dots come from two dots only. -/
theorem slashed_dots {s : List Char} (h : slashed s = ['.','.']) : s = ['.','.'] := by
  have hdot : ∀ c : Char, (if c = '\\' then '/' else c) = '.' → c = '.' := by
    intro c hc
    split_ifs at hc with hb
    · exact absurd hc (by decide)
    · exact hc
  obtain ⟨a,t,rfl,ha,ht⟩ := List.map_eq_cons_iff.mp h
  obtain ⟨b,u,rfl,hb,hu⟩ := List.map_eq_cons_iff.mp ht
  rw [hdot a ha, hdot b hb, List.map_eq_nil_iff.mp hu]

theorem climbs_iff {path : String} :
    Climbs path ↔ "..".toList ∈ (slashed path.toList).splitOn '/' := by
  have hdots : "..".toList = ['.','.'] := rfl
  rw [PathTree.mem_splitOn_iff, hdots, Climbs]
  constructor
  · rintro ⟨before,after,h,hlast,hhead⟩
    refine ⟨by decide,slashed before,slashed after,?_,?_,?_⟩
    · rw [h, slashed_append]
      simp [slashed]
    · rw [slashed, List.getLast?_map]
      intro c hc
      obtain ⟨d,hd,rfl⟩ := Option.map_eq_some_iff.mp hc
      exact slashed_separator.mp (hlast d hd)
    · rw [slashed, List.head?_map]
      intro c hc
      obtain ⟨d,hd,rfl⟩ := Option.map_eq_some_iff.mp hc
      exact slashed_separator.mp (hhead d hd)
  · rintro ⟨-,before,after,h,hlast,hhead⟩
    rw [slashed, List.map_eq_append_iff] at h
    obtain ⟨front,tail,hpath,hfront,rfl⟩ := h
    rw [List.map_eq_append_iff] at hfront
    obtain ⟨start,dots,rfl,rfl,hword⟩ := hfront
    obtain rfl := slashed_dots hword
    refine ⟨start,tail,by rw [hpath, List.append_assoc]; rfl,?_,?_⟩
    · intro c hc
      apply slashed_separator.mpr
      apply hlast
      rw [List.getLast?_map, hc]
      rfl
    · intro c hc
      apply slashed_separator.mpr
      apply hhead
      rw [List.head?_map, hc]
      rfl

/-- The first part of a text. -/
theorem headD_splitOn_iff {l r : List Char} (hr : '/' ∉ r) :
    (l.splitOn '/').headD [] = r ↔ l = r ∨ r++['/'] <+: l := by
  rw [← PathTree.splitOn_prefix_iff, List.splitOn_eq_singleton hr]
  obtain ⟨v,vs,hv⟩ := List.exists_cons_of_ne_nil (List.splitOn_ne_nil '/' l)
  rw [hv]
  simp [eq_comm]

/-- Where the doubled backslashes begin is behind the first part. -/
theorem of_slashDoubled {t r u : List Char} (hr : '/' ∉ r) (h : slashDoubled t = r++u) :
    ∃ t', t = r++t' ∧ slashDoubled t' = u := by
  induction r generalizing t with
  | nil => exact ⟨t,rfl,h⟩
  | cons c r ih =>
    rw [List.mem_cons, not_or] at hr
    rw [slashDoubled.eq_def] at h
    split at h
    · rw [List.cons_append, List.cons.injEq] at h
      exact absurd h.1 hr.1
    · rw [List.cons_append, List.cons.injEq] at h
      obtain ⟨rfl,h⟩ := h
      obtain ⟨t',rfl,ht⟩ := ih hr.2 h
      exact ⟨t',rfl,ht⟩
    · cases h

theorem slashed_of_slashDoubled {t u : List Char} (h : slashDoubled t = '/' :: u) :
    ∃ u', slashed t = '/' :: u' := by
  rw [slashDoubled.eq_def] at h
  split at h
  · exact ⟨_,rfl⟩
  · rw [List.cons.injEq] at h
    rw [h.1]
    exact ⟨_,rfl⟩
  · cases h

def roots : List (List Char) := ["workspace","artifacts","inputs","outputs"].map String.toList

theorem root_plain {r : List Char} (h : r ∈ roots) :
    '/' ∉ r ∧ slashed r = r ∧ r.head?.any (· ∈ ['/','\\','~']) = false := by
  revert r
  decide

/-- Both validators find the same first part. -/
theorem root_agrees {path : String}
    (h : ((slashDoubled path.toList).splitOn '/').headD [] ∈ roots) :
    ((slashed path.toList).splitOn '/').headD [] ∈ roots ∧
      path.toList.head?.any (· ∈ ['/','\\','~']) = false := by
  obtain ⟨hslash,hself,hfirst⟩ := root_plain h
  generalize hr : ((slashDoubled path.toList).splitOn '/').headD [] = r at h hslash hself hfirst
  have hne : r ≠ [] := by
    rintro rfl
    revert h
    decide
  obtain ⟨t,hpath,hrest⟩ : ∃ t, path.toList = r++t ∧ (t = [] ∨ ∃ u, slashed t = '/' :: u) := by
    rcases (headD_splitOn_iff hslash).mp hr with h' | ⟨u,h'⟩
    · obtain ⟨t,ht,hd⟩ := of_slashDoubled hslash (h'.trans (List.append_nil r).symm)
      refine ⟨t,ht,Or.inl ?_⟩
      rw [slashDoubled.eq_def] at hd
      split at hd
      · cases hd
      · cases hd
      · rfl
    · rw [List.append_assoc, List.singleton_append] at h'
      obtain ⟨t,ht,hd⟩ := of_slashDoubled hslash h'.symm
      exact ⟨t,ht,Or.inr (slashed_of_slashDoubled hd)⟩
  constructor
  · have hhead : ((slashed path.toList).splitOn '/').headD [] = r := by
      rw [headD_splitOn_iff hslash, hpath, slashed_append, hself]
      rcases hrest with rfl | ⟨u,hu⟩
      · exact Or.inl (List.append_nil r)
      · rw [hu]
        exact Or.inr ⟨u,by simp⟩
    rw [hhead]
    exact h
  · obtain ⟨c,r',rfl⟩ := List.exists_cons_of_ne_nil hne
    rw [hpath]
    exact hfirst

/-- A path that the request accepts is denied by the envelope exactly if it climbs. -/
theorem safePath_iff {path : String} (h : requestPath path = true) :
    safePath path = true ↔ ¬Climbs path := by
  simp only [requestPath, Bool.and_eq_true, Bool.not_eq_true', decide_eq_true_iff] at h
  obtain ⟨⟨⟨⟨-,hdrive⟩,hroot⟩,-⟩,hcontrol⟩ := h
  obtain ⟨hroot',hfirst⟩ := root_agrees hroot
  rw [climbs_iff, safePath]
  simp only [hfirst, hdrive, hcontrol, Bool.not_false, Bool.true_and, Bool.and_true,
    Bool.and_eq_true, decide_eq_true_iff]
  exact and_iff_right hroot'

/-! ## Envelopes -/

theorem require_ok_iff {α : Type} {b : Bool} {e : RuntimeError} {k : Except RuntimeError α} :
    (∃ x, (require b e >>= fun _ => k) = .ok x) ↔ b = true ∧ ∃ x, k = .ok x := by
  cases b with
  | true => simp [require, bind, Except.bind]
  | false => simp [require, bind, Except.bind]

/-- Every other check of the envelope repeats one that request, profile or policy passed. -/
theorem envelopeOf_iff {request : ProviderDispatchRequest} {p : RuntimeProviderProfile}
    (hp : p.constructed = true) (hready : p.readiness = .ready) (hc : Contains p request) :
    (∃ env, envelopeOf request p = .ok env) ↔ request.allowedPaths.all safePath = true := by
  have hpaths : request.allowedPaths.all (· ≠ "") = true := by
    rw [List.all_eq_true]
    intro path hpath
    apply decide_eq_true
    rintro rfl
    exact absurd (request.paths "" hpath) (by decide)
  have hfilled : request.capabilities.all (· ≠ "") = true := by
    rw [List.all_eq_true]
    intro c hmem
    apply decide_eq_true
    rintro rfl
    exact absurd (request.allowed "" hmem).1 (by decide)
  have hknown : request.capabilities.all (· ∈ allowedCapabilities) = true :=
    List.all_eq_true.mpr fun c hmem => decide_eq_true (request.allowed c hmem).1
  have hdenied : request.capabilities.any (· ∈ productionDenied) = false := by
    rw [List.any_eq_false]
    intro c hmem hden
    apply (request.allowed c hmem).2
    have : c ∈ productionDenied := of_decide_eq_true hden
    simp only [productionDenied, List.mem_cons, List.not_mem_nil, or_false] at this
    rcases this with rfl | rfl <;> decide
  have hnested : "nested_agents" ∉ request.capabilities := fun hmem =>
    (request.allowed _ hmem).2 (by decide)
  have hegress : ("provider_network" ∉ request.capabilities || p.policy.allowProviderNetwork &&
      !request.capabilities.any (· ∈ egressConflicts)) = true := by
    by_cases hnet : "provider_network" ∈ request.capabilities
    · have hmine := (hc _ hnet).1
      have hallow : p.policy.allowProviderNetwork = true := by
        rw [RuntimeProviderProfile.readiness] at hready
        split_ifs at hready with h1 h2 h3 h4 h5 h6
        simpa [hmine] using h4
      -- a profile with egress has no capability that conflicts with it
      have hnone : request.capabilities.any (· ∈ egressConflicts) = false := by
        rw [List.any_eq_false]
        intro c hmem hconf
        have hapart := (Bool.and_eq_true _ _ ▸ (Bool.and_eq_true _ _ ▸ hp).1).2
        rw [decide_eq_true hmine, Bool.true_and, Bool.not_eq_true', List.any_eq_false] at hapart
        apply hapart c (hc c hmem).1
        have : c ∈ egressConflicts := of_decide_eq_true hconf
        simp only [egressConflicts, List.mem_cons, List.not_mem_nil, or_false] at this
        rcases this with rfl | rfl | rfl | rfl <;> decide
      rw [hallow, hnone]
      simp
    · simp [hnet]
  have hprofile : request.capabilities.all (· ∈ p.capabilities) = true :=
    List.all_eq_true.mpr fun c hmem => decide_eq_true (hc c hmem).1
  have hpolicy : request.capabilities.all (· ∈ p.policy.allowedCapabilities) = true :=
    List.all_eq_true.mpr fun c hmem => decide_eq_true (hc c hmem).2
  have hnamed : (decide (request.taskId ≠ "") && decide (request.prompt ≠ "")) = true := by
    simp [request.named]
  simp only [envelopeOf, RuntimeTaskEnvelope.make, require_ok_iff, hpaths, hfilled, hknown,
    hdenied, hegress, hnested, hprofile, hpolicy, hnamed]
  simp [pure, Except.pure]

/-- No boundary that routes the request to the profile lets a runtime error out. -/
def Contained (request : ProviderDispatchRequest) (p : RuntimeProviderProfile) : Prop :=
  ∀ (P : Platform) (H : Host) (parsed : String → SandboxResult → Bool) (b : Boundary)
    (policy : ProviderRoutePolicy) (runId : String) (route : ProviderRouteResult),
    routeProvider request.taskId runId policy b.catalog = .ok route → route.selected = some p →
      ∀ e, (b.dispatchRequest P H parsed request policy runId).1 ≠ .error (.runtime e)

theorem contained_of_envelope {request : ProviderDispatchRequest} {p : RuntimeProviderProfile}
    {env : RuntimeTaskEnvelope} (h : envelopeOf request p = .ok env) : Contained request p := by
  intro P H parsed b policy runId route hroute hselected e
  rw [Boundary.dispatchRequest]
  split_ifs
  · simp
  rw [hroute]
  dsimp only
  rw [Boundary.execute]
  split_ifs
  · simp
  rw [hselected]
  dsimp only
  split
  · simp
  split_ifs
  · simp
  · simp
  · simp
  split
  · simp
  rw [envelopeOf] at h
  rw [h]
  simp

/-- **The validators agree** on a request and a ready profile that contains it exactly if no
path of the request climbs. -/
theorem validators_agree_iff (request : ProviderDispatchRequest) (p : RuntimeProviderProfile)
    (hp : p.constructed = true) (hready : p.readiness = .ready) (hc : Contains p request) :
    ((∃ env, envelopeOf request p = .ok env) ∧ Contained request p) ↔
      ∀ path ∈ request.allowedPaths, ¬Climbs path := by
  have hall : request.allowedPaths.all safePath = true ↔
      ∀ path ∈ request.allowedPaths, ¬Climbs path := by
    rw [List.all_eq_true]
    exact forall₂_congr fun path hpath => safePath_iff (request.paths path hpath)
  rw [← hall, ← envelopeOf_iff hp hready hc]
  exact and_iff_left_of_imp fun ⟨_,henv⟩ => contained_of_envelope henv

theorem validators_agree_sample : (∃ env, envelopeOf sampleRequest sampleProfile = .ok env) ∧
    Contained sampleRequest sampleProfile :=
  (validators_agree_iff sampleRequest sampleProfile (by decide) (by decide)
    (by simp [Contains, sampleRequest, sampleProfile])).mpr
      (by simp [sampleRequest, climbs_iff]; decide)

/-- A request whose path climbs behind single backslashes. -/
def climbingRequest : ProviderDispatchRequest where
  taskId := "t1"
  prompt := "fix the bug"
  allowedPaths := ["workspace/a\\..\\b"]
  capabilities := ["read"]
  metadata := []
  named := sampleRequest.named
  paths := by decide
  allowed := sampleRequest.allowed

/-- The envelope denies it, and the error leaves the boundary. -/
theorem envelope_denied : sampleProfile.constructed = true ∧ sampleProfile.readiness = .ready ∧
    Contains sampleProfile climbingRequest ∧
    (∀ env, envelopeOf climbingRequest sampleProfile ≠ .ok env) ∧
    (sampleBoundary.dispatchRequest samplePlatform sampleHost (fun _ _ => true) climbingRequest
      samplePolicy "r1").1 matches .error (.runtime (.capability .pathDenied)) := by
  refine ⟨by decide,by decide,by simp [Contains, climbingRequest, sampleProfile],?_,by decide⟩
  intro env h
  have hall := (envelopeOf_iff (by decide) (by decide)
    (by simp [Contains, climbingRequest, sampleProfile])).mp ⟨env,h⟩
  revert hall
  decide

end PdFleet.Runtime
