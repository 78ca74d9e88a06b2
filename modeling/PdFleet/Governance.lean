import PdFleet.Gates
import PdFleet.Progress
import PdFleet.Validate

/-!
# Governance gates

How the orchestrator decides whether a gate has passed. A review and a grill need a
human verification record that is bound to the run and to the scope of the plan; the
other gates are results that the policy evaluates.
-/

set_option autoImplicit false

namespace PdFleet.Gates

/-- What `_canonical_gate_scope` makes of a scope. -/
structure GateScope where
  schemaVersion : String
  planHash : String
  tasks : List String
  waves : List String
  deriving DecidableEq, Repr

def texts : Json → Option (List String)
  | .arr xs => xs.mapM Json.text?
  | _ => none

/-- `_canonical_gate_scope`. -/
def canonicalGateScope : Json → Option GateScope
  | .obj o => do
    if !Obj.hasExactly o ["schema_version","plan_hash","tasks","waves"] then none
    let schemaVersion ← (get o "schema_version").text?
    let planHash ← (get o "plan_hash").text?
    let tasks ← texts (get o "tasks")
    let waves ← texts (get o "waves")
    return ⟨schemaVersion,planHash,sortTexts tasks,sortedSet waves⟩
  | _ => none

inductive Gate where
  | missing
  | human (g : HumanVerificationGate)
  /-- A mapping; `plain` tells that it is a `dict`. -/
  | mapping (plain : Bool) (o : Obj)
  | result (g : GateResult)

def humanKeys : List String :=
  ["owner","identity","decision","scope","evidence_digest","artifact_digest","freshness_window"]

/-- Whether a mapping has the keys of a human verification record. -/
def humanShaped (o : Obj) : Bool := humanKeys.all o.has && (o.has "run" || o.has "run_id")

def governed : List String := ["review","grill"]

/-- Whether a run and a scope are those that are expected. -/
def bound (T : Tables) (run scope expectedRun expectedScope : Json) : Bool :=
  isRun T expectedRun && expectedRun.text? = run.text? &&
    (canonicalGateScope expectedScope).isSome &&
    canonicalGateScope scope = canonicalGateScope expectedScope

def HumanVerificationGate.allows (T : GateTables) (g : HumanVerificationGate) (now : Option ℕ)
    (expectedRun expectedScope : Json) : Bool :=
  now.any (fun now => match g.evaluate T now expectedRun expectedScope with
    | .ok status => status = .passed
    | .error _ => false)

/-- `_gate_passed`, at the instant that the clock gives, if it gives one. -/
def gatePassed (T : GateTables) (now : Option ℕ) (expectedRun expectedScope : Json) : Gate → Bool
  | .missing => false
  | .human g =>
    bound T.toTables (.str g.run) g.scope expectedRun expectedScope &&
      g.allows T now expectedRun expectedScope
  | .mapping plain o =>
    if humanShaped o then
      bound T.toTables (getElse o "run" (get o "run_id")) (get o "scope") expectedRun
          expectedScope &&
        match HumanVerificationGate.fromDict T plain o with
        | .ok g => g.allows T now expectedRun expectedScope
        | .error _ => false
    else if (givenType o).text?.any (· ∈ governed) then false
    else if o.has "gate_id" || o.has "gate_type" then
      match GateResult.fromDict T o with
      | .ok g => contractPolicy.allows T g
      | .error _ => false
    else false
  | .result g => g.gateType ∉ governed && contractPolicy.allows T g

/-! ## What a passed gate shows -/

/-- The human verification record that a gate value denotes. -/
def Gate.human? (T : GateTables) : Gate → Option HumanVerificationGate
  | .human g => some g
  | .mapping plain o => (HumanVerificationGate.fromDict T plain o).toOption
  | _ => none

/-- The gate result that a gate value denotes. -/
def Gate.result? (T : GateTables) : Gate → Option GateResult
  | .result g => some g
  | .mapping _ o => (GateResult.fromDict T o).toOption
  | _ => none

/-- Two scopes of one schema and one plan with the same tasks and the same waves. -/
def SameScope (scope scope' : Json) : Prop :=
  (∃ g, canonicalGateScope scope = some g ∧ canonicalGateScope scope' = some g) ∧
    canonicalScope scope = canonicalScope scope'

/-- The gate is a human verification record for the expected run and scope. -/
def Bound (T : GateTables) (expectedRun expectedScope : Json) (v : Gate) : Prop :=
  ∃ g, v.human? T = some g ∧ expectedRun = .str g.run ∧ SameScope g.scope expectedScope

/-- The gate is a result of an automatic gate type. -/
def Automatic (T : GateTables) (v : Gate) : Prop :=
  ∃ g, v.result? T = some g ∧ g.gateType ∉ governed

/-- A passing result, given as a mapping, whose gate type names a governed one with
white space around it. -/
def Padded (T : GateTables) : Gate → Prop
  | .mapping _ o => humanShaped o = false ∧ (o.has "gate_id" || o.has "gate_type") = true ∧
      (∃ s, givenType o = .str s ∧ s ∉ governed ∧ stripText T.toTables s ∈ governed) ∧
      ∃ g, GateResult.fromDict T o = .ok g ∧ contractPolicy.allows T g = true
  | _ => False

theorem of_text {T : Tables} {name : String} {value : Json} {s : String}
    (h : text T name value = .ok s) : ∃ given, value = .str given ∧ s = stripText T given := by
  cases value with
  | str given =>
    rw [text] at h
    split at h
    · cases h
    · cases h
      exact ⟨given,rfl,rfl⟩
  | _ => cases h

/-- The gate type of a result is the given one without the white space around it. -/
theorem of_fromDict {T : GateTables} {o : Obj} {g : GateResult}
    (h : GateResult.fromDict T o = .ok g) :
    ∃ s, givenType o = .str s ∧ g.gateType = stripText T.toTables s := by
  obtain ⟨id,-,h⟩ := ok_of_bind h
  obtain ⟨kind,hkind,h⟩ := ok_of_bind h
  obtain ⟨-,-,h⟩ := ok_of_bind h
  obtain ⟨status,-,h⟩ := ok_of_bind h
  obtain ⟨owner,-,h⟩ := ok_of_bind h
  obtain ⟨decision,-,h⟩ := ok_of_bind h
  obtain ⟨blockers,-,h⟩ := ok_of_bind h
  obtain ⟨-,-,h⟩ := ok_of_bind h
  obtain ⟨evidence,-,h⟩ := ok_of_bind h
  obtain ⟨reports,-,h⟩ := ok_of_bind h
  obtain ⟨details,-,h⟩ := ok_of_bind h
  obtain ⟨-,-,h⟩ := ok_of_bind h
  obtain ⟨-,-,h⟩ := ok_of_bind h
  cases h
  obtain ⟨s,hs,rfl⟩ := of_text hkind
  exact ⟨s,hs,rfl⟩

/-- What a mapping that denotes a human verification record gives: every value that a
record needs, and the run and the scope of the record. -/
theorem of_human_fromDict {T : GateTables} {plain : Bool} {o : Obj} {g : HumanVerificationGate}
    (h : HumanVerificationGate.fromDict T plain o = .ok g) :
    text T.toTables "owner" (get o "owner") = .ok g.owner ∧
    text T.toTables "identity" (get o "identity") = .ok g.identity ∧
    text T.toTables "run" (getElse o "run" (get o "run_id")) = .ok g.run ∧
    humanDecision T (get o "decision") = .ok g.decision ∧
    digest "evidence_digest" (get o "evidence_digest") = .ok g.evidenceDigest ∧
    digest "artifact_digest" (get o "artifact_digest") = .ok g.artifactDigest ∧
    freshness T (get o "freshness_window") = .ok g.freshnessWindow ∧
    frozenScope T.toTables (get o "scope") = .ok g.scope := by
  obtain ⟨-,-,h⟩ := ok_of_bind h
  obtain ⟨-,-,h⟩ := ok_of_bind h
  obtain ⟨-,-,h⟩ := ok_of_bind h
  obtain ⟨owner,howner,h⟩ := ok_of_bind h
  obtain ⟨identity,hidentity,h⟩ := ok_of_bind h
  obtain ⟨run,hrun,h⟩ := ok_of_bind h
  obtain ⟨decision,hdecision,h⟩ := ok_of_bind h
  obtain ⟨evidence,hevidence,h⟩ := ok_of_bind h
  obtain ⟨artifact,hartifact,h⟩ := ok_of_bind h
  obtain ⟨created,-,h⟩ := ok_of_bind h
  obtain ⟨updated,-,h⟩ := ok_of_bind h
  obtain ⟨-,-,h⟩ := ok_of_bind h
  obtain ⟨window,hwindow,h⟩ := ok_of_bind h
  obtain ⟨scope,hscope,h⟩ := ok_of_bind h
  obtain ⟨blockers,-,h⟩ := ok_of_bind h
  obtain ⟨-,-,h⟩ := ok_of_bind h
  cases h
  exact ⟨howner,hidentity,hrun,hdecision,hevidence,hartifact,hwindow,hscope⟩

theorem has_of_get {o : Obj} {k : String} (h : get o k ≠ .null) : o.has k = true := by
  rw [Obj.has]
  cases hf : o.field k with
  | none => exact absurd (by simp [get,hf]) h
  | some v => rfl

/-- A mapping that denotes a human verification record has the keys of one. -/
theorem humanShaped_of_fromDict {T : GateTables} {plain : Bool} {o : Obj}
    {g : HumanVerificationGate} (h : HumanVerificationGate.fromDict T plain o = .ok g) :
    humanShaped o = true := by
  obtain ⟨howner,hidentity,hrun,hdecision,hevidence,hartifact,hwindow,hscope⟩ :=
    of_human_fromDict h
  have hkeys : humanKeys.all o.has = true := by
    simp only [humanKeys, List.all_cons, List.all_nil, Bool.and_true, Bool.and_eq_true]
    refine ⟨has_of_get ?_,has_of_get ?_,has_of_get ?_,has_of_get ?_,has_of_get ?_,
      has_of_get ?_,has_of_get ?_⟩
    · intro hn; rw [hn] at howner; cases howner
    · intro hn; rw [hn] at hidentity; cases hidentity
    · intro hn; rw [hn] at hdecision; cases hdecision
    · intro hn; rw [hn] at hscope; cases hscope
    · intro hn; rw [hn] at hevidence; cases hevidence
    · intro hn; rw [hn] at hartifact; cases hartifact
    · intro hn; rw [hn] at hwindow; cases hwindow
  have hruns : (o.has "run" || o.has "run_id") = true := by
    by_contra hno
    simp only [Bool.or_eq_true, not_or, Obj.has, Bool.not_eq_true, Option.isSome_eq_false_iff,
      Option.isNone_iff_eq_none] at hno
    rw [getElse, get, hno.1, hno.2] at hrun
    cases hrun
  rw [humanShaped, hkeys, hruns]
  rfl

theorem of_bound {T : Tables} {run scope expectedRun expectedScope : Json}
    (h : bound T run scope expectedRun expectedScope = true) :
    ∃ g, canonicalGateScope scope = some g ∧ canonicalGateScope expectedScope = some g := by
  simp only [bound, Bool.and_eq_true, decide_eq_true_eq] at h
  obtain ⟨⟨-,hsome⟩,heq⟩ := h
  obtain ⟨g,hg⟩ := Option.isSome_iff_exists.mp hsome
  exact ⟨g,heq.trans hg,hg⟩

theorem of_allows {T : GateTables} {g : HumanVerificationGate} {now : Option ℕ}
    {expectedRun expectedScope : Json} (h : g.allows T now expectedRun expectedScope = true) :
    expectedRun = .str g.run ∧ canonicalScope g.scope = canonicalScope expectedScope := by
  cases now with
  | none => cases h
  | some now =>
    rw [HumanVerificationGate.allows, Option.any_some, HumanVerificationGate.evaluate] at h
    by_cases hpending : (!isRun T.toTables expectedRun || isNone expectedScope ||
        canonicalScope expectedScope = none || canonicalScope g.scope = none ||
        !expectedRun.isStr g.run || canonicalScope g.scope ≠ canonicalScope expectedScope) = true
    · rw [if_pos hpending] at h
      simp at h
    · simp only [Bool.or_eq_true, not_or, Bool.not_eq_true', Bool.not_eq_false,
        decide_eq_true_eq, not_not] at hpending
      obtain ⟨⟨-,hrun⟩,hscope⟩ := hpending
      constructor
      · cases expectedRun with
        | str s => simpa [Json.isStr] using hrun
        | _ => simp [Json.isStr] at hrun
      · exact hscope

theorem scope_of_fromDict {T : GateTables} {plain : Bool} {o : Obj} {g : HumanVerificationGate}
    (h : HumanVerificationGate.fromDict T plain o = .ok g) {s : GateScope}
    (hs : canonicalGateScope (get o "scope") = some s) : g.scope = get o "scope" := by
  obtain ⟨-,-,-,-,-,-,-,hscope⟩ := of_human_fromDict h
  cases ho : get o "scope" with
  | obj kvs =>
    rw [ho] at hscope
    obtain ⟨-,-,hscope⟩ := ok_of_bind hscope
    exact (Except.ok.inj hscope).symm
  | _ => simp [ho,canonicalGateScope] at hs

section

variable {T : GateTables} {now : Option ℕ} {expectedRun expectedScope : Json} {v : Gate}

theorem bound_human {g : HumanVerificationGate}
    (h : gatePassed T now expectedRun expectedScope (.human g) = true) :
    Bound T expectedRun expectedScope (.human g) := by
  rw [gatePassed, Bool.and_eq_true] at h
  obtain ⟨hrun,hscope⟩ := of_allows h.2
  exact ⟨g,rfl,hrun,of_bound h.1,hscope⟩

/-- A mapping with the keys of a human verification record passes as one only. -/
theorem bound_mapping {plain : Bool} {o : Obj} (ho : humanShaped o = true)
    (h : gatePassed T now expectedRun expectedScope (.mapping plain o) = true) :
    Bound T expectedRun expectedScope (.mapping plain o) := by
  rw [gatePassed, if_pos ho, Bool.and_eq_true] at h
  obtain ⟨hb,ha⟩ := h
  obtain ⟨s,hs,hs'⟩ := of_bound hb
  cases hg : HumanVerificationGate.fromDict T plain o with
  | error e => simp [hg] at ha
  | ok g =>
    simp only [hg] at ha
    obtain ⟨hrun,hscope⟩ := of_allows ha
    have he : g.scope = get o "scope" := scope_of_fromDict hg hs
    refine ⟨g,by simp [Gate.human?,hg,Except.toOption],hrun,⟨s,?_,hs'⟩,hscope⟩
    rw [he]
    exact hs

/-- A mapping that passes without those keys is a result of an automatic gate type,
unless white space hid a governed one. -/
theorem automatic_mapping {plain : Bool} {o : Obj} (ho : humanShaped o = false)
    (hp : ¬ Padded T (.mapping plain o))
    (h : gatePassed T now expectedRun expectedScope (.mapping plain o) = true) :
    Automatic T (.mapping plain o) := by
  rw [gatePassed, if_neg (by simp [ho])] at h
  split_ifs at h with hgov hid
  cases hg : GateResult.fromDict T o with
  | error e => simp [hg] at h
  | ok g =>
    simp only [hg] at h
    obtain ⟨s,hs,htype⟩ := of_fromDict hg
    refine ⟨g,by simp [Gate.result?,hg,Except.toOption],fun hmem => hp ⟨ho,hid,⟨s,hs,?_,?_⟩,g,hg,h⟩⟩
    · simpa [hs,Json.text?] using hgov
    · rwa [htype] at hmem

/-- A padded gate type passes as no record of a human and with a governed gate type. -/
theorem of_padded (h : Padded T v) : gatePassed T now expectedRun expectedScope v = true ∧
    ¬ (Bound T expectedRun expectedScope v ∨ Automatic T v) := by
  cases v with
  | mapping plain o =>
    obtain ⟨ho,hid,⟨s,hs,hraw,hstrip⟩,g,hg,hallows⟩ := h
    constructor
    · rw [gatePassed, if_neg (by simp [ho]), if_neg (by simpa [hs,Json.text?] using hraw),
        if_pos hid, hg]
      exact hallows
    · rintro (⟨r,hr,-⟩ | ⟨r,hr,htype⟩)
      · cases hf : HumanVerificationGate.fromDict T plain o with
        | error e => simp [Gate.human?,hf,Except.toOption] at hr
        | ok r' => simp [humanShaped_of_fromDict hf] at ho
      · simp only [Gate.result?, hg, Except.toOption, Option.some.injEq] at hr
        obtain ⟨s',hs',htype'⟩ := of_fromDict hg
        have hss : s' = s := by simpa [hs] using hs'.symm
        exact htype (by rw [← hr, htype', hss]; exact hstrip)
  | missing => cases h
  | human g => cases h
  | result g => cases h

/-- A gate that passes is a human verification record for the run and its scope, or a
result of an automatic gate type, exactly if it is not a passing result with white space
around a governed gate type. -/
theorem passed_gate_governed_iff :
    (gatePassed T now expectedRun expectedScope v = true →
      Bound T expectedRun expectedScope v ∨ Automatic T v) ↔ ¬ Padded T v := by
  constructor
  · intro h hp
    obtain ⟨hpass,hneither⟩ := of_padded hp
    exact hneither (h hpass)
  · intro hp h
    cases v with
    | missing => cases h
    | human g => exact Or.inl (bound_human h)
    | mapping plain o =>
      by_cases ho : humanShaped o = true
      · exact Or.inl (bound_mapping ho h)
      · exact Or.inr (automatic_mapping (by simpa using ho) hp h)
    | result g =>
      simp only [gatePassed, Bool.and_eq_true, decide_eq_true_eq] at h
      exact Or.inr ⟨g,rfl,h.1⟩

end

def asciiGates : GateTables where
  toTables := ascii
  upper := List.map Char.toUpper
  casefold := List.map Char.toLower
  float _ := 0

/-- A review with a blank before its gate type, and with no record of a human. -/
def paddedReview : Gate := .mapping true
  [("gate_id",.str "g"),("gate_type",.str " review"),("status",.str "passed"),
    ("owner",.str "bot"),("decision",.str "ok"),("evidence",.arr [.str "e"]),
    ("reports",.arr [.str "r"])]

theorem padded_review_passes :
    gatePassed asciiGates none (.str "run") .null paddedReview = true ∧
    ¬ (Bound asciiGates (.str "run") .null paddedReview ∨ Automatic asciiGates paddedReview) :=
  of_padded ⟨by decide,by decide,⟨" review",rfl,by decide,by decide⟩,_,rfl,by decide⟩

end PdFleet.Gates
