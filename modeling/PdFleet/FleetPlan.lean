import PdFleet.Text

/-!
# Plans of a fleet

The data of a plan, as far as its validation and its execution read it.
-/

set_option autoImplicit false

namespace PdFleet

structure AgentSpec where
  id : String
  role : String
  capabilities : List String

structure RetryPolicy where
  maxAttempts : ℕ
  retryableErrors : List String

structure TaskSpec (W : Type) where
  id : String
  wave : W
  role : String
  objective : String
  capabilities : List String
  dependsOn : List String
  allowedPaths : List String
  forbiddenPaths : List String
  outputs : List String
  acceptanceCriteria : List String
  validationCommands : List String
  retryPolicy : RetryPolicy
  owner : Option String
  status : String

structure WaveSpec where
  id : String
  gates : List String

structure GateSpec where
  id : String

structure FleetPlan (W : Type) where
  agents : List AgentSpec
  waves : List WaveSpec
  tasks : List (TaskSpec W)
  gates : List GateSpec

end PdFleet
