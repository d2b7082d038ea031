import ManifestMigration.Rule.Basic
import ManifestMigration.Duration

/-! # Health checks

The spec of a health check keeps what is checked under `checks` and what is done about it under
`remediation`:

| old place in `spec`   | new place in `spec`                                |
|-----------------------|----------------------------------------------------|
| `nodeStartupTimeout`  | `checks.nodeStartupTimeoutSeconds`                 |
| `unhealthyConditions` | `checks.unhealthyNodeConditions`                   |
| `maxUnhealthy`        | `remediation.triggerIf.unhealthyLessThanOrEqualTo` |
| `remediationTemplate` | `remediation.templateRef`                          |

Times that are short durations become whole seconds; other times are carried over. What stands at a
new place of the remediation already is kept.
-/

namespace ManifestMigration.HealthCheck

def kind : String := "MachineHealthCheck"

/-- The fields of a remediation template that a reference to it holds. -/
def templateKeys : List String := ["kind", "name", "apiVersion"]

/-- A short duration in seconds; any other value as it is. -/
def inSeconds (value : Node) : Node :=
  match value.string?.bind Duration.seconds? with
  | some seconds => .integer seconds
  | none => value

def insertSome (key : String) (value : Option Node) (m : Mapping) : Mapping :=
  match value with
  | some v => m.insert key v
  | none => m

/-- The timeout of a condition in seconds; a null timeout is none. -/
def timeoutSeconds? (condition : Mapping) : Option Node :=
  match condition.get? "timeout" with
  | none => none
  | some timeout => if timeout.isNull then none else some (inSeconds timeout)

/-- The fields that a condition keeps: its type, its status and its timeout. -/
def conditionFields (condition : Mapping) : Mapping :=
  insertSome "timeoutSeconds" (timeoutSeconds? condition)
    (insertSome "status" (condition.get? "status")
      (insertSome "type" (condition.get? "type") .empty))

/-- A condition in its new form; none when nothing of it is kept. -/
def convertCondition? : Node → Option Node
  | .mapping condition =>
    let fields := conditionFields condition
    if fields.isEmpty then none else some (.mapping fields)
  | _ => none

def convertConditions (conditions : Node) : List Node :=
  (conditions.sequence?.getD []).filterMap convertCondition?

/-- The conditions to be stored: none when there is nothing to store. -/
def newConditions? (spec : Mapping) : Option Node :=
  match spec.get? "unhealthyConditions" with
  | none => none
  | some conditions =>
    let converted := convertConditions conditions
    if converted.isEmpty then none else some (.sequence converted)

def newChecks (spec : Mapping) : Mapping :=
  insertSome "unhealthyNodeConditions" (newConditions? spec)
    (insertSome "nodeStartupTimeoutSeconds" ((spec.get? "nodeStartupTimeout").map inSeconds)
      (spec.child "checks"))

def moveChecks (spec : Mapping) : Mapping × Bool :=
  let checks := newChecks spec
  let rest := (spec.erase "nodeStartupTimeout").erase "unhealthyConditions"
  (if spec.hasChild "checks" || !checks.isEmpty then rest.insert "checks" (.mapping checks)
    else rest,
   spec.contains "nodeStartupTimeout" || spec.contains "unhealthyConditions")

def insertNew (key : String) (value : Node) (m : Mapping) : Mapping :=
  if m.contains key then m else m.insert key value

/-- Add the fields of a template, as far as a reference lacks them. -/
def fillFrom (template : Mapping) : List String → Mapping → Mapping
  | [], reference => reference
  | key :: rest, reference =>
    fillFrom template rest <|
      match template.get? key with
      | some value => insertNew key value reference
      | none => reference

def withThreshold (threshold : Option Node) (remediation : Mapping) : Mapping :=
  match threshold with
  | none => remediation
  | some value =>
    remediation.insert "triggerIf"
      (.mapping (insertNew "unhealthyLessThanOrEqualTo" value (remediation.child "triggerIf")))

def withTemplate (template : Option Node) (remediation : Mapping) : Mapping :=
  match template with
  | some (.mapping fields) =>
    remediation.insert "templateRef"
      (.mapping (fillFrom fields templateKeys (remediation.child "templateRef")))
  | _ => remediation

def newRemediation (spec : Mapping) : Mapping :=
  withTemplate (spec.get? "remediationTemplate")
    (withThreshold (spec.get? "maxUnhealthy") (spec.child "remediation"))

def moveRemediation (spec : Mapping) : Mapping × Bool :=
  let remediation := newRemediation spec
  let rest := (spec.erase "maxUnhealthy").erase "remediationTemplate"
  (if spec.hasChild "remediation" || !remediation.isEmpty then
      rest.insert "remediation" (.mapping remediation)
    else rest,
   spec.contains "maxUnhealthy" || spec.contains "remediationTemplate")

def spec? (m : Mapping) : Option Mapping :=
  if m.hasKind kind then (m.get? "spec").bind Node.mapping? else none

theorem spec?_eq_some_iff {m spec : Mapping} :
    spec? m = some spec ↔ m.hasKind kind = true ∧ m.get? "spec" = some (.mapping spec) := by
  unfold spec?
  cases m.hasKind kind with
  | false => simp
  | true =>
      cases m.get? "spec" with
      | none => simp
      | some value => cases value <;> simp [Node.mapping?]

def restructure (m : Mapping) : Mapping × Bool :=
  match spec? m with
  | none => (m, false)
  | some spec =>
    let (spec₁, checks) := moveChecks spec
    let (spec₂, remediation) := moveRemediation spec₁
    (m.insert "spec" (.mapping spec₂), checks || remediation)

def notes (m : Mapping) : List Note :=
  match spec? m with
  | none => []
  | some spec =>
    let (spec₁, checks) := moveChecks spec
    let remediation := (moveRemediation spec₁).2
    if checks || remediation then [.healthCheckRestructured checks remediation] else []

end ManifestMigration.HealthCheck
