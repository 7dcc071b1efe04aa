import Phlo.Library.Fallible
import Phlo.Library.JsonText

/-!
# Canonical audit events

`CanonicalAuditEvent` with its fields as the JSON values they hold, its dictionary, and the event that
keyword arguments give.  Nothing checks the type of a field.

* `ofKwargs_members` — the members of an event's dictionary are keywords that give the event back, with
  its roles as a list.
-/

namespace Phlo.Audit

open Phlo.Library

inductive AuditError where
  | typeError (message : String)
  | jsonDecodeError
  | databaseError
  deriving DecidableEq

/-- `type(value).__name__` -/
def typeName : JsonValue → String
  | .null => "NoneType"
  | .bool _ => "bool"
  | .int _ => "int"
  | .float _ => "float"
  | .str _ => "str"
  | .arr _ => "list"
  | .obj _ => "dict"

/-- `list(value)` -/
def listOf : JsonValue → Except AuditError JsonValue
  | .arr items => .ok (.arr items)
  | .str s => .ok (.arr (s.toList.map fun c => .str (String.singleton c)))
  | .obj fields => .ok (.arr (fields.map fun field => .str field.1))
  | v => .error (.typeError ("'" ++ typeName v ++ "' object is not iterable"))

/-- `value or "unknown"` as a name rows are filed under; the database compares only texts with it. -/
def orUnknown : JsonValue → Except AuditError String
  | .null | .bool false | .int 0 | .str "" | .arr [] | .obj [] => .ok "unknown"
  | .str s => .ok s
  | .float text =>
    if text.chars.any fun c => c.isDigit && c != '0' then .error .databaseError else .ok "unknown"
  | _ => .error .databaseError

def AUDIT_SCHEMA_VERSION : String := "1.0"

structure CanonicalAuditEvent where
  schemaVersion : JsonValue
  eventType : JsonValue
  eventId : JsonValue
  timestamp : JsonValue
  surface : JsonValue
  actorSubject : JsonValue
  actorType : JsonValue
  actorRoles : JsonValue
  authenticationSource : JsonValue
  action : JsonValue
  resourceType : JsonValue
  resourceId : JsonValue
  decision : JsonValue
  reasonCode : JsonValue
  policyId : JsonValue
  explanation : JsonValue
  requestId : JsonValue
  correlationId : JsonValue
  parentCorrelationId : JsonValue
  runId : JsonValue
  sourceIp : JsonValue
  targetStateBefore : JsonValue
  targetStateAfter : JsonValue
  changeReason : JsonValue
  outcome : JsonValue
  attributes : JsonValue

namespace CanonicalAuditEvent

def members (e : CanonicalAuditEvent) (roles : JsonValue) : List (String × JsonValue) :=
  [("schema_version", e.schemaVersion), ("event_type", e.eventType), ("event_id", e.eventId),
    ("timestamp", e.timestamp), ("surface", e.surface), ("actor_subject", e.actorSubject),
    ("actor_type", e.actorType), ("actor_roles", roles),
    ("authentication_source", e.authenticationSource), ("action", e.action),
    ("resource_type", e.resourceType), ("resource_id", e.resourceId), ("decision", e.decision),
    ("reason_code", e.reasonCode), ("policy_id", e.policyId), ("explanation", e.explanation),
    ("request_id", e.requestId), ("correlation_id", e.correlationId),
    ("parent_correlation_id", e.parentCorrelationId), ("run_id", e.runId),
    ("source_ip", e.sourceIp), ("target_state_before", e.targetStateBefore),
    ("target_state_after", e.targetStateAfter), ("change_reason", e.changeReason),
    ("outcome", e.outcome), ("attributes", e.attributes)]

def toDict (e : CanonicalAuditEvent) : Except AuditError JsonValue := do
  let roles ← listOf e.actorRoles
  .ok (.obj (e.members roles))

/-- The parameters of the constructor. -/
def fieldNames : List String :=
  ["schema_version", "event_type", "event_id", "timestamp", "surface", "actor_subject", "actor_type",
    "actor_roles", "authentication_source", "action", "resource_type", "resource_id", "decision",
    "reason_code", "policy_id", "explanation", "request_id", "correlation_id",
    "parent_correlation_id", "run_id", "source_ip", "target_state_before", "target_state_after",
    "change_reason", "outcome", "attributes"]

/-- What the default factories of the identifier and the time give. -/
structure Fresh where
  eventId : String
  timestamp : String

/-- `CanonicalAuditEvent(**kwargs)` -/
def ofKwargs (fresh : Fresh) (kwargs : List (String × JsonValue)) : Except AuditError CanonicalAuditEvent :=
  let given (name : String) (default : JsonValue) : JsonValue := (kwargs.lookup name).getD default
  match kwargs.find? fun field => !fieldNames.contains field.1 with
  | some field =>
    .error (.typeError
      ("CanonicalAuditEvent.__init__() got an unexpected keyword argument '" ++ field.1 ++ "'"))
  | none =>
    .ok
      { schemaVersion := given "schema_version" (.str AUDIT_SCHEMA_VERSION)
        eventType := given "event_type" (.str "")
        eventId := given "event_id" (.str fresh.eventId)
        timestamp := given "timestamp" (.str fresh.timestamp)
        surface := given "surface" (.str "")
        actorSubject := given "actor_subject" (.str "")
        actorType := given "actor_type" (.str "")
        actorRoles := given "actor_roles" (.arr [])
        authenticationSource := given "authentication_source" (.str "")
        action := given "action" (.str "")
        resourceType := given "resource_type" (.str "")
        resourceId := given "resource_id" (.str "")
        decision := given "decision" (.str "")
        reasonCode := given "reason_code" (.str "")
        policyId := given "policy_id" .null
        explanation := given "explanation" .null
        requestId := given "request_id" .null
        correlationId := given "correlation_id" (.str "")
        parentCorrelationId := given "parent_correlation_id" (.str "")
        runId := given "run_id" .null
        sourceIp := given "source_ip" .null
        targetStateBefore := given "target_state_before" .null
        targetStateAfter := given "target_state_after" .null
        changeReason := given "change_reason" .null
        outcome := given "outcome" (.str "")
        attributes := given "attributes" (.obj []) }

theorem map_fst_members (e : CanonicalAuditEvent) (roles : JsonValue) :
    (e.members roles).map Prod.fst = fieldNames := rfl

theorem ofKwargs_members (fresh : Fresh) (e : CanonicalAuditEvent) (roles : JsonValue) :
    ofKwargs fresh (e.members roles) = .ok { e with actorRoles := roles } := by
  have hknown : (e.members roles).find? (fun field => !fieldNames.contains field.1) = none := by
    apply List.find?_eq_none.2
    intro field hfield
    have hname : field.1 ∈ fieldNames := by
      rw [← map_fst_members e roles]
      exact List.mem_map_of_mem hfield
    simp [hname]
  rw [ofKwargs, hknown]
  simp [members, List.lookup_cons]

theorem toDict_eq_ok {e : CanonicalAuditEvent} {d : JsonValue} :
    e.toDict = .ok d ↔ ∃ roles, listOf e.actorRoles = .ok roles ∧ d = .obj (e.members roles) := by
  rw [toDict, bind_eq_ok]
  constructor
  · intro h
    obtain ⟨roles, hroles, hd⟩ := h
    cases hd
    exact ⟨roles, hroles, rfl⟩
  · intro h
    obtain ⟨roles, hroles, rfl⟩ := h
    exact ⟨roles, hroles, rfl⟩

theorem listOf_listOf {v roles : JsonValue} (h : listOf v = .ok roles) : listOf roles = .ok roles := by
  cases v <;> cases h <;> rfl

theorem surface_eq_of_sortKeys {e e' : CanonicalAuditEvent} {d d' : JsonValue}
    (hd : e.toDict = .ok d) (hd' : e'.toDict = .ok d') (h : d.sortKeys = d'.sortKeys) :
    e.surface.sortKeys = e'.surface.sortKeys := by
  obtain ⟨roles, -, rfl⟩ := toDict_eq_ok.1 hd
  obtain ⟨roles', -, rfl⟩ := toDict_eq_ok.1 hd'
  have hfields : sortBy Prod.fst (JsonValue.sortFields (e.members roles)) =
      sortBy Prod.fst (JsonValue.sortFields (e'.members roles')) := by
    simpa only [JsonValue.sortKeys, JsonValue.obj.injEq] using h
  have hmem : ("surface", e.surface.sortKeys) ∈ JsonValue.sortFields (e'.members roles') := by
    rw [← mem_sortBy Prod.fst, ← hfields, mem_sortBy]
    simp [members, JsonValue.sortFields]
  simpa [members, JsonValue.sortFields] using hmem

theorem orUnknown_sortKeys (v : JsonValue) : orUnknown v.sortKeys = orUnknown v := by
  cases v with
  | arr items => cases items <;> rfl
  | obj fields =>
    cases hfields : sortBy Prod.fst (JsonValue.sortFields fields) with
    | nil =>
      have hlength := length_sortBy Prod.fst (JsonValue.sortFields fields)
      rw [hfields] at hlength
      cases fields with
      | nil => rw [JsonValue.sortKeys, hfields]
      | cons field fields => simp [JsonValue.sortFields] at hlength
    | cons first rest =>
      cases fields with
      | nil => cases hfields
      | cons field fields =>
        rw [JsonValue.sortKeys, hfields]
        rfl
  | _ => rfl

/-- Two events with one dictionary up to the order of members are filed alike. -/
theorem orUnknown_eq_of_sortKeys {e e' : CanonicalAuditEvent} {d d' : JsonValue}
    (hd : e.toDict = .ok d) (hd' : e'.toDict = .ok d') (h : d.sortKeys = d'.sortKeys) :
    orUnknown e.surface = orUnknown e'.surface := by
  rw [← orUnknown_sortKeys e.surface, surface_eq_of_sortKeys hd hd' h, orUnknown_sortKeys]

end CanonicalAuditEvent

end Phlo.Audit
