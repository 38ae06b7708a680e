/-
  Client manifests, heartbeats and status snapshots (`vad/control_plane/clients.py`).

  A manifest is the one model whose validator also rewrites a field: capabilities are stripped,
  deduplicated and sorted.  `normalizeCapabilities_idem` is what makes a stored manifest pass its
  own constructor unchanged.
-/
import Vad.ControlPlane.Model
import Vad.Lib.Text
import Mathlib.Data.List.Dedup

namespace Vad

open PyText (strip strip_strip)

inductive ClientType where
  | codex | claudeCode | vsCode | antigravity | windsurf | cursor | opencode | genericMcp | other
deriving DecidableEq, Repr

inductive ClientConnectionMode where
  | mcp | plugin | sdk | cli | http
deriving DecidableEq, Repr

inductive ClientTrustState where
  | untrusted | trusted | quarantined
deriving DecidableEq, Repr

def ClientTrustState.value : ClientTrustState → String
  | untrusted => "untrusted"
  | trusted => "trusted"
  | quarantined => "quarantined"

inductive ClientRuntimeStatus where
  | active | stale | disconnected
deriving DecidableEq, Repr

/-- `value.strip()` on a string. -/
def stripped (value : String) : String := String.ofList (strip value.toList)

theorem stripped_stripped (value : String) : stripped (stripped value) = stripped value := by
  simp [stripped, strip_strip]

/-- `tuple(sorted(set(value.strip() for value in values)))`. -/
def normalizeCapabilities (values : List String) : List String :=
  ((values.map stripped).dedup).insertionSort (· ≤ ·)

theorem mem_normalizeCapabilities {values : List String} {v : String} :
    v ∈ normalizeCapabilities values ↔ ∃ w ∈ values, stripped w = v := by
  rw [normalizeCapabilities, List.mem_insertionSort, List.mem_dedup, List.mem_map]

theorem normalizeCapabilities_idem (values : List String) :
    normalizeCapabilities (normalizeCapabilities values) = normalizeCapabilities values := by
  have hstrip : (normalizeCapabilities values).map stripped = normalizeCapabilities values := by
    conv_rhs => rw [← List.map_id (normalizeCapabilities values)]
    refine List.map_congr_left fun v hv => ?_
    obtain ⟨w, -, rfl⟩ := mem_normalizeCapabilities.mp hv
    exact stripped_stripped w
  have hnodup : (normalizeCapabilities values).Nodup :=
    (List.perm_insertionSort _ _).nodup_iff.mpr (List.nodup_dedup _)
  have hsorted : (normalizeCapabilities values).Pairwise (· ≤ ·) :=
    List.pairwise_insertionSort _ _
  calc normalizeCapabilities (normalizeCapabilities values)
      = (normalizeCapabilities values).insertionSort (· ≤ ·) := by
        rw [normalizeCapabilities, hstrip, List.Nodup.dedup hnodup]
    _ = normalizeCapabilities values := hsorted.insertionSort_eq

structure ClientManifest where
  clientId : String
  displayName : String
  clientType : ClientType
  version : String
  connectionMode : ClientConnectionMode
  supportedCapabilities : List String
  /-- The text of the path. -/
  workspaceRoot : String
  trustState : ClientTrustState := .untrusted
  requestedPolicyPermissions : List String := []
deriving DecidableEq, Repr

instance : Model ClientManifest where
  name := "ClientManifest"
  normalize m := { m with supportedCapabilities := normalizeCapabilities m.supportedCapabilities }
  checks m := [
    ("client_id", safeIdentifier 1 160 m.clientId),
    ("display_name", safeText 1 160 m.displayName),
    ("version", safeText 1 80 m.version),
    ("supported_capabilities", m.supportedCapabilities ≠ [] &&
      m.supportedCapabilities.all (fun v => v ≠ "" && !containsAny separators v)),
    ("workspace_root", !containsAny controls m.workspaceRoot),
    ("requested_policy_permissions", decide (m.requestedPolicyPermissions = []))]
  normalize_idem m := by simp [normalizeCapabilities_idem]

structure ClientHeartbeat where
  clientId : String
  runId : Option String := none
  taskId : Option String := none
  actor : String
  role : String
  status : ClientRuntimeStatus := .active
  observedAt : DateTime
  summary : String := "Client heartbeat."
deriving DecidableEq, Repr

instance : Model ClientHeartbeat where
  name := "ClientHeartbeat"
  normalize := id
  checks h := [
    ("client_id", safeIdentifier 1 160 h.clientId),
    ("run_id", optionally (safeIdentifier 0 160) h.runId),
    ("task_id", optionally (safeIdentifier 0 160) h.taskId),
    ("actor", safeIdentifier 1 160 h.actor),
    ("role", safeIdentifier 1 80 h.role),
    ("summary", safeText 1 300 h.summary)]
  normalize_idem _ := rfl

structure ClientStatusSnapshot where
  manifest : Checked ClientManifest
  status : ClientRuntimeStatus := .disconnected
  lastHeartbeatAt : Option DateTime := none
  lastRunId : Option String := none
  lastTaskId : Option String := none
  lostTaskLeases : List String := []

end Vad
