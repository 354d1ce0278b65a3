import Nighthawk.Lib.Py
import Nighthawk.Lib.Text

/-!
# Dynamic configuration

The managers of `dynamic_config_manager.py`. Both move entries at random between an active and an
inactive list, and write the active ones to a file.
-/

namespace Nighthawk.DynamicConfig

open Py

/-! ## The settings -/

namespace Settings

structure Endpoint where
  ip : Str
  port : UInt32
  deriving DecidableEq, Repr

structure Cluster where
  name : Str
  endpoints : List Endpoint
  deriving DecidableEq, Repr

end Settings

structure DynamicClusterConfigManagerSettings where
  clusters : List Settings.Cluster
  outputFile : Str := []

structure DynamicEndpointsConfigManagerSettings where
  cluster : Settings.Cluster
  outputFile : Str := []

/-- The address of an `LbEndpoint`. -/
structure LbEndpoint where
  address : Str
  portValue : UInt32
  deriving DecidableEq, Repr

/-- What of the cluster message is not the same in every cluster. -/
structure Cluster where
  name : Str
  clusterName : Str
  lbEndpoints : List LbEndpoint
  deriving DecidableEq, Repr

structure ClusterLoadAssignment where
  clusterName : Str
  lbEndpoints : List LbEndpoint
  deriving DecidableEq, Repr

def parseAvailableEndpoints (endpoints : List Settings.Endpoint) : List LbEndpoint :=
  endpoints.map fun e => ⟨e.ip, e.port⟩

def parseAvailableClusters (config : DynamicClusterConfigManagerSettings) : List Cluster :=
  config.clusters.map fun c => ⟨c.name, c.name, parseAvailableEndpoints c.endpoints⟩

/-! ## A manager -/

inductive Action where
  | add | remove
  deriving DecidableEq, Repr

def mutateActions : List Action := [.add, .remove]

structure DiscoveryResponse (γ : Type) where
  versionInfo : Str
  resources : List γ
  deriving DecidableEq, Repr

/-- Packing a message and unpacking it gives the message. -/
structure Packing (α β : Type) where
  pack : α → β
  unpack : β → α
  unpack_pack : ∀ a, unpack (pack a) = a

/-- How an entry stands in the active list, and which resources are written for the active list. -/
structure Entry (α β γ : Type) extends Packing α β where
  resources : List β → List γ

/-- `written` is the output file. -/
structure Manager (α β γ : Type) where
  versionInfo : Str
  active : List β
  inactive : List α
  lastMutateAction : Option Action
  outputFile : Str
  written : Option (Str × DiscoveryResponse γ)
  deriving DecidableEq, Repr

section

variable {α β γ : Type} (entry : Entry α β γ) (random : Random α)

/-- The loop `while clusters`: the number of its turns so far, and how many may follow. -/
def assignInitial (k : ℕ) : ℕ → List α × List β × List α → Except Exception (List α × List β × List α)
  | 0, lists => .ok lists
  | turns + 1, (entries, active, inactive) =>
    if entries = [] then .ok (entries, active, inactive)
    else do
      let addAsActive ← random.choice k [true, false]
      let (popped, entries) ← pop entries
      assignInitial (k + 1) turns
        (entries, if addAsActive then
          (active ++ [entry.pack popped], inactive) else (active, inactive ++ [popped]))

def create (entries : List α) (outputFile : Str) : Except Exception (Manager α β γ) := do
  let (_, active, inactive) ← assignInitial entry random 0 entries.length (entries, [], [])
  return { versionInfo := "1".toList, active, inactive, lastMutateAction := none, outputFile, written := none }

def activate : ℕ → List β × List α → Except Exception (List β × List α)
  | 0, lists => .ok lists
  | n + 1, (active, inactive) => do
    let (popped, inactive) ← pop inactive
    activate n (active ++ [entry.pack popped], inactive)

def addRandom (m : Manager α β γ) : Except Exception (Manager α β γ) := do
  let numToAdd ← random.randrange 1 (m.inactive.length + 1)
  -- All entries are active, or none is chosen.
  if m.inactive = [] ∨ numToAdd = 0 then return m
  else
    let (active, inactive) ← activate entry numToAdd (m.active, random.shuffle m.inactive)
    return { m with active, inactive }

def deactivate (k : ℕ) : ℕ → List β × List α → Except Exception (List β × List α)
  | 0, lists => .ok lists
  | n + 1, (active, inactive) => do
    let index ← random.randrange k active.length
    let (popped, active) ← popAt active index
    deactivate (k + 1) n (active, inactive ++ [entry.unpack popped])

def removeRandom (m : Manager α β γ) : Except Exception (Manager α β γ) := do
  let numToRemove ← random.randrange 1 (m.active.length + 1)
  if m.active = [] ∨ numToRemove = 0 then return m
  else
    let (active, inactive) ← deactivate entry random 2 numToRemove (m.active, m.inactive)
    return { m with active, inactive }

/-- `mutate`, with the two mutations of a manager. -/
def mutateWith (add remove : Random α → Manager α β γ → Except Exception (Manager α β γ))
    (m : Manager α β γ) :
    Except Exception (Manager α β γ) := do
  let action ← random.choice 0 mutateActions
  let m := { m with lastMutateAction := some action }
  match action with
  | .add => add random m
  | .remove => remove random m

def serializeToFile (m : Manager α β γ) : Manager α β γ :=
  { m with written := some (m.outputFile, ⟨m.versionInfo, entry.resources m.active⟩) }

/-- `str(int(version_info) + 1)`, where `int` raises for a text that is no number. -/
def nextVersion (m : Manager α β γ) : Except Exception (Manager α β γ) :=
  match Text.parseNumber m.versionInfo with
  | some version => .ok { m with versionInfo := Text.decimal (version + 1) }
  | none => .error .valueError

/-- `execute`, with the mutation of a manager. -/
def executeWith (mutate : Random α → Manager α β γ → Except Exception (Manager α β γ)) (m : Manager α β γ) :
    Except Exception (Manager α β γ) := do
  let m ← mutate random m
  let m ← nextVersion m
  return serializeToFile entry m

end

/-! ## The managers -/

def fileName (outputFile default : Str) : Str := if outputFile = [] then default else outputFile

namespace DynamicClusterConfigManager

/-- The packed clusters are the resources. -/
def entry {Any : Type} (any : Packing Cluster Any) : Entry Cluster Any Any := ⟨any, id⟩

variable {Any : Type} (any : Packing Cluster Any)

abbrev State (Any : Type) := Manager Cluster Any Any

def new (config : DynamicClusterConfigManagerSettings) (random : Random Cluster) :
    Except Exception (State Any) :=
  create (entry any) random (parseAvailableClusters config) (fileName config.outputFile "new_cds.pb".toList)

def addRandomClusters (random : Random Cluster) (m : State Any) : Except Exception (State Any) :=
  addRandom (entry any) random m

def removeRandomClusters (random : Random Cluster) (m : State Any) : Except Exception (State Any) :=
  removeRandom (entry any) random m

def mutate (random : Random Cluster) (m : State Any) : Except Exception (State Any) :=
  mutateWith random (addRandomClusters any) (removeRandomClusters any) m

def execute (m : State Any) (random : Random Cluster) : Except Exception (State Any) :=
  executeWith (entry any) random (mutate any) m

/-- A new manager, and one call of `execute` after another. -/
def run (config : DynamicClusterConfigManagerSettings) (random : Random Cluster)
    (calls : List (Random Cluster)) :
    Except Exception (State Any) := do
  let m ← new any config random
  calls.foldlM (execute any) m

end DynamicClusterConfigManager

namespace DynamicEndpointsConfigManager

/-- An endpoint stands in the active list itself. The one resource is the packed assignment. -/
def entry {Any : Type} (clusterName : Str) (pack : ClusterLoadAssignment → Any) :
    Entry LbEndpoint LbEndpoint Any :=
  ⟨⟨id, id, fun _ => rfl⟩, fun lbEndpoints => [pack ⟨clusterName, lbEndpoints⟩]⟩

abbrev State (Any : Type) := Manager LbEndpoint LbEndpoint Any

variable {Any : Type} (pack : ClusterLoadAssignment → Any) (config : DynamicEndpointsConfigManagerSettings)

def new (random : Random LbEndpoint) : Except Exception (State Any) :=
  create (entry config.cluster.name pack) random (parseAvailableEndpoints config.cluster.endpoints)
    (fileName config.outputFile "new_eds.pb".toList)

def addRandomEndpoints (random : Random LbEndpoint) (m : State Any) : Except Exception (State Any) :=
  addRandom (entry config.cluster.name pack) random m

def removeRandomEndpoints (random : Random LbEndpoint) (m : State Any) : Except Exception (State Any) :=
  removeRandom (entry config.cluster.name pack) random m

def mutate (random : Random LbEndpoint) (m : State Any) : Except Exception (State Any) :=
  mutateWith random (addRandomEndpoints pack config) (removeRandomEndpoints pack config) m

def execute (m : State Any) (random : Random LbEndpoint) : Except Exception (State Any) :=
  executeWith (entry config.cluster.name pack) random (mutate pack config) m

def run (random : Random LbEndpoint) (calls : List (Random LbEndpoint)) : Except Exception (State Any) := do
  let m ← new pack config random
  calls.foldlM (execute pack config) m

end DynamicEndpointsConfigManager

end Nighthawk.DynamicConfig
