import VerdantBond.Shared
import VerdantBond.Lib.Machine

set_option autoImplicit false

/-! # ProjectRegistry: storage, entry points and runs

The contract of `contracts/project-registry`. An owner registers a project and resubmits it after a
rejection; the admin approves, rejects and deactivates. The host keeps two storages apart: the
same key `Nonce(address)` in the persistent one and in the instance one are two entries, and both
are used, the instance one by `set_admin` alone (`nonce`, `instanceNonce`).
-/

namespace VerdantBond

open Function

structure Project where
  id : Nat
  owner : Address
  metadataIpfsHash : Bytes32
  status : ProjectStatus
  methodology : Symbol
  country : Symbol
  deriving DecidableEq, Repr

structure ProjectRegistry where
  admin : Option Address
  project : Bytes32 → Option Project
  projectCount : Nat
  ownerProjects : Address → List Nat
  projectDocuments : Nat → List Bytes32
  /-- `Nonce(address)` in persistent storage. -/
  nonce : Address → Nat
  /-- `Nonce(address)` in instance storage. -/
  instanceNonce : Address → Nat

def maxDocuments : Nat := 10

/-- The eight bytes of the number, then zeros. -/
def projectIdToBytes (id : Nat) : Bytes32 := ⟨id * 2 ^ 192⟩

namespace ProjectRegistry

/-- The contract just deployed. -/
def deploy (admin : Address) : ProjectRegistry where
  admin := some admin
  project := fun _ => none
  projectCount := 0
  ownerProjects := fun _ => []
  projectDocuments := fun _ => []
  nonce := fun _ => 0
  instanceNonce := fun _ => 0

variable (env : Env) (s : ProjectRegistry)

def requireAdmin (caller : Address) : Outcome RegistryError Unit := do
  let admin ← okOr s.admin .notInitialized
  reject (caller ≠ admin) .unauthorized

/-- The public `get_nonce`: it reads persistent storage. -/
def getNonce (address : Address) : Nat := s.nonce address

/-- The opening of every entry point but `set_admin`. The increment is not checked: the host aborts
on overflow. -/
def asCaller (caller : Address) (nonce : Nat) : Outcome RegistryError ProjectRegistry := do
  requireAuth env caller
  reject (nonce ≠ s.nonce caller) .invalidNonce
  let next ← orTrap (u64 (s.nonce caller + 1))
  pure { s with nonce := update s.nonce caller next }

def setProject (key : Bytes32) (project : Project) : ProjectRegistry :=
  { s with project := update s.project key (some project) }

/-- `register_project`, with the id of the project. -/
def registerProject (caller : Address) (metadataIpfsHash : Bytes32) (methodology country : Symbol)
    (nonce : Nat) : Outcome RegistryError (ProjectRegistry × Nat) := do
  let s₁ ← s.asCaller env caller nonce
  reject (metadataIpfsHash = ⟨0⟩) .projectNotFound
  let newId ← orTrap (u64 (s₁.projectCount + 1))
  let s₂ := setProject { s₁ with projectCount := newId } (projectIdToBytes newId)
    ⟨newId, caller, metadataIpfsHash, .pending, methodology, country⟩
  pure ({ s₂ with
    ownerProjects := update s₂.ownerProjects caller (s₂.ownerProjects caller ++ [newId]) }, newId)

/-- The admin moves a project from one status to another. -/
def moveProject (before after : ProjectStatus) (env : Env) (s : ProjectRegistry) (caller : Address)
    (projectId nonce : Nat) : Outcome RegistryError ProjectRegistry := do
  let s₁ ← s.asCaller env caller nonce
  s₁.requireAdmin caller
  let project ← okOr (s₁.project (projectIdToBytes projectId)) .projectNotFound
  reject (project.status ≠ before) .invalidStatusTransition
  pure (s₁.setProject (projectIdToBytes projectId) { project with status := after })

def approveProject := moveProject .pending .approved

def rejectProject := moveProject .pending .rejected

def deactivateProject := moveProject .approved .inactive

/-- `resubmit_project`: the owner's, with a new hash. -/
def resubmitProject (caller : Address) (projectId : Nat) (updatedIpfsHash : Bytes32) (nonce : Nat) :
    Outcome RegistryError ProjectRegistry := do
  let s₁ ← s.asCaller env caller nonce
  let project ← okOr (s₁.project (projectIdToBytes projectId)) .projectNotFound
  reject (project.owner ≠ caller) .unauthorized
  reject (project.status ≠ .rejected) .invalidStatusTransition
  pure (s₁.setProject (projectIdToBytes projectId)
    { project with metadataIpfsHash := updatedIpfsHash, status := .pending })

/-- `add_project_documents`: the owner's or the admin's. It replaces the list. -/
def addProjectDocuments (caller : Address) (projectId : Nat) (documentHashes : List Bytes32)
    (nonce : Nat) : Outcome RegistryError ProjectRegistry := do
  let s₁ ← s.asCaller env caller nonce
  reject (maxDocuments < documentHashes.length) .invalidArgument
  let project ← okOr (s₁.project (projectIdToBytes projectId)) .projectNotFound
  reject (project.owner ≠ caller ∧ s₁.requireAdmin caller ≠ .ok ()) .unauthorized
  pure { s₁ with projectDocuments := update s₁.projectDocuments projectId documentHashes }

/-- `set_admin`: its nonce is the one in instance storage. -/
def setAdmin (currentAdmin newAdmin : Address) (nonce : Nat) :
    Outcome RegistryError ProjectRegistry := do
  requireAuth env currentAdmin
  reject (nonce ≠ s.instanceNonce currentAdmin) .invalidNonce
  let next ← orTrap (u64 (s.instanceNonce currentAdmin + 1))
  s.requireAdmin currentAdmin
  pure { s with
    instanceNonce := update s.instanceNonce currentAdmin next
    admin := some newAdmin }

/-- `has_approved_project`, which the bond issuer asks. -/
def hasApprovedProject (key : Bytes32) : Bool :=
  match s.project key with
  | some project => project.status = .approved
  | none => false

/-- `get_project_methodology`, which the bond issuer asks. -/
def getProjectMethodology (key : Bytes32) : Symbol :=
  match s.project key with
  | some project => project.methodology
  | none => ""

end ProjectRegistry

/-! ## Calls -/

inductive RegistryCall where
  | registerProject (caller : Address) (metadataIpfsHash : Bytes32) (methodology country : Symbol)
      (nonce : Nat)
  | approveProject (caller : Address) (projectId nonce : Nat)
  | rejectProject (caller : Address) (projectId nonce : Nat)
  | deactivateProject (caller : Address) (projectId nonce : Nat)
  | resubmitProject (caller : Address) (projectId : Nat) (updatedIpfsHash : Bytes32) (nonce : Nat)
  | addProjectDocuments (caller : Address) (projectId : Nat) (documentHashes : List Bytes32)
      (nonce : Nat)
  | setAdmin (currentAdmin newAdmin : Address) (nonce : Nat)
  deriving DecidableEq, Repr

namespace RegistryCall

/-- The address that makes the call. -/
def caller : RegistryCall → Address
  | .registerProject caller _ _ _ _ => caller
  | .approveProject caller _ _ => caller
  | .rejectProject caller _ _ => caller
  | .deactivateProject caller _ _ => caller
  | .resubmitProject caller _ _ _ => caller
  | .addProjectDocuments caller _ _ _ => caller
  | .setAdmin currentAdmin _ _ => currentAdmin

/-- The nonce the call carries. -/
def nonce : RegistryCall → Nat
  | .registerProject _ _ _ _ nonce => nonce
  | .approveProject _ _ nonce => nonce
  | .rejectProject _ _ nonce => nonce
  | .deactivateProject _ _ nonce => nonce
  | .resubmitProject _ _ _ nonce => nonce
  | .addProjectDocuments _ _ _ nonce => nonce
  | .setAdmin _ _ nonce => nonce

/-- The project the call names. -/
def projectId : RegistryCall → Nat
  | .approveProject _ projectId _ => projectId
  | .rejectProject _ projectId _ => projectId
  | .deactivateProject _ projectId _ => projectId
  | .resubmitProject _ projectId _ _ => projectId
  | .addProjectDocuments _ projectId _ _ => projectId
  | _ => 0

/-- The arguments fit the types of the entry point's signature. -/
def WellTyped (call : RegistryCall) : Prop := call.nonce ≤ u64Max ∧ call.projectId ≤ u64Max

instance : DecidablePred WellTyped := fun _ => inferInstanceAs (Decidable (_ ∧ _))

def setsAdmin : RegistryCall → Bool
  | .setAdmin .. => true
  | _ => false

end RegistryCall

/-- What a successful call returns. -/
inductive RegistryReply where
  | unit
  | number (n : Nat)
  deriving DecidableEq, Repr

/-- A call that returns nothing. -/
def RegistryReply.ofUnit (x : Outcome RegistryError ProjectRegistry) :
    Outcome RegistryError (ProjectRegistry × RegistryReply) := do
  let s ← x
  pure (s, .unit)

/-- A call that returns a number. -/
def RegistryReply.ofNumber (x : Outcome RegistryError (ProjectRegistry × Nat)) :
    Outcome RegistryError (ProjectRegistry × RegistryReply) := do
  let (s, n) ← x
  pure (s, .number n)

namespace ProjectRegistry

open RegistryReply (ofUnit ofNumber)

/-- The entry point a call names. -/
def dispatch (env : Env) (s : ProjectRegistry) :
    RegistryCall → Outcome RegistryError (ProjectRegistry × RegistryReply)
  | .registerProject caller metadataIpfsHash methodology country nonce =>
      ofNumber (s.registerProject env caller metadataIpfsHash methodology country nonce)
  | .approveProject caller projectId nonce => ofUnit (approveProject env s caller projectId nonce)
  | .rejectProject caller projectId nonce => ofUnit (rejectProject env s caller projectId nonce)
  | .deactivateProject caller projectId nonce =>
      ofUnit (deactivateProject env s caller projectId nonce)
  | .resubmitProject caller projectId updatedIpfsHash nonce =>
      ofUnit (s.resubmitProject env caller projectId updatedIpfsHash nonce)
  | .addProjectDocuments caller projectId documentHashes nonce =>
      ofUnit (s.addProjectDocuments env caller projectId documentHashes nonce)
  | .setAdmin currentAdmin newAdmin nonce => ofUnit (s.setAdmin env currentAdmin newAdmin nonce)

/-- Decode the arguments and run the entry point. -/
def exec (env : Env) (s : ProjectRegistry) (call : RegistryCall) :
    Outcome RegistryError (ProjectRegistry × RegistryReply) := do
  hostRequire call.WellTyped
  s.dispatch env call

end ProjectRegistry

/-! ## Runs -/

/-- Anyone calls an entry point. -/
structure RegistryInput where
  env : Env
  call : RegistryCall

/-- One input, with its answer. A failed call changes nothing. -/
def ProjectRegistry.step (s : ProjectRegistry) (i : RegistryInput) :
    ProjectRegistry × Outcome RegistryError RegistryReply :=
  match s.exec i.env i.call with
  | .ok (s', reply) => (s', .ok reply)
  | .error fault => (s, .error fault)

/-- The registry as a machine. -/
def registryMachine : Machine ProjectRegistry RegistryInput (Outcome RegistryError RegistryReply) :=
  ⟨ProjectRegistry.step⟩

abbrev RegistryEvent := Event ProjectRegistry RegistryInput (Outcome RegistryError RegistryReply)

/-- The events of a run from the deployment. -/
def registryHistory (admin : Address) (l : List RegistryInput) : List RegistryEvent :=
  registryMachine.history (ProjectRegistry.deploy admin) l

end VerdantBond
