import VerdantBond.Lib.Outcome

set_option autoImplicit false

/-! # Data shared by the contracts

The types of `contracts/shared`, and the host context in which an entry point runs. Amounts
(`i128`) are `Int`, identifiers, counters and times (`u64`, `u32`) are `Nat`; the arithmetic on
them is checked where the code checks it (`Lib/Outcome.lean`).
-/

namespace VerdantBond

/-- An account or contract address. Addresses are compared for equality and, in the auction,
by the host's total order. -/
structure Address where
  id : Nat
  deriving DecidableEq, Repr

/-- A `BytesN<32>`, as the number its bytes spell: the host's byte order is the numeric one. -/
structure Bytes32 where
  val : Nat
  deriving DecidableEq, Repr

abbrev Symbol := String

instance : LinearOrder Address :=
  LinearOrder.lift' Address.id (fun a b h => by cases a; cases b; simpa using h)

instance : LinearOrder Bytes32 :=
  LinearOrder.lift' Bytes32.val (fun a b h => by cases a; cases b; simpa using h)

inductive CreditType where
  | carbon
  | biodiversity
  | basket
  | blueCarbon
  deriving DecidableEq, Repr

inductive BondStatus where
  | active
  | matured
  | defaulted
  deriving DecidableEq, Repr

inductive ReportStatus where
  | pending
  | verified
  | challenged
  | rejected
  deriving DecidableEq, Repr

inductive BiodiversityMetrics where
  | absent
  | present (habitat species units : Int)
  deriving DecidableEq, Repr

structure BondConfig where
  projectId : Bytes32
  faceValue : Int
  couponSchedule : List Nat
  creditType : CreditType
  maturityDate : Nat
  totalSupply : Int
  creditVintage : Nat
  serialNumberStart : Int
  serialNumberEnd : Int
  deriving DecidableEq, Repr

/-- A report of the oracle consumer, with the fields the coupon engine reads. -/
structure Report where
  id : Nat
  projectId : Bytes32
  periodStart : Nat
  periodEnd : Nat
  carbonSequestered : Int
  biodiversity : BiodiversityMetrics
  methodology : Symbol
  status : ReportStatus
  deriving DecidableEq, Repr

structure TrueUpAdjustment where
  bondId : Nat
  periodIndex : Nat
  adjustmentAmount : Int
  reason : Symbol
  ipfsEvidenceHash : Bytes32
  timestamp : Nat
  applied : Bool
  deriving DecidableEq, Repr

structure ProjectStalenessConfig where
  threshold1Secs : Nat
  threshold2Secs : Nat
  conservatismDiscountBps : Nat
  deriving DecidableEq, Repr

/-- The staleness view of a project, with the fields the coupon engine reads. -/
structure StalenessState where
  currentTier : Nat
  discountBps : Nat
  deriving DecidableEq, Repr

inductive BondError where
  | notInitialized
  | unauthorized
  | invalidNonce
  | bondNotFound
  | bondAlreadyMatured
  | insufficientSupply
  | zeroAmount
  | projectNotApproved
  | overflow
  | reportNotVerified
  | invalidReport
  | invalidSupply
  | redemptionUnderfunded
  | incompatibleMethodologyCreditType
  | performanceFlagged
  | insufficientAttestations
  | migrationInProgress
  | oracleStaleManualInterventionRequired
  | projectDisputedAndFrozen
  | invalidWaterfall
  | waterfallAlreadyClaimed
  | invalidBalanceSnapshot
  | redemptionQueueRequired
  | duplicateRedemptionRequest
  | invalidRedemptionBudget
  | auctionRequired
  | invalidAuction
  | auctionClosed
  | subscriptionIneligible
  | identityCapExceeded
  | invalidCovenant
  | invalidEquivalence
  | unknownEquivalence
  | adminTransferPending
  | adminTransferExpired
  | noAdminTransferPending
  deriving DecidableEq, Repr

inductive OracleError where
  | notInitialized
  | unauthorized
  | invalidNonce
  | providerNotFound
  | providerAlreadyExists
  | reportNotFound
  | reportAlreadyVerified
  | challengeWindowExpired
  | insufficientStake
  | invalidSignature
  | invalidResolution
  | overlappingReportPeriod
  | insufficientQuorum
  | oracleStale
  | disputeBondInsufficient
  | projectDisputed
  deriving DecidableEq, Repr

inductive DEXError where
  | notInitialized
  | unauthorized
  | invalidNonce
  | orderNotFound
  | orderAlreadyFilled
  | insufficientBalance
  | selfBuyNotAllowed
  | orderExpired
  | zeroAmount
  | insufficientFunds
  | overflow
  | noPriceData
  | invalidMarketConfig
  | marketNotConfigured
  | invalidOraclePrice
  | oracleZeroVolume
  | oracleLowVolume
  | oracleStale
  | oraclePaused
  | priceDeviationExceeded
  | ledgerVolumeExceeded
  | invalidCommitment
  | revealTooEarly
  | revealWindowClosed
  | transferPreconditionFailed
  deriving DecidableEq, Repr

inductive CreditError where
  | notInitialized
  | unauthorized
  | insufficientCredits
  | alreadyRetired
  | invalidNonce
  | notAHolder
  | invalidCertificate
  | invalidCreditType
  deriving DecidableEq, Repr

inductive ProjectStatus where
  | pending
  | approved
  | rejected
  | inactive
  deriving DecidableEq, Repr

inductive RegistryError where
  | notInitialized
  | unauthorized
  | projectNotFound
  | projectAlreadyExists
  | invalidStatusTransition
  | invalidNonce
  | invalidArgument
  deriving DecidableEq, Repr

/-- The ledger an entry point runs in. -/
structure Clock where
  sequence : Nat
  timestamp : Nat
  deriving DecidableEq, Repr

/-- What the host and the contracts outside this development answer during one call. A `none`
answer of another contract is a failed invocation, which aborts the caller. -/
structure Env where
  /-- The addresses whose authorization the transaction carries. -/
  authorized : Address → Bool
  /-- SHA-256 of the big-endian bytes of a `u64`. -/
  sha256 : Nat → Bytes32
  /-- `has_approved_project` of the project registry. -/
  hasApprovedProject : Address → Bytes32 → Option Bool
  /-- `get_project_methodology` of the project registry. -/
  getProjectMethodology : Address → Bytes32 → Option Symbol
  /-- Whether a token contract lets a covered transfer `(token, source, target, amount)` pass. -/
  tokenAccepts : Address → Address → Address → Int → Bool
  /-- `is_project_disputed` of the oracle consumer. -/
  isProjectDisputed : Bytes32 → Option Bool
  /-- `get_project_staleness_state` of the oracle consumer, at a time. -/
  getProjectStalenessState : Bytes32 → Nat → Option StalenessState
  /-- `get_report` of the oracle consumer. -/
  getReport : Nat → Option Report
  /-- `get_verification_count` of the oracle consumer. -/
  getVerificationCount : Nat → Option Nat

/-- `address.require_auth()`. -/
def requireAuth {ε : Type} (env : Env) (address : Address) : Outcome ε Unit :=
  hostRequire (env.authorized address = true)

@[simp] theorem requireAuth_ok_iff {ε : Type} {env : Env} {address : Address} {u : Unit} :
    (requireAuth env address : Outcome ε Unit) = .ok u ↔ env.authorized address = true :=
  hostRequire_ok_iff

end VerdantBond
