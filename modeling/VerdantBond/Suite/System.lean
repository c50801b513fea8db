import VerdantBond.Oracle.Reports
import VerdantBond.Protocol.Calculations

set_option autoImplicit false

/-! # The suite: the protocol and its oracle

In the protocol the oracle's answers are part of the environment of a call. Here they come from the
`OracleConsumer` of the suite, in the state it has at the moment of the call.
-/

namespace VerdantBond

open Function Machine

/-! ## Answers -/

/-- The environment with the answers of this oracle. -/
def OracleConsumer.answering (s : OracleConsumer) (env : Env) : Env :=
  { env with
    isProjectDisputed := fun projectId => some (s.isProjectDisputed projectId)
    getProjectStalenessState := fun projectId now =>
      some (s.getProjectStalenessState projectId now).toStalenessState
    getReport := fun reportId => (s.report reportId).map StoredReport.toReport
    getVerificationCount := fun reportId => some (s.getVerificationCount reportId) }

/-- The input, answered by this oracle. -/
def ProtocolInput.answered (s : OracleConsumer) : ProtocolInput → ProtocolInput
  | .issuer input => .issuer input
  | .coupon env call => .coupon (s.answering env) call
  | .retirement env call => .retirement (s.answering env) call

/-! ## The machine -/

structure SuiteWorld where
  protocol : ProtocolWorld
  oracle : OracleConsumer

inductive SuiteInput where
  | protocol (input : ProtocolInput)
  | oracle (env : Env) (call : OracleCall)

inductive SuiteReply where
  | protocol (reply : ProtocolReply)
  | oracle (reply : OracleReply)
  deriving DecidableEq, Repr

structure SuiteDeployment extends Deployment where
  oracleAdmin : Address

namespace SuiteWorld

def deploy (d : SuiteDeployment) : SuiteWorld :=
  ⟨ProtocolWorld.deploy d.toDeployment, OracleConsumer.deploy d.oracleAdmin⟩

/-- One input. A failed call answers `none` and changes nothing. -/
def step (w : SuiteWorld) : SuiteInput → SuiteWorld × Option SuiteReply
  | .protocol input =>
      ({ w with protocol := (w.protocol.step (input.answered w.oracle)).1 },
        (w.protocol.step (input.answered w.oracle)).2.map .protocol)
  | .oracle env call =>
      match w.oracle.exec env w.protocol.base.clock call with
      | .ok (oracle, reply) => ({ w with oracle := oracle }, some (.oracle reply))
      | .error _ => (w, none)

end SuiteWorld

/-- The suite as a machine. -/
def suiteMachine : Machine SuiteWorld SuiteInput (Option SuiteReply) := ⟨SuiteWorld.step⟩

/-- The world after the inputs `l`, from deployment. -/
def suiteRun (d : SuiteDeployment) (l : List SuiteInput) : SuiteWorld :=
  suiteMachine.run (SuiteWorld.deploy d) l

/-! ## A sample run -/

/-- The sample deployment, with the oracle under the same admin. -/
def sampleSuite : SuiteDeployment := ⟨sampleDeployment, ⟨1⟩⟩

/-- The provider of the reports, and a second one with the stake to verify them. -/
def sampleProviders : List SuiteInput :=
  [.oracle sampleEnv (.registerProvider ⟨1⟩ ⟨4⟩ "verra_vcs" 0),
    .oracle sampleEnv (.registerProvider ⟨1⟩ ⟨5⟩ "verra_vcs" 1),
    .oracle sampleEnv (.addStake ⟨5⟩ 10000 0)]

/-- The `n`th report, on the ten seconds from `start`, is submitted and verified. -/
def sampleVerified (n start : Nat) : List SuiteInput :=
  [.oracle sampleEnv (.submitReport
      ⟨⟨4⟩, ⟨7⟩, start, start + 10, 5000, .absent, "verra_vcs", ⟨1⟩, n - 1⟩),
    .oracle sampleEnv (.verifyReport ⟨1⟩ n (n + 1)), .oracle sampleEnv (.verifyReport ⟨5⟩ n n)]

/-- The project's staleness configuration takes twice the whole, from the first second on, and the
coupon is paid with no true-up pending. -/
def sampleOverDiscounted : List SuiteInput :=
  sampleProviders ++ sampleVerified 1 10
    ++ [.oracle sampleEnv (.setProjectStalenessConfig ⟨1⟩ ⟨7⟩ ⟨0, 2592000, 20000⟩ 3)]
    ++ sampleCoupon.map .protocol

end VerdantBond
