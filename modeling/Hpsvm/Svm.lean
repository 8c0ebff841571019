import Hpsvm.Outcome

/-! The VM of `lib.rs`: its state, protocol configuration and extension points. -/

namespace Hpsvm

/-- `Version`, with the fields execution and reconfiguration read. The tiering policy only decides
how an entry is compiled, and is left out with the tiers themselves. -/
structure Version where
  featureSet : FeatureSet
  lamportsPerSignature : Nat
  computeBudget : Option ComputeBudget
  logBytesLimit : Option Nat
  sigverify : Bool
  blockhashCheck : Bool
  computeDiagnostics : Bool

structure BlockEnv where
  latestBlockhash : Hash
  slot : Nat
deriving DecidableEq, Repr

structure MaterializedState where
  builtins : Bool := false
  defaultPrograms : Bool := false
  splPrograms : Bool := false
  featureAccounts : Bool := false
  sysvars : Bool := false
deriving DecidableEq, Repr

/-- `Svm` under the default transaction handlers, which execute every envelope the same way. The
installed inspector is not part of it: its hooks are observers of the execution modelled here. -/
structure Svm where
  accounts : Accounts
  history : TransactionHistory
  version : Version
  blockEnv : BlockEnv
  materialized : MaterializedState
  precompiles : List Precompile
  loadsStandardPrecompiles : Bool
  customSyscalls : List CustomSyscall
  reservedAccountKeys : Finset Address
  airdropPubkey : Address

namespace Svm

def getAccount (vm : Svm) (pubkey : Address) : Option AccountSharedData :=
  vm.accounts.getAccount pubkey

end Svm

end Hpsvm
