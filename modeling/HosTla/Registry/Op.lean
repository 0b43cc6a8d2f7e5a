-- SUMMARY: The public methods of the registry as one type of calls.
import HosTla.Registry.Admin
import HosTla.Registry.Rental
import HosTla.Registry.Reclaim
import HosTla.Registry.Marketplace

/-!
# Calls

`Op` is a call of a public method that may write. The private callbacks are not
among them. The runtime delivers those with the results of promises.
-/

namespace HosTla

inductive Op
  | pause
  | unpause
  | claimRefund
  | migrate
  | registerTla (tlaId : AccountId) (tlaType : TlaType) (premiumCategory : PremiumCategory)
      (licensee : Option AccountId)
  | suspendTla (tlaId : AccountId)
  | unsuspendTla (tlaId : AccountId)
  | addAdmin (accountId : AccountId)
  | removeAdmin (accountId : AccountId)
  | updateFeeConfig (config : FeeConfig)
  | withdraw (amount : ℕ) (recipient : AccountId)
  | addFtAllowlist (token : AccountId)
  | removeFtAllowlist (token : AccountId)
  | addNftAllowlist (token : AccountId)
  | removeNftAllowlist (token : AccountId)
  | activateOpenTla (tlaId : AccountId)
  | setMother (newMother : AccountId)
  | adminClearMother (user : AccountId)
  | scheduleRetraction (tlaId : AccountId) (name : Str)
  | cancelRetraction (tlaId : AccountId) (name : Str)
  | setBusinessSubCap (tlaId : AccountId) (cap : Option UInt32)
  | activateTla (tlaId : AccountId)
  | rentSubAccount (tlaId : AccountId) (name : Str) (ownerKey : PublicKey)
      (mainWallet : AccountId)
  | renewTla (tlaId : AccountId)
  | setMainWallet (tlaId : AccountId) (name : Str) (newWallet : AccountId)
  | renewSubAccount (tlaId : AccountId) (name : Str)
  | reclaimSweepFt (tlaId : AccountId) (name : Str) (ft : AccountId)
  | reclaimFinalize (tlaId : AccountId) (name : Str)
  | exportSubAccount (tlaId : AccountId) (name : Str)
  | listSubAccount (tlaId : AccountId) (name : Str) (price : ℕ)
  | unlistSubAccount (tlaId : AccountId) (name : Str)
  | acceptOffer (tlaId : AccountId) (name : Str) (buyer : AccountId) (price : ℕ)
  | revokeOffer (tlaId : AccountId) (name : Str)
  | buySubAccount (tlaId : AccountId) (name : Str) (newOwnerKey : PublicKey)
  | resaleUnlock (account : AccountId) (buyerKey : PublicKey)
  | resaleAbort (account : AccountId)
deriving DecidableEq

namespace Op

/-- The `#[payable]` methods. Any other method refuses an attached deposit. -/
def payable : Op → Bool
  | setMother .. | scheduleRetraction .. | cancelRetraction .. | activateTla .. => true
  | rentSubAccount .. | renewTla .. | setMainWallet .. | renewSubAccount .. => true
  | listSubAccount .. | unlistSubAccount .. | acceptOffer .. | revokeOffer .. => true
  | buySubAccount .. => true
  | _ => false

def run (env : Env) (r : TlaRegistry) : Op → Result Outcome
  | pause => r.pause env
  | unpause => r.unpause env
  | claimRefund => r.claimRefund env
  | migrate => r.migrate env
  | registerTla tlaId tlaType premiumCategory licensee =>
    r.registerTla env tlaId tlaType premiumCategory licensee
  | suspendTla tlaId => r.suspendTla env tlaId
  | unsuspendTla tlaId => r.unsuspendTla env tlaId
  | addAdmin accountId => r.addAdmin env accountId
  | removeAdmin accountId => r.removeAdmin env accountId
  | updateFeeConfig config => r.updateFeeConfig env config
  | withdraw amount recipient => r.withdraw env amount recipient
  | addFtAllowlist token => r.addFtAllowlist env token
  | removeFtAllowlist token => r.removeFtAllowlist env token
  | addNftAllowlist token => r.addNftAllowlist env token
  | removeNftAllowlist token => r.removeNftAllowlist env token
  | activateOpenTla tlaId => r.activateOpenTla env tlaId
  | setMother newMother => r.setMother env newMother
  | adminClearMother user => r.adminClearMother env user
  | scheduleRetraction tlaId name => r.scheduleRetraction env tlaId name
  | cancelRetraction tlaId name => r.cancelRetraction env tlaId name
  | setBusinessSubCap tlaId cap => r.setBusinessSubCap env tlaId cap
  | activateTla tlaId => r.activateTla env tlaId
  | rentSubAccount tlaId name ownerKey mainWallet =>
    r.rentSubAccount env tlaId name ownerKey mainWallet
  | renewTla tlaId => r.renewTla env tlaId
  | setMainWallet tlaId name newWallet => r.setMainWallet env tlaId name newWallet
  | renewSubAccount tlaId name => r.renewSubAccount env tlaId name
  | reclaimSweepFt tlaId name ft => r.reclaimSweepFt env tlaId name ft
  | reclaimFinalize tlaId name => r.reclaimFinalize env tlaId name
  | exportSubAccount tlaId name => r.exportSubAccount env tlaId name
  | listSubAccount tlaId name price => r.listSubAccount env tlaId name price
  | unlistSubAccount tlaId name => r.unlistSubAccount env tlaId name
  | acceptOffer tlaId name buyer price => r.acceptOffer env tlaId name buyer price
  | revokeOffer tlaId name => r.revokeOffer env tlaId name
  | buySubAccount tlaId name newOwnerKey => r.buySubAccount env tlaId name newOwnerKey
  | resaleUnlock account buyerKey => r.resaleUnlock env account buyerKey
  | resaleAbort account => r.resaleAbort env account

end Op

end HosTla
