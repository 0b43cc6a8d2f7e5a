-- SUMMARY: Mother accounts: the default mother, explicit changes, and the use counts.
import HosTla.Registry.State

/-!
# Mothers

The methods of `mother.rs`. A user names one account as its mother, and the use
count of an account says how many users named it while it was managed.
-/

namespace HosTla

open Foundation

namespace TlaRegistry

def getMotherUseCount (r : TlaRegistry) (account : AccountId) : ℕ :=
  (r.motherUseCount.get account).getD 0

def incrementMotherUse (r : TlaRegistry) (account : AccountId) : TlaRegistry :=
  { r with
    motherUseCount := r.motherUseCount.insert account
      (satAdd u32Max (r.getMotherUseCount account) 1) }

def decrementMotherUse (r : TlaRegistry) (account : AccountId) : TlaRegistry :=
  let next := r.getMotherUseCount account - 1
  { r with
    motherUseCount :=
      if next = 0 then r.motherUseCount.remove account
      else r.motherUseCount.insert account next }

def ensureMotherDefault (r : TlaRegistry) (user : AccountId) : TlaRegistry :=
  if r.mothers.containsKey user then r
  else
    let r := { r with mothers := r.mothers.insert user user }
    if r.subAccounts.containsKey user.chars then r.incrementMotherUse user else r

/-- The check `set_mother_internal` makes on a new mother that is managed. -/
def assertMotherAllowed (r : TlaRegistry) (env : Env) (user newMother : AccountId) :
    Result Unit :=
  match r.subAccounts.get newMother.chars with
  | none => return ()
  | some sub => do
    rejectIf (sub.owner ≠ user) .onlyOwner
    let tla ← okOr (r.tlas.get sub.tlaId) .tlaNotFound
    rejectIf (effectiveSubLifecycle sub tla r.feeConfig.retractionNoticeNs env.blockTimestamp
      = .reclaimable) .motherIsReclaimable

/-- The part of `set_mother_internal` that writes. -/
def replaceMother (r : TlaRegistry) (user newMother : AccountId) : TlaRegistry :=
  let newMotherIsManaged := r.subAccounts.containsKey newMother.chars
  let moveTo (r : TlaRegistry) : TlaRegistry :=
    let r := { r with mothers := r.mothers.insert user newMother }
    if newMotherIsManaged then r.incrementMotherUse newMother else r
  match r.mothers.get user with
  | some oldMother =>
    if oldMother = newMother then r else moveTo (r.decrementMotherUse oldMother)
  | none => moveTo r

def setMother (r : TlaRegistry) (env : Env) (newMother : AccountId) : Result Outcome := do
  assertOneYocto env
  r.assertNotPaused
  let caller := env.predecessor
  r.assertMotherAllowed env caller newMother
  return .of (r.replaceMother caller newMother)

def adminClearMother (r : TlaRegistry) (env : Env) (user : AccountId) : Result Outcome := do
  r.assertAdmin env
  let previous ← okOr (r.mothers.get user) .motherNotSet
  let r := { r with mothers := r.mothers.remove user }
  return .of (r.decrementMotherUse previous)

/-- `mother_use_count > 0` blocks a sweep, a finalize, an export and a sale. -/
def assertNotMother (r : TlaRegistry) (subAccount : AccountId) : Result Unit :=
  rejectIf (r.getMotherUseCount subAccount > 0) .subAccountIsMother

end TlaRegistry

end HosTla
