import Waveform.Deploy.Host
import Waveform.Library.Outcome

/-!
# The upgrade and the cutover

The two deployment scripts: the checks before the stop, and the commands of the `try`, of its
handler and of what follows it, in their order. The checks read the host and what is outside the
model answers them; the release they stage and the backup they take are none of the entries of the
host.

- `upgradeChecks_ok`, `cutoverChecks_ok`: what the host was when the checks passed.
- `upgradeChecks_put_temporary`, `cutoverChecks_put_temporary`: what they do not look at.
-/

set_option autoImplicit false

namespace Waveform.Deploy

open Script (World Command does step block whenever tryFinally)

/-- The arguments the two scripts read. -/
structure Args where
  sourceRevision : String
  publicReadyUrl : String
  skipAccountsCheck : Bool
  mapping : Option String

/-- What is outside the model, as the checks meet it. -/
structure Answers (D : Type) where
  /-- `digest(args.archive) == args.sha256`. -/
  archiveMatches : Bool
  /-- `old_release.parent == releases.resolve()`. -/
  insideReleases : Bool
  /-- `ipaddress.ip_address(host).is_private`. -/
  isPrivate : List Char → Except Failure Bool
  /-- `int(port)`, where `port.isdigit()`. -/
  portNumber : List Char → Except Failure (Option Nat)
  /-- `accounts_preflight`. -/
  accountsPreflight : List UInt8 → Except Failure Unit
  /-- `systemctl is-active`. -/
  isActive : Except Failure Unit
  /-- `ready` with 15 seconds. -/
  ready : String → Except Failure Unit
  /-- The migrations before. -/
  psql : Except Failure Unit
  /-- `stage` once the release is known to be new, and the unit it holds. -/
  stage : Except Failure (List UInt8)
  /-- `systemd-analyze verify`. -/
  verify : Except Failure Unit
  /-- The copies of the files, and `backup_database`. -/
  backup : Except Failure D
  /-- `read_accounts_env`. -/
  readAccountsEnv : Except Failure (List (String × String))
  /-- The content of `args.mapping`, where it is a file. -/
  mappingFile : String → Option (List UInt8)
  /-- The receipt as written. -/
  receipt : List UInt8

/-- What the checks hand to the commands. -/
structure Plan (D : Type) where
  oldLink : String
  release : String
  oldEnv : List UInt8
  newEnv : List UInt8
  oldUnit : List UInt8
  newUnit : List UInt8
  localReady : String
  publicReady : String
  mapping : Option (List UInt8)
  receipt : List UInt8
  dump : D
  deriving DecidableEq

variable {D : Type}

/-! ## The checks -/

def BIND_ADDR : String := "WAVEFORM_BIND_ADDR"

/-- The target of the current link, which resolves. -/
def currentLink (host : Host D) : Except Failure String :=
  match host.entries .current with
  | some (.symlink target) => if host.present target then .ok target else .error .external
  | _ => .error (.runtime "An existing native current symlink is required")

/-- The content of a regular file. -/
def regularFile (host : Host D) (path : Path) (message : String) : Except Failure (List UInt8) :=
  match host.entries path with
  | some (.file content) => .ok content
  | _ => .error (.runtime message)

/-- `f"http://{bind}/health/ready"`. -/
def readyUrl (bind : Option (List Char)) : String :=
  "http://" ++ (match bind with | some bind => String.ofList bind | none => "None") ++
    "/health/ready"

/-- The bind address, with its one colon. -/
def explicitBind (env : List UInt8) : Except Failure (List Char) := do
  let bind ← envValue env BIND_ADDR
  require (truthy bind && (bind.getD []).count ':' == 1) "An explicit private IPv4 bind is required"
  pure (bind.getD [])

/-- The upgrade's check of the two parts of the bind address. -/
def privateBind (answers : Answers D) (bind : List Char) : Except Failure Unit := do
  let isPrivate ← answers.isPrivate (bind.takeWhile (· ≠ ':'))
  let port ← if isPrivate then answers.portNumber ((bind.dropWhile (· ≠ ':')).drop 1) else pure none
  require (isPrivate && port.any fun port => decide (0 < port ∧ port ≤ 65535))
    "Native bind must remain private"

/-- `releases / args.source_revision`. -/
def releasePath (args : Args) : String := "/opt/waveform/releases/" ++ args.sourceRevision

/-- `stage`. -/
def stageRelease (answers : Answers D) (host : Host D) (release : String) :
    Except Failure (List UInt8) := do
  require (!host.present release) "Release already staged; inspect it before retrying"
  answers.stage

/-- Where both scripts begin: the link, the file and the unit in place. -/
def installed (answers : Answers D) (host : Host D) :
    Except Failure (String × List UInt8 × List UInt8) := do
  require answers.archiveMatches "Archive checksum mismatch"
  let oldLink ← currentLink host
  require answers.insideReleases "Current release is outside the releases directory"
  let oldEnv ← regularFile host .nativeEnv "A regular native.env is required"
  let oldUnit ← regularFile host .unit "A regular native service unit is required"
  pure (oldLink, oldEnv, oldUnit)

/-- The upgrade asks Silicon Accounts unless told not to. -/
def accountsCheck (answers : Answers D) (args : Args) (env : List UInt8) : Except Failure Unit :=
  if args.skipAccountsCheck then .ok () else answers.accountsPreflight env

/-- The checks of `upgrade`. -/
def upgradeChecks (answers : Answers D) (args : Args) (host : Host D) :
    Except Failure (Plan D) := do
  let (oldLink, oldEnv, oldUnit) ← installed answers host
  accountsIdentity oldEnv
  let bind ← explicitBind oldEnv
  privateBind answers bind
  let ffmpeg ← envValue oldEnv "WAVEFORM_FFMPEG_PATH"
  require (ffmpeg == some "/opt/waveform/current/bin/ffmpeg".toList)
    "Unexpected FFmpeg path; review the existing native environment"
  accountsCheck answers args oldEnv
  answers.isActive
  answers.ready (readyUrl (some bind))
  answers.ready args.publicReadyUrl
  let newUnit ← stageRelease answers host (releasePath args)
  answers.verify
  let dump ← answers.backup
  let newEnv ← upgradeEnv oldEnv
  pure {
    oldLink, release := releasePath args, oldEnv, newEnv, oldUnit, newUnit,
    localReady := readyUrl (some bind), publicReady := args.publicReadyUrl,
    mapping := none, receipt := answers.receipt, dump }

/-- The mapping of `args.mapping`, which must be a file. -/
def mappingContent (answers : Answers D) : Option String → Except Failure (Option (List UInt8))
  | none => pure none
  | some path =>
      match answers.mappingFile path with
      | some content => pure (some content)
      | none => .error (.runtime (path ++ " is not a file"))

/-- The checks of `cutover`. -/
def cutoverChecks (answers : Answers D) (args : Args) (host : Host D) :
    Except Failure (Plan D) := do
  let (oldLink, oldEnv, oldUnit) ← installed answers host
  earlierEnv oldEnv
  let accounts ← answers.readAccountsEnv
  let newEnv ← cutoverEnv oldEnv accounts
  let mapping ← mappingContent answers args.mapping
  let bind ← explicitBind newEnv
  -- an empty list of proof issuers is a warning alone
  let _proofIssuers ← envValue newEnv "WAVEFORM_PROOF_ISSUERS"
  answers.accountsPreflight newEnv
  answers.isActive
  answers.ready (readyUrl (some bind))
  answers.ready args.publicReadyUrl
  answers.psql
  let newUnit ← stageRelease answers host (releasePath args)
  answers.verify
  let dump ← answers.backup
  pure {
    oldLink, release := releasePath args, oldEnv, newEnv, oldUnit, newUnit,
    localReady := readyUrl (some bind), publicReady := args.publicReadyUrl,
    mapping, receipt := answers.receipt, dump }

/-! ## The commands of the upgrade -/

/-- The `try` of `upgrade`. -/
def upgradeBody (plan : Plan D) : Command (Host D) := block [
  systemctlStop,
  atomicWrite .nativeEnv plan.newEnv,
  atomicWrite .unit plan.newUnit,
  switchCurrent plan.release,
  daemonReload,
  resetFailed,
  systemctlStart,
  ready plan.localReady,
  ready plan.publicReady,
  atomicWrite .receipt plan.receipt]

/-- The handler of `upgrade`, which raises again at its end. -/
def upgradeHandler (plan : Plan D) : Command (Host D) := block [
  systemctlStop,
  switchCurrent plan.oldLink,
  atomicWrite .nativeEnv plan.oldEnv,
  atomicWrite .unit plan.oldUnit,
  daemonReload,
  resetFailed,
  systemctlStart,
  ready plan.localReady,
  ready plan.publicReady,
  elsewhere "print"]

/-- What follows the `try` of `upgrade`. -/
def upgradeRest : Command (Host D) := block [elsewhere "print the receipt"]

/-! ## The commands of the cutover -/

/-- `prepare_runtime`. -/
def prepareRuntime : Command (Host D) := block [
  elsewhere "getpwnam",
  elsewhere "mkdir /run/waveform",
  elsewhere "chmod /run/waveform",
  elsewhere "chown /run/waveform",
  elsewhere "prepare.py"]

/-- `database_touched = True`. -/
abbrev touchDatabase : Command (Host D) := does fun h => some { h with databaseTouched := true }

/-- `operator(release, "migrate")` and the check of its return code: whatever it has done to the
database, it may raise. -/
abbrev migrate : Command (Host D) := step fun h h' =>
  ∃ database, h' = { h with database := database, migrationAttempted := true }

/-- One run of `operator(release, "link-identities", …)`, its report kept and checked. -/
abbrev linkRun : Command (Host D) :=
  step fun h h' => ∃ database, h' = { h with database := database }

/-- `link_identities`, where a mapping was given. -/
def linkIdentities : Option (List UInt8) → Command (Host D)
  | none => block []
  | some mapping => block [
      atomicWrite .identityMap mapping,
      elsewhere "chown identity-map.csv",
      elsewhere "chmod identity-map.csv",
      tryFinally (block [linkRun, linkRun]) (does (Host.unlink .identityMap))]

/-- `restore_database`. -/
def restoreDatabase (dump : D) : Command (Host D) := block [
  does fun h => some { h with kept := h.database, database := none },
  does fun h => some { h with database := some dump }]

/-- `upgrade.ready` at the address a file gives, which must be read first. -/
def readyAt (env : List UInt8) : Command (Host D) :=
  match envValue env BIND_ADDR with
  | .ok bind => ready (readyUrl bind)
  | .error _ => Script.require fun _ => False

/-- The `try` of `cutover`. -/
def cutoverBody (plan : Plan D) : Command (Host D) := block [
  systemctlStop,
  atomicWrite .nativeEnv plan.newEnv,
  atomicWrite .unit plan.newUnit,
  switchCurrent plan.release,
  daemonReload,
  prepareRuntime,
  touchDatabase,
  migrate,
  linkIdentities plan.mapping,
  resetFailed,
  systemctlStart,
  ready plan.localReady,
  ready plan.publicReady]

/-- The handler of `cutover`, which raises again at its end. -/
def cutoverHandler (plan : Plan D) : Command (Host D) := block [
  systemctlStop,
  switchCurrent plan.oldLink,
  atomicWrite .nativeEnv plan.oldEnv,
  atomicWrite .unit plan.oldUnit,
  daemonReload,
  whenever (·.databaseTouched) (restoreDatabase plan.dump),
  resetFailed,
  systemctlStart,
  readyAt plan.oldEnv,
  ready plan.publicReady,
  elsewhere "print"]

/-- What follows the `try` of `cutover`. -/
def cutoverRest (plan : Plan D) : Command (Host D) := block [
  elsewhere "test_webhook",
  elsewhere "psql",
  atomicWrite .receipt plan.receipt,
  elsewhere "print the receipt"]

/-- The host as the `try` begins. -/
def Host.begun (h : Host D) : Host D :=
  { h with migrationAttempted := false, databaseTouched := false }

/-- A failed run of `upgrade` from a host that passed its checks: whether it raised in the `try`,
and the host as it ends. -/
def UpgradeFails (plan : Plan D) (host : Host D) : Bool → Host D → Prop :=
  Script.Fails (upgradeBody plan) (upgradeHandler plan) upgradeRest host.begun

/-- A failed run of `cutover`. -/
def CutoverFails (plan : Plan D) (host : Host D) : Bool → Host D → Prop :=
  Script.Fails (cutoverBody plan) (cutoverHandler plan) (cutoverRest plan) host.begun

/-! ## What passed the checks -/

/-- The host as the checks found it. -/
structure Found (host : Host D) (plan : Plan D) : Prop where
  current : host.entries .current = some (.symlink plan.oldLink)
  nativeEnv : host.entries .nativeEnv = some (.file plan.oldEnv)
  unit : host.entries .unit = some (.file plan.oldUnit)
  resolves : host.present plan.oldLink = true
  new : host.present plan.release = false

theorem Found.oldLink_ne {host : Host D} {plan : Plan D} (h : Found host plan) :
    plan.oldLink ≠ plan.release := by
  intro heq
  have hresolves := h.resolves
  rw [heq, h.new] at hresolves
  cases hresolves

theorem currentLink_ok {host : Host D} {target : String} (h : currentLink host = .ok target) :
    host.entries .current = some (.symlink target) ∧ host.present target = true := by
  unfold currentLink at h
  split at h
  · next found hfound =>
      split at h
      · next hpresent =>
          obtain rfl : found = target := Except.ok.inj h
          exact ⟨hfound, hpresent⟩
      · cases h
  · cases h

theorem regularFile_ok {host : Host D} {path : Path} {message : String} {content : List UInt8}
    (h : regularFile host path message = .ok content) :
    host.entries path = some (.file content) := by
  unfold regularFile at h
  split at h
  · next found hfound =>
      obtain rfl : found = content := Except.ok.inj h
      exact hfound
  · cases h

theorem explicitBind_ok {env : List UInt8} {bind : List Char} (h : explicitBind env = .ok bind) :
    envValue env BIND_ADDR = .ok (some bind) := by
  obtain ⟨value, hvalue, h⟩ := Except.bind_eq_ok.mp h
  obtain ⟨_, hrequire, h⟩ := Except.bind_eq_ok.mp h
  obtain rfl := Except.ok.inj h
  rw [require_ok_iff, Bool.and_eq_true] at hrequire
  cases value with
  | none => cases hrequire.1
  | some value => exact hvalue

theorem stageRelease_ok {answers : Answers D} {host : Host D} {release : String} {unit : List UInt8}
    (h : stageRelease answers host release = .ok unit) : host.present release = false := by
  obtain ⟨_, hrequire, _⟩ := Except.bind_eq_ok.mp h
  rw [require_ok_iff, Bool.not_eq_true'] at hrequire
  exact hrequire

section Checks

variable {answers : Answers D} {args : Args} {host : Host D} {plan : Plan D}

theorem installed_ok {oldLink : String} {oldEnv oldUnit : List UInt8}
    (h : installed answers host = .ok (oldLink, oldEnv, oldUnit)) :
    host.entries .current = some (.symlink oldLink) ∧ host.present oldLink = true ∧
      host.entries .nativeEnv = some (.file oldEnv) ∧
        host.entries .unit = some (.file oldUnit) := by
  obtain ⟨_, _, h⟩ := Except.bind_eq_ok.mp h
  obtain ⟨link, hlink, h⟩ := Except.bind_eq_ok.mp h
  obtain ⟨_, _, h⟩ := Except.bind_eq_ok.mp h
  obtain ⟨env, henv, h⟩ := Except.bind_eq_ok.mp h
  obtain ⟨unit, hunit, h⟩ := Except.bind_eq_ok.mp h
  cases h
  obtain ⟨hcurrent, hresolves⟩ := currentLink_ok hlink
  exact ⟨hcurrent, hresolves, regularFile_ok henv, regularFile_ok hunit⟩

/-- **What the upgrade's checks passed**, and the address its readiness is asked at. -/
theorem upgradeChecks_ok (h : upgradeChecks answers args host = .ok plan) :
    Found host plan ∧ ∃ bind, envValue plan.oldEnv BIND_ADDR = .ok bind ∧
      plan.localReady = readyUrl bind := by
  obtain ⟨⟨oldLink, oldEnv, oldUnit⟩, hinstalled, h⟩ := Except.bind_eq_ok.mp h
  obtain ⟨_, _, h⟩ := Except.bind_eq_ok.mp h
  obtain ⟨bind, hbind, h⟩ := Except.bind_eq_ok.mp h
  obtain ⟨_, _, h⟩ := Except.bind_eq_ok.mp h
  obtain ⟨_, _, h⟩ := Except.bind_eq_ok.mp h
  obtain ⟨_, _, h⟩ := Except.bind_eq_ok.mp h
  obtain ⟨_, _, h⟩ := Except.bind_eq_ok.mp h
  obtain ⟨_, _, h⟩ := Except.bind_eq_ok.mp h
  obtain ⟨_, _, h⟩ := Except.bind_eq_ok.mp h
  obtain ⟨_, _, h⟩ := Except.bind_eq_ok.mp h
  obtain ⟨newUnit, hstage, h⟩ := Except.bind_eq_ok.mp h
  obtain ⟨_, _, h⟩ := Except.bind_eq_ok.mp h
  obtain ⟨dump, _, h⟩ := Except.bind_eq_ok.mp h
  obtain ⟨newEnv, _, h⟩ := Except.bind_eq_ok.mp h
  obtain rfl := Except.ok.inj h
  obtain ⟨hcurrent, hresolves, henv, hunit⟩ := installed_ok hinstalled
  exact ⟨⟨hcurrent, henv, hunit, hresolves, stageRelease_ok hstage⟩, some bind,
    explicitBind_ok hbind, rfl⟩

/-- **What the cutover's checks passed.** -/
theorem cutoverChecks_ok (h : cutoverChecks answers args host = .ok plan) : Found host plan := by
  obtain ⟨⟨oldLink, oldEnv, oldUnit⟩, hinstalled, h⟩ := Except.bind_eq_ok.mp h
  obtain ⟨_, _, h⟩ := Except.bind_eq_ok.mp h
  obtain ⟨accounts, _, h⟩ := Except.bind_eq_ok.mp h
  obtain ⟨newEnv, _, h⟩ := Except.bind_eq_ok.mp h
  obtain ⟨mapping, _, h⟩ := Except.bind_eq_ok.mp h
  obtain ⟨bind, _, h⟩ := Except.bind_eq_ok.mp h
  obtain ⟨_, _, h⟩ := Except.bind_eq_ok.mp h
  obtain ⟨_, _, h⟩ := Except.bind_eq_ok.mp h
  obtain ⟨_, _, h⟩ := Except.bind_eq_ok.mp h
  obtain ⟨_, _, h⟩ := Except.bind_eq_ok.mp h
  obtain ⟨_, _, h⟩ := Except.bind_eq_ok.mp h
  obtain ⟨_, _, h⟩ := Except.bind_eq_ok.mp h
  obtain ⟨newUnit, hstage, h⟩ := Except.bind_eq_ok.mp h
  obtain ⟨_, _, h⟩ := Except.bind_eq_ok.mp h
  obtain ⟨dump, _, h⟩ := Except.bind_eq_ok.mp h
  obtain rfl := Except.ok.inj h
  obtain ⟨hcurrent, hresolves, henv, hunit⟩ := installed_ok hinstalled
  exact ⟨hcurrent, henv, hunit, hresolves, stageRelease_ok hstage⟩

/-- **The checks do not look at the `.current-upgrade` entry.** -/
theorem upgradeChecks_put_temporary (entry : Option Entry) :
    upgradeChecks answers args (host.put .currentUpgrade entry) =
      upgradeChecks answers args host := by
  unfold upgradeChecks
  rfl

theorem cutoverChecks_put_temporary (entry : Option Entry) :
    cutoverChecks answers args (host.put .currentUpgrade entry) =
      cutoverChecks answers args host := by
  unfold cutoverChecks
  rfl

end Checks

end Waveform.Deploy
