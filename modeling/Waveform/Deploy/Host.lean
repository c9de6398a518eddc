import Waveform.Deploy.NativeEnv
import Waveform.Library.Script

/-!
# The host of the native API

The entries of the file system the deployment scripts name, what systemd loaded and runs, and the
database; and the helpers of the scripts on them. Files are replaced whole, by a rename. `elsewhere`
is a step on what is none of these: it may raise.

- `switchCurrent_keeps`, `switchCurrent_after`: without a `.current-upgrade` entry the switch leaves
  none, whether it ends or raises, and ends in a rollback.
- `switchCurrent_stale`: with one it raises and touches nothing, in a rollback too.
-/

set_option autoImplicit false

namespace Waveform.Deploy

open Script (World Command Triple before after does step block whenever tryFinally)

/-- The paths the scripts name. -/
inductive Path where
  /-- `/opt/waveform/current`. -/
  | current
  /-- `/opt/waveform/.current-upgrade`. -/
  | currentUpgrade
  /-- `/etc/waveform/native.env`. -/
  | nativeEnv
  /-- `/etc/systemd/system/waveform-api.service`. -/
  | unit
  /-- `/etc/waveform/native-release.json`. -/
  | receipt
  /-- `/run/waveform/identity-map.csv`. -/
  | identityMap
  deriving DecidableEq

/-- What a path names. -/
inductive Entry where
  | file (content : List UInt8)
  | symlink (target : String)
  | directory
  deriving DecidableEq

/-- The service running: the link, the file and the unit it was started with, and the readiness URLs
it answered. -/
structure Api where
  release : String
  env : List UInt8
  unit : List UInt8
  answered : List String

variable (D : Type)

/-- The host, with the script's own `database_touched`. -/
structure Host where
  entries : Path → Option Entry
  /-- Whether a path or a link target of `/opt/waveform` exists. -/
  present : String → Bool
  /-- The unit as of the last `daemon-reload`. -/
  loadedUnit : Option (List UInt8)
  running : Option Api
  /-- The database `waveform`; none while it is new and empty. -/
  database : Option D
  /-- `waveform_cutover_<stamp>`. -/
  kept : Option D
  migrationAttempted : Bool
  databaseTouched : Bool

variable {D}

namespace Host

/-- One entry made, replaced or removed. -/
def put (h : Host D) (path : Path) (entry : Option Entry) : Host D :=
  { h with entries := fun p => if p = path then entry else h.entries p }

@[simp] theorem put_entries_self (h : Host D) (path : Path) (entry : Option Entry) :
    (h.put path entry).entries path = entry :=
  if_pos rfl

theorem put_entries_of_ne (h : Host D) {path p : Path} (entry : Option Entry) (hne : p ≠ path) :
    (h.put path entry).entries p = h.entries p :=
  if_neg hne

@[simp] theorem put_running (h : Host D) (path : Path) (entry : Option Entry) :
    (h.put path entry).running = h.running := rfl

@[simp] theorem put_loadedUnit (h : Host D) (path : Path) (entry : Option Entry) :
    (h.put path entry).loadedUnit = h.loadedUnit := rfl

@[simp] theorem put_database (h : Host D) (path : Path) (entry : Option Entry) :
    (h.put path entry).database = h.database := rfl

@[simp] theorem put_migrationAttempted (h : Host D) (path : Path) (entry : Option Entry) :
    (h.put path entry).migrationAttempted = h.migrationAttempted := rfl

@[simp] theorem put_databaseTouched (h : Host D) (path : Path) (entry : Option Entry) :
    (h.put path entry).databaseTouched = h.databaseTouched := rfl

/-- A rename onto a path, which a directory there refuses. -/
def replaceAt (path : Path) (entry : Entry) (h : Host D) : Option (Host D) :=
  if h.entries path = some .directory then none else some (h.put path (some entry))

/-- `systemctl stop waveform-api`. -/
def stopApi (h : Host D) : Option (Host D) := some { h with running := none }

/-- `systemctl daemon-reload`. -/
def reloadUnits (h : Host D) : Option (Host D) :=
  match h.entries .unit with
  | some (.file content) => some { h with loadedUnit := some content }
  | _ => some { h with loadedUnit := none }

/-- `systemctl start waveform-api`: nothing when it runs, else the release, file and unit of the
moment. -/
def startApi (h : Host D) : Option (Host D) :=
  match h.running, h.entries .current, h.entries .nativeEnv, h.loadedUnit with
  | some _, _, _, _ => some h
  | none, some (.symlink release), some (.file env), some unit =>
      some { h with running := some ⟨release, env, unit, []⟩ }
  | none, _, _, _ => none

/-- A readiness URL answers 200 before the deadline. -/
def answer (url : String) (h : Host D) : Option (Host D) :=
  match h.running with
  | some api => some { h with running := some { api with answered := api.answered ++ [url] } }
  | none => none

/-- `temporary.symlink_to(target)`. -/
def symlinkTemporary (target : String) (h : Host D) : Option (Host D) :=
  match h.entries .currentUpgrade with
  | none => some (h.put .currentUpgrade (some (.symlink target)))
  | some _ => none

/-- `os.replace(temporary, current)`. -/
def replaceCurrent (h : Host D) : Option (Host D) :=
  match h.entries .currentUpgrade with
  | none => none
  | some entry =>
      if h.entries .current = some .directory then none
      else some ((h.put .current (some entry)).put .currentUpgrade none)

/-- `path.unlink(missing_ok=True)`. -/
def unlink (path : Path) (h : Host D) : Option (Host D) :=
  if h.entries path = some .directory then none else some (h.put path none)

end Host

/-! ## The helpers -/

/-- A step on what the model does not hold. -/
abbrev elsewhere (_what : String) : Command (Host D) := does some

/-- `run("systemctl", "stop", "waveform-api")`. -/
abbrev systemctlStop : Command (Host D) := does Host.stopApi

abbrev daemonReload : Command (Host D) := does Host.reloadUnits

abbrev resetFailed : Command (Host D) := elsewhere "systemctl reset-failed waveform-api"

abbrev systemctlStart : Command (Host D) := does Host.startApi

/-- `atomic_write`. -/
abbrev atomicWrite (path : Path) (data : List UInt8) : Command (Host D) :=
  does (Host.replaceAt path (.file data))

/-- `ready`. -/
abbrev ready (url : String) : Command (Host D) := does (Host.answer url)

/-- Neither `temporary.exists()` nor `temporary.is_symlink()`. -/
def NoTemporary (h : Host D) : Prop := h.entries .currentUpgrade = none

/-- `switch_current`. -/
def switchCurrent (target : String) : Command (Host D) :=
  block [
    Script.require NoTemporary,
    tryFinally (block [does (Host.symlinkTemporary target), does Host.replaceCurrent])
      (does (Host.unlink .currentUpgrade))]

/-! ## What the effects are -/

section Effects

variable {h h' : Host D}

theorem replaceAt_eq_some {path : Path} {entry : Entry}
    (heffect : h.replaceAt path entry = some h') :
    h' = h.put path (some entry) := by
  unfold Host.replaceAt at heffect
  split at heffect
  · cases heffect
  · exact (Option.some.inj heffect).symm

theorem unlink_eq_some {path : Path} (heffect : h.unlink path = some h') :
    h' = h.put path none := by
  unfold Host.unlink at heffect
  split at heffect
  · cases heffect
  · exact (Option.some.inj heffect).symm

theorem symlinkTemporary_eq_some {target : String} (heffect : h.symlinkTemporary target = some h') :
    h' = h.put .currentUpgrade (some (.symlink target)) := by
  unfold Host.symlinkTemporary at heffect
  split at heffect
  · exact (Option.some.inj heffect).symm
  · cases heffect

theorem replaceCurrent_eq_some (heffect : h.replaceCurrent = some h') :
    ∃ entry, h.entries .currentUpgrade = some entry ∧
      h' = (h.put .current (some entry)).put .currentUpgrade none := by
  unfold Host.replaceCurrent at heffect
  split at heffect
  · cases heffect
  · next entry hentry =>
      split at heffect
      · cases heffect
      · exact ⟨entry, hentry, (Option.some.inj heffect).symm⟩

theorem reloadUnits_eq_some {content : List UInt8} (hunit : h.entries .unit = some (.file content))
    (heffect : h.reloadUnits = some h') : h' = { h with loadedUnit := some content } := by
  rw [Host.reloadUnits, hunit] at heffect
  exact (Option.some.inj heffect).symm

theorem startApi_eq_some {release : String} {env unit : List UInt8} (hstopped : h.running = none)
    (hcurrent : h.entries .current = some (.symlink release))
    (henv : h.entries .nativeEnv = some (.file env))
    (hunit : h.loadedUnit = some unit) (heffect : h.startApi = some h') :
    h' = { h with running := some ⟨release, env, unit, []⟩ } := by
  obtain ⟨entries, present, loadedUnit, running, database, kept, attempted, touched⟩ := h
  obtain rfl : running = none := hstopped
  obtain rfl : loadedUnit = some unit := hunit
  replace hcurrent : entries .current = some (.symlink release) := hcurrent
  replace henv : entries .nativeEnv = some (.file env) := henv
  simp only [Host.startApi, hcurrent, henv] at heffect
  exact (Option.some.inj heffect).symm

theorem answer_eq_some {url : String} {api : Api} (hrunning : h.running = some api)
    (heffect : h.answer url = some h') :
    h' = { h with running := some { api with answered := api.answered ++ [url] } } := by
  rw [Host.answer, hrunning] at heffect
  exact (Option.some.inj heffect).symm

end Effects

/-! ## The switch -/

section Switch

variable {target : String} {p : Host D → Prop}

/-- An assertion that says nothing of the two links. -/
def ApartFromLinks (p : Host D → Prop) : Prop :=
  ∀ h path entry, (path = .current ∨ path = .currentUpgrade) → p h → p (h.put path entry)

/-- The current link was switched. -/
def Switched (target : String) (p : Host D → Prop) (h : Host D) : Prop :=
  NoTemporary h ∧ p h ∧ h.entries .current = some (.symlink target)

/-- The effects of a switch, on any assertion that says nothing of the links. -/
theorem symlinkTemporary_apart (hp : ApartFromLinks p) {h h' : Host D} (hkept : p h)
    (heffect : h.symlinkTemporary target = some h') :
    p h' ∧ h'.entries .currentUpgrade = some (.symlink target) := by
  obtain rfl := symlinkTemporary_eq_some heffect
  exact ⟨hp _ _ _ (.inr rfl) hkept, Host.put_entries_self _ _ _⟩

theorem replaceCurrent_apart (hp : ApartFromLinks p) {h h' : Host D} (hkept : p h)
    (hlink : h.entries .currentUpgrade = some (.symlink target))
    (heffect : h.replaceCurrent = some h') :
    Switched target p h' := by
  obtain ⟨entry, hentry, rfl⟩ := replaceCurrent_eq_some heffect
  obtain rfl : Entry.symlink target = entry := Option.some.inj (hlink.symm.trans hentry)
  refine ⟨Host.put_entries_self _ _ _, hp _ _ _ (.inr rfl) (hp _ _ _ (.inl rfl) hkept), ?_⟩
  rw [Host.put_entries_of_ne _ _ (by decide), Host.put_entries_self]

theorem unlink_apart (hp : ApartFromLinks p) {h h' : Host D} (hkept : p h)
    (heffect : h.unlink .currentUpgrade = some h') : NoTemporary h' ∧ p h' := by
  obtain rfl := unlink_eq_some heffect
  exact ⟨Host.put_entries_self _ _ _, hp _ _ _ (.inr rfl) hkept⟩

theorem unlink_switched (hp : ApartFromLinks p) {h h' : Host D} (hswitched : Switched target p h)
    (heffect : h.unlink .currentUpgrade = some h') : Switched target p h' := by
  obtain ⟨_, hkept, hcurrent⟩ := hswitched
  obtain ⟨hnone, hkept'⟩ := unlink_apart hp hkept heffect
  obtain rfl := unlink_eq_some heffect
  refine ⟨hnone, hkept', ?_⟩
  rw [Host.put_entries_of_ne _ _ (by decide)]
  exact hcurrent

/-- The link is made and renamed, or the step raised somewhere between. -/
theorem switchCurrent_try (hp : ApartFromLinks p) :
    Triple (before fun h => NoTemporary h ∧ p h)
      (block [does (Host.symlinkTemporary target), does Host.replaceCurrent])
      (before (Switched target p)) (after p) := by
  refine Script.triple_block_cons
    (R := before fun h => p h ∧ h.entries .currentUpgrade = some (.symlink target)) ?_
    (Script.triple_block_cons ?_ (Script.triple_block_nil fun _ hw => hw))
  · refine Script.triple_step ?_ (fun _ h => h.2) (fun _ h => h.1)
    rintro h h' ⟨_, hkept⟩ heffect
    exact symlinkTemporary_apart hp hkept heffect
  · refine Script.triple_step ?_ (fun _ h => h.1) (fun _ h => h.2.1)
    rintro h h' ⟨hkept, hlink⟩ heffect
    exact replaceCurrent_apart hp hkept hlink heffect

/-- **Without a `.current-upgrade` entry the switch leaves none, whether it ends or raises.** -/
theorem switchCurrent_keeps (hp : ApartFromLinks p) :
    Triple (before fun h => NoTemporary h ∧ p h) (switchCurrent target) (before (Switched target p))
      (after fun h => NoTemporary h ∧ p h) := by
  refine Script.triple_block_cons (R := before fun h => NoTemporary h ∧ p h)
    (Script.triple_require (fun w hw _ => hw) ?_)
    (Script.triple_block_cons (Script.triple_tryFinally (switchCurrent_try hp) ?_ ?_)
      (Script.triple_block_nil fun _ hw => hw))
  · intro w hw hstale
    exact absurd hw.2.1 hstale
  · -- the cleanup of a switch that was made finds nothing to remove
    refine Script.triple_step (fun h h' hswitched heffect => ?_) ?_ ?_
    · exact unlink_switched hp hswitched heffect
    · exact fun h hswitched => ⟨hswitched.1, hswitched.2.1⟩
    · exact fun h hswitched => ⟨hswitched.1, hswitched.2.1⟩
  · exact Script.triple_step_after fun h h' hkept heffect => unlink_apart hp hkept heffect

/-- **In a rollback the switch ends.** -/
theorem switchCurrent_after (hp : ApartFromLinks p) {E : World (Host D) → Prop} :
    Triple (after fun h => NoTemporary h ∧ p h) (switchCurrent target)
      (after (Switched target p)) E := by
  refine Script.triple_block_cons (R := after fun h => NoTemporary h ∧ p h)
    (Script.triple_require (fun w hw _ => hw) ?_)
    (Script.triple_block_cons
      (Script.triple_tryFinally (B := after (Switched target p)) (F := fun _ => False)
      (Script.triple_block_cons
        (R := after fun h => p h ∧ h.entries .currentUpgrade = some (.symlink target)) ?_
        (Script.triple_block_cons ?_ (Script.triple_block_nil fun _ hw => hw))) ?_ ?_)
      (Script.triple_block_nil fun _ hw => hw))
  · intro w hw hstale
    exact absurd hw.2.1 hstale
  · exact Script.triple_step_after fun h h' hkept heffect =>
      symlinkTemporary_apart hp hkept.2 heffect
  · exact Script.triple_step_after fun h h' hkept heffect =>
      replaceCurrent_apart hp hkept.1 hkept.2 heffect
  · exact Script.triple_step_after fun h h' hswitched heffect =>
      unlink_switched hp hswitched heffect
  · exact ⟨fun _ _ hfalse => hfalse.elim, fun _ _ hfalse => hfalse.elim⟩

/-- **With a `.current-upgrade` entry the switch raises, and nothing has changed.** -/
theorem switchCurrent_stale {Q : World (Host D) → Prop} :
    Triple (fun w => ¬ NoTemporary w.host ∧ p w.host) (switchCurrent target) Q
      (after fun h => ¬ NoTemporary h ∧ p h) := by
  refine Script.triple_block_cons (R := fun _ => False) (Script.triple_require ?_ ?_) ?_
  · rintro w ⟨hstale, _⟩ hnone
    exact hstale hnone
  · rintro w ⟨hstale, hkept⟩ _
    exact ⟨rfl, hstale, hkept⟩
  · exact ⟨fun _ _ hfalse => hfalse.elim, fun _ _ hfalse => hfalse.elim⟩

end Switch

end Waveform.Deploy
