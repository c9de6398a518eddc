import Waveform.Deploy.Upgrade

/-!
# The rollback

When a run of `upgrade` or `cutover` fails, what its handler leaves. The handler switches the link
back with `switch_current`, which refuses a `.current-upgrade` entry that was there before the run:
the switch forward fails on it, the switch back fails on it again, and the service stays stopped
with the new file and unit in place. The checks before the stop do not look at that entry. The
handler of the cutover asks for readiness at the address the old file gives, and the checks read
that address in the new file only.

- `rollback_files`, `rollback_start`: the handlers, without the entry.
- `rollback_stale`: the handlers, with it.
- `rollback_restores_iff`: when a failed run restores what it had changed.
-/

set_option autoImplicit false

namespace Waveform.Deploy

open Script (World Command Triple before after does step block whenever tryFinally)

variable {D : Type}

/-! ## What is to be restored -/

/-- The service was asked for its readiness, at its own address and in public. -/
def CheckedReady (plan : Plan D) (api : Api) : Prop :=
  ∃ bind, envValue api.env BIND_ADDR = .ok bind ∧ readyUrl bind ∈ api.answered ∧
    plan.publicReady ∈ api.answered

/-- The host a failed run is to leave. -/
structure Restored (host : Host D) (plan : Plan D) (left : Host D) : Prop where
  current : left.entries .current = host.entries .current
  nativeEnv : left.entries .nativeEnv = host.entries .nativeEnv
  unit : left.entries .unit = host.entries .unit
  database : left.migrationAttempted = true → left.database = some plan.dump
  api : ∃ api, left.running = some api ∧ host.entries .current = some (.symlink api.release) ∧
    host.entries .nativeEnv = some (.file api.env) ∧ host.entries .unit = some (.file api.unit) ∧
    CheckedReady plan api

/-- The old file gives the address of the service once, or not at all. -/
def AddressReadable (host : Host D) : Prop :=
  ∀ env, host.entries .nativeEnv = some (.file env) → ∃ bind, envValue env BIND_ADDR = .ok bind

/-! ## What the commands keep -/

/-- What the rollback depends on: the two links, the database and what was done to it. -/
structure Marks (D : Type) where
  current : Option Entry
  temporary : Option Entry
  database : Option D
  attempted : Bool
  touched : Bool

def Host.marks (h : Host D) : Marks D where
  current := h.entries .current
  temporary := h.entries .currentUpgrade
  database := h.database
  attempted := h.migrationAttempted
  touched := h.databaseTouched

/-- An effect on none of them. -/
def Apart (effect : Host D → Option (Host D)) : Prop :=
  ∀ h h', effect h = some h' → h'.marks = h.marks

theorem apart_some : Apart (D := D) some := by
  rintro h h' heffect
  cases heffect
  rfl

theorem apart_stopApi : Apart (D := D) Host.stopApi := by
  rintro h h' heffect
  cases heffect
  rfl

theorem apart_reloadUnits : Apart (D := D) Host.reloadUnits := by
  rintro h h' heffect
  unfold Host.reloadUnits at heffect
  split at heffect <;> cases heffect <;> rfl

theorem apart_startApi : Apart (D := D) Host.startApi := by
  rintro h h' heffect
  unfold Host.startApi at heffect
  split at heffect <;> cases heffect <;> rfl

theorem apart_answer (url : String) : Apart (D := D) (Host.answer url) := by
  rintro h h' heffect
  unfold Host.answer at heffect
  split at heffect <;> cases heffect
  rfl

theorem put_marks {path : Path} (h : Host D) (entry : Option Entry) (hcurrent : Path.current ≠ path)
    (htemporary : Path.currentUpgrade ≠ path) : (h.put path entry).marks = h.marks := by
  simp only [Host.marks, Host.put_entries_of_ne h entry hcurrent,
    Host.put_entries_of_ne h entry htemporary,
    Host.put_database, Host.put_migrationAttempted, Host.put_databaseTouched]

theorem apart_replaceAt {path : Path} (entry : Entry) (hcurrent : Path.current ≠ path)
    (htemporary : Path.currentUpgrade ≠ path) : Apart (D := D) (Host.replaceAt path entry) := by
  rintro h h' heffect
  obtain rfl := replaceAt_eq_some heffect
  exact put_marks h _ hcurrent htemporary

theorem apart_unlink {path : Path} (hcurrent : Path.current ≠ path)
    (htemporary : Path.currentUpgrade ≠ path) :
    Apart (D := D) (Host.unlink path) := by
  rintro h h' heffect
  obtain rfl := unlink_eq_some heffect
  exact put_marks h _ hcurrent htemporary

/-- A command keeps what is said of the marks, whether it ends or raises. -/
def Keeps (I : Marks D → Prop) (command : Command (Host D)) : Prop :=
  Triple (before (I ·.marks)) command (before (I ·.marks)) (after (I ·.marks))

section Body

variable {I : Marks D → Prop}

theorem keeps_does {effect : Host D → Option (Host D)} (happart : Apart effect) :
    Keeps I (does effect) := by
  refine Script.triple_step (fun h h' hkept heffect => ?_) (fun _ h => h) fun _ h => h
  rw [happart h h' heffect]
  exact hkept

theorem keeps_block {commands : List (Command (Host D))}
    (h : ∀ command ∈ commands, Keeps I command) :
    Keeps I (block commands) :=
  Script.triple_block_of_forall h

theorem keeps_systemctlStop : Keeps I systemctlStop := keeps_does apart_stopApi

theorem keeps_daemonReload : Keeps I daemonReload := keeps_does apart_reloadUnits

theorem keeps_systemctlStart : Keeps I systemctlStart := keeps_does apart_startApi

theorem keeps_elsewhere (what : String) : Keeps I (elsewhere what) := keeps_does apart_some

theorem keeps_ready (url : String) : Keeps I (ready url) := keeps_does (apart_answer url)

theorem keeps_atomicWrite {path : Path} (data : List UInt8) (hcurrent : Path.current ≠ path)
    (htemporary : Path.currentUpgrade ≠ path) : Keeps I (atomicWrite path data) :=
  keeps_does (apart_replaceAt _ hcurrent htemporary)

theorem keeps_prepareRuntime : Keeps I prepareRuntime := by
  refine keeps_block fun command hcommand => ?_
  simp only [List.mem_cons, List.not_mem_nil, or_false] at hcommand
  rcases hcommand with rfl | rfl | rfl | rfl | rfl <;> exact keeps_elsewhere _

/-- Linking changes the database, of which `I` says nothing. -/
theorem keeps_linkIdentities (hI : ∀ m database, I m → I { m with database := database })
    (mapping : Option (List UInt8)) : Keeps I (linkIdentities mapping) := by
  have hrun : Keeps I linkRun := by
    refine Script.triple_step ?_ (fun _ h => h) fun _ h => h
    rintro h h' hkept ⟨database, rfl⟩
    exact hI h.marks database hkept
  have hruns : Keeps I (block [linkRun, linkRun]) := by
    refine keeps_block fun command hcommand => ?_
    simp only [List.mem_cons, List.not_mem_nil, or_false, or_self] at hcommand
    obtain rfl := hcommand
    exact hrun
  cases mapping with
  | none => exact Script.triple_block_nil fun _ hw => hw
  | some mapping =>
      refine keeps_block fun command hcommand => ?_
      simp only [List.mem_cons, List.not_mem_nil, or_false] at hcommand
      rcases hcommand with rfl | rfl | rfl | rfl
      · exact keeps_atomicWrite mapping (by decide) (by decide)
      · exact keeps_elsewhere _
      · exact keeps_elsewhere _
      · have happart : Apart (D := D) (Host.unlink .identityMap) :=
          apart_unlink (by decide) (by decide)
        refine Script.triple_tryFinally hruns (keeps_does happart)
          (Script.triple_step_after fun h h' hkept heffect => ?_)
        rw [happart h h' heffect]
        exact hkept

end Body

/-! ## The `try` -/

section Try

variable {p q : Bool → Bool → Prop} {release : String} {env unit : List UInt8}
  {rest : List (Command (Host D))}

/-- No `.current-upgrade` entry, and the assertion of what was done to the database. -/
def Clear (p : Bool → Bool → Prop) (m : Marks D) : Prop :=
  m.temporary = none ∧ p m.attempted m.touched

/-- The same past the switch. -/
def PastSwitch (release : String) (p : Bool → Bool → Prop) (m : Marks D) : Prop :=
  Clear p m ∧ m.current = some (.symlink release)

/-- **Both scripts stop, write and switch**, and leave no `.current-upgrade` entry where there was
none. -/
theorem body_clear {Q : World (Host D) → Prop}
    (hq : ∀ attempted touched, p attempted touched → q attempted touched)
    (hrest : Triple (before fun h => PastSwitch release p h.marks) (block rest) Q
      (after fun h => Clear q h.marks)) :
    Triple (before fun h => Clear p h.marks)
      (block (systemctlStop :: atomicWrite .nativeEnv env :: atomicWrite .unit unit ::
        switchCurrent release :: rest))
      Q (after fun h => Clear q h.marks) := by
  have hweaken : ∀ h : Host D, Clear p h.marks → Clear q h.marks :=
    fun h hclear => ⟨hclear.1, hq _ _ hclear.2⟩
  have hkeeps : ∀ {command : Command (Host D)}, Keeps (Clear p) command →
      Triple (before fun h => Clear p h.marks) command (before fun h => Clear p h.marks)
        (after fun h => Clear q h.marks) := fun hcommand =>
    hcommand.mono (fun _ hw => hw) (fun _ hw => hw) fun w hw => ⟨hw.1, hweaken _ hw.2⟩
  refine Script.triple_block_cons (hkeeps keeps_systemctlStop) (Script.triple_block_cons
    (hkeeps (keeps_atomicWrite env (by decide) (by decide))) (Script.triple_block_cons
      (hkeeps (keeps_atomicWrite unit (by decide) (by decide)))
      (Script.triple_block_cons ?_ hrest)))
  have happart : ApartFromLinks fun h : Host D => p h.migrationAttempted h.databaseTouched :=
    fun _ _ _ _ h => h
  refine (switchCurrent_keeps happart).mono (fun _ hw => hw) ?_ fun w hw => ⟨hw.1, hweaken _ hw.2⟩
  rintro w ⟨hraised, hnone, hp, hcurrent⟩
  exact ⟨hraised, ⟨hnone, hp⟩, hcurrent⟩

/-- With the entry there the `try` raises at the switch at the latest. -/
theorem body_stale :
    Triple (before fun h : Host D => ¬ NoTemporary h)
      (block (systemctlStop :: atomicWrite .nativeEnv env :: atomicWrite .unit unit ::
        switchCurrent release :: rest))
      (fun _ => False) (after fun h => ¬ NoTemporary h) := by
  let I : Marks D → Prop := fun m => ¬ m.temporary = none
  have hstop : Keeps I systemctlStop := keeps_systemctlStop
  have henv : Keeps I (atomicWrite .nativeEnv env) := keeps_atomicWrite env (by decide) (by decide)
  have hunit : Keeps I (atomicWrite .unit unit) := keeps_atomicWrite unit (by decide) (by decide)
  refine Script.triple_block_cons hstop
    (Script.triple_block_cons henv (Script.triple_block_cons hunit
    (Script.triple_block_cons (R := fun _ => False) ?_ ?_)))
  · exact (switchCurrent_stale (p := fun _ => True)).mono (fun w hw => ⟨hw.2, trivial⟩)
      (fun _ hw => hw)
      fun w hw => ⟨hw.1, hw.2.1⟩
  · exact ⟨fun _ _ hfalse => hfalse.elim, fun _ _ hfalse => hfalse.elim⟩

end Try

/-- The `try` of the upgrade: it never touches the database. -/
theorem upgradeBody_clear (plan : Plan D) :
    Triple (before fun h => Clear (fun attempted _ => attempted = false) h.marks) (upgradeBody plan)
      (before fun h => PastSwitch plan.release (fun attempted _ => attempted = false) h.marks)
      (after fun h => Clear (fun attempted _ => attempted = false) h.marks) := by
  refine body_clear (fun _ _ h => h) ?_
  have hkeeps : Keeps (D := D) (PastSwitch plan.release fun attempted _ => attempted = false)
      (block [daemonReload, resetFailed, systemctlStart, ready plan.localReady,
        ready plan.publicReady,
        atomicWrite .receipt plan.receipt]) := by
    refine keeps_block fun command hcommand => ?_
    simp only [List.mem_cons, List.not_mem_nil, or_false] at hcommand
    rcases hcommand with rfl | rfl | rfl | rfl | rfl | rfl
    · exact keeps_daemonReload
    · exact keeps_elsewhere _
    · exact keeps_systemctlStart
    · exact keeps_ready _
    · exact keeps_ready _
    · exact keeps_atomicWrite _ (by decide) (by decide)
  exact hkeeps.mono (fun _ hw => hw) (fun _ hw => hw) fun w hw => ⟨hw.1, hw.2.1⟩

/-- The `try` of the cutover: the migration is attempted once the script has noted that it touches
the database. -/
theorem cutoverBody_clear (plan : Plan D) :
    Triple (before fun h => Clear (fun attempted _ => attempted = false) h.marks) (cutoverBody plan)
      (before fun h => PastSwitch plan.release (fun _ touched => touched = true) h.marks)
      (after fun h => Clear (fun attempted touched => attempted = true → touched = true)
        h.marks) := by
  have hfalse : ∀ attempted touched : Bool, attempted = false → attempted = true →
      touched = true := by
    rintro attempted touched rfl ⟨⟩
  refine body_clear hfalse ?_
  -- until the note no migration was attempted, and from it on the note is there
  have hearly : ∀ {command : Command (Host D)},
      Keeps (PastSwitch plan.release fun attempted _ => attempted = false) command →
      Triple (before fun h => PastSwitch plan.release (fun attempted _ => attempted = false)
        h.marks) command
        (before fun h => PastSwitch plan.release (fun attempted _ => attempted = false) h.marks)
        (after fun h => Clear (fun attempted touched => attempted = true → touched = true)
          h.marks) :=
    fun hcommand => hcommand.mono (fun _ hw => hw) (fun _ hw => hw)
      fun w hw => ⟨hw.1, hw.2.1.1, hfalse _ _ hw.2.1.2⟩
  refine Script.triple_block_cons (hearly keeps_daemonReload)
    (Script.triple_block_cons (hearly keeps_prepareRuntime)
      (Script.triple_block_cons
        (R := before fun h => PastSwitch plan.release (fun _ touched => touched = true) h.marks)
        ?_ ?_))
  · refine Script.triple_step ?_ (fun h hpast => ⟨hpast.1.1, hfalse _ _ hpast.1.2⟩)
      fun h hpast => ⟨hpast.1.1, fun _ => hpast.1.2⟩
    rintro h h' ⟨⟨hnone, _⟩, hcurrent⟩ heffect
    cases heffect
    exact ⟨⟨hnone, rfl⟩, hcurrent⟩
  · have hmigrate : Keeps (D := D) (PastSwitch plan.release fun _ touched => touched = true)
        migrate := by
      refine Script.triple_step ?_ (fun _ h => h) fun _ h => h
      rintro h h' hpast ⟨database, rfl⟩
      exact hpast
    have hkeeps : Keeps (D := D) (PastSwitch plan.release fun _ touched => touched = true)
        (block [migrate, linkIdentities plan.mapping, resetFailed, systemctlStart,
          ready plan.localReady,
          ready plan.publicReady]) := by
      refine keeps_block fun command hcommand => ?_
      simp only [List.mem_cons, List.not_mem_nil, or_false] at hcommand
      rcases hcommand with rfl | rfl | rfl | rfl | rfl | rfl
      · exact hmigrate
      · exact keeps_linkIdentities (fun _ _ h => h) plan.mapping
      · exact keeps_elsewhere _
      · exact keeps_systemctlStart
      · exact keeps_ready _
      · exact keeps_ready _
    exact hkeeps.mono (fun _ hw => hw) (fun _ hw => hw) fun w hw =>
      ⟨hw.1, hw.2.1.1, fun _ => hw.2.1.2⟩

/-! ## The handlers -/

/-- The link, the file and the unit are back, with what is running and what is said of the
database. -/
structure Back (plan : Plan D) (running : Option Api) (p : Option D → Bool → Bool → Prop)
    (h : Host D) : Prop where
  current : h.entries .current = some (.symlink plan.oldLink)
  nativeEnv : h.entries .nativeEnv = some (.file plan.oldEnv)
  unit : h.entries .unit = some (.file plan.oldUnit)
  loadedUnit : h.loadedUnit = some plan.oldUnit
  running : h.running = running
  data : p h.database h.migrationAttempted h.databaseTouched

/-- The service as the handlers start it. -/
def previousApi (plan : Plan D) (answered : List String) : Api :=
  ⟨plan.oldLink, plan.oldEnv, plan.oldUnit, answered⟩

section Handlers

variable {plan : Plan D} {p : Option D → Bool → Bool → Prop} {rest : List (Command (Host D))}
  {Q E : World (Host D) → Prop}

/-- **Without a `.current-upgrade` entry the handlers put the link, the file and the unit back.** -/
theorem rollback_files (hrest : Triple (after (Back plan none p)) (block rest) Q E) :
    Triple (after fun h => NoTemporary h ∧ p h.database h.migrationAttempted h.databaseTouched)
      (block (systemctlStop :: switchCurrent plan.oldLink :: atomicWrite .nativeEnv plan.oldEnv ::
        atomicWrite .unit plan.oldUnit :: daemonReload :: rest)) Q E := by
  let stopped : Host D → Prop :=
    fun h => h.running = none ∧ p h.database h.migrationAttempted h.databaseTouched
  have happart : ApartFromLinks stopped := fun _ _ _ _ h => h
  refine Script.triple_block_cons (R := after fun h => NoTemporary h ∧ stopped h) ?_
    (Script.triple_block_cons (switchCurrent_after happart)
      (Script.triple_block_cons
        (R := after fun h => h.entries .current = some (.symlink plan.oldLink) ∧
          h.entries .nativeEnv = some (.file plan.oldEnv) ∧ stopped h) ?_
        (Script.triple_block_cons
          (R := after fun h => h.entries .current = some (.symlink plan.oldLink) ∧
            h.entries .nativeEnv = some (.file plan.oldEnv) ∧
            h.entries .unit = some (.file plan.oldUnit) ∧
            stopped h) ?_
          (Script.triple_block_cons ?_ hrest))))
  · refine Script.triple_step_after ?_
    rintro h h' ⟨hnone, hp⟩ heffect
    cases heffect
    exact ⟨hnone, rfl, hp⟩
  · refine Script.triple_step_after ?_
    rintro h h' ⟨_, hstopped, hcurrent⟩ heffect
    obtain rfl := replaceAt_eq_some heffect
    rw [Host.put_entries_self, Host.put_entries_of_ne _ _ (by decide)]
    exact ⟨hcurrent, rfl, hstopped⟩
  · refine Script.triple_step_after ?_
    rintro h h' ⟨hcurrent, henv, hstopped⟩ heffect
    obtain rfl := replaceAt_eq_some heffect
    rw [Host.put_entries_self, Host.put_entries_of_ne _ _ (by decide),
      Host.put_entries_of_ne _ _ (by decide)]
    exact ⟨hcurrent, henv, rfl, hstopped⟩
  · refine Script.triple_step_after ?_
    rintro h h' ⟨hcurrent, henv, hunit, hrunning, hp⟩ heffect
    obtain rfl := reloadUnits_eq_some hunit heffect
    exact ⟨hcurrent, henv, hunit, rfl, hrunning, hp⟩

/-- The service is started as it was. -/
theorem rollback_start (hrest : Triple (after (Back plan (some (previousApi plan [])) p))
    (block rest) Q E) :
    Triple (after (Back plan none p)) (block (resetFailed :: systemctlStart :: rest)) Q E := by
  refine Script.triple_block_cons (R := after (Back plan none p)) ?_
    (Script.triple_block_cons ?_ hrest)
  · refine Script.triple_step_after ?_
    rintro h h' hback heffect
    cases heffect
    exact hback
  · refine Script.triple_step_after ?_
    rintro h h' hback heffect
    obtain rfl := startApi_eq_some hback.running hback.current hback.nativeEnv
      hback.loadedUnit heffect
    exact ⟨hback.current, hback.nativeEnv, hback.unit, hback.loadedUnit, rfl, hback.data⟩

/-- A readiness check of a rollback. -/
theorem rollback_ready {answered : List String} {url : String}
    (hrest : Triple (after (Back plan (some (previousApi plan (answered ++ [url]))) p))
      (block rest) Q E) :
    Triple (after (Back plan (some (previousApi plan answered)) p))
    (block (ready url :: rest)) Q E := by
  refine Script.triple_block_cons (Script.triple_step_after ?_) hrest
  rintro h h' hback heffect
  obtain rfl := answer_eq_some hback.running heffect
  exact ⟨hback.current, hback.nativeEnv, hback.unit, hback.loadedUnit, rfl, hback.data⟩

/-- The public readiness and the message end a rollback. -/
theorem rollback_end {answered : List String} {url message : String} :
    Triple (after (Back plan (some (previousApi plan answered)) p))
    (block [ready url, elsewhere message])
      (after (Back plan (some (previousApi plan (answered ++ [url]))) p)) E := by
  refine rollback_ready (Script.triple_block_cons (R := after (Back plan _ p)) ?_
    (Script.triple_block_nil fun _ hw => hw))
  refine Script.triple_step_after ?_
  rintro h h' hback heffect
  cases heffect
  exact hback

/-- **With a `.current-upgrade` entry the handlers stop the service and raise.** -/
theorem rollback_stale {target : String} :
    Triple (after fun h : Host D => ¬ NoTemporary h)
      (block (systemctlStop :: switchCurrent target :: rest))
      (after fun h => h.running = none) (after fun h => h.running = none) := by
  refine Script.triple_block_cons (R := after fun h => ¬ NoTemporary h ∧ h.running = none) ?_
    (Script.triple_block_cons (R := fun _ => False) ?_ ?_)
  · refine Script.triple_step_after ?_
    rintro h h' hstale heffect
    cases heffect
    exact ⟨hstale, rfl⟩
  · refine (switchCurrent_stale (p := fun h => h.running = none)).mono ?_ (fun _ hw => hw) ?_
    · exact fun w hw => hw.2
    · exact fun w hw => ⟨hw.1, hw.2.2⟩
  · exact ⟨fun _ _ hfalse => hfalse.elim, fun _ _ hfalse => hfalse.elim⟩

/-- The database is the dump where the script noted that it touched it. -/
theorem rollback_database {dump : D} :
    Triple (after (Back plan none fun _ attempted touched => attempted = true → touched = true))
      (whenever (·.databaseTouched) (restoreDatabase dump))
      (after (Back plan none fun database attempted _ =>
        attempted = true → database = some dump)) E := by
  refine Script.triple_whenever ?_ ?_
  · refine Script.triple_block_cons (R := after (Back plan none fun _ _ _ => True)) ?_
      (Script.triple_block_cons ?_ (Script.triple_block_nil fun _ hw => hw))
    · refine (Script.triple_step_after (p := Back plan none fun _ attempted touched =>
        attempted = true → touched = true) ?_).mono (fun w hw => hw.1) (fun _ hw =>
          hw) fun _ hw => hw
      rintro h h' hback heffect
      cases heffect
      exact ⟨hback.current, hback.nativeEnv, hback.unit, hback.loadedUnit, hback.running, trivial⟩
    · refine Script.triple_step_after ?_
      rintro h h' hback heffect
      cases heffect
      exact ⟨hback.current, hback.nativeEnv, hback.unit, hback.loadedUnit, hback.running,
        fun _ => rfl⟩
  · rintro w ⟨hraised, hback⟩ huntouched
    refine ⟨hraised, hback.current, hback.nativeEnv, hback.unit, hback.loadedUnit,
      hback.running, ?_⟩
    intro hattempted
    cases (hback.data hattempted).symm.trans huntouched

end Handlers

/-! ## The two handlers -/

theorem upgradeHandler_clear (plan : Plan D) {E : World (Host D) → Prop} :
    Triple (after fun h => Clear (fun attempted _ => attempted = false) h.marks)
    (upgradeHandler plan)
      (after (Back plan (some (previousApi plan [plan.localReady, plan.publicReady]))
        fun _ attempted _ => attempted = false)) E := by
  refine rollback_files (p := fun _ attempted _ => attempted = false) ?_
  exact rollback_start (rollback_ready rollback_end)

theorem cutoverHandler_clear (plan : Plan D) {bind : Option (List Char)} {E : World (Host D) → Prop}
    (hbind : envValue plan.oldEnv BIND_ADDR = .ok bind) :
    Triple (after fun h => Clear (fun attempted touched => attempted = true → touched = true)
      h.marks)
      (cutoverHandler plan)
      (after (Back plan (some (previousApi plan [readyUrl bind, plan.publicReady]))
        fun database attempted _ => attempted = true → database = some plan.dump)) E := by
  unfold cutoverHandler readyAt
  rw [hbind]
  exact rollback_files (Script.triple_block_cons rollback_database
    (rollback_start (rollback_ready rollback_end)))

/-- The cutover's handler starts the service, and raises where it cannot read its address. -/
theorem cutoverHandler_unreadable (plan : Plan D) {failure : Failure}
    (hbind : envValue plan.oldEnv BIND_ADDR = .error failure) :
    Triple (after fun h => Clear (fun attempted touched => attempted = true → touched = true)
      h.marks)
      (cutoverHandler plan) (after fun h => h.running = some (previousApi plan []))
      (after fun h => h.running = some (previousApi plan [])) := by
  unfold cutoverHandler readyAt
  rw [hbind]
  refine rollback_files (Script.triple_block_cons rollback_database (rollback_start
    (Script.triple_block_cons (R := fun _ => False)
      (Script.triple_require (fun _ _ hfalse => hfalse) ?_) ?_)))
  · rintro w ⟨_, hback⟩ _
    exact ⟨rfl, hback.running⟩
  · exact ⟨fun _ _ hfalse => hfalse.elim, fun _ _ hfalse => hfalse.elim⟩

/-! ## Failed runs -/

section Failed

variable {answers : Answers D} {args : Args} {host left : Host D} {plan : Plan D} {inside : Bool}

/-- What the handlers put back is what the checks found. -/
theorem Back.restored (api : Api) {p : Option D → Bool → Bool → Prop} (hfound : Found host plan)
    (hback : Back plan (some (previousApi plan api.answered)) p left)
    (hdata : ∀ database attempted touched, p database attempted touched → attempted = true →
      database = some plan.dump)
    (hready : CheckedReady plan (previousApi plan api.answered)) : Restored host plan left where
  current := hback.current.trans hfound.current.symm
  nativeEnv := hback.nativeEnv.trans hfound.nativeEnv.symm
  unit := hback.unit.trans hfound.unit.symm
  database := hdata _ _ _ hback.data
  api := ⟨previousApi plan api.answered, hback.running, hfound.current, hfound.nativeEnv,
    hfound.unit, hready⟩

theorem not_restored_of_stopped (hstopped : left.running = none) : ¬ Restored host plan left := by
  rintro ⟨_, _, _, _, api, hrunning, _⟩
  cases hstopped.symm.trans hrunning

theorem not_restored_of_switched (hfound : Found host plan)
    (hswitched : left.entries .current = some (.symlink plan.release)) :
    ¬ Restored host plan left := by
  intro hrestored
  have hlink := hswitched.symm.trans (hrestored.current.trans hfound.current)
  exact hfound.oldLink_ne (Entry.symlink.inj (Option.some.inj hlink)).symm

theorem not_restored_of_unchecked {api : Api} (hrunning : left.running = some api)
    (hanswered : api.answered = []) :
    ¬ Restored host plan left := by
  rintro ⟨_, _, _, _, other, hother, _, _, _, _, _, hlocal, _⟩
  obtain rfl : api = other := Option.some.inj (hrunning.symm.trans hother)
  rw [hanswered] at hlocal
  cases hlocal

/-- **With a `.current-upgrade` entry no failed run restores what it changed.** -/
theorem not_restored_of_stale {env unit : List UInt8} {release target : String}
    {rest handlerRest : List (Command (Host D))} {past : Command (Host D)}
    (hstale : ¬ NoTemporary host)
    (hfails : Script.Fails
      (block (systemctlStop :: atomicWrite .nativeEnv env :: atomicWrite .unit unit ::
        switchCurrent release :: rest))
      (block (systemctlStop :: switchCurrent target :: handlerRest)) past host.begun inside left) :
    ¬ Restored host plan left := by
  have hbegun : ¬ NoTemporary host.begun := hstale
  cases inside with
  | true =>
      have hstopped := hfails.post_inside (p := fun h => ¬ NoTemporary h) hbegun body_stale
        rollback_stale
      exact not_restored_of_stopped hstopped
  | false => exact absurd hfails (Script.Fails.not_after (p := fun h => ¬ NoTemporary h) hbegun
    body_stale)

/-- **A failed upgrade restores everything when it raised in its `try` and found no
`.current-upgrade` entry.** -/
theorem upgrade_restored_iff (hchecks : upgradeChecks answers args host = .ok plan)
    (hfails : UpgradeFails plan host inside left) :
    Restored host plan left ↔ inside = true ∧ NoTemporary host := by
  obtain ⟨hfound, bind, hbind, hlocal⟩ := upgradeChecks_ok hchecks
  by_cases hnone : NoTemporary host
  · have hbegun : Clear (fun attempted _ => attempted = false) host.begun.marks := ⟨hnone, rfl⟩
    cases inside with
    | true =>
        have hback := hfails.post_inside hbegun (upgradeBody_clear plan) (upgradeHandler_clear plan)
        refine ⟨fun _ => ⟨rfl, hnone⟩, fun _ => hback.restored (previousApi plan _) hfound ?_ ?_⟩
        · rintro database attempted touched rfl ⟨⟩
        · refine ⟨bind, hbind, ?_, List.mem_cons_of_mem _ List.mem_cons_self⟩
          rw [← hlocal]
          exact List.mem_cons_self
    | false =>
        have hrest : Keeps (D := D) (PastSwitch plan.release fun attempted _ => attempted = false)
            upgradeRest := by
          refine keeps_block fun command hcommand => ?_
          obtain rfl := List.mem_singleton.mp hcommand
          exact keeps_elsewhere _
        have hpast := hfails.post_after hbegun (upgradeBody_clear plan) hrest
        refine ⟨fun hrestored => ?_, ?_⟩
        · exact absurd hrestored (not_restored_of_switched hfound hpast.2)
        · rintro ⟨⟨⟩, _⟩
  · exact ⟨fun hrestored => absurd hrestored (not_restored_of_stale hnone hfails),
      fun h => absurd h.2 hnone⟩

/-- **A failed cutover restores everything when it raised in its `try`, found no `.current-upgrade`
entry and can read the address in the old file.** -/
theorem cutover_restored_iff (hchecks : cutoverChecks answers args host = .ok plan)
    (hfails : CutoverFails plan host inside left) :
    Restored host plan left ↔ inside = true ∧ NoTemporary host ∧ AddressReadable host := by
  have hfound := cutoverChecks_ok hchecks
  by_cases hnone : NoTemporary host
  · have hbegun : Clear (fun attempted _ => attempted = false) host.begun.marks := ⟨hnone, rfl⟩
    cases inside with
    | true =>
        cases hbind : envValue plan.oldEnv BIND_ADDR with
        | ok bind =>
            have hback := hfails.post_inside hbegun (cutoverBody_clear plan)
              (cutoverHandler_clear plan hbind)
            have hready : CheckedReady plan (previousApi plan [readyUrl bind, plan.publicReady]) :=
              ⟨bind, hbind, List.mem_cons_self, List.mem_cons_of_mem _ List.mem_cons_self⟩
            have hreadable : AddressReadable host := by
              intro env henv
              obtain rfl := Entry.file.inj (Option.some.inj (hfound.nativeEnv.symm.trans henv))
              exact ⟨bind, hbind⟩
            exact ⟨fun _ => ⟨rfl, hnone, hreadable⟩,
              fun _ => hback.restored (previousApi plan _) hfound (fun _ _ _ h => h) hready⟩
        | error failure =>
            have hrunning := hfails.post_inside
              (q := fun h => h.running = some (previousApi plan [])) hbegun
              (cutoverBody_clear plan) (cutoverHandler_unreadable plan hbind)
            refine ⟨fun hrestored => absurd hrestored (not_restored_of_unchecked hrunning rfl), ?_⟩
            rintro ⟨_, _, hreadable⟩
            obtain ⟨bind, hread⟩ := hreadable plan.oldEnv hfound.nativeEnv
            cases hbind.symm.trans hread
    | false =>
        have hrest : Keeps (D := D) (PastSwitch plan.release fun _ touched => touched = true)
            (cutoverRest plan) := by
          refine keeps_block fun command hcommand => ?_
          simp only [List.mem_cons, List.not_mem_nil, or_false] at hcommand
          rcases hcommand with rfl | rfl | rfl | rfl
          · exact keeps_elsewhere _
          · exact keeps_elsewhere _
          · exact keeps_atomicWrite _ (by decide) (by decide)
          · exact keeps_elsewhere _
        have hpast := hfails.post_after hbegun (cutoverBody_clear plan) hrest
        refine ⟨fun hrestored => ?_, ?_⟩
        · exact absurd hrestored (not_restored_of_switched hfound hpast.2)
        · rintro ⟨⟨⟩, _⟩
  · exact ⟨fun hrestored => absurd hrestored (not_restored_of_stale hnone hfails),
      fun h => absurd h.2.1 hnone⟩

/-- **When a failed run restores what it had changed.** -/
theorem rollback_restores_iff :
    (∀ (answers : Answers D) (args : Args) (host left : Host D) (plan : Plan D) (inside : Bool),
      upgradeChecks answers args host = .ok plan → UpgradeFails plan host inside left →
      (Restored host plan left ↔ inside = true ∧ NoTemporary host)) ∧
    ∀ (answers : Answers D) (args : Args) (host left : Host D) (plan : Plan D) (inside : Bool),
      cutoverChecks answers args host = .ok plan → CutoverFails plan host inside left →
      (Restored host plan left ↔ inside = true ∧ NoTemporary host ∧ AddressReadable host) := by
  constructor
  · intro answers args host left plan inside hchecks hfails
    exact upgrade_restored_iff hchecks hfails
  · intro answers args host left plan inside hchecks hfails
    exact cutover_restored_iff hchecks hfails

end Failed

/-! ## A host -/

/-- A file of lines. -/
def fileOf (lines : List String) : List UInt8 :=
  lines.flatMap fun line => Domain.utf8 line ++ [0x0a]

/-- The file of a service on Silicon Accounts. -/
def sampleEnv : List UInt8 := fileOf [
  "WAVEFORM_APP_SECRET=sa_app_0123456789abcdef0123456789",
  "WAVEFORM_BIND_ADDR=10.0.0.5:80",
  "WAVEFORM_FFMPEG_PATH=/opt/waveform/current/bin/ffmpeg"]

/-- The file of a service on the earlier sign-in. -/
def earlierSample : List UInt8 := fileOf [
  "WAVEFORM_IAM_APP_ID=waveform", "WAVEFORM_BIND_ADDR=10.0.0.5:80", "WAVEFORM_ENCRYPTION_KEY=k"]

/-- The file the cutover writes in its place. -/
def cutoverSample : List UInt8 := fileOf [
  "WAVEFORM_BIND_ADDR=10.0.0.5:80", "WAVEFORM_ENCRYPTION_KEY=k",
  "ACCOUNTS_URL=https://accounts.teamofsilicons.com", "WAVEFORM_BRIEFCASE_APP_ID=briefcase",
  "WAVEFORM_APP_SECRET=sa_app_0123456789abcdef0123456789",
  "WAVEFORM_ACCOUNTS_WEBHOOK_SECRET=whsec_w"]

def sampleHost (env : List UInt8) : Host Nat where
  entries
    | .current => some (.symlink "/opt/waveform/releases/a")
    | .nativeEnv => some (.file env)
    | .unit => some (.file (Domain.utf8 "a"))
    | _ => none
  present := fun path => path == "/opt/waveform/releases/a"
  loadedUnit := some (Domain.utf8 "a")
  running := some ⟨"/opt/waveform/releases/a", env, Domain.utf8 "a", []⟩
  database := some 1
  kept := none
  migrationAttempted := false
  databaseTouched := false

def sampleArgs : Args := ⟨"b", "https://backend.waveform.teamofsilicons.com/health/ready",
    false, none⟩

/-- Every answer lets the checks pass. -/
def sampleAnswers : Answers Nat where
  archiveMatches := true
  insideReleases := true
  isPrivate := fun _ => .ok true
  portNumber := fun _ => .ok (some 80)
  accountsPreflight := fun _ => .ok ()
  isActive := .ok ()
  ready := fun _ => .ok ()
  psql := .ok ()
  stage := .ok (Domain.utf8 "b")
  verify := .ok ()
  backup := .ok 1
  readAccountsEnv := .ok [
    ("WAVEFORM_APP_SECRET", "sa_app_0123456789abcdef0123456789"),
    ("WAVEFORM_ACCOUNTS_WEBHOOK_SECRET", "whsec_w")]
  mappingFile := fun _ => none
  receipt := Domain.utf8 "b"

def samplePlan (oldEnv newEnv : List UInt8) : Plan Nat where
  oldLink := "/opt/waveform/releases/a"
  release := "/opt/waveform/releases/b"
  oldEnv := oldEnv
  newEnv := newEnv
  oldUnit := Domain.utf8 "a"
  newUnit := Domain.utf8 "b"
  localReady := "http://10.0.0.5:80/health/ready"
  publicReady := "https://backend.waveform.teamofsilicons.com/health/ready"
  mapping := none
  receipt := Domain.utf8 "b"
  dump := 1

theorem upgradeChecks_sample :
    upgradeChecks sampleAnswers sampleArgs (sampleHost sampleEnv) =
      .ok (samplePlan sampleEnv sampleEnv) := by
  decide +kernel

theorem cutoverChecks_sample :
    cutoverChecks sampleAnswers sampleArgs (sampleHost earlierSample) =
      .ok (samplePlan earlierSample cutoverSample) := by
  decide +kernel

section Sample

open Script (block_cons block_cons_raised block_nil does_done)

/-- A switch on a host where it finds nothing in its way. -/
theorem switchCurrent_run {h h₁ h₂ h₃ : Host D} {r : Bool} {target : String} (hnone : NoTemporary h)
    (hsymlink : h.symlinkTemporary target = some h₁) (hreplace : h₁.replaceCurrent = some h₂)
    (hunlink : h₂.unlink .currentUpgrade = some h₃) :
    switchCurrent target ⟨h, r⟩ .done ⟨h₃, r⟩ := by
  refine block_cons (m := ⟨h, r⟩) ⟨hnone, rfl⟩
    (block_cons (m := ⟨h₃, r⟩) ⟨.done, ⟨h₂, r⟩, ?_, ?_⟩ (block_nil _))
  · exact block_cons (does_done hsymlink) (block_cons (does_done hreplace) (block_nil _))
  · exact .inl ⟨does_done hunlink, rfl⟩

/-- The stop raises, and the handler of the upgrade ends. -/
theorem upgradeFails_sample :
    ∃ left, UpgradeFails (samplePlan sampleEnv sampleEnv) (sampleHost sampleEnv) true left := by
  have hhandler : ∃ left, upgradeHandler (samplePlan sampleEnv sampleEnv)
    ⟨(sampleHost sampleEnv).begun, true⟩ .done
      ⟨left, true⟩ :=
    ⟨_, block_cons (does_done rfl) (block_cons (switchCurrent_run rfl rfl rfl rfl)
      (block_cons (does_done rfl) (block_cons (does_done rfl) (block_cons (does_done rfl)
        (block_cons (does_done rfl) (block_cons (does_done rfl) (block_cons (does_done rfl)
          (block_cons (does_done rfl) (block_cons (does_done rfl) (block_nil _))))))))))⟩
  obtain ⟨left, hrun⟩ := hhandler
  exact ⟨left, ⟨(sampleHost sampleEnv).begun, true⟩, .done, true,
    block_cons_raised ⟨rfl, .inl rfl, rfl⟩, hrun⟩

/-- The stop raises, and the handler of the cutover ends. -/
theorem cutoverFails_sample :
    ∃ left, CutoverFails (samplePlan earlierSample cutoverSample)
      (sampleHost earlierSample) true left := by
  have hbind : envValue earlierSample BIND_ADDR = .ok (some "10.0.0.5:80".toList) := by
    decide +kernel
  have hready : readyAt (D := Nat) earlierSample =
      ready (readyUrl (some "10.0.0.5:80".toList)) := by
    unfold readyAt
    rw [hbind]
  have hhandler : ∃ left, cutoverHandler (samplePlan earlierSample cutoverSample)
      ⟨(sampleHost earlierSample).begun, true⟩ .done ⟨left, true⟩ := by
    unfold cutoverHandler
    rw [show (samplePlan earlierSample cutoverSample).oldEnv = earlierSample from rfl, hready]
    exact ⟨_, block_cons (does_done rfl) (block_cons (switchCurrent_run rfl rfl rfl rfl)
      (block_cons (does_done rfl) (block_cons (does_done rfl) (block_cons (does_done rfl)
        (block_cons (Script.whenever_skip rfl)
          (block_cons (does_done rfl) (block_cons (does_done rfl)
          (block_cons (does_done rfl) (block_cons (does_done rfl) (block_cons (does_done rfl)
            (block_nil _)))))))))))⟩
  obtain ⟨left, hrun⟩ := hhandler
  exact ⟨left, ⟨(sampleHost earlierSample).begun, true⟩, .done, true,
    block_cons_raised ⟨rfl, .inl rfl, rfl⟩, hrun⟩

/-- Both failed runs of the sample restore everything. -/
theorem rollback_restores_iff_sample :
    (∃ left, UpgradeFails (samplePlan sampleEnv sampleEnv) (sampleHost sampleEnv) true left ∧
      (Restored (sampleHost sampleEnv) (samplePlan sampleEnv sampleEnv) left ↔
        true = true ∧ NoTemporary (sampleHost sampleEnv))) ∧
    ∃ left, CutoverFails (samplePlan earlierSample cutoverSample)
      (sampleHost earlierSample) true left ∧
      (Restored (sampleHost earlierSample) (samplePlan earlierSample cutoverSample) left ↔
        true = true ∧ NoTemporary (sampleHost earlierSample) ∧
          AddressReadable (sampleHost earlierSample)) := by
  obtain ⟨left, hupgrade⟩ := upgradeFails_sample
  obtain ⟨left', hcutover⟩ := cutoverFails_sample
  exact ⟨⟨left, hupgrade, rollback_restores_iff.1 _ _ _ _ _ _ upgradeChecks_sample hupgrade⟩,
    ⟨left', hcutover, rollback_restores_iff.2 _ _ _ _ _ _ cutoverChecks_sample hcutover⟩⟩

/-- **An interrupted run's `.current-upgrade` entry keeps the upgrade from restoring anything**: the
switch refuses it, the handler's switch refuses it again, and the service stays stopped. -/
theorem not_forall_restored :
    ¬ ∀ (answers : Answers Nat) (args : Args) (host left : Host Nat) (plan : Plan Nat),
      upgradeChecks answers args host = .ok plan → UpgradeFails plan host true left →
        Restored host plan left := by
  intro hall
  let stale : Host Nat := (sampleHost sampleEnv).put .currentUpgrade
    (some (.symlink "/opt/waveform/releases/0"))
  have hchecks : upgradeChecks sampleAnswers sampleArgs stale =
      .ok (samplePlan sampleEnv sampleEnv) :=
    (upgradeChecks_put_temporary _).trans upgradeChecks_sample
  have hstale : ¬ NoTemporary stale := by rintro ⟨⟩
  have hfails : ∃ left, UpgradeFails (samplePlan sampleEnv sampleEnv) stale true left ∧
      left.running = none := by
    refine ⟨_, ⟨_, .raised, true,
      block_cons (does_done rfl) (block_cons (does_done rfl) (block_cons (does_done rfl)
      (block_cons_raised (block_cons_raised ⟨hstale, rfl⟩)))),
      block_cons (does_done rfl) (block_cons_raised (block_cons_raised ⟨hstale, rfl⟩))⟩, rfl⟩
  obtain ⟨left, hfails, hstopped⟩ := hfails
  exact not_restored_of_stopped hstopped (hall _ _ _ _ _ hchecks hfails)

end Sample

end Waveform.Deploy
