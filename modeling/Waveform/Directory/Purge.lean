import Waveform.Control.Settings
import Waveform.Storage.Proofs
import Waveform.Store.OneOperation

/-!
# Deleting the data of an account

`purge_account` deletes from one table after another inside one transaction. Requests that were
authorized before it write to the same tables with statements that neither look at the tombstone nor
take the account's lock, so they can fall between any two of its statements and after the last one.

A write that meets a row the purge has deleted and not yet committed waits and then runs as it would
after the commit, so every statement is taken to act at once.

- `InsertsLate`: a step puts a row of the account into a table after the purge has emptied it.
- `noResidue_iff`: the purge leaves nothing exactly when no step inserts late.
-/

set_option autoImplicit false

namespace Waveform.Directory

open Waveform.Domain LabelledRun
open Waveform.Store (StoreOp Readings IdempotencySettings RecordRow execute)
open Waveform.Control (Settings)
open Waveform.Storage (ProofRow)

/-! ## The tables and the requests -/

/-- The tables that hold an account's data, under its storage key. -/
structure AccountDb where
  speech : Store.Db
  proofs : ActorId → String → Option ProofRow
  settings : Settings

/-- A table that the purge empties. Bug reports, which only `submit` writes, and the former identity
rows are deleted from last and left out. -/
inductive PurgedTable where
  | providerKeys
  | storageProofs
  | accountPreferences
  | jobs
  | idempotencyRecords
  | heldAudio
  deriving DecidableEq

/-- The statements of `purge_account`, in order. -/
def purgeStatements : List PurgedTable :=
  [.providerKeys, .storageProofs, .accountPreferences, .jobs, .idempotencyRecords, .heldAudio]

/-- What a request does to the tables: a step of its speech operation, the upsert of `save`, or a
settings request. -/
inductive AccountOp where
  | claim (claim : IdempotencyClaim)
  | startJob (job : SpeechJobStart)
  | complete (completion : IdempotencyCompletion)
  | release (release : IdempotencyRelease)
  | hold (attempt : IdempotencyLeaseId) (audio : Store.HeldAudio)
  | saveProof (storageKey : ActorId) (receivingApp : String) (row : ProofRow)
  | putProviderKey (storageKey : ActorId) (provider apiKey : String)
  | ensurePreferences (storageKey : ActorId)
  | updatePreferences (storageKey : ActorId) (body : Settings.Preferences)

/-- The deployment's configuration. -/
structure Config where
  idempotency : IdempotencySettings
  vault : Vault

namespace AccountDb

/-- Saved settings, or the old ones when the request is refused. -/
def withSettings (db : AccountDb) : Except Control.ControlError Settings → AccountDb
  | .ok settings => { db with settings := settings }
  | .error _ => db

/-- The upsert of `save`. -/
def setProof (db : AccountDb) (storageKey : ActorId) (receivingApp : String) (row : ProofRow) :
    AccountDb :=
  let proofs := Function.update (db.proofs storageKey) receivingApp (some row)
  { db with proofs := Function.update db.proofs storageKey proofs }

/-- The speech tables after a step of a speech operation. -/
def speechStep (config : Config) (now : Readings) (db : AccountDb) (op : StoreOp) : AccountDb :=
  { db with speech := (execute config.idempotency now db.speech op).2 }

/-- The database after a request's step. -/
def apply (config : Config) (now : Readings) (db : AccountDb) : AccountOp → AccountDb
  | .claim input => db.speechStep config now (.claim input)
  | .startJob job => db.speechStep config now (.startJob job)
  | .complete completion => db.speechStep config now (.complete completion)
  | .release input => db.speechStep config now (.release input)
  | .hold attempt audio => db.speechStep config now (.hold attempt audio)
  | .saveProof storageKey receivingApp row => db.setProof storageKey receivingApp row
  | .putProviderKey storageKey provider apiKey =>
      db.withSettings
        (Settings.putProviderKey config.vault db.settings storageKey provider apiKey now.begun)
  | .ensurePreferences storageKey =>
      { db with settings := db.settings.ensurePreferences storageKey now.begun }
  | .updatePreferences storageKey body =>
      db.withSettings (db.settings.updatePreferences storageKey body now.begun)

/-- One DELETE of the purge. -/
def delete (db : AccountDb) (account : ActorId) : PurgedTable → AccountDb
  | .providerKeys =>
      { db with settings := { db.settings with
          providerKeys := db.settings.providerKeys.filter fun row => row.actorId != account } }
  | .storageProofs => { db with proofs := Function.update db.proofs account fun _ => none }
  | .accountPreferences =>
      { db with settings := { db.settings with
          preferences := db.settings.preferences.filter fun row => row.actorId != account } }
  | .jobs =>
      { db with speech := { db.speech with
          jobs := fun requestId => (db.speech.jobs requestId).filter fun row =>
            row.actorId != account } }
  | .idempotencyRecords =>
      { db with speech := { db.speech with
          records := fun scope => if scope.actor.id = account then none
            else db.speech.records scope } }
  | .heldAudio =>
      { db with speech := { db.speech with
          held := fun requestId => (db.speech.held requestId).filter fun row =>
            row.storageActorId != account } }

/-- The table has a row under the account's storage key. -/
def Holds (db : AccountDb) (account : ActorId) : PurgedTable → Prop
  | .providerKeys => ∃ row ∈ db.settings.providerKeys, row.actorId = account
  | .storageProofs => ∃ receivingApp row, db.proofs account receivingApp = some row
  | .accountPreferences => ∃ row ∈ db.settings.preferences, row.actorId = account
  | .jobs => ∃ requestId row, db.speech.jobs requestId = some row ∧ row.actorId = account
  | .idempotencyRecords =>
      ∃ scope row, db.speech.records scope = some row ∧ scope.actor.id = account
  | .heldAudio =>
      ∃ requestId row, db.speech.held requestId = some row ∧ row.storageActorId = account

end AccountDb

/-! ## A purge among requests -/

/-- The tables, and the statements that the purge has yet to run. -/
structure PurgeWorld where
  db : AccountDb
  remaining : List PurgedTable

/-- A step: the next statement of the purge, or a request's. -/
inductive PurgeEvent where
  | delete
  | request (op : AccountOp) (now : Readings)

/-- A step of a run in which the account is purged once. A claim asks for the configured lease. -/
inductive PurgeStep (config : Config) (account : ActorId) :
    PurgeWorld → PurgeEvent → PurgeWorld → Prop where
  | delete {db : AccountDb} {table : PurgedTable} {rest : List PurgedTable} :
      PurgeStep config account ⟨db, table :: rest⟩ .delete ⟨db.delete account table, rest⟩
  | request {w : PurgeWorld} {op : AccountOp} {now : Readings}
      (hlease : ∀ input, op = .claim input → input.leaseDuration = config.idempotency.lease) :
      PurgeStep config account w (.request op now) { w with db := w.db.apply config now op }

/-- The transitions of a run with a purge. -/
abbrev PurgeTransition := Transition PurgeWorld PurgeEvent

/-- The request puts a row of the account into the table, or finds one there: a claim in a live
plane, a start whose checks pass, a hold that the owner of the row may make, and every accepted
save. -/
def AccountOp.Inserts (db : AccountDb) (now : Readings) (account : ActorId) :
    AccountOp → PurgedTable → Prop
  | .claim input, .idempotencyRecords =>
      input.scope.actor.id = account ∧ db.speech.planes input.scope.planeId = true
  | .startJob job, .jobs => job.scope.actor.id = account ∧
      db.speech.planes job.scope.planeId = true ∧
      ∃ stored leaseExpiresAt, db.speech.records job.scope = some stored ∧
        stored.state = .pending job.leaseId leaseExpiresAt ∧ now.locked < leaseExpiresAt ∧
        (Store.startedJob stored job).storable = true ∧
        ∀ row, db.speech.jobs stored.requestId = some row →
          row.acceptsRestart (Store.startedJob stored job) = true
  | .hold _ audio, .heldAudio => audio.owner = account ∧
      ∀ row, db.speech.held audio.requestId = some row → row.storageActorId = account
  | .saveProof storageKey _ _, .storageProofs => storageKey = account
  | .putProviderKey storageKey provider apiKey, .providerKeys => storageKey = account ∧
      Settings.validProvider provider = true ∧ Settings.validApiKey apiKey = true
  | .ensurePreferences storageKey, .accountPreferences => storageKey = account
  | .updatePreferences storageKey body, .accountPreferences => storageKey = account ∧
      (body.voiceProfile.all fun id =>
        validProfileId id && db.settings.voices.contains id) = true ∧
      (body.ttsOrder.all fun order =>
        (completeOrder order db.settings.defaults.ttsOrder).isSome) = true ∧
      (body.sttOrder.all fun order =>
        (completeOrder order db.settings.defaults.sttOrder).isSome) = true
  | _, _ => False

/-- The step inserts into a table that the purge has already emptied. -/
def InsertsLate (account : ActorId) (t : PurgeTransition) : Prop :=
  ∃ op now table, t.label = .request op now ∧ table ∉ t.pre.remaining ∧
    op.Inserts t.pre.db now account table

/-- No table has a row under the account's storage key. -/
def NoResidue (account : ActorId) (w : PurgeWorld) : Prop :=
  ∀ table, ¬ w.db.Holds account table

/-! ## What one step does to one table -/

section Tables

variable {config : Config} {db : AccountDb} {account : ActorId} {now : Readings}

/-- An operation of the stores that requests make; the others are maintenance. -/
def isRequest : StoreOp → Bool
  | .claim _ => true
  | .startJob _ => true
  | .complete _ => true
  | .release _ => true
  | .hold _ _ => true
  | _ => false

/-- The operation of the stores that a request calls. -/
def AccountOp.storeOp : AccountOp → Option StoreOp
  | .claim input => some (.claim input)
  | .startJob job => some (.startJob job)
  | .complete completion => some (.complete completion)
  | .release input => some (.release input)
  | .hold attempt audio => some (.hold attempt audio)
  | _ => none

theorem isRequest_of_storeOp {request : AccountOp} {op : StoreOp}
    (h : request.storeOp = some op) : isRequest op = true := by
  cases request <;> cases h <;> rfl

theorem AccountOp.storeOp_injective {a b : AccountOp} {op : StoreOp} (ha : a.storeOp = some op)
    (hb : b.storeOp = some op) : a = b := by
  cases a <;> cases ha <;> cases b <;> cases hb <;> rfl

/-- No speech step removes the last record, job or held audio of an account. -/
theorem holds_speechStep {op : StoreOp} {table : PurgedTable} (hop : isRequest op = true)
    (h : db.Holds account table) : (db.speechStep config now op).Holds account table := by
  let w : Store.World := ⟨db.speech, 0, fun _ => none⟩
  cases table with
  | providerKeys => exact h
  | storageProofs => exact h
  | accountPreferences => exact h
  | jobs =>
      obtain ⟨requestId, row, hrow, hactor⟩ := h
      obtain ⟨row', hrow', hsame⟩ :=
        Store.next_jobs_of_some config.idempotency (w := w) ⟨op, now⟩ hrow
      have hactor' : row'.actorId = row.actorId :=
        congrArg (fun o : Store.OperationId => o.scope.actor.id) hsame
      exact ⟨requestId, row', hrow', hactor'.trans hactor⟩
  | idempotencyRecords =>
      obtain ⟨scope, row, hrow, hactor⟩ := h
      have hchange := Store.next_recordChange config.idempotency w ⟨op, now⟩ scope
      generalize hnew : (Store.World.next config.idempotency w ⟨op, now⟩).db.records scope = new
        at hchange
      cases hchange with
      | kept => exact ⟨scope, row, hnew.trans hrow, hactor⟩
      | inserted _ _ _ _ _ => exact ⟨scope, _, hnew, hactor⟩
      | reclaimed _ _ _ _ _ _ _ _ => exact ⟨scope, _, hnew, hactor⟩
      | completed _ _ _ _ _ _ _ _ => exact ⟨scope, _, hnew, hactor⟩
      | released _ _ _ _ _ => exact ⟨scope, _, hnew, hactor⟩
      | purged hdelete _ _ =>
          have hdelete : op = .deleteExpiredRecords _ := hdelete
          rw [hdelete] at hop
          cases hop
  | heldAudio =>
      obtain ⟨requestId, row, hrow, howner⟩ := h
      have hchange := Store.next_heldChange config.idempotency w ⟨op, now⟩ requestId
      generalize hnew : (Store.World.next config.idempotency w ⟨op, now⟩).db.held requestId = new
        at hchange
      cases hchange with
      | kept => exact ⟨requestId, row, hnew.trans hrow, howner⟩
      | inserted _ _ hnone _ =>
          have hnone : db.speech.held requestId = none := hnone
          rw [hrow] at hnone
          cases hnone
      | replaced _ _ hold _ _ =>
          have hold : db.speech.held requestId = some _ := hold
          rw [hrow] at hold
          cases hold
          exact ⟨requestId, _, hnew, howner⟩
      | expired hdelete _ _ =>
          have hdelete : op = .deleteExpiredAudio _ := hdelete
          rw [hdelete] at hop
          cases hop

/-- A record is new to an account only by a claim of its own in a live plane. -/
theorem records_of_speechStep {op : StoreOp}
    (h : (db.speechStep config now op).Holds account .idempotencyRecords) :
    db.Holds account .idempotencyRecords ∨
      ∃ input, op = .claim input ∧ input.scope.actor.id = account ∧
        db.speech.planes input.scope.planeId = true := by
  let w : Store.World := ⟨db.speech, 0, fun _ => none⟩
  obtain ⟨scope, row, hrow, hactor⟩ := h
  have hold : ∀ {stored : RecordRow}, db.speech.records scope = some stored →
      db.Holds account .idempotencyRecords := fun hstored => ⟨scope, _, hstored, hactor⟩
  have hchange := Store.next_recordChange config.idempotency w ⟨op, now⟩ scope
  have hnew : (Store.World.next config.idempotency w ⟨op, now⟩).db.records scope = some row := hrow
  rw [hnew] at hchange
  generalize hsome : some row = new at hchange
  cases hchange with
  | kept => exact .inl (hold hsome.symm)
  | inserted hop hscope _ hplane _ =>
      subst hscope
      exact .inr ⟨_, hop, hactor, hplane⟩
  | reclaimed _ _ hstored _ _ _ _ _ => exact .inl (hold hstored)
  | completed _ _ hstored _ _ _ _ _ => exact .inl (hold hstored)
  | released _ _ hstored _ _ => exact .inl (hold hstored)
  | purged _ _ _ => cases hsome

/-- A job is new to an account only by a start of its own whose checks pass. -/
theorem jobs_of_speechStep {op : StoreOp} (h : (db.speechStep config now op).Holds account .jobs) :
    db.Holds account .jobs ∨
      ∃ job, op = .startJob job ∧ (AccountOp.startJob job).Inserts db now account .jobs := by
  let w : Store.World := ⟨db.speech, 0, fun _ => none⟩
  obtain ⟨requestId, row, hrow, hactor⟩ := h
  have hold : ∀ {old : Store.JobRow}, db.speech.jobs requestId = some old →
      row.actorId = old.actorId → db.Holds account .jobs :=
    fun hjob hsame => ⟨requestId, _, hjob, hsame.symm.trans hactor⟩
  cases hjob : db.speech.jobs requestId with
  | some old =>
      obtain ⟨row', hrow', hsame⟩ :=
        Store.next_jobs_of_some config.idempotency (w := w) ⟨op, now⟩ hjob
      have hrow : (Store.World.next config.idempotency w ⟨op, now⟩).db.jobs requestId = some row :=
        hrow
      rw [hrow] at hrow'
      cases hrow'
      exact .inl (hold hjob (congrArg (fun o : Store.OperationId => o.scope.actor.id) hsame))
  | none =>
      have hchange := Store.next_jobChange config.idempotency w ⟨op, now⟩ requestId
      have hnew : (Store.World.next config.idempotency w ⟨op, now⟩).db.jobs requestId = some row :=
        hrow
      have hnone : w.db.jobs requestId = none := hjob
      rw [hnew] at hchange
      generalize hsome : some row = new at hchange
      cases hchange with
      | kept =>
          rw [hnone] at hsome
          cases hsome
      | @started job stored leaseExpiresAt hop hstored hstate hunexpired hstorable hid hout =>
          have hop : op = .startJob job := hop
          rw [hnone] at hsome
          cases hsome
          right
          refine ⟨job, hop, hactor, ?_, stored, leaseExpiresAt, hstored, hstate, hunexpired,
            hstorable, ?_⟩
          · -- A start that was answered found its plane live.
            rcases Store.execute_startJob config.idempotency now w.db job with
              ⟨error, hexec⟩ | ⟨db', _, hok⟩
            · simp [Store.World.outcome, hop, hexec] at hout
            · exact (Store.startJobInner_ok.mp hok).1
          · intro other hother
            rw [hid, hjob] at hother
            cases hother
      | finished _ _ _ _ hother _ _ =>
          rw [hnone] at hother
          cases hother
      | released _ hother _ =>
          rw [hnone] at hother
          cases hother
      | recovered _ hother =>
          rw [hnone] at hother
          cases hother

/-- Held audio is new to an account only by a hold of its own under a free request id. -/
theorem held_of_speechStep {op : StoreOp}
    (h : (db.speechStep config now op).Holds account .heldAudio) :
    db.Holds account .heldAudio ∨
      ∃ attempt audio, op = .hold attempt audio ∧
        (AccountOp.hold attempt audio).Inserts db now account .heldAudio := by
  let w : Store.World := ⟨db.speech, 0, fun _ => none⟩
  obtain ⟨requestId, row, hrow, howner⟩ := h
  have hchange := Store.next_heldChange config.idempotency w ⟨op, now⟩ requestId
  have hnew : (Store.World.next config.idempotency w ⟨op, now⟩).db.held requestId = some row := hrow
  rw [hnew] at hchange
  generalize hsome : some row = new at hchange
  cases hchange with
  | kept => exact .inl ⟨requestId, row, hsome.symm, howner⟩
  | inserted hop hid hnone _ =>
      cases hsome
      right
      refine ⟨_, _, hop, howner, ?_⟩
      intro other hother
      have hnone : db.speech.held requestId = none := hnone
      rw [hid, hnone] at hother
      cases hother
  | replaced _ _ hold _ _ =>
      cases hsome
      exact .inl ⟨requestId, _, hold, howner⟩
  | expired _ _ _ => cases hsome

/-- A row is new to an account after a speech step only when the request inserts it. -/
theorem inserted_of_speechStep {op : StoreOp} {table : PurgedTable}
    (h : (db.speechStep config now op).Holds account table) :
    db.Holds account table ∨
      ∃ request : AccountOp, request.storeOp = some op ∧
        request.Inserts db now account table := by
  cases table with
  | idempotencyRecords =>
      rcases records_of_speechStep h with h | ⟨input, rfl, hactor, hplane⟩
      · exact .inl h
      · exact .inr ⟨.claim input, rfl, hactor, hplane⟩
  | jobs =>
      rcases jobs_of_speechStep h with h | ⟨job, rfl, hinserts⟩
      · exact .inl h
      · exact .inr ⟨.startJob job, rfl, hinserts⟩
  | heldAudio =>
      rcases held_of_speechStep h with h | ⟨attempt, audio, rfl, hinserts⟩
      · exact .inl h
      · exact .inr ⟨.hold attempt audio, rfl, hinserts⟩
  | providerKeys => exact .inl h
  | storageProofs => exact .inl h
  | accountPreferences => exact .inl h

/-- A claim in a live plane leaves a record of its scope. -/
theorem records_speechStep_claim {input : IdempotencyClaim}
    (hlease : input.leaseDuration = config.idempotency.lease)
    (h : (AccountOp.claim input).Inserts db now account .idempotencyRecords) :
    (db.speechStep config now (.claim input)).Holds account .idempotencyRecords := by
  obtain ⟨hactor, hplane⟩ := h
  cases hrecord : db.speech.records input.scope with
  | some stored => exact holds_speechStep rfl ⟨input.scope, stored, hrecord, hactor⟩
  | none =>
      have hgone : ∀ stored, db.speech.records input.scope = some stored →
          Store.recordIsPurgeable stored now.locked = true := by
        intro stored hstored
        rw [hrecord] at hstored
        cases hstored
      have hok := Store.claimInner_of_gone hlease hplane hgone
      refine ⟨input.scope, Store.freshRecord config.idempotency now input, ?_, hactor⟩
      simp [AccountDb.speechStep, execute, hok, Except.map, Store.commit]

/-- A start whose checks pass leaves a job of its account. -/
theorem jobs_speechStep_startJob {job : SpeechJobStart}
    (h : (AccountOp.startJob job).Inserts db now account .jobs) :
    (db.speechStep config now (.startJob job)).Holds account .jobs := by
  obtain ⟨hactor, hplane, stored, leaseExpiresAt, hstored, hstate, hunexpired, hstorable,
    haccept⟩ := h
  have hok := Store.startJobInner_ok.mpr ⟨hplane, stored, leaseExpiresAt, hstored, hstate,
    hunexpired, hstorable, haccept, rfl⟩
  refine ⟨stored.requestId,
    Store.upsertedJob stored job (db.speech.jobs stored.requestId), ?_, ?_⟩
  · simp [AccountDb.speechStep, execute, hok, Except.map, Store.commit]
  · cases hrow : db.speech.jobs stored.requestId with
    | none => exact hactor
    | some row =>
        have hsame := haccept row hrow
        simp only [Store.JobRow.acceptsRestart, Bool.and_eq_true, beq_iff_eq] at hsame
        obtain ⟨⟨⟨⟨⟨⟨⟨_, _⟩, hactorId⟩, _⟩, _⟩, _⟩, _⟩, _⟩ := hsame
        exact hactorId.trans hactor

/-- A hold that the owner of the row may make leaves audio of its account. -/
theorem held_speechStep_hold {attempt : IdempotencyLeaseId} {audio : Store.HeldAudio}
    (h : (AccountOp.hold attempt audio).Inserts db now account .heldAudio) :
    (db.speechStep config now (.hold attempt audio)).Holds account .heldAudio := by
  obtain ⟨howner, hrows⟩ := h
  have hallowed : ∀ row, db.speech.held audio.requestId = some row →
      row.storageActorId = audio.owner := fun row hrow => (hrows row hrow).trans howner.symm
  have howned : (Store.heldAfter config.idempotency.ttl now audio
      (db.speech.held audio.requestId)).storageActorId = account := by
    cases hrow : db.speech.held audio.requestId with
    | none => exact howner
    | some row => exact hrows row hrow
  let row := Store.heldAfter config.idempotency.ttl now audio (db.speech.held audio.requestId)
  have hok : Store.hold config.idempotency.ttl now audio db.speech =
      some (row.expiresAt, db.speech.setHeld audio.requestId (some row)) :=
    Store.hold_eq_some.mpr ⟨hallowed, rfl, rfl⟩
  refine ⟨audio.requestId, row, ?_, howned⟩
  simp [AccountDb.speechStep, execute, hok]

/-- Saving a key puts a key of its account into the table and keeps every other account's. -/
theorem holds_putProviderKey {storageKey : ActorId} {provider apiKey : String}
    {table : PurgedTable} :
    (db.apply config now (.putProviderKey storageKey provider apiKey)).Holds account table ↔
      db.Holds account table ∨
        (AccountOp.putProviderKey storageKey provider apiKey).Inserts db now account table := by
  simp only [AccountDb.apply, Settings.putProviderKey]
  by_cases hprovider : Settings.validProvider provider = true
  swap
  · cases table <;> simp [hprovider, AccountDb.withSettings, AccountOp.Inserts]
  by_cases hkey : Settings.validApiKey apiKey = true
  swap
  · cases table <;> simp [hprovider, hkey, AccountDb.withSettings, AccountOp.Inserts]
  simp only [hprovider, hkey, Bool.not_true, Bool.false_eq_true, if_false, AccountDb.withSettings]
  cases table with
  | providerKeys =>
      constructor
      · rintro ⟨row, hmem, hactor⟩
        rcases List.mem_cons.mp hmem with rfl | hmem
        · exact .inr ⟨hactor, hprovider, hkey⟩
        · exact .inl ⟨row, (List.mem_filter.mp hmem).1, hactor⟩
      · rintro (⟨row, hmem, hactor⟩ | hinserts)
        · by_cases hsame : storageKey = account
          · exact ⟨_, List.mem_cons_self, hsame⟩
          · refine ⟨row, List.mem_cons_of_mem _ (List.mem_filter.mpr ⟨hmem, ?_⟩), hactor⟩
            have hne : row.actorId ≠ storageKey := fun heq => hsame (heq.symm.trans hactor)
            simp [hne]
        · exact ⟨_, List.mem_cons_self, hinserts.1⟩
  | storageProofs => simp [AccountDb.Holds, AccountOp.Inserts]
  | accountPreferences => simp [AccountDb.Holds, AccountOp.Inserts]
  | jobs => simp [AccountDb.Holds, AccountOp.Inserts]
  | idempotencyRecords => simp [AccountDb.Holds, AccountOp.Inserts]
  | heldAudio => simp [AccountDb.Holds, AccountOp.Inserts]

/-- The accounts that have preferences, before and after they are ensured for one. -/
theorem mem_ensurePreferences (settings : Settings) (storageKey : ActorId) (created : Nat) :
    (∃ row ∈ (settings.ensurePreferences storageKey created).preferences, row.actorId = account) ↔
      (∃ row ∈ settings.preferences, row.actorId = account) ∨ storageKey = account := by
  unfold Settings.ensurePreferences
  cases hrow : settings.accountRow storageKey with
  | some row =>
      have hmem := List.mem_of_find?_eq_some hrow
      have hactor := List.find?_some hrow
      simp only [Bool.and_eq_true, beq_iff_eq] at hactor
      constructor
      · exact .inl
      · rintro (h | rfl)
        · exact h
        · exact ⟨row, hmem, hactor.1⟩
  | none =>
      constructor
      · rintro ⟨row, hmem, hactor⟩
        rcases List.mem_cons.mp hmem with rfl | hmem
        · exact .inr hactor
        · exact .inl ⟨row, hmem, hactor⟩
      · rintro (⟨row, hmem, hactor⟩ | hactor)
        · exact ⟨row, List.mem_cons_of_mem _ hmem, hactor⟩
        · exact ⟨_, List.mem_cons_self, hactor⟩

/-- Writing preferences leaves them with their accounts. -/
theorem mem_writePreferences (settings : Settings) (storageKey : ActorId)
    (voiceProfile : Option String) (tts stt : Option (List String)) (written : Nat) :
    (∃ row ∈ (settings.writePreferences storageKey voiceProfile tts stt written).preferences,
        row.actorId = account) ↔ ∃ row ∈ settings.preferences, row.actorId = account := by
  have hactor : ∀ row : Control.PreferenceRow,
      (if row.actorId = storageKey ∧ row.orgId = Store.accountScope then
        Settings.updatedRow row voiceProfile tts stt written else row).actorId = row.actorId := by
    intro row
    split <;> rfl
  constructor
  · rintro ⟨row', hmem', hrow'⟩
    obtain ⟨row, hmem, rfl⟩ := List.mem_map.mp hmem'
    exact ⟨row, hmem, (hactor row).symm.trans hrow'⟩
  · rintro ⟨row, hmem, hrow⟩
    exact ⟨_, List.mem_map.mpr ⟨row, hmem, rfl⟩, (hactor row).trans hrow⟩

/-- What an accepted update of preferences checked and did. -/
theorem updatePreferences_ok {settings settings' : Settings} {storageKey : ActorId}
    {body : Settings.Preferences} {written : Nat} :
    settings.updatePreferences storageKey body written = .ok settings' ↔
      (body.voiceProfile.all fun id =>
        validProfileId id && settings.voices.contains id) = true ∧
      ∃ tts stt, Settings.completedOrder body.ttsOrder settings.defaults.ttsOrder = .ok tts ∧
        Settings.completedOrder body.sttOrder settings.defaults.sttOrder = .ok stt ∧
        settings' = (settings.ensurePreferences storageKey written).writePreferences storageKey
          body.voiceProfile tts stt written := by
  have hvoice : (body.voiceProfile.any fun id =>
      !(validProfileId id && settings.voices.contains id)) =
        !(body.voiceProfile.all fun id =>
          validProfileId id && settings.voices.contains id) := by
    cases body.voiceProfile <;> rfl
  unfold Settings.updatePreferences
  rw [hvoice]
  cases hvalid : (body.voiceProfile.all fun id =>
      validProfileId id && settings.voices.contains id) with
  | false => simp
  | true =>
      simp only [Bool.not_true, Bool.false_eq_true, if_false, true_and]
      constructor
      · intro h
        obtain ⟨tts, htts, h⟩ := Except.bind_eq_ok.mp h
        obtain ⟨stt, hstt, h⟩ := Except.bind_eq_ok.mp h
        cases h
        exact ⟨tts, stt, htts, hstt, rfl⟩
      · rintro ⟨tts, stt, htts, hstt, rfl⟩
        rw [htts, hstt]
        rfl

/-- An order completes when the body has none or it is a prefix of the default in some order. -/
theorem completedOrder_ok {requested : Option (List String)} {base : List String} :
    (∃ order, Settings.completedOrder requested base = .ok order) ↔
      (requested.all fun order => (completeOrder order base).isSome) = true := by
  cases requested with
  | none => simp [Settings.completedOrder]
  | some order =>
      cases h : completeOrder order base with
      | none => simp [Settings.completedOrder, Control.resolveOrder, h, Except.map]
      | some completed => simp [Settings.completedOrder, Control.resolveOrder, h, Except.map]

/-- The accounts that have preferences after an update, whether or not it is accepted. -/
theorem holds_updatePreferences {storageKey : ActorId} {body : Settings.Preferences}
    {table : PurgedTable} :
    (db.apply config now (.updatePreferences storageKey body)).Holds account table ↔
      db.Holds account table ∨
        (AccountOp.updatePreferences storageKey body).Inserts db now account table := by
  cases hok : db.settings.updatePreferences storageKey body now.begun with
  | error error =>
      have hsame : db.apply config now (.updatePreferences storageKey body) = db := by
        simp only [AccountDb.apply, hok, AccountDb.withSettings]
      rw [hsame]
      constructor
      · exact .inl
      · rintro (h | hinserts)
        · exact h
        · -- A request that passes its checks is not refused.
          cases table with
          | accountPreferences =>
              obtain ⟨_, hvoice, htts, hstt⟩ := hinserts
              obtain ⟨tts, htts⟩ := completedOrder_ok.mpr htts
              obtain ⟨stt, hstt⟩ := completedOrder_ok.mpr hstt
              have hsome : db.settings.updatePreferences storageKey body now.begun = .ok _ :=
                updatePreferences_ok.mpr ⟨hvoice, tts, stt, htts, hstt, rfl⟩
              rw [hok] at hsome
              cases hsome
          | providerKeys => exact hinserts.elim
          | storageProofs => exact hinserts.elim
          | jobs => exact hinserts.elim
          | idempotencyRecords => exact hinserts.elim
          | heldAudio => exact hinserts.elim
  | ok settings' =>
      obtain ⟨hvoice, tts, stt, htts, hstt, hsettings⟩ := updatePreferences_ok.mp hok
      have hdb : db.apply config now (.updatePreferences storageKey body) =
          { db with settings := settings' } := by
        simp only [AccountDb.apply, hok, AccountDb.withSettings]
      rw [hdb]
      cases table with
      | accountPreferences =>
          have hmem := @mem_ensurePreferences account db.settings storageKey now.begun
          rw [← mem_writePreferences _ storageKey body.voiceProfile tts stt now.begun,
            ← hsettings] at hmem
          constructor
          · intro h
            rcases hmem.mp h with h | hkey
            · exact .inl h
            · exact .inr ⟨hkey, hvoice, completedOrder_ok.mp ⟨tts, htts⟩,
                completedOrder_ok.mp ⟨stt, hstt⟩⟩
          · rintro (h | hinserts)
            · exact hmem.mpr (.inl h)
            · exact hmem.mpr (.inr hinserts.1)
      | providerKeys =>
          have hkeys : settings'.providerKeys = db.settings.providerKeys := by
            rw [hsettings]
            simp only [Settings.writePreferences, Settings.ensurePreferences]
            split <;> rfl
          simp [AccountDb.Holds, AccountOp.Inserts, hkeys]
      | storageProofs => simp [AccountDb.Holds, AccountOp.Inserts]
      | jobs => simp [AccountDb.Holds, AccountOp.Inserts]
      | idempotencyRecords => simp [AccountDb.Holds, AccountOp.Inserts]
      | heldAudio => simp [AccountDb.Holds, AccountOp.Inserts]

/-- Saving a proof puts it under its account. -/
theorem holds_saveProof {storageKey : ActorId} {receivingApp : String} {row : ProofRow}
    {table : PurgedTable} :
    (db.apply config now (.saveProof storageKey receivingApp row)).Holds account table ↔
      db.Holds account table ∨
        (AccountOp.saveProof storageKey receivingApp row).Inserts db now account table := by
  cases table with
  | storageProofs =>
      by_cases hkey : account = storageKey
      · subst hkey
        constructor
        · intro _
          exact .inr rfl
        · intro _
          exact ⟨receivingApp, row, by simp [AccountDb.apply, AccountDb.setProof]⟩
      · simp [AccountDb.Holds, AccountDb.apply, AccountDb.setProof, AccountOp.Inserts, hkey,
          Ne.symm hkey]
  | providerKeys => simp [AccountDb.Holds, AccountDb.apply, AccountDb.setProof, AccountOp.Inserts]
  | accountPreferences =>
      simp [AccountDb.Holds, AccountDb.apply, AccountDb.setProof, AccountOp.Inserts]
  | jobs => simp [AccountDb.Holds, AccountDb.apply, AccountDb.setProof, AccountOp.Inserts]
  | idempotencyRecords =>
      simp [AccountDb.Holds, AccountDb.apply, AccountDb.setProof, AccountOp.Inserts]
  | heldAudio => simp [AccountDb.Holds, AccountDb.apply, AccountDb.setProof, AccountOp.Inserts]

/-- Ensuring preferences puts a row of its account into the table. -/
theorem holds_ensurePreferences {storageKey : ActorId} {table : PurgedTable} :
    (db.apply config now (.ensurePreferences storageKey)).Holds account table ↔
      db.Holds account table ∨
        (AccountOp.ensurePreferences storageKey).Inserts db now account table := by
  cases table with
  | accountPreferences => exact mem_ensurePreferences db.settings storageKey now.begun
  | providerKeys =>
      have hkeys : (db.settings.ensurePreferences storageKey now.begun).providerKeys =
          db.settings.providerKeys := by
        unfold Settings.ensurePreferences
        split <;> rfl
      simp [AccountDb.Holds, AccountDb.apply, AccountOp.Inserts, hkeys]
  | storageProofs => simp [AccountDb.Holds, AccountDb.apply, AccountOp.Inserts]
  | jobs => simp [AccountDb.Holds, AccountDb.apply, AccountOp.Inserts]
  | idempotencyRecords => simp [AccountDb.Holds, AccountDb.apply, AccountOp.Inserts]
  | heldAudio => simp [AccountDb.Holds, AccountDb.apply, AccountOp.Inserts]

/-- A step of a request's speech operation leaves rows of an account in a table exactly when there
were some, or the request inserts one. -/
theorem holds_speechStep_iff {request : AccountOp} {op : StoreOp} {table : PurgedTable}
    (hop : request.storeOp = some op)
    (hlease : ∀ input, request = .claim input →
      input.leaseDuration = config.idempotency.lease) :
    (db.speechStep config now op).Holds account table ↔
      db.Holds account table ∨ request.Inserts db now account table := by
  constructor
  · intro h
    rcases inserted_of_speechStep h with h | ⟨other, hother, hinserts⟩
    · exact .inl h
    · rw [AccountOp.storeOp_injective hop hother]
      exact .inr hinserts
  · rintro (h | h)
    · exact holds_speechStep (isRequest_of_storeOp hop) h
    · cases request with
      | claim input =>
          cases hop
          cases table with
          | idempotencyRecords => exact records_speechStep_claim (hlease input rfl) h
          | _ => exact h.elim
      | startJob job =>
          cases hop
          cases table with
          | jobs => exact jobs_speechStep_startJob h
          | _ => exact h.elim
      | hold attempt audio =>
          cases hop
          cases table with
          | heldAudio => exact held_speechStep_hold h
          | _ => exact h.elim
      | complete completion => exact h.elim
      | release input => exact h.elim
      | _ => cases hop

/-- **After a request's step a table holds rows of the account exactly when it did before, or the
request inserts into it.** -/
theorem holds_apply {op : AccountOp} {table : PurgedTable}
    (hlease : ∀ input, op = .claim input → input.leaseDuration = config.idempotency.lease) :
    (db.apply config now op).Holds account table ↔
      db.Holds account table ∨ op.Inserts db now account table := by
  cases op with
  | claim input => exact holds_speechStep_iff rfl hlease
  | startJob job => exact holds_speechStep_iff rfl hlease
  | complete completion => exact holds_speechStep_iff rfl hlease
  | release input => exact holds_speechStep_iff rfl hlease
  | hold attempt audio => exact holds_speechStep_iff rfl hlease
  | saveProof storageKey receivingApp row => exact holds_saveProof
  | putProviderKey storageKey provider apiKey => exact holds_putProviderKey
  | ensurePreferences storageKey => exact holds_ensurePreferences
  | updatePreferences storageKey body => exact holds_updatePreferences

/-! ## What one statement of the purge does -/

/-- A DELETE leaves no row of the account in its table. -/
theorem not_holds_delete (table : PurgedTable) :
    ¬ (db.delete account table).Holds account table := by
  intro h
  cases table with
  | providerKeys =>
      obtain ⟨row, hmem, hactor⟩ := h
      have hkept := (List.mem_filter.mp hmem).2
      simp [hactor] at hkept
  | storageProofs =>
      obtain ⟨receivingApp, row, hrow⟩ := h
      simp [AccountDb.delete] at hrow
  | accountPreferences =>
      obtain ⟨row, hmem, hactor⟩ := h
      have hkept := (List.mem_filter.mp hmem).2
      simp [hactor] at hkept
  | jobs =>
      obtain ⟨requestId, row, hrow, hactor⟩ := h
      obtain ⟨_, hkept⟩ := Option.filter_eq_some_iff.mp hrow
      simp [hactor] at hkept
  | idempotencyRecords =>
      obtain ⟨scope, row, hrow, hactor⟩ := h
      simp [AccountDb.delete, hactor] at hrow
  | heldAudio =>
      obtain ⟨requestId, row, hrow, hactor⟩ := h
      obtain ⟨_, hkept⟩ := Option.filter_eq_some_iff.mp hrow
      simp [hactor] at hkept

/-- A DELETE leaves the other tables alone. -/
theorem holds_delete_of_ne {table other : PurgedTable} (h : other ≠ table) :
    (db.delete account table).Holds account other ↔ db.Holds account other := by
  cases table <;> cases other <;> first | rfl | exact absurd rfl h

end Tables

/-! ## What a run leaves -/

section Runs

variable {config : Config} {account : ActorId}

theorem mem_purgeStatements (table : PurgedTable) : table ∈ purgeStatements := by
  cases table <;> decide

/-- The tables that the purge is done with have no row of the account. -/
def Emptied (account : ActorId) (w : PurgeWorld) : Prop :=
  ∀ table, table ∉ w.remaining → ¬ w.db.Holds account table

/-- A step keeps the emptied tables empty unless it inserts late. -/
theorem Emptied.step {w w' : PurgeWorld} {e : PurgeEvent} (h : Emptied account w)
    (hstep : PurgeStep config account w e w') (hlate : ¬ InsertsLate account ⟨w, e, w'⟩) :
    Emptied account w' := by
  intro table hdone hholds
  cases hstep with
  | @delete db deleted rest =>
      by_cases hsame : table = deleted
      · subst hsame
        exact not_holds_delete table hholds
      · apply h table
        · intro hmem
          rcases List.mem_cons.mp hmem with heq | hmem
          · exact hsame heq
          · exact hdone hmem
        · exact (holds_delete_of_ne hsame).mp hholds
  | @request _ op now hlease =>
      rcases (holds_apply hlease).mp hholds with hbefore | hinserts
      · exact h table hdone hbefore
      · exact hlate ⟨op, now, table, rfl, hdone, hinserts⟩

/-- A row in a table that the purge is done with stays: no request removes the last one. -/
theorem residue_step {w w' : PurgeWorld} {e : PurgeEvent} {table : PurgedTable}
    (h : table ∉ w.remaining ∧ w.db.Holds account table)
    (hstep : PurgeStep config account w e w') :
    table ∉ w'.remaining ∧ w'.db.Holds account table := by
  obtain ⟨hdone, hholds⟩ := h
  cases hstep with
  | delete =>
      refine ⟨fun hmem => hdone (List.mem_cons_of_mem _ hmem), ?_⟩
      apply (holds_delete_of_ne ?_).mpr hholds
      rintro rfl
      exact hdone List.mem_cons_self
  | request hlease => exact ⟨hdone, (holds_apply hlease).mpr (.inl hholds)⟩

/-- A late insert leaves a row in a table that the purge is done with. -/
theorem InsertsLate.residue {t : PurgeTransition} (h : InsertsLate account t)
    (hstep : PurgeStep config account t.pre t.label t.post) :
    ∃ table, table ∉ t.post.remaining ∧ t.post.db.Holds account table := by
  obtain ⟨pre, label, post⟩ := t
  obtain ⟨op, now, table, rfl, hdone, hinserts⟩ := h
  change PurgeStep config account pre (.request op now) post at hstep
  cases hstep with
  | request hlease => exact ⟨table, hdone, (holds_apply hlease).mpr (.inr hinserts)⟩

/-- **A finished purge leaves no row of the account exactly when no request inserted one into a
table after its DELETE.** -/
theorem noResidue_iff {db : AccountDb} {tr : List PurgeTransition} {w : PurgeWorld}
    (hrun : Run (PurgeStep config account) ⟨db, purgeStatements⟩ tr w) (hdone : w.remaining = []) :
    NoResidue account w ↔ ∀ t ∈ tr, ¬ InsertsLate account t := by
  constructor
  · intro hnone t hmem hlate
    obtain ⟨before, after, rfl⟩ := List.append_of_mem hmem
    obtain ⟨_, hstep, hafter⟩ := hrun.split_mem
    obtain ⟨table, hresidue⟩ := hlate.residue hstep
    have hkept := hafter.invariant (fun w => table ∉ w.remaining ∧ w.db.Holds account table)
      (fun _ _ _ => residue_step) hresidue
    exact hnone table hkept.2
  · intro hnotLate table
    have hinit : Emptied account ⟨db, purgeStatements⟩ := by
      intro other hother
      exact absurd (mem_purgeStatements other) hother
    have hemptied : Emptied account w :=
      (hrun.restrict (fun t => ¬ InsertsLate account t) hnotLate).invariant (Emptied account)
        (fun _ _ _ h hstep => h.step hstep.1 hstep.2) hinit
    apply hemptied table
    rw [hdone]
    exact List.not_mem_nil

/-- The statements of a purge with nothing between them. -/
theorem run_deletes (db : AccountDb) (tables : List PurgedTable) :
    ∃ tr, Run (PurgeStep config account) ⟨db, tables⟩ tr
        ⟨tables.foldl (fun db table => db.delete account table) db, []⟩ ∧
      ∀ t ∈ tr, t.label = .delete := by
  induction tables generalizing db with
  | nil => exact ⟨[], .nil _, fun t hmem => nomatch hmem⟩
  | cons table rest ih =>
      obtain ⟨tr, hrun, hlabels⟩ := ih (db.delete account table)
      refine ⟨_, .cons .delete hrun, ?_⟩
      intro t hmem
      rcases List.mem_cons.mp hmem with rfl | hmem
      · rfl
      · exact hlabels t hmem

end Runs

/-! ## An operation that ends after the purge -/

/-- A deployment with default settings. -/
def sampleConfig : Config := ⟨Store.sampleSettings, ⟨Vector.replicate 32 7⟩⟩

/-- The tables before the account has any row. -/
def sampleAccountDb : AccountDb where
  speech := Store.sampleWorld.db
  proofs := fun _ _ => none
  settings := ⟨⟨["elevenlabs", "gemini"], ["elevenlabs", "gemini"], "charon"⟩, ["charon"], [], []⟩

/-- The account of the sample operations. -/
def sampleAccount : ActorId := Store.sampleScope.actor.id

/-- A request that the account made before its purge. -/
def claimedDb : AccountDb :=
  (sampleAccountDb.apply sampleConfig (.at 10)
    (.claim (Store.sampleClaim Store.sampleScope 0))).apply
    sampleConfig (.at 20) (.startJob (Store.sampleJob Store.sampleScope 0))

/-- The purge alone, over the operation's rows. -/
def purgedDb : AccountDb :=
  purgeStatements.foldl (fun db table => db.delete sampleAccount table) claimedDb

/-- A run in which the operation is claimed and started, the account is purged, and one request
follows. -/
theorem run_requestAfterPurge (op : AccountOp) (now : Readings)
    (hclaim : ∀ input, op ≠ .claim input) :
    ∃ tr, Run (PurgeStep sampleConfig sampleAccount) ⟨sampleAccountDb, purgeStatements⟩ tr
        ⟨purgedDb.apply sampleConfig now op, []⟩ ∧
      ∀ t ∈ tr, InsertsLate sampleAccount t →
        ∃ table, op.Inserts purgedDb now sampleAccount table := by
  obtain ⟨deletes, hdeletes, hlabels⟩ :=
    run_deletes claimedDb purgeStatements
  have hlast : PurgeStep sampleConfig sampleAccount ⟨purgedDb, []⟩ (.request op now)
      ⟨purgedDb.apply sampleConfig now op, []⟩ :=
    .request fun input heq => absurd heq (hclaim input)
  have hclaimStep : PurgeStep sampleConfig sampleAccount ⟨sampleAccountDb, purgeStatements⟩
      (.request (.claim (Store.sampleClaim Store.sampleScope 0)) (.at 10)) _ :=
    .request fun input heq => by cases heq; rfl
  have hstartStep : PurgeStep sampleConfig sampleAccount
      ⟨sampleAccountDb.apply sampleConfig (.at 10) (.claim (Store.sampleClaim Store.sampleScope 0)),
        purgeStatements⟩
      (.request (.startJob (Store.sampleJob Store.sampleScope 0)) (.at 20)) _ :=
    .request fun input heq => by cases heq
  refine ⟨_, .cons hclaimStep (.cons hstartStep (hdeletes.append (.single hlast))), ?_⟩
  rintro t hmem ⟨other, otherNow, table, hlabel, hdone, hinserts⟩
  rcases List.mem_cons.mp hmem with rfl | hmem
  · exact absurd (mem_purgeStatements table) hdone
  rcases List.mem_cons.mp hmem with rfl | hmem
  · exact absurd (mem_purgeStatements table) hdone
  rcases List.mem_append.mp hmem with hmem | hmem
  · have hdelete := hlabels t hmem
    rw [hlabel] at hdelete
    cases hdelete
  · cases List.mem_singleton.mp hmem
    cases hlabel
    exact ⟨table, hinserts⟩

/-- When the operation only completes after the purge, nothing is left. -/
theorem noResidue_iff_completeLate :
    NoResidue sampleAccount
      ⟨purgedDb.apply sampleConfig (.at 30)
        (.complete ⟨Store.sampleScope, Store.sampleLease 0, .tts Store.sampleResult⟩), []⟩ := by
  obtain ⟨tr, hrun, hlate⟩ := run_requestAfterPurge
    (.complete ⟨Store.sampleScope, Store.sampleLease 0, .tts Store.sampleResult⟩) (.at 30)
    (fun input heq => by cases heq)
  refine (noResidue_iff hrun rfl).mpr ?_
  intro t hmem hinserts
  obtain ⟨table, hnone⟩ := hlate t hmem hinserts
  exact hnone.elim

/-- **An operation that holds its audio after the purge leaves it behind.** -/
theorem not_forall_noResidue :
    ¬ ∀ (config : Config) (account : ActorId) (db : AccountDb) (tr : List PurgeTransition)
      (w : PurgeWorld), Run (PurgeStep config account) ⟨db, purgeStatements⟩ tr w →
      w.remaining = [] → NoResidue account w := by
  intro h
  obtain ⟨tr, hrun, _⟩ := run_requestAfterPurge
    (.hold (Store.sampleLease 0) (Store.sampleAudio Store.sampleScope 1)) (.at 30)
    (fun input heq => by cases heq)
  have hnone := h _ _ _ _ _ hrun rfl .heldAudio
  exact hnone ⟨Store.sampleRequestId,
    Store.heldRow Store.sampleSettings.ttl (.at 30) (Store.sampleAudio Store.sampleScope 1),
    rfl, rfl⟩

end Waveform.Directory
