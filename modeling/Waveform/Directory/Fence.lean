import Waveform.Directory.Account

/-!
# The revocation fence

Sign-outs, removed access and deletions each carry the instant before which tokens are refused. The
fence in force is assembled from the account's row and from what was recorded before it was first
seen.

- `fence_next`: a step leaves the later of the fence before it and the instant of its event, unless
  a first sighting folds in a deletion that a later sign-out was recorded with.
- `deletedAt_next`: a deletion stands, with its first instant.
- `fenceHolds_iff`: over a run, the fence is the latest of all instants exactly when no step folds
  in that way; a deletion stands and tokens are refused either way.
-/

set_option autoImplicit false

namespace Waveform.Directory

open Waveform.Domain LabelledRun

/-! ## Refusing a token -/

/-- Why a bearer credential was refused, once its signature and uuid were accepted. -/
inductive AuthFailure where
  | accountDeleted
  | signInEnded
  | accountRecordConflict
  deriving DecidableEq

/-- `bearer`, from the record that the sighting answered. -/
def bearer (record : AccountRecord) (kind : ActorKind) (issuedAt : Option Nat) :
    Except AuthFailure Actor :=
  if record.deletedAt.isSome then .error .accountDeleted
  else if record.revokedBefore.any fun before => issuedAt.all fun issued => issued < before then
    .error .signInEnded
  else if record.kind ≠ kind then .error .accountRecordConflict
  else .ok ⟨record.kind, record.storageKey⟩

/-- The account refuses tokens issued before the instant: it is deleted, or fenced there. -/
def Refusing (instant : Nat) (account : Account) : Prop :=
  account.deletedAt.isSome ∨ ∃ before ∈ account.fence, instant ≤ before

/-- What is read of the account refuses the token, whatever the kind it claims. -/
theorem Refusing.bearer {instant : Nat} {account : Account} (h : Refusing instant account)
    {record : AccountRecord} (hload : record ∈ account.load) (kind : ActorKind)
    {issuedAt : Option Nat} (hissued : ∀ issued ∈ issuedAt, issued < instant) :
    ∃ failure, bearer record kind issuedAt = .error failure := by
  obtain ⟨key, _, rfl⟩ := Option.map_eq_some_iff.mp hload
  unfold Directory.bearer
  dsimp only
  split
  · exact ⟨_, rfl⟩
  · rename_i hlive
    obtain ⟨before, hbefore, hinstant⟩ := h.resolve_left hlive
    have hall : issuedAt.all (fun issued => decide (issued < before)) = true := by
      cases hissuedAt : issuedAt with
      | none => rfl
      | some issued =>
          have hlt : issued < instant := hissued issued hissuedAt
          simpa using Nat.lt_of_lt_of_le hlt hinstant
    have hfence : account.fence = some before := hbefore
    rw [if_pos (by simpa [hfence] using hall)]
    exact ⟨_, rfl⟩

/-! ## Events that end sign-ins -/

/-- What an event that ends sign-ins says. -/
structure SignOut where
  occurred : Nat
  reason : String
  deletes : Bool

/-- The events that end sign-ins; Waveform's own end of one sign-in is none of them. -/
def DirectoryEvent.signOut : DirectoryEvent → Option SignOut
  | .signedOut reason occurred =>
      if reason = some "app_revoked" then none
      else some ⟨occurred, reason.getD "signed_out", false⟩
  | .accessRemoved occurred => some ⟨occurred, "access_removed", false⟩
  | .deleted occurred => some ⟨occurred, "account_deleted", true⟩
  | _ => none

/-- When an event deleted the account. -/
def DirectoryEvent.deletion (event : DirectoryEvent) : Option Nat :=
  (event.signOut.filter (·.deletes)).map (·.occurred)

/-- The instants of the events of a run that end sign-ins. -/
def eventTimes (tr : List (Transition Account DirectoryEvent)) : List Nat :=
  tr.filterMap fun e => e.label.signOut.map (·.occurred)

/-- A first sighting folds in a recorded deletion that is older than the recorded fence. -/
def LosesFence (account : Account) : DirectoryEvent → Prop
  | .ensure .. => ∃ event ∈ account.pending, ∃ deleted ∈ event.deletedAt,
      deleted < event.revokedBefore
  | _ => False

instance (account : Account) (event : DirectoryEvent) : Decidable (LosesFence account event) :=
  match event with
  | .ensure .. => inferInstanceAs
      (Decidable (∃ event ∈ account.pending, ∃ deleted ∈ event.deletedAt,
      deleted < event.revokedBefore))
  | .adoptId .. | .updateSummary .. | .completeProfile .. | .idChanged .. | .updated ..
  | .custodianChanged .. | .signedOut .. | .accessRemoved .. | .deleted .. => .isFalse id

namespace Account

/-- An UPDATE of other columns leaves the fence. -/
theorem updateLive_fence (account : Account) (applies : AccountRow → Bool)
    {change : AccountRow → AccountRow}
    (h : ∀ row, (change row).revokedBefore = row.revokedBefore) :
    (account.updateLive applies change).fence = account.fence := by
  obtain ⟨key, row, pending⟩ := account
  cases row with
  | none => rfl
  | some row =>
      simp only [updateLive, fence, Option.map_some, Option.bind_some]
      split
      · rw [h]
      · rfl

/-- An UPDATE of other columns leaves the deletion. -/
theorem updateLive_deletedAt (account : Account) (applies : AccountRow → Bool)
    {change : AccountRow → AccountRow} (h : ∀ row, (change row).deletedAt = row.deletedAt) :
    (account.updateLive applies change).deletedAt = account.deletedAt := by
  obtain ⟨key, row, pending⟩ := account
  cases row with
  | none => rfl
  | some row =>
      simp only [updateLive, deletedAt, Option.map_some, Option.bind_some]
      split
      · rw [h]
      · rfl

theorem custodianChanged_fence (account : Account) (named : Option NamedAccount)
    (occurred now : Nat) :
    (account.custodianChanged named occurred now).fence = account.fence := by
  unfold custodianChanged
  split
  · rfl
  · exact account.updateLive_fence _ fun _ => rfl

theorem custodianChanged_deletedAt (account : Account) (named : Option NamedAccount)
    (occurred now : Nat) :
    (account.custodianChanged named occurred now).deletedAt = account.deletedAt := by
  unfold custodianChanged
  split
  · rfl
  · exact account.updateLive_deletedAt _ fun _ => rfl

theorem ensureRow_revokedBefore (kind : ActorKind) (idHint : Option String) (asOf : Option Nat)
    (row : Option AccountRow) :
    (ensureRow kind idHint asOf row).revokedBefore = row.bind (·.revokedBefore) := by
  cases row with
  | none => rfl
  | some row =>
      unfold ensureRow
      dsimp only
      split
      · rfl
      · rfl

theorem ensureRow_deletedAt (kind : ActorKind) (idHint : Option String) (asOf : Option Nat)
    (row : Option AccountRow) :
    (ensureRow kind idHint asOf row).deletedAt = row.bind (·.deletedAt) := by
  cases row with
  | none => rfl
  | some row =>
      unfold ensureRow
      dsimp only
      split
      · rfl
      · rfl

/-- The row of a first sighting carries the recorded deletion. -/
theorem foldedRow_deletedAt {row : AccountRow} (hrow : row.deletedAt = none)
    (pending : Option PendingEvent) :
    (foldedRow row pending).deletedAt = pending.bind (·.deletedAt) := by
  cases pending with
  | none => exact hrow
  | some event =>
      obtain ⟨revokedBefore, revokedReason, deletedAt⟩ := event
      cases deletedAt with
      | none => exact hrow
      | some deleted => simp [foldedRow, AccountRow.tombstone, hrow]

/-- It carries the recorded fence, or the instant of the recorded deletion in its place. -/
theorem foldedRow_revokedBefore {row : AccountRow} (hrow : row.revokedBefore = none)
    (pending : Option PendingEvent) :
    (foldedRow row pending).revokedBefore =
      pending.map fun event => event.deletedAt.getD event.revokedBefore := by
  cases pending with
  | none => exact hrow
  | some event =>
      obtain ⟨revokedBefore, revokedReason, deletedAt⟩ := event
      cases deletedAt with
      | none => simp [foldedRow, AccountRow.foldSignOut, hrow]
      | some deleted => simp [foldedRow, AccountRow.tombstone, hrow]

end Account

/-! ## One step -/

section Step

variable {account : Account}

/-- The fence after a first or later sighting. -/
theorem fence_ensure (h : WellFormed account) (newKey : ActorId) (kind : ActorKind)
    (idHint : Option String) (asOf : Option Nat) :
    (account.ensure newKey kind idHint asOf).fence =
      match account.pending with
      | none => account.fence
      | some event => some (event.deletedAt.getD event.revokedBefore) := by
  cases h with
  | unseen h =>
      rename_i pending
      rw [Account.ensure_unseen]
      have hrow := Account.foldedRow_revokedBefore
        (Account.ensureRow_revokedBefore kind (Account.hintFor kind idHint)
          (asOf.filter fun _ => (Account.hintFor kind idHint).isSome) none) pending
      cases pending with
      | none => simpa [Account.fence] using hrow
      | some event => simpa [Account.fence] using hrow
  | seen h =>
      rename_i key row
      rw [Account.ensure_seen]
      have hrow := Account.ensureRow_revokedBefore key.kind (Account.hintFor kind idHint)
        (asOf.filter fun _ => (Account.hintFor kind idHint).isSome) (some row)
      simpa [Account.fence] using hrow

/-- The deletion after a first or later sighting. -/
theorem deletedAt_ensure (h : WellFormed account) (newKey : ActorId) (kind : ActorKind)
    (idHint : Option String) (asOf : Option Nat) :
    (account.ensure newKey kind idHint asOf).deletedAt = account.deletedAt := by
  cases h with
  | unseen h =>
      rename_i pending
      rw [Account.ensure_unseen]
      have hrow := Account.foldedRow_deletedAt
        (Account.ensureRow_deletedAt kind (Account.hintFor kind idHint)
          (asOf.filter fun _ => (Account.hintFor kind idHint).isSome) none) pending
      simpa [Account.deletedAt] using hrow
  | seen h =>
      rename_i key row
      rw [Account.ensure_seen]
      have hrow := Account.ensureRow_deletedAt key.kind (Account.hintFor kind idHint)
        (asOf.filter fun _ => (Account.hintFor kind idHint).isSome) (some row)
      simpa [Account.deletedAt] using hrow

theorem fence_endSignIns (h : WellFormed account) (occurred : Nat) (reason : String) :
    (account.endSignIns occurred reason).fence = max account.fence (some occurred) := by
  cases h with
  | unseen h =>
      rename_i pending
      cases pending with
      | none => rfl
      | some earlier => rfl
  | seen h => simp [Account.endSignIns, Account.fence, AccountRow.endSignIns]

theorem deletedAt_endSignIns (h : WellFormed account) (occurred : Nat) (reason : String) :
    (account.endSignIns occurred reason).deletedAt = account.deletedAt := by
  cases h with
  | unseen h =>
      rename_i pending
      cases pending with
      | none => rfl
      | some earlier =>
          simp [Account.endSignIns, Account.recordPendingEvent, Account.pendingAfter,
            Account.deletedAt]
  | seen h => rfl

theorem fence_purgeAccount (h : WellFormed account) (occurred : Nat) :
    (account.purgeAccount occurred).fence = max account.fence (some occurred) := by
  cases h with
  | unseen h =>
      rename_i pending
      cases pending with
      | none => rfl
      | some earlier => rfl
  | seen h => simp [Account.purgeAccount, Account.fence, AccountRow.tombstone]

theorem deletedAt_purgeAccount (h : WellFormed account) (occurred : Nat) :
    (account.purgeAccount occurred).deletedAt = account.deletedAt.or (some occurred) := by
  cases h with
  | unseen h =>
      rename_i pending
      cases pending with
      | none => rfl
      | some earlier => rfl
  | seen h => simp [Account.purgeAccount, Account.deletedAt, AccountRow.tombstone]

/-- A deletion stands with its first instant, and only a deletion deletes. -/
theorem deletedAt_next (h : WellFormed account) (event : DirectoryEvent) :
    (account.next event).deletedAt = account.deletedAt.or event.deletion := by
  cases event with
  | ensure newKey kind idHint asOf =>
      exact (deletedAt_ensure h newKey kind idHint asOf).trans Option.or_none.symm
  | signedOut reason occurred =>
      unfold Account.next DirectoryEvent.deletion DirectoryEvent.signOut
      dsimp only
      split
      · exact Option.or_none.symm
      · exact (deletedAt_endSignIns h occurred _).trans Option.or_none.symm
  | accessRemoved occurred =>
      exact (deletedAt_endSignIns h occurred _).trans Option.or_none.symm
  | deleted occurred => exact deletedAt_purgeAccount h occurred
  | custodianChanged named occurred now =>
      exact (account.custodianChanged_deletedAt named occurred now).trans Option.or_none.symm
  | _ =>
      refine (account.updateLive_deletedAt _ ?_).trans Option.or_none.symm
      intro row
      rfl

/-- A step leaves the later of the fence before it and the instant of its event. -/
theorem fence_next (h : WellFormed account) {event : DirectoryEvent}
    (hkeeps : ¬ LosesFence account event) :
    (account.next event).fence = max account.fence (event.signOut.map (·.occurred)) := by
  cases event with
  | ensure newKey kind idHint asOf =>
      have hfence := fence_ensure h newKey kind idHint asOf
      refine hfence.trans ?_
      cases h with
      | seen h => simp [DirectoryEvent.signOut]
      | unseen hpending =>
          rename_i pending
          cases pending with
          | none => simp [DirectoryEvent.signOut]
          | some event =>
              have hdeleted : event.deletedAt.getD event.revokedBefore = event.revokedBefore := by
                cases hdeletedAt : event.deletedAt with
                | none => rfl
                | some deleted =>
                    have hle := hpending event rfl deleted hdeletedAt
                    have hge : ¬ deleted < event.revokedBefore := fun hlt =>
                      hkeeps ⟨event, rfl, deleted, hdeletedAt, hlt⟩
                    simp only [Option.getD_some]
                    omega
              simp [DirectoryEvent.signOut, Account.fence, hdeleted]
  | signedOut reason occurred =>
      unfold Account.next DirectoryEvent.signOut
      dsimp only
      split
      · simp
      · exact fence_endSignIns h occurred _
  | accessRemoved occurred => exact fence_endSignIns h occurred _
  | deleted occurred => exact fence_purgeAccount h occurred
  | custodianChanged named occurred now =>
      exact (account.custodianChanged_fence named occurred now).trans Option.max_none_right.symm
  | _ =>
      refine (account.updateLive_fence _ ?_).trans Option.max_none_right.symm
      intro row
      rfl

/-- When it folds in an older deletion, the fence falls back to that deletion. -/
theorem fence_next_of_losesFence (h : WellFormed account) {event : DirectoryEvent}
    (hloses : LosesFence account event) : (account.next event).fence ≠ account.fence := by
  cases event with
  | ensure newKey kind idHint asOf =>
      obtain ⟨recorded, hpending, deleted, hdeleted, hlt⟩ := hloses
      have hfence := fence_ensure h newKey kind idHint asOf
      cases h with
      | seen h => cases hpending
      | unseen _ =>
          obtain rfl : _ = some recorded := hpending
          have hdeletedAt : recorded.deletedAt = some deleted := hdeleted
          intro hsame
          have hboth := hfence.symm.trans hsame
          simp only [hdeletedAt, Option.getD_some, Account.fence, Option.map_some,
            Option.bind_none, Option.max_none_left, Option.some.injEq] at hboth
          omega
  | _ => exact hloses.elim

/-- An event makes the account refuse what was issued before it. -/
theorem refusing_of_signOut (h : WellFormed account) {event : DirectoryEvent} {signOut : SignOut}
    (hevent : event.signOut = some signOut) : Refusing signOut.occurred (account.next event) := by
  have hkeeps : ¬ LosesFence account event := by
    cases event with
    | ensure newKey kind idHint asOf => cases hevent
    | _ => exact id
  have hfence := fence_next h hkeeps
  rw [hevent, Option.map_some] at hfence
  refine .inr ?_
  cases hbefore : account.fence with
  | none => exact ⟨_, hfence.trans (by rw [hbefore, Option.max_none_left]), Nat.le_refl _⟩
  | some before =>
      exact ⟨_, hfence.trans (by rw [hbefore, Option.max_some_some]), Nat.le_max_right _ _⟩

/-- What is refused stays refused, also when the fence falls back: the account is deleted then. -/
theorem Refusing.next {instant : Nat} (hrefusing : Refusing instant account)
    (h : WellFormed account) (event : DirectoryEvent) :
    Refusing instant (account.next event) := by
  have hdeletedAt := deletedAt_next h event
  rcases hrefusing with hdeleted | ⟨before, hbefore, hle⟩
  · exact .inl (by rw [hdeletedAt, Option.isSome_or, hdeleted, Bool.true_or])
  · by_cases hloses : LosesFence account event
    · cases event with
      | ensure newKey kind idHint asOf =>
          obtain ⟨recorded, hpending, deleted, hdeleted, _⟩ := hloses
          have hrecorded : account.pending = some recorded := hpending
          have hat : recorded.deletedAt = some deleted := hdeleted
          have hdeleted : account.deletedAt.isSome := by
            simp [Account.deletedAt, hrecorded, hat]
          exact .inl (by rw [hdeletedAt, Option.isSome_or, hdeleted, Bool.true_or])
      | _ => exact hloses.elim
    · have hfence := fence_next h hloses
      have hsome : account.fence = some before := hbefore
      refine .inr ?_
      cases htime : event.signOut.map (·.occurred) with
      | none => exact ⟨before, hfence.trans (by rw [hsome, htime, Option.max_none_right]), hle⟩
      | some occurred =>
          exact ⟨_, hfence.trans (by rw [hsome, htime, Option.max_some_some]),
            Nat.le_trans hle (Nat.le_max_left _ _)⟩

end Step

/-! ## Runs -/

/-- The claim over a run: at every cut the fence is the latest of the first fence and all instants
before it, a deletion stands, and what was issued before an event is refused in every later
state. -/
structure FenceHolds (s : Account) (tr : List (Transition Account DirectoryEvent)) : Prop where
  fence : ∀ before after m, tr = before ++ after → Run DirectoryStep s before m →
    m.fence = max s.fence (eventTimes before).max?
  deletes : ∀ e ∈ tr, e.label.deletion.isSome → e.post.deletedAt.isSome
  deleted : ∀ before mid after m m', tr = before ++ (mid ++ after) → Run DirectoryStep s before m →
    Run DirectoryStep m mid m' → ∀ deleted ∈ m.deletedAt, m'.deletedAt = some deleted
  refused : ∀ before e mid after m, tr = before ++ e :: (mid ++ after) →
    Run DirectoryStep e.post mid m → ∀ signOut ∈ e.label.signOut, ∀ record ∈ m.load,
    ∀ kind issuedAt, (∀ issued ∈ issuedAt, issued < signOut.occurred) →
    ∃ failure, bearer record kind issuedAt = .error failure

theorem eventTimes_append (tr₁ tr₂ : List (Transition Account DirectoryEvent)) :
    eventTimes (tr₁ ++ tr₂) = eventTimes tr₁ ++ eventTimes tr₂ :=
  List.filterMap_append

/-- The latest instant of a run is that of its first event or of the rest. -/
theorem eventTimes_max?_cons (e : Transition Account DirectoryEvent)
    (tr : List (Transition Account DirectoryEvent)) :
    (eventTimes (e :: tr)).max? = max (e.label.signOut.map (·.occurred)) (eventTimes tr).max? := by
  unfold eventTimes
  cases htime : e.label.signOut.map (·.occurred) with
  | none =>
      have hcons : (e :: tr).filterMap (fun e => e.label.signOut.map (·.occurred)) = _ :=
        List.filterMap_cons_none htime
      rw [hcons, Option.max_none_left]
  | some occurred =>
      have hcons : (e :: tr).filterMap (fun e => e.label.signOut.map (·.occurred)) = _ :=
        List.filterMap_cons_some htime
      rw [hcons, List.max?_cons]
      cases (tr.filterMap fun e => e.label.signOut.map (·.occurred)).max? with
      | none => rfl
      | some latest => rfl

/-- The order in which three optional instants are compared does not matter. -/
theorem latest_assoc (a b c : Option Nat) : max (max a b) c = max a (max b c) := by
  cases a with
  | none => simp
  | some a =>
      cases b with
      | none => simp
      | some b =>
          cases c with
          | none => simp
          | some c => simp [Nat.max_assoc]

section Runs

variable {s t : Account} {tr : List (Transition Account DirectoryEvent)}

/-- Where no step folds in an older deletion, the fence accumulates every instant. -/
theorem fence_run (hs : WellFormed s) (run : Run DirectoryStep s tr t)
    (hkeeps : ∀ e ∈ tr, ¬ LosesFence e.pre e.label) :
    t.fence = max s.fence (eventTimes tr).max? := by
  induction run with
  | nil s => exact Option.max_none_right.symm
  | @cons s s' t event tr hstep rest ih =>
      obtain rfl := hstep.eq_next
      have hfence := fence_next hs (hkeeps _ List.mem_cons_self)
      have hrest := ih (hs.next event) fun e he => hkeeps e (List.mem_cons_of_mem _ he)
      rw [hrest, hfence, eventTimes_max?_cons, latest_assoc]

/-- A deletion stands with its instant. -/
theorem deletedAt_run (hs : WellFormed s) (run : Run DirectoryStep s tr t) {deleted : Nat}
    (hdeleted : s.deletedAt = some deleted) : t.deletedAt = some deleted := by
  have hboth := run.invariant (fun a => WellFormed a ∧ a.deletedAt = some deleted)
    (fun a event a' h hstep => by
      rw [hstep.eq_next]
      exact ⟨h.1.next event, by rw [deletedAt_next h.1, h.2, Option.some_or]⟩)
    ⟨hs, hdeleted⟩
  exact hboth.2

/-- What is refused stays refused. -/
theorem refusing_run (hs : WellFormed s) (run : Run DirectoryStep s tr t) {instant : Nat}
    (hrefusing : Refusing instant s) : Refusing instant t := by
  have hboth := run.invariant (fun a => WellFormed a ∧ Refusing instant a)
    (fun a event a' h hstep => by
      rw [hstep.eq_next]
      exact ⟨h.1.next event, h.2.next h.1 event⟩)
    ⟨hs, hrefusing⟩
  exact hboth.2

/-- A deletion stands, and every token issued before an applied event is refused, in every run and
also where the fence falls back: the fence holds as soon as no step loses it. -/
theorem FenceHolds.of_keeps (hs : WellFormed s) (run : Run DirectoryStep s tr t)
    (hkeeps : ∀ e ∈ tr, ¬ LosesFence e.pre e.label) : FenceHolds s tr where
  fence := by
    rintro before after m rfl hbefore
    exact fence_run hs hbefore fun e he => hkeeps e (List.mem_append_left _ he)
  deletes := by
    intro e he hdeletion
    obtain ⟨hpre, hstep, _⟩ :=
      run.invariant_mem WellFormed (fun _ _ _ h hstep => h.step hstep) hs he
    have hdeletedAt := deletedAt_next hpre e.label
    rw [hstep.eq_next, hdeletedAt, Option.isSome_or, hdeletion, Bool.or_true]
  deleted := by
    intro before mid after m m' _ hbefore hmid deleted hdeleted
    exact deletedAt_run (hs.run hbefore) hmid hdeleted
  refused := by
    rintro before e mid after m rfl hmid signOut hsignOut record hrecord kind issuedAt hissued
    obtain ⟨hbefore, hstep, _⟩ := run.split_mem
    have hpre : WellFormed e.pre := hs.run hbefore
    rw [hstep.eq_next] at hmid
    have hrefusing := refusing_run (hpre.next e.label) hmid (refusing_of_signOut hpre hsignOut)
    exact hrefusing.bearer hrecord kind hissued

/-- The revocation fence does not depend on the order of events exactly in the runs in which no
first sighting folds in a recorded deletion that is older than the recorded fence. -/
theorem fenceHolds_iff (hs : WellFormed s) (run : Run DirectoryStep s tr t) :
    FenceHolds s tr ↔ ∀ e ∈ tr, ¬ LosesFence e.pre e.label := by
  constructor
  · intro h e he hloses
    obtain ⟨before, after, rfl⟩ := List.append_of_mem he
    obtain ⟨hbefore, hstep, _⟩ := run.split_mem
    have hpre : WellFormed e.pre := hs.run hbefore
    have hfence := h.fence before (e :: after) e.pre rfl hbefore
    have hafter := h.fence (before ++ [e]) after e.post (by simp) (hbefore.append (.single hstep))
    -- A sighting has no instant, so that the fence would have to stay.
    have htimes : eventTimes [e] = [] := by
      have hsignOut : e.label.signOut = none := by
        cases hlabel : e.label with
        | ensure newKey kind idHint asOf => rfl
        | _ =>
            rw [hlabel] at hloses
            exact hloses.elim
      simp [eventTimes, hsignOut]
    rw [eventTimes_append, htimes, List.append_nil, hstep.eq_next] at hafter
    exact fence_next_of_losesFence hpre hloses (hafter.trans hfence.symm)
  · intro hkeeps
    exact .of_keeps hs run hkeeps

end Runs

/-! The deletion of an unknown account, a later sign-out and then the first sighting. -/

/-- A Carbon that signs out after it was deleted, and only then is seen for the first time. -/
def lateSignOut : List DirectoryEvent :=
  [.deleted 10, .signedOut none 20,
    .ensure ⟨1, Uuid.one_ne_nil⟩ .carbon (some "c:ada") (some 5)]

theorem run_play_next (s : Account) (events : List DirectoryEvent) :
    Run DirectoryStep s (play Account.next s events) (playEnd Account.next s events) := by
  apply run_play Account.next (fun _ _ => True)
  · intro s event _
    exact .next s event
  · induction events generalizing s with
    | nil => trivial
    | cons event events ih => exact ⟨trivial, ih _⟩

/-- The sighting folds in the deletion at 10 and drops the fence at 20. -/
theorem not_forall_fenceHolds :
    ¬ ∀ s tr t, WellFormed s → Run DirectoryStep s tr t → FenceHolds s tr := by
  intro h
  have run := run_play_next .unknown lateSignOut
  have hholds := h _ _ _ .unknown run
  have hfence := hholds.fence _ [] _ (List.append_nil _).symm run
  exact absurd hfence (by decide)

/-- The same events when the account is seen first. -/
theorem fenceHolds_seenFirst :
    FenceHolds .unknown (play Account.next .unknown (lateSignOut.rotate 2)) :=
  (fenceHolds_iff .unknown (run_play_next .unknown (lateSignOut.rotate 2))).mpr (by decide)

end Waveform.Directory
