import Waveform.Briefcase.StubSteps

/-!
# Attempts against one Briefcase

Any number of attempts to store audio run against one Briefcase, their requests in any order. An
answer may be lost or unreadable, and an attempt may be dropped while it waits. A request whose
sender has given up may still arrive, at any later time and more than once. A request may be refused
before its route sees it.

- `briefcaseUploads`: the attempts and what their requests do.
- `Relies`: what an attempt may rely on between two of its requests.
- `handled_relies`, `reliable`: a request that an attempt may send keeps to it.
-/

set_option autoImplicit false

namespace Waveform.Briefcase

open Waveform.Domain Waveform.Service
open Dialogue

/-- Briefcase, the requests that may still arrive, and the attempts that have begun. -/
structure UploadWorld where
  stub : Stub
  wandering : List UploadCall
  started : List StoreGeneratedAudioRequest

/-- The proof that a request carries; the bytes go with a capability instead. -/
def UploadCall.proof : UploadCall → Option BriefcaseProof
  | reserve proof _ _ => some proof
  | content _ _ _ => none
  | commit proof _ _ _ => some proof
  | list proof _ _ _ _ => some proof

/-- How a request is served: its answer is read; it is handled, and no answer is read; or it is lost
on its way, to arrive later or never. What Briefcase makes of the proof goes with a request that is
handled. -/
inductive UploadService where
  | answered (verdict : Except Nat Caller)
  | unread (verdict : Except Nat Caller)
  | lost

/-- What is read of an answer. -/
def wireAnswer {β : Type} : StubAnswer β → WireAnswer β
  | .ok body => .body body
  | .error status => .refused status

section World

variable (d : Deployment)

/-- A proof that is accepted acts for its account and Waveform. -/
def Verified (call : UploadCall) (verdict : Except Nat Caller) : Prop :=
  ∀ caller, verdict = .ok caller → caller.app = d.http.waveformAppId ∧
    ∀ proof, call.proof = some proof → caller.owner = d.ownerOf proof

/-- The world after Briefcase has handled a request. -/
def UploadWorld.handled (w : UploadWorld) (verdict : Except Nat Caller) (call : UploadCall) :
    UploadWorld :=
  { w with stub := (w.stub.handle d.settings verdict call).2 }

/-- The world with a request on its way that nobody waits for. -/
def UploadWorld.sent (w : UploadWorld) (call : UploadCall) : UploadWorld :=
  { w with wandering := call :: w.wandering }

/-- An exchange, as it was served. -/
def serves (w : UploadWorld) (service : UploadService) (e : UploadExchange) (w' : UploadWorld) :
    Prop :=
  match service with
  | .answered verdict => Verified d e.query verdict ∧
      e.answer = wireAnswer (w.stub.handle d.settings verdict e.query).1 ∧
      w' = w.handled d verdict e.query
  | .unread verdict => Verified d e.query verdict ∧ (∀ body, e.answer ≠ .body body) ∧
      w' = w.handled d verdict e.query
  | .lost => (∀ body, e.answer ≠ .body body) ∧ w' = w.sent e.query

/-- The attempts: each runs `upload`. -/
def briefcaseUploads : Community UploadCall UploadAnswer (Except BriefcaseError BriefcaseFileUrl)
    UploadWorld
    StoreGeneratedAudioRequest UploadService where
  programOf request := upload d.http request
  starts w request := { w with started := request :: w.started }
  serves := serves d
  drops w call := w.sent call
  dropped := .error .timeout
  outside w w' := ∃ call ∈ w.wandering, ∃ verdict, Verified d call verdict ∧
    w' = w.handled d verdict call

/-! ## What an attempt may rely on -/

/-- The request is one that an attempt sends. -/
def Honest (w : UploadWorld) : UploadCall → Prop
  | .reserve proof body _ => ∃ r ∈ w.started, proof = r.proof ∧ body = reserveBody d.http r
  | .content uploadId _ bytes =>
      ∃ r ∈ w.started, ∃ u ∈ w.stub.uploads, d.OfRequest r u ∧ uploadId = u.uploadId ∧
        bytes = r.audio.bytes
  | .commit _ _ _ _ => True
  | .list _ _ _ _ _ => True

/-- Briefcase is as uploads leave it, and what may still arrive are requests of attempts. -/
structure GoodWorld (w : UploadWorld) : Prop where
  orderly : Orderly d w.started w.stub
  honest : ∀ call ∈ w.wandering, Honest d w call

/-- The world has gone on. -/
structure Relies (w w' : UploadWorld) : Prop where
  before : GoodWorld d w
  after : GoodWorld d w'
  evolves : w.stub.Evolves w'.stub
  started : ∀ r ∈ w.started, r ∈ w'.started

end World

section Rules

variable {d : Deployment} {w w' w'' : UploadWorld} {call : UploadCall} {verdict : Except Nat Caller}

theorem Relies.refl (h : GoodWorld d w) : Relies d w w := ⟨h, h, .refl _, fun _ hr => hr⟩

theorem Relies.trans (h : Relies d w w') (h' : Relies d w' w'') : Relies d w w'' :=
  ⟨h.before, h'.after, h.evolves.trans h'.evolves, fun r hr => h'.started r (h.started r hr)⟩

theorem Deployment.OfRequest.continues {r : StoreGeneratedAudioRequest} {u u' : StubUpload}
    (h : d.OfRequest r u)
    (hcontinues : u.Continues u') : d.OfRequest r u' := by
  have hkey : (u'.owner, u'.app, u'.operationId) = (u.owner, u.app, u.operationId) := hcontinues.key
  obtain ⟨howner, _, hoperation⟩ : u'.owner = u.owner ∧ u'.app = u.app ∧
    u'.operationId = u.operationId := by
    simpa only [Prod.mk.injEq] using hkey
  exact ⟨howner.trans h.1, hoperation.trans h.2⟩

/-- A request of an attempt remains one. -/
theorem Honest.evolves (h : Honest d w call) (hevolves : w.stub.Evolves w'.stub)
    (hstarted : ∀ r ∈ w.started, r ∈ w'.started) :
    Honest d w' call := by
  cases call with
  | reserve proof body requestId =>
      obtain ⟨r, hr, hcall⟩ := h
      exact ⟨r, hstarted r hr, hcall⟩
  | content uploadId capability bytes =>
      obtain ⟨r, hr, u, hu, hrequest, huploadId, hbytes⟩ := h
      obtain ⟨u', hu', hcontinues⟩ := hevolves.uploads u hu
      exact ⟨r, hstarted r hr, u', hu', hrequest.continues hcontinues,
        huploadId.trans hcontinues.uploadId.symm, hbytes⟩
  | commit proof operationId uploadId requestId => trivial
  | list proof path cursor limit requestId => trivial

/-- **A request of an attempt** leaves what the attempts rely on, whoever sent it and whenever it
arrives. -/
theorem handled_relies (hrandom : d.Random) (hgood : GoodWorld d w) (hhonest : Honest d w call)
    (hverified : Verified d call verdict) : Relies d w (w.handled d verdict call) := by
  have hsteps : Orderly d w.started (w.handled d verdict call).stub ∧
      w.stub.Evolves (w.handled d verdict call).stub := by
    cases verdict with
    | error status =>
        cases call <;> exact ⟨hgood.orderly, .refl _⟩
    | ok caller =>
        obtain ⟨happ, howner⟩ := hverified caller rfl
        cases call with
        | reserve proof body requestId =>
            obtain ⟨r, hr, rfl, rfl⟩ := hhonest
            obtain ⟨horderly, hevolves, _⟩ :=
              reserve_knows hgood.orderly hrandom happ (howner r.proof rfl) hr
            exact ⟨horderly, hevolves⟩
        | content uploadId capability bytes =>
            obtain ⟨r, hr, u, hu, hrequest, rfl, rfl⟩ := hhonest
            obtain ⟨horderly, hevolves, _⟩ :=
              @transfer_knows d w.started w.stub u r capability hgood.orderly hr hu hrequest
            exact ⟨horderly, hevolves⟩
        | commit proof operationId uploadId requestId =>
            obtain ⟨horderly, hevolves, _⟩ := commit_knows hgood.orderly hrandom happ
            exact ⟨horderly, hevolves⟩
        | list proof path cursor limit requestId =>
            obtain ⟨horderly, hevolves, _⟩ := listEntries_shows hgood.orderly hrandom happ
            exact ⟨horderly, hevolves⟩
  exact ⟨hgood, ⟨hsteps.1, fun other hother => (hgood.honest other hother).evolves hsteps.2
    fun _ hr => hr⟩, hsteps.2,
    fun _ hr => hr⟩

/-- A request that nobody waits for. -/
theorem sent_relies (hgood : GoodWorld d w) (hhonest : Honest d w call) :
    Relies d w (w.sent call) := by
  refine ⟨hgood, ⟨hgood.orderly, fun other hother => ?_⟩, .refl _, fun _ hr => hr⟩
  rcases List.mem_cons.mp hother with rfl | hother
  · exact hhonest
  · exact (hgood.honest other hother).evolves (.refl _) fun _ hr => hr

/-- **Every step is one that the attempts may rely on**, where the requests are those of
attempts. -/
theorem reliable (hrandom : d.Random) : (briefcaseUploads d).Reliable (GoodWorld d) (Relies d)
    (Honest d) where
  refl := Relies.refl
  trans := Relies.trans
  good h := ⟨h.before, h.after⟩
  starts {w request} hgood := by
    have hstarted : ∀ r ∈ w.started, r ∈ request :: w.started :=
      fun r hr => List.mem_cons_of_mem _ hr
    exact ⟨hgood, ⟨hgood.orderly.mono hstarted,
      fun call hcall => (hgood.honest call hcall).evolves (.refl _) hstarted⟩,
      .refl _, hstarted⟩
  serves {w w' service e} hgood hhonest hserves := by
    cases service with
    | answered verdict =>
        obtain ⟨hverified, _, rfl⟩ := hserves
        exact handled_relies hrandom hgood hhonest hverified
    | unread verdict =>
        obtain ⟨hverified, _, rfl⟩ := hserves
        exact handled_relies hrandom hgood hhonest hverified
    | lost =>
        obtain ⟨_, rfl⟩ := hserves
        exact sent_relies hgood hhonest
  drops := sent_relies
  outside hgood houtside := by
    obtain ⟨call, hcall, verdict, hverified, rfl⟩ := houtside
    exact handled_relies hrandom hgood (hgood.honest call hcall) hverified

end Rules

end Waveform.Briefcase
