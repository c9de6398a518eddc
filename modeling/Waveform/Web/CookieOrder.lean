import Waveform.Library.LabelledRun
import Waveform.Library.Processes
import Waveform.Web.SiteRoutes
import Mathlib.Logic.Function.Basic

/-!
# The session cookie of a browser

A browser has any number of requests in flight. Each carries the session cookie of the moment it was
sent; the server answers it step by step, and the answers arrive in any order. The browser applies
each answer's cookie when it arrives, whatever cookie it has by then.

- `BrowserStep`: sending, serving, arriving, a new sign-in, and a cookie that runs out.
- `StaysSignedOut`, `KeepsNewer`: what is asked of the cookie.
- `cookies_settle`: what holds of it in every order.
- `not_forall_cookies`: answers that cross in flight.
-/

set_option autoImplicit false

namespace Waveform.Web

open Dialogue LabelledRun WhatwgUrl

section Browser

variable (numbers : JsNumbers)

/-- A request: the cookie it carried, what its route has asked so far and what is left of it. -/
structure Flight where
  route : Route
  request : SiteRequest
  carried : Option (TokenSession numbers)
  exchanges : List (SiteExchange numbers)
  left : SiteProgram numbers (Reply numbers)
  arrived : Bool

/-- The session cookie and the requests sent so far. -/
structure Browser where
  cookie : Option (TokenSession numbers)
  flights : Nat → Option (Flight numbers)

/-- What happens: a request is sent, its route goes on by one answer, its answer arrives; a new
sign-in completes; or the cookie runs out. -/
inductive BrowserAction where
  | send (id : Nat) (route : Route) (request : SiteRequest)
  | serve (id : Nat) (exchange : SiteExchange numbers)
  | arrive (id : Nat)
  | signIn (session : TokenSession numbers)
  | expire

abbrev BrowserTransition := Transition (Browser numbers) (BrowserAction numbers)

variable {numbers}

/-- What an answer makes of the cookie. -/
def SetCookie.applyTo (cookie : Option (TokenSession numbers)) :
    SetCookie numbers → Option (TokenSession numbers)
  | .keep => cookie
  | .write session => some session
  | .clear => none

def Browser.withFlight (b : Browser numbers) (id : Nat) (flight : Flight numbers) :
    Browser numbers :=
  { b with flights := Function.update b.flights id (some flight) }

/-- The steps. -/
inductive BrowserStep (outside : Outside) (validDate : numbers.Number → Bool) :
    Browser numbers → BrowserAction numbers → Browser numbers → Prop where
  | send {b : Browser numbers} {id : Nat} {route : Route} {request : SiteRequest}
      (hfree : b.flights id = none) :
      BrowserStep outside validDate b (.send id route request) (b.withFlight id
        ⟨route, request, b.cookie, [], handle outside validDate route b.cookie request, false⟩)
  | serve {b : Browser numbers} {id : Nat} {flight : Flight numbers} {query : SiteQuery numbers}
      {next : SiteAnswer numbers query → SiteProgram numbers (Reply numbers)}
      {answer : SiteAnswer numbers query} (hflight : b.flights id = some flight)
      (hleft : flight.left = .ask query next) :
      BrowserStep outside validDate b (.serve id ⟨query, answer⟩) (b.withFlight id
        { flight with exchanges := flight.exchanges ++ [⟨query, answer⟩], left := next answer })
  | arrive {b : Browser numbers} {id : Nat} {flight : Flight numbers} {reply : Reply numbers}
      (hflight : b.flights id = some flight) (hleft : flight.left = .done reply)
      (hnew : flight.arrived = false) :
      BrowserStep outside validDate b (.arrive id)
        { b.withFlight id { flight with arrived := true } with
          cookie := reply.cookie.applyTo b.cookie }
  | signIn {b : Browser numbers} (session : TokenSession numbers) :
      BrowserStep outside validDate b (.signIn session) { b with cookie := some session }
  | expire {b : Browser numbers} :
      BrowserStep outside validDate b .expire { b with cookie := none }

/-! ## What is asked of the cookie -/

/-- The answer of a request arrives. -/
structure Arrives (e : BrowserTransition numbers) (id : Nat) (flight : Flight numbers)
    (reply : Reply numbers) : Prop where
  label : e.label = .arrive id
  inFlight : e.pre.flights id = some flight
  answered : flight.left = .done reply

/-- The answer of a sign-out arrives. -/
def SignsOut (e : BrowserTransition numbers) : Prop :=
  ∃ id flight reply, Arrives e id flight reply ∧ flight.route = .signOut ∧ reply.cookie = .clear

/-- An answer arrives and brings a session cookie back. -/
def Restores (e : BrowserTransition numbers) : Prop :=
  (∃ id, e.label = .arrive id) ∧ e.pre.cookie = none ∧ e.post.cookie ≠ none

/-- After the answer of a sign-out no answer restores a session cookie until a new sign-in
completes. -/
def StaysSignedOut (tr : List (BrowserTransition numbers)) : Prop :=
  ∀ e₁ mid e₂, InOrder tr e₁ mid e₂ → SignsOut e₁ →
    (∀ e ∈ mid, ∀ session, e.label ≠ .signIn session) → ¬ Restores e₂

/-- After the answer of a sign-out the first to restore a session cookie, before a new sign-in
completes, is an answer that was in flight then: of a request that carried a session and rotated
it. -/
def RestoredFromFlight (tr : List (BrowserTransition numbers)) : Prop :=
  ∀ e₁ mid e₂, InOrder tr e₁ mid e₂ → SignsOut e₁ →
    (∀ e ∈ mid, (∀ session, e.label ≠ .signIn session) ∧ ¬ Restores e) → Restores e₂ →
      ∃ id flight reply sent session rotated, Arrives e₂ id flight reply ∧
        e₁.post.flights id = some sent ∧ sent.arrived = false ∧ sent.route ≠ .signOut ∧
          sent.carried = flight.carried ∧
            RotatedTo flight.carried flight.exchanges session rotated ∧
              e₂.post.cookie = some rotated

/-- No answer that counts, to a request that carried an older session cookie, clears or replaces a
newer one that another answer rotated in the meantime. What counts may depend on both requests. -/
def KeepsNewer (Counts : Flight numbers → Flight numbers → Prop)
    (tr : List (BrowserTransition numbers)) : Prop :=
  ∀ e₀ mid e₂, InOrder tr e₀ mid e₂ → ∀ id route request carried,
    e₀.label = .send id route request → e₀.pre.cookie = some carried →
      ∀ flight reply, Arrives e₂ id flight reply →
        ∀ e ∈ mid, ∀ id' flight' reply' newer, Arrives e id' flight' reply' →
          reply'.cookie = .write newer → newer ≠ carried → e₂.pre.cookie = some newer →
            Counts flight flight' → e₂.post.cookie = some newer

/-- Both requests rotated one and the same refresh token. -/
def SameRotation (flight flight' : Flight numbers) : Prop :=
  ∀ session rotated session' rotated', RotatedTo flight.carried flight.exchanges session rotated →
    RotatedTo flight'.carried flight'.exchanges session' rotated' → session.rt = session'.rt

/-- What counts: an answer that is no sign-out's, of a route that did not hear that the sign-in is
over; where it rotated its session, the newer cookie comes from that same session. -/
structure InTurn (flight flight' : Flight numbers) : Prop where
  route : flight.route ≠ .signOut
  going : ¬ HeardOver flight.exchanges
  same : SameRotation flight flight'

/-- A refresh token is rotated once: whoever asks later is given the same session. -/
def RotatesOnce (tr : List (BrowserTransition numbers)) : Prop :=
  ∀ e ∈ tr, ∀ e' ∈ tr, ∀ id id' session session' rotated rotated',
    e.label = .serve id ⟨.refresh session, .ok (.ok rotated)⟩ →
      e'.label = .serve id' ⟨.refresh session', .ok (.ok rotated')⟩ →
        session.rt = session'.rt → rotated = rotated'

/-! ## What holds in every run -/

section Runs

variable {outside : Outside} {validDate : numbers.Number → Bool} {s t : Browser numbers}
  {action : BrowserAction numbers} {tr : List (BrowserTransition numbers)} {id : Nat}
  {flight : Flight numbers} {reply : Reply numbers} {e : BrowserTransition numbers}

theorem withFlight_self (b : Browser numbers) (id : Nat) (flight : Flight numbers) :
    (b.withFlight id flight).flights id = some flight := Function.update_self ..

theorem withFlight_of_ne (b : Browser numbers) {id other : Nat} (flight : Flight numbers)
    (h : other ≠ id) : (b.withFlight id flight).flights other = b.flights other :=
  Function.update_of_ne h ..

/-- Every flight is somewhere in its route's program. -/
def Underway (outside : Outside) (validDate : numbers.Number → Bool) (b : Browser numbers) : Prop :=
  ∀ id flight, b.flights id = some flight →
    Trace (handle outside validDate flight.route flight.carried flight.request) flight.exchanges
      flight.left

theorem underway_withFlight {b b' : Browser numbers} (flight : Flight numbers)
    (h : Underway outside validDate b) (hflights : b'.flights = (b.withFlight id flight).flights)
    (hflight : Trace (handle outside validDate flight.route flight.carried flight.request)
      flight.exchanges flight.left) : Underway outside validDate b' := by
  intro other flight' hflight'
  rw [hflights] at hflight'
  by_cases hother : other = id
  · subst hother
    cases (withFlight_self b other flight).symm.trans hflight'
    exact hflight
  · exact h other flight' ((withFlight_of_ne b flight hother).symm.trans hflight')

theorem Underway.step (h : Underway outside validDate s)
    (hstep : BrowserStep outside validDate s action t) : Underway outside validDate t := by
  cases hstep with
  | send hfree => exact underway_withFlight _ h rfl (.nil _)
  | serve hflight hleft =>
      refine underway_withFlight _ h rfl ?_
      have htrace := h _ _ hflight
      rw [hleft] at htrace
      exact htrace.snoc _
  | @arrive id flight reply hflight hleft hnew =>
      have htrace := h id flight hflight
      exact underway_withFlight { flight with arrived := true } h rfl htrace
  | signIn session => exact h
  | expire => exact h

theorem underway_run (hnone : ∀ id, s.flights id = none)
    (hrun : Run (BrowserStep outside validDate) s tr t) : Underway outside validDate t :=
  hrun.invariant (Underway outside validDate) (fun _ _ _ h hstep => h.step hstep)
    fun id _ hflight => nomatch (hnone id).symm.trans hflight

/-- The answer that arrives and the cookie before decide the cookie after. -/
theorem Arrives.cookie (h : Arrives e id flight reply)
    (hstep : BrowserStep outside validDate e.pre e.label e.post) :
    e.post.cookie = reply.cookie.applyTo e.pre.cookie ∧ flight.arrived = false := by
  obtain ⟨pre, label, post⟩ := e
  obtain ⟨hlabel, hflight, hleft⟩ := h
  cases hlabel
  dsimp only at hstep hflight
  cases hstep with
  | arrive hflight' hleft' hnew =>
      cases hflight.symm.trans hflight'
      cases hleft.symm.trans hleft'
      exact ⟨rfl, hnew⟩

/-- An answer that arrives is one of its route. -/
theorem Arrives.from (h : Arrives e id flight reply)
    (hunderway : Underway outside validDate e.pre) :
    CookieFrom flight.route flight.carried flight.exchanges reply.cookie := by
  have htrace := hunderway id flight h.inFlight
  rw [h.answered] at htrace
  exact handle_cookie (trace_done_iff.mp htrace)

theorem arrives_of_label (hstep : BrowserStep outside validDate e.pre e.label e.post)
    (hlabel : e.label = .arrive id) : ∃ flight reply, Arrives e id flight reply := by
  obtain ⟨pre, label, post⟩ := e
  cases hlabel
  dsimp only at hstep
  cases hstep with
  | arrive hflight hleft hnew => exact ⟨_, _, rfl, hflight, hleft⟩

/-! ### After a sign-out -/

/-- A flight is one that was sent before, or it carries no cookie. -/
def SentBefore (before : Browser numbers) (id : Nat) (flight : Flight numbers) : Prop :=
  (∃ sent, before.flights id = some sent ∧ sent.route = flight.route ∧
    sent.carried = flight.carried ∧ (sent.arrived = true → flight.arrived = true)) ∨
      flight.carried = none

/-- Since the sign-out no cookie has come back. -/
structure SignedOutSince (before b : Browser numbers) : Prop where
  cookie : b.cookie = none
  flights : ∀ id flight, b.flights id = some flight → SentBefore before id flight

theorem SignedOutSince.withFlight {before b b' : Browser numbers} (flight : Flight numbers)
    (h : SignedOutSince before b) (hcookie : b'.cookie = none)
    (hflights : b'.flights = (b.withFlight id flight).flights)
    (hflight : SentBefore before id flight) : SignedOutSince before b' := by
  refine ⟨hcookie, fun other flight' hflight' => ?_⟩
  rw [hflights] at hflight'
  by_cases hother : other = id
  · subst hother
    cases (withFlight_self b other flight).symm.trans hflight'
    exact hflight
  · exact h.flights other flight' ((withFlight_of_ne b flight hother).symm.trans hflight')

/-- **Nothing but a new sign-in or an answer that restores a cookie ends it.** -/
theorem SignedOutSince.step {before : Browser numbers} (h : SignedOutSince before e.pre)
    (hstep : BrowserStep outside validDate e.pre e.label e.post)
    (hsignIn : ∀ session, e.label ≠ .signIn session) (hrestores : ¬ Restores e) :
    SignedOutSince before e.post := by
  obtain ⟨pre, label, post⟩ := e
  dsimp only at hstep h ⊢
  cases hstep with
  | send hfree => exact h.withFlight _ h.cookie rfl (.inr h.cookie)
  | serve hflight hleft =>
      have hsent := h.flights _ _ hflight
      exact h.withFlight _ h.cookie rfl hsent
  | @arrive id flight reply hflight hleft hnew =>
      have hnone : reply.cookie.applyTo pre.cookie = none := by
        by_contra hsome
        exact hrestores ⟨⟨id, rfl⟩, h.cookie, hsome⟩
      refine h.withFlight { flight with arrived := true } hnone rfl ?_
      rcases h.flights _ _ hflight with ⟨sent, hsent, hroute, hcarried, _⟩ | hcarried
      · exact .inl ⟨sent, hsent, hroute, hcarried, fun _ => rfl⟩
      · exact .inr hcarried
  | signIn session => exact absurd rfl (hsignIn session)
  | expire => exact ⟨rfl, h.flights⟩

/-- **After a sign-out only an answer in flight brings a cookie back.** -/
theorem restoredFromFlight_run (hnone : ∀ id, s.flights id = none)
    (hrun : Run (BrowserStep outside validDate) s tr t) : RestoredFromFlight tr := by
  intro e₁ mid e₂ horder ⟨id₁, flight₁, reply₁, harrives₁, hroute₁, hclear⟩ hmid hrestores
  obtain ⟨⟨before, hbefore⟩, hstep₁, hrunMid, hstep₂⟩ := hrun.inOrder horder
  have hunderway₁ := (underway_run hnone hbefore).step hstep₁
  have hunderway₂ : Underway outside validDate e₂.pre :=
    hrunMid.invariant (Underway outside validDate) (fun _ _ _ h hstep => h.step hstep) hunderway₁
  -- From the sign-out on every flight is one of before, or carries nothing.
  have hstart : SignedOutSince e₁.post e₁.post := by
    refine ⟨?_, fun id flight hflight => .inl ⟨flight, hflight, rfl, rfl, fun h => h⟩⟩
    rw [(harrives₁.cookie hstep₁).1, hclear]
    rfl
  have hsince : SignedOutSince e₁.post e₂.pre := by
    have hrun' := hrunMid.restrict (fun e => (∀ session, e.label ≠ .signIn session) ∧ ¬ Restores e)
      hmid
    refine hrun'.invariant (SignedOutSince e₁.post) (fun s l s' h hstep => ?_) hstart
    exact SignedOutSince.step (e := ⟨s, l, s'⟩) h hstep.1 hstep.2.1 hstep.2.2
  obtain ⟨⟨id, hlabel⟩, hpre, hpost⟩ := hrestores
  obtain ⟨flight, reply, harrives⟩ := arrives_of_label hstep₂ hlabel
  obtain ⟨hcookie, hnew⟩ := harrives.cookie hstep₂
  have hfrom := harrives.from hunderway₂
  rw [hcookie, hpre] at hpost
  generalize hchange : reply.cookie = change at hcookie hpost hfrom
  cases hfrom with
  | kept => exact absurd rfl hpost
  | signedOut _ => exact absurd rfl hpost
  | heardOver _ => exact absurd rfl hpost
  | rotated session rotated hroute hrotated =>
      rcases hsince.flights id flight harrives.inFlight with
        ⟨sent, hsent, hsentRoute, hcarried, harrived⟩ | hcarried
      · refine ⟨id, flight, reply, sent, session, rotated, harrives, hsent, ?_, ?_,
          hcarried, hrotated,
          hcookie⟩
        · rw [Bool.eq_false_iff]
          exact fun h => Bool.false_ne_true (hnew.symm.trans (harrived h))
        · rw [hsentRoute]
          exact hroute
      · obtain ⟨now, hsession⟩ := hrotated.1
        rw [hcarried] at hsession
        cases hsession

/-- A step answers a route by serving it. -/
theorem exchange_of_step (hstep : BrowserStep outside validDate s action t)
    {x : SiteExchange numbers}
    (hflight : t.flights id = some flight) (hx : x ∈ flight.exchanges) :
    (∃ start, s.flights id = some start ∧ x ∈ start.exchanges) ∨ action = .serve id x := by
  cases hstep with
  | @send other route request hfree =>
      by_cases hother : id = other
      · subst hother
        cases (withFlight_self s id _).symm.trans hflight
        cases hx
      · exact .inl ⟨flight, (withFlight_of_ne s _ hother).symm.trans hflight, hx⟩
  | @serve other served query next answer hserved hleft =>
      by_cases hother : id = other
      · subst hother
        cases (withFlight_self s id _).symm.trans hflight
        rcases List.mem_append.mp hx with hx | hx
        · exact .inl ⟨served, hserved, hx⟩
        · rw [List.mem_singleton.mp hx]
          exact .inr rfl
      · exact .inl ⟨flight, (withFlight_of_ne s _ hother).symm.trans hflight, hx⟩
  | @arrive other arrived reply harrived hleft hnew =>
      by_cases hother : id = other
      · subst hother
        cases (withFlight_self s id _).symm.trans hflight
        exact .inl ⟨arrived, harrived, hx⟩
      · exact .inl ⟨flight, (withFlight_of_ne s _ hother).symm.trans hflight, hx⟩
  | signIn session => exact .inl ⟨flight, hflight, hx⟩
  | expire => exact .inl ⟨flight, hflight, hx⟩

/-- What a route has been answered was answered by a step of the run. -/
theorem exchange_of_run (hnone : ∀ id, s.flights id = none)
    (hrun : Run (BrowserStep outside validDate) s tr t) :
    ∀ id flight x, t.flights id = some flight → x ∈ flight.exchanges →
      ∃ e ∈ tr, e.label = .serve id x := by
  have hgeneral : ∀ id flight x, t.flights id = some flight → x ∈ flight.exchanges →
      (∃ start, s.flights id = some start ∧ x ∈ start.exchanges) ∨
        ∃ e ∈ tr, e.label = .serve id x := by
    clear hnone
    induction hrun with
    | nil s => exact fun id flight x hflight hx => .inl ⟨flight, hflight, hx⟩
    | @cons s s' t action tr hstep hrest ih =>
        intro id flight x hflight hx
        rcases ih id flight x hflight hx with ⟨start, hstart, hx'⟩ | ⟨e, he, hlabel⟩
        · refine (exchange_of_step hstep hstart hx').imp_right fun haction => ?_
          exact ⟨_, List.mem_cons_self, haction⟩
        · exact .inr ⟨e, List.mem_cons_of_mem _ he, hlabel⟩
  intro id flight x hflight hx
  exact (hgeneral id flight x hflight hx).resolve_left fun ⟨start, hstart, _⟩ =>
    nomatch (hnone id).symm.trans hstart

/-- **A newer cookie is kept, unless the answer is a sign-out's, heard that the sign-in is over or
rotated another session.** -/
theorem keepsNewer_run (hnone : ∀ id, s.flights id = none)
    (hrun : Run (BrowserStep outside validDate) s tr t) (honce : RotatesOnce tr) :
    KeepsNewer InTurn tr := by
  intro e₀ mid e₂ horder id route request carried _ _ flight reply harrives e he id' flight' reply'
    newer harrives' hnewer _ hpre hturn
  have hmem : e₂ ∈ tr ∧ e ∈ tr := by
    obtain ⟨before, after, rfl⟩ := horder
    refine ⟨?_, ?_⟩
    · simp
    · simp [he]
  -- Up to a step of the run: each flight is under way, and what it was answered is in the run.
  have hat : ∀ e ∈ tr, Underway outside validDate e.pre ∧
      BrowserStep outside validDate e.pre e.label e.post ∧
        ∀ id flight x, e.pre.flights id = some flight → x ∈ flight.exchanges →
          ∃ e' ∈ tr, e'.label = .serve id x := by
    intro e he
    obtain ⟨tr₁, tr₂, rfl⟩ := List.append_of_mem he
    obtain ⟨hbefore, hstep, _⟩ := hrun.split_mem
    refine ⟨underway_run hnone hbefore, hstep, fun id flight x hflight hx => ?_⟩
    obtain ⟨e', he', hlabel⟩ := exchange_of_run hnone hbefore id flight x hflight hx
    exact ⟨e', List.mem_append_left _ he', hlabel⟩
  obtain ⟨hunderway, hstep, hserved⟩ := hat e₂ hmem.1
  obtain ⟨hunderway', _, hserved'⟩ := hat e hmem.2
  have hfrom := harrives.from hunderway
  have hfrom' := harrives'.from hunderway'
  rw [(harrives.cookie hstep).1, hpre]
  rw [hnewer] at hfrom'
  generalize reply.cookie = change at hfrom ⊢
  cases hfrom with
  | kept => rfl
  | signedOut hroute => exact absurd hroute hturn.route
  | heardOver hover => exact absurd hover hturn.going
  | rotated session rotated hroute hrotated =>
      cases hfrom' with
      | rotated session' _ hroute' hrotated' =>
          -- Both answers are of the one rotation of that token.
          obtain ⟨e₁, he₁, hlabel₁⟩ := hserved id flight _ harrives.inFlight hrotated.2
          obtain ⟨e₁', he₁', hlabel₁'⟩ := hserved' id' flight' _ harrives'.inFlight hrotated'.2
          have hsame := hturn.same session rotated session' newer hrotated hrotated'
          exact congrArg some
            (honce e₁ he₁ e₁' he₁' id id' session session' rotated newer hlabel₁ hlabel₁' hsame)

/-- **The session cookie of a browser settles** in every run from a browser without requests, in any
order of sending, serving and arriving, when a refresh token is rotated once. -/
theorem cookies_settle (hnone : ∀ id, s.flights id = none)
    (hrun : Run (BrowserStep outside validDate) s tr t) (honce : RotatesOnce tr) :
    RestoredFromFlight tr ∧ KeepsNewer InTurn tr :=
  ⟨restoredFromFlight_run hnone hrun, keepsNewer_run hnone hrun honce⟩

/-! ### Building runs -/

theorem withFlight_withFlight (b : Browser numbers) (id : Nat) (flight flight' : Flight numbers) :
    (b.withFlight id flight).withFlight id flight' = b.withFlight id flight' :=
  congrArg (fun flights => ({ b with flights } : Browser numbers)) (Function.update_idem ..)

theorem withFlight_eq_self (h : s.flights id = some flight) : s.withFlight id flight = s :=
  congrArg (fun flights => ({ s with flights } : Browser numbers))
    (Function.update_eq_self_iff.mpr h.symm)

/-- A flight after its route was served to the end. -/
def Flight.servedTo (flight : Flight numbers) (xs : List (SiteExchange numbers))
    (reply : Reply numbers) : Flight numbers :=
  { flight with exchanges := flight.exchanges ++ xs, left := .done reply }

/-- A route is served to its end. -/
theorem exists_serve {xs : List (SiteExchange numbers)} (hflight : s.flights id = some flight)
    (hruns : Runs flight.left xs reply) :
    ∃ tr, Run (BrowserStep outside validDate) s tr (s.withFlight id (flight.servedTo xs reply)) ∧
      ∀ e ∈ tr, ∃ x ∈ xs, e.label = .serve id x := by
  generalize hleft : flight.left = left at hruns
  induction hruns generalizing s flight with
  | done reply =>
      refine ⟨[], ?_, fun e he => absurd he List.not_mem_nil⟩
      have hserved : flight.servedTo [] reply = flight := by
        unfold Flight.servedTo
        rw [List.append_nil, ← hleft]
      rw [hserved, withFlight_eq_self hflight]
      exact .nil s
  | @ask query next xs reply answer hrest ih =>
      obtain ⟨flight', hflight', hleft'⟩ : ∃ flight' : Flight numbers,
          flight' = { flight with
            exchanges := flight.exchanges ++ [⟨query, answer⟩], left := next answer } ∧
          flight'.left = next answer := ⟨_, rfl, rfl⟩
      have hstep : BrowserStep outside validDate s (.serve id ⟨query, answer⟩)
          (s.withFlight id flight') := by
        rw [hflight']
        exact .serve hflight hleft
      obtain ⟨tr, hrun, hlabels⟩ := ih (withFlight_self s id flight') hleft'
      have hend : flight'.servedTo xs reply = flight.servedTo (⟨query, answer⟩ :: xs) reply := by
        rw [hflight']
        unfold Flight.servedTo
        rw [List.append_assoc]
        rfl
      rw [withFlight_withFlight, hend] at hrun
      refine ⟨_, .cons hstep hrun, fun e he => ?_⟩
      rcases List.mem_cons.mp he with rfl | he
      · exact ⟨_, List.mem_cons_self, rfl⟩
      · obtain ⟨x, hx, hlabel⟩ := hlabels e he
        exact ⟨x, List.mem_cons_of_mem _ hx, hlabel⟩

/-- The flight of a request that has been answered. -/
def answered (s : Browser numbers) (route : Route) (request : SiteRequest)
    (xs : List (SiteExchange numbers)) (reply : Reply numbers) : Flight numbers :=
  ⟨route, request, s.cookie, xs, .done reply, false⟩

/-- A request is sent and answered; its answer is still in flight. -/
theorem exists_request {route : Route} {request : SiteRequest} {xs : List (SiteExchange numbers)}
    (hfree : s.flights id = none)
    (hruns : Runs (handle outside validDate route s.cookie request) xs reply) :
    ∃ sent tr, sent.pre = s ∧ sent.label = .send id route request ∧
      Run (BrowserStep outside validDate) s (sent :: tr)
        (s.withFlight id (answered s route request xs reply)) ∧
      ∀ e ∈ tr, ∃ x ∈ xs, e.label = .serve id x := by
  obtain ⟨flight, hflight⟩ : ∃ flight : Flight numbers, flight = ⟨route, request, s.cookie, [],
      handle outside validDate route s.cookie request, false⟩ := ⟨_, rfl⟩
  have hstep : BrowserStep outside validDate s (.send id route request)
      (s.withFlight id flight) := by
    rw [hflight]
    exact .send hfree
  have hruns' : Runs flight.left xs reply := by
    rw [hflight]
    exact hruns
  obtain ⟨tr, hrun, hlabels⟩ := exists_serve (withFlight_self s id flight) hruns'
  have hend : flight.servedTo xs reply = answered s route request xs reply := by
    rw [hflight]
    rfl
  rw [withFlight_withFlight, hend] at hrun
  exact ⟨⟨s, .send id route request, _⟩, tr, rfl, rfl, .cons hstep hrun, hlabels⟩

/-- An answer in flight arrives. -/
def arrival (s : Browser numbers) (id : Nat) (flight : Flight numbers) (reply : Reply numbers) :
    BrowserTransition numbers where
  pre := s
  label := .arrive id
  post := { s.withFlight id { flight with arrived := true } with
    cookie := reply.cookie.applyTo s.cookie }

theorem run_arrival (hflight : s.flights id = some flight) (hleft : flight.left = .done reply)
    (hnew : flight.arrived = false) :
    Run (BrowserStep outside validDate) s [arrival s id flight reply]
      (arrival s id flight reply).post := .single (.arrive hflight hleft hnew)

/-! ### Runs of the routes -/

variable {cookie : Option (TokenSession numbers)} {request : SiteRequest} {env : SiteEnv}
  {session : StoredSession numbers} {rotated : TokenSession numbers} {now now' : Nat}

/-- The session keeper rotates a session. -/
theorem runs_refreshPost (hproblem : sameOriginProblem env request = none)
    (hsession : sessionFromCookie cookie now = some session)
    (hdue : numbers.lt (numbers.ofNat (REFRESH_AHEAD .keeper))
      (numbers.sub session.ae (numbers.ofNat now')) = false)
    (hdate : validDate rotated.ae = true) :
    Runs (handle outside validDate .refresh cookie request)
      [⟨.serverEnv, .ok env⟩, ⟨.now, now⟩, ⟨.now, now'⟩, ⟨.refresh session, .ok (.ok rotated)⟩]
      ⟨200, .signedIn rotated.acct rotated.ae, .write rotated⟩ := by
  change Runs (refreshPost validDate cookie request) _ _
  unfold refreshPost withEnv
  refine runs_ask_iff.mpr ⟨_, _, rfl, ?_⟩
  dsimp only
  rw [hproblem]
  refine runs_ask_iff.mpr ⟨_, _, rfl, ?_⟩
  rw [hsession]
  refine runs_ask_iff.mpr ⟨_, _, rfl, ?_⟩
  dsimp only
  rw [hdue]
  refine runs_ask_iff.mpr ⟨_, _, rfl, ?_⟩
  change Runs (ite _ _ _) _ _
  rw [if_pos hdate]
  exact .done _

/-- A sign-out revokes the session. -/
theorem runs_signOutPost (hproblem : sameOriginProblem env request = none)
    (hsession : sessionFromCookie cookie now = some session) :
    Runs (handle outside validDate .signOut cookie request)
      [⟨.serverEnv, .ok env⟩, ⟨.now, now⟩, ⟨.revoke session, true⟩] (signedOutPage request) := by
  change Runs (signOutPost cookie request) _ _
  unfold signOutPost withEnv
  refine runs_ask_iff.mpr ⟨_, _, rfl, ?_⟩
  dsimp only
  rw [hproblem]
  refine runs_ask_iff.mpr ⟨_, _, rfl, ?_⟩
  rw [hsession]
  exact runs_ask_iff.mpr ⟨_, _, rfl, .done _⟩

theorem signedOutPage_clears : (signedOutPage request : Reply numbers).cookie = .clear := by
  unfold signedOutPage
  split <;> rfl

end Runs

end Browser

/-! ## Answers that cross -/

section Sample

def sampleEnv : SiteEnv where
  appApiUrl := "https://api.example"
  publicUrl := ⟨"https://wave.example", "https:", "wave.example", ""⟩
  extraOrigins := []
  production := true

def samplePost : SiteRequest where
  method := "POST"
  pathname := []
  search := ""
  returnTo := none
  origin := some "https://wave.example"
  secFetchSite := some "same-origin"
  secFetchMode := none
  accept := none
  hasBody := false

/-- A session whose access token ends at second `ends`. -/
def sampleStored (rt : String) (ends : Nat) : StoredSession sampleNumbers where
  accessToken := "access"
  rt := rt
  ae := Int.ofNat (1000 * ends)
  re := Int.ofNat 9000000000
  scope := .string "profile"
  acct := ⟨"ada", .carbon, "carbon:ada", "Ada", none, none⟩

/-- A browser with a session that ends soon. -/
def sampleBrowser : Browser sampleNumbers where
  cookie := some (sampleStored "r0" 100).tokens
  flights _ := none

/-- The session that it is rotated to. -/
def sampleNext : TokenSession sampleNumbers := (sampleStored "r1" 1900).tokens

theorem samplePost_same : sameOriginProblem sampleEnv samplePost = none := by decide +kernel

theorem sample_session :
    sessionFromCookie sampleBrowser.cookie 0 = some (sampleStored "r0" 100) := rfl

/-- The answers of the keeper's refresh. -/
def refreshAnswers : List (SiteExchange sampleNumbers) :=
  [⟨.serverEnv, .ok sampleEnv⟩, ⟨.now, (0 : Nat)⟩, ⟨.now, (0 : Nat)⟩,
    ⟨.refresh (sampleStored "r0" 100), .ok (.ok sampleNext)⟩]

/-- The answers of the sign-out. -/
def signOutAnswers : List (SiteExchange sampleNumbers) :=
  [⟨.serverEnv, .ok sampleEnv⟩, ⟨.now, (0 : Nat)⟩, ⟨.revoke (sampleStored "r0" 100), true⟩]

def refreshReply : Reply sampleNumbers :=
  ⟨200, .signedIn sampleNext.acct sampleNext.ae, .write sampleNext⟩

abbrev SampleStep : Browser sampleNumbers → BrowserAction sampleNumbers →
    Browser sampleNumbers → Prop :=
  BrowserStep nowhere fun _ => true

theorem runs_sampleRefresh :
    Runs (handle nowhere (fun _ => true) .refresh sampleBrowser.cookie samplePost)
    refreshAnswers refreshReply :=
  runs_refreshPost samplePost_same sample_session rfl rfl

theorem runs_sampleSignOut :
    Runs (handle nowhere (fun _ => true) .signOut sampleBrowser.cookie samplePost)
    signOutAnswers (signedOutPage samplePost) := runs_signOutPost samplePost_same sample_session

/-- The only rotation among these answers is the one to the next session. -/
theorem rotation_of_answers {x : SiteExchange sampleNumbers}
    (hx : x ∈ refreshAnswers ++ signOutAnswers)
    {session : StoredSession sampleNumbers} {rotated : TokenSession sampleNumbers}
    (heq : x = ⟨.refresh session, .ok (.ok rotated)⟩) : rotated = sampleNext := by
  subst heq
  simp only [refreshAnswers, signOutAnswers, List.cons_append, List.nil_append, List.mem_cons,
    Exchange.mk.injEq, List.not_mem_nil, or_false, reduceCtorEq, false_and, false_or,
    SiteQuery.refresh.injEq] at hx
  obtain ⟨rfl, hanswer⟩ := hx
  cases hanswer
  rfl

theorem rotatesOnce_of_next {tr : List (BrowserTransition sampleNumbers)}
    (h : ∀ e ∈ tr, ∀ i x, e.label = .serve i x → x ∈ refreshAnswers ++ signOutAnswers) :
    RotatesOnce tr := by
  intro e he e' he' i i' session session' rotated rotated' hlabel hlabel' _
  rw [rotation_of_answers (h e he i _ hlabel) rfl, rotation_of_answers (h e' he' i' _ hlabel') rfl]

/-- Two requests are sent and answered, and their answers arrive, the second one's first. -/
theorem exists_crossing {first second : Route} {xs ys : List (SiteExchange sampleNumbers)}
    {reply reply' : Reply sampleNumbers}
    (hfirst : Runs (handle nowhere (fun _ => true) first sampleBrowser.cookie samplePost) xs reply)
    (hsecond : Runs (handle nowhere (fun _ => true) second sampleBrowser.cookie samplePost) ys
      reply')
    (hxs : xs ⊆ refreshAnswers ++ signOutAnswers) (hys : ys ⊆ refreshAnswers ++ signOutAnswers) :
    ∃ (sent : BrowserTransition sampleNumbers) (between : List (BrowserTransition sampleNumbers))
      (e₁ e₂ : BrowserTransition sampleNumbers) (flight flight' : Flight sampleNumbers)
      (t : Browser sampleNumbers),
      Run SampleStep sampleBrowser (sent :: (between ++ [e₁, e₂])) t ∧
      RotatesOnce (sent :: (between ++ [e₁, e₂])) ∧
      sent.label = .send 0 first samplePost ∧ sent.pre = sampleBrowser ∧
      Arrives e₁ 1 flight' reply' ∧ Arrives e₂ 0 flight reply ∧
      flight'.route = second ∧ flight.route = first ∧
      e₁.post.cookie = reply'.cookie.applyTo sampleBrowser.cookie ∧ e₂.pre = e₁.post ∧
      e₂.post.cookie = reply.cookie.applyTo e₂.pre.cookie := by
  have hunsent : sampleBrowser.flights 0 = none := rfl
  obtain ⟨sent, tr, hpre, hlabel, hrun, hserved⟩ := exists_request hunsent hfirst
  generalize hflight : answered sampleBrowser first samplePost xs reply = flight at hrun
  obtain ⟨s₁, hs₁⟩ : ∃ s₁, s₁ = sampleBrowser.withFlight 0 flight := ⟨_, rfl⟩
  rw [← hs₁] at hrun
  have hcookie₁ : s₁.cookie = sampleBrowser.cookie := by rw [hs₁]; rfl
  have hfree : s₁.flights 1 = none := by
    rw [hs₁, withFlight_of_ne _ _ Nat.one_ne_zero]
    rfl
  rw [← hcookie₁] at hsecond
  obtain ⟨sent', tr', hpre', hlabel', hrun', hserved'⟩ := exists_request hfree hsecond
  generalize hflight' : answered s₁ second samplePost ys reply' = flight' at hrun'
  obtain ⟨s₂, hs₂⟩ : ∃ s₂, s₂ = s₁.withFlight 1 flight' := ⟨_, rfl⟩
  rw [← hs₂] at hrun'
  have hcookie₂ : s₂.cookie = sampleBrowser.cookie := by rw [hs₂]; exact hcookie₁
  have hin' : s₂.flights 1 = some flight' := by rw [hs₂]; exact withFlight_self ..
  have hleft' : flight'.left = .done reply' ∧ flight'.arrived = false ∧ flight'.route = second := by
    rw [← hflight']
    exact ⟨rfl, rfl, rfl⟩
  have hleft : flight.left = .done reply ∧ flight.arrived = false ∧ flight.route = first := by
    rw [← hflight]
    exact ⟨rfl, rfl, rfl⟩
  -- The second answer arrives, and the first one is still in flight.
  have harrive' : Run SampleStep s₂ [arrival s₂ 1 flight' reply'] _ :=
    run_arrival hin' hleft'.1 hleft'.2.1
  obtain ⟨e₁, he₁⟩ : ∃ e₁, e₁ = arrival s₂ 1 flight' reply' := ⟨_, rfl⟩
  have hin : e₁.post.flights 0 = some flight := by
    rw [he₁]
    refine (withFlight_of_ne s₂ { flight' with arrived := true } Nat.zero_ne_one).trans ?_
    rw [hs₂, withFlight_of_ne _ _ Nat.zero_ne_one, hs₁]
    exact withFlight_self ..
  rw [← he₁] at harrive'
  have harrive : Run SampleStep e₁.post [arrival e₁.post 0 flight reply] _ :=
    run_arrival hin hleft.1 hleft.2.1
  refine ⟨sent, tr ++ sent' :: tr', e₁, arrival e₁.post 0 flight reply, flight, flight',
    (arrival e₁.post 0 flight reply).post, ?_, ?_, hlabel, hpre, ?_, ⟨rfl, hin, hleft.1⟩,
    hleft'.2.2, hleft.2.2, ?_, rfl, rfl⟩
  · have hall := ((hrun.append hrun').append harrive').append harrive
    simpa using hall
  · refine rotatesOnce_of_next fun e he i x hx => ?_
    simp only [List.mem_cons, List.mem_append, List.not_mem_nil, or_false] at he
    rcases he with rfl | (he | rfl | he) | rfl | rfl
    · cases hlabel.symm.trans hx
    · obtain ⟨y, hy, hserve⟩ := hserved e he
      cases hserve.symm.trans hx
      exact hxs hy
    · cases hlabel'.symm.trans hx
    · obtain ⟨y, hy, hserve⟩ := hserved' e he
      cases hserve.symm.trans hx
      exact hys hy
    · rw [he₁] at hx
      cases hx
    · cases hx
  · rw [he₁]
    exact ⟨rfl, hin', hleft'.1⟩
  · rw [he₁, ← hcookie₂]
    rfl

/-- A refresh that is in flight when the sign-out's answer arrives. -/
theorem cookies_settle_sample : ∃ (tr : List (BrowserTransition sampleNumbers))
    (t : Browser sampleNumbers), Run SampleStep sampleBrowser tr t ∧
      RestoredFromFlight tr ∧ KeepsNewer InTurn tr := by
  obtain ⟨sent, between, e₁, e₂, _, _, t, hrun, honce, _⟩ :=
    exists_crossing runs_sampleRefresh runs_sampleSignOut (List.subset_append_left _ _)
      (List.subset_append_right _ _)
  exact ⟨_, t, hrun, cookies_settle (fun _ => rfl) hrun honce⟩

/-- The refresh brings the cookie back after the sign-out; and the other way round the sign-out,
which carried the older cookie, clears the newer one. -/
theorem not_forall_cookies :
    (¬ ∀ (tr : List (BrowserTransition sampleNumbers)) (t : Browser sampleNumbers),
      Run SampleStep sampleBrowser tr t → RotatesOnce tr → StaysSignedOut tr) ∧
    ¬ ∀ (tr : List (BrowserTransition sampleNumbers)) (t : Browser sampleNumbers),
      Run SampleStep sampleBrowser tr t → RotatesOnce tr → KeepsNewer (fun _ _ => True) tr := by
  constructor
  · intro h
    obtain ⟨sent, between, e₁, e₂, flight, flight', t, hrun, honce, _, _, harrives₁, harrives₂,
      hsignOut, _, hcookie₁, hpre, hcookie₂⟩ :=
      exists_crossing runs_sampleRefresh runs_sampleSignOut (List.subset_append_left _ _)
        (List.subset_append_right _ _)
    refine h _ t hrun honce e₁ [] e₂ ⟨sent :: between, [], by simp⟩
      ⟨1, flight', _, harrives₁, hsignOut, signedOutPage_clears⟩
      (fun e he => absurd he List.not_mem_nil) ⟨⟨0, harrives₂.label⟩, ?_, ?_⟩
    · rw [hpre, hcookie₁, signedOutPage_clears]
      rfl
    · rw [hcookie₂]
      exact Option.some_ne_none _
  · intro h
    obtain ⟨sent, between, e₁, e₂, flight, flight', t, hrun, honce, hlabel, hsent, harrives₁,
      harrives₂, _, _, hcookie₁, hpre, hcookie₂⟩ :=
      exists_crossing runs_sampleSignOut runs_sampleRefresh (List.subset_append_right _ _)
        (List.subset_append_left _ _)
    have hkept := h _ t hrun honce sent (between ++ [e₁]) e₂ ⟨[], [], by simp⟩ 0 .signOut samplePost
      (sampleStored "r0" 100).tokens hlabel (by rw [hsent]; rfl) flight _ harrives₂ e₁ (by simp) 1
      flight' _ sampleNext harrives₁ rfl ?_ ?_ trivial
    · rw [hcookie₂, signedOutPage_clears] at hkept
      cases hkept
    · intro heq
      have hrt : Json.string "r1" = .string "r0" := congrArg TokenSession.rt heq
      exact absurd (Json.string.inj hrt) (by decide)
    · rw [hpre, hcookie₁]
      rfl

end Sample

end Waveform.Web
