import Waveform.Web.Tokens

/-!
# One refresh per refresh token

`refreshSession` in one server process: a table of promises by refresh token, shared by every
request. A promise is remembered for two minutes while its call is under way; when the call ends
with a result, for a minute after a success and for two seconds after a failure. A call that throws
leaves the two minutes as they were.

The state holds the clock in milliseconds. A call ends within its timeout and the lateness of the
event loop, since the signal aborts it.

- `refreshesOnce_of_plain`: a run whose answers can all be read.
- `late_answer_of_not_plain`: an answer that cannot be read is answered from memory long after.
- `refreshesOnce_iff_plain`: the answers over which every run is as it should be.
-/

set_option autoImplicit false

namespace Waveform.Web

open LabelledRun SingleFlight

/-! ## Refreshing -/

/-- `REFRESH_MEMO_MS`. -/
def refreshMemoMs : Nat := 60000

/-- How long a failure is remembered. -/
def failureMemoMs : Nat := 2000

/-- The timeout of a call to the token endpoint. -/
def tokenTimeoutMs : Nat := 20000

section Refresh

variable (numbers : JsNumbers) (accountsApiUrl : String)

/-- How a promise of `tokenCall` ends: fulfilled with a result, or rejected. -/
abbrev RefreshOutcome := Except TypeError (TokenResult numbers)

/-- The table of `refreshSession`. `promise.then` sets the deadline again when the promise is
fulfilled, and is not called when it is rejected. -/
def refreshPolicy : Policy String (StoredSession numbers) (RefreshOutcome numbers) where
  key := StoredSession.rt
  pendingFor := 2 * refreshMemoMs
  keptFor
    | .ok (.ok _) => some refreshMemoMs
    | .ok (.failed _ _ _) => some failureMemoMs
    | .error _ => none

/-- The process: the clock, the promises remembered and the calls made. -/
abbrev RefreshState := State String (StoredSession numbers) (RefreshOutcome numbers)

/-- A call to the token endpoint. -/
abbrev RefreshCall := Call (StoredSession numbers) (RefreshOutcome numbers)

/-- A request refreshes, a call ends, or time passes. -/
abbrev RefreshAction := Action (StoredSession numbers) (RefreshOutcome numbers)

/-- A transition of the process. -/
abbrev RefreshTransition := Transition (RefreshState numbers) (RefreshAction numbers)

/-- `refreshSession`: the promise that the request is given, and the process after it. -/
def refreshSession (session : StoredSession numbers) (s : RefreshState numbers) :
    Nat × RefreshState numbers :=
  request (refreshPolicy numbers) session s

/-- A call may end as `tokenCall` does on one of the answers. -/
def Ended (Answers : TokenAnswer → Prop) (session : StoredSession numbers) (now : Nat)
    (outcome : RefreshOutcome numbers) : Prop :=
  ∃ answer, Answers answer ∧ outcome = tokenCall accountsApiUrl (some session) now answer

/-- The steps of the process, where the token endpoint gives these answers and the event loop runs a
due timer at most `lateness` milliseconds late. -/
def RefreshStep (Answers : TokenAnswer → Prop) (lateness : Nat) :
    RefreshState numbers → RefreshAction numbers → RefreshState numbers → Prop :=
  Step (refreshPolicy numbers) (Ended numbers accountsApiUrl Answers) (tokenTimeoutMs + lateness)

end Refresh

/-! ## What refreshing should be -/

section Claims

variable {numbers : JsNumbers} {accountsApiUrl : String}

/-- The outcome is a success. -/
def succeeded : RefreshOutcome numbers → Bool
  | .ok (.ok _) => true
  | _ => false

/-- A run refreshes once at a time: one call of a refresh token is under way; a request joins the
call under way, and a call has one outcome for all; after a success the token is left alone for a
minute; and a failure is answered from memory for two seconds at most. -/
structure RefreshesOnce (tr : List (RefreshTransition numbers)) (t : RefreshState numbers) :
    Prop where
  inFlight : ∀ (i j : Nat) (call call' : RefreshCall numbers), t.calls[i]? = some call →
    t.calls[j]? = some call' → call.progress = .pending → call'.progress = .pending →
    call.arg.rt = call'.arg.rt → i = j
  joined : ∀ e ∈ tr, ∀ (session : StoredSession numbers) (promise i : Nat)
    (call : RefreshCall numbers), e.label = .request session promise → e.pre.calls[i]? = some call →
    call.progress = .pending → call.arg.rt = session.rt → promise = i
  sameResult : ∀ e ∈ tr, ∀ (i : Nat) (call : RefreshCall numbers) (outcome : RefreshOutcome numbers)
    (time : Nat), e.pre.calls[i]? = some call → call.progress = .settled outcome time →
    t.calls[i]? = some call
  spared : ∀ (i j : Nat) (call call' : RefreshCall numbers) (outcome : RefreshOutcome numbers)
    (time : Nat), i < j → t.calls[i]? = some call → t.calls[j]? = some call' →
    call.arg.rt = call'.arg.rt → call.progress = .settled outcome time → succeeded outcome = true →
    time + refreshMemoMs ≤ call'.started
  brief : ∀ e ∈ tr, ∀ (session : StoredSession numbers) (promise : Nat) (call : RefreshCall numbers)
    (outcome : RefreshOutcome numbers) (time : Nat), e.label = .request session promise →
    e.pre.calls[promise]? = some call → call.progress = .settled outcome time →
    succeeded outcome = false → e.pre.now ≤ time + failureMemoMs

variable {Answers : TokenAnswer → Prop} {lateness : Nat} {s t : RefreshState numbers}
  {tr : List (RefreshTransition numbers)}

/-! ## Runs -/

/-- The invariant of the table, which no call outlasts. -/
def RefreshInv (lateness : Nat) (s : RefreshState numbers) : Prop :=
  Inv (refreshPolicy numbers) (tokenTimeoutMs + lateness) s

theorem timeout_le (hlate : lateness ≤ 100000) :
    tokenTimeoutMs + lateness ≤ (refreshPolicy numbers).pendingFor := by
  change tokenTimeoutMs + lateness ≤ 2 * refreshMemoMs
  rw [tokenTimeoutMs, refreshMemoMs]
  omega

/-- Every outcome so far came from one of the answers. -/
def OutcomesOf (accountsApiUrl : String) (Answers : TokenAnswer → Prop) (s : RefreshState numbers) :
    Prop :=
  ∀ (i : Nat) (call : RefreshCall numbers) (outcome : RefreshOutcome numbers) (time : Nat),
    s.calls[i]? = some call → call.progress = .settled outcome time →
    Ended numbers accountsApiUrl Answers call.arg time outcome

theorem OutcomesOf.step {s' : RefreshState numbers} {action : RefreshAction numbers}
    (h : OutcomesOf accountsApiUrl Answers s)
    (hstep : RefreshStep numbers accountsApiUrl Answers lateness s action s') :
    OutcomesOf accountsApiUrl Answers s' := by
  intro i call outcome time hcall hsettled
  cases hstep with
  | tick _ => exact h i call outcome time hcall hsettled
  | @request arg promise _ hrequest =>
      rw [SingleFlight.request] at hrequest
      split at hrequest
      · cases hrequest
        exact h i call outcome time hcall hsettled
      · cases hrequest
        -- The new call is under way.
        rcases Nat.lt_or_ge i s.calls.length with hi | hi
        · exact h i call outcome time ((List.getElem?_append_left hi).symm.trans hcall) hsettled
        · rw [List.getElem?_append_right hi, List.getElem?_singleton] at hcall
          split at hcall
          · cases hcall
            cases hsettled
          · cases hcall
  | @settle promise call' outcome' hcall' hpending hpossible =>
      by_cases hi : i = promise
      · subst hi
        have hlength := (List.getElem?_eq_some_iff.mp hcall').1
        cases (List.getElem?_set_self hlength).symm.trans hcall
        cases hsettled
        exact hpossible
      · exact h i call outcome time ((List.getElem?_set_ne (Ne.symm hi)).symm.trans hcall) hsettled

/-- A run keeps the invariant, and its outcomes come from the answers. -/
theorem refreshInv_run (hlate : lateness ≤ 100000) (hinv : RefreshInv lateness s)
    (hout : OutcomesOf accountsApiUrl Answers s)
    (hrun : Run (RefreshStep numbers accountsApiUrl Answers lateness) s tr t) :
    RefreshInv lateness t ∧ OutcomesOf accountsApiUrl Answers t := by
  refine Run.invariant (fun s => RefreshInv lateness s ∧ OutcomesOf accountsApiUrl Answers s) ?_
    hrun
    ⟨hinv, hout⟩
  rintro s action s' ⟨hinv, hout⟩ hstep
  exact ⟨Inv.step hinv (timeout_le hlate) hstep, hout.step hstep⟩

/-- A call that was settled along a run stays as it is. -/
theorem settled_run {i : Nat} {call : RefreshCall numbers} {outcome : RefreshOutcome numbers}
    {time : Nat} (hcall : s.calls[i]? = some call)
    (hsettled : call.progress = .settled outcome time)
    (hrun : Run (RefreshStep numbers accountsApiUrl Answers lateness) s tr t) :
    t.calls[i]? = some call :=
  Run.invariant (fun s => s.calls[i]? = some call)
    (fun _ _ _ hcall hstep => settled_step hcall hsettled hstep) hrun hcall

/-- The outcome of an answer that can be read sets the deadline again. -/
theorem keptFor_of_plain (hplain : ∀ answer, Answers answer → answer.plain = true)
    {session : StoredSession numbers} {now : Nat} {outcome : RefreshOutcome numbers}
    (h : Ended numbers accountsApiUrl Answers session now outcome) :
    (refreshPolicy numbers).keptFor outcome =
      some (if succeeded outcome then refreshMemoMs else failureMemoMs) := by
  obtain ⟨answer, hanswer, rfl⟩ := h
  cases hresult : tokenCall accountsApiUrl (some session) now answer with
  | error error =>
      rw [tokenCall_eq_error_iff, hplain answer hanswer] at hresult
      cases hresult
  | ok result =>
      cases result with
      | ok session => rfl
      | failed status error description => rfl

/-- **A run whose answers can all be read refreshes once at a time.** -/
theorem refreshesOnce_of_plain (hlate : lateness ≤ 100000)
    (hplain : ∀ answer, Answers answer → answer.plain = true) {now : Nat}
    (hrun : Run (RefreshStep numbers accountsApiUrl Answers lateness) (.empty now) tr t) :
    RefreshesOnce tr t := by
  have hempty : OutcomesOf accountsApiUrl Answers (.empty now : RefreshState numbers) := by
    intro i call outcome time hcall
    cases hcall
  have hlong : tokenTimeoutMs + lateness ≤ (refreshPolicy numbers).pendingFor := timeout_le hlate
  obtain ⟨hinv, _⟩ := refreshInv_run hlate (Inv.empty now) hempty hrun
  -- What holds where a transition of the run starts.
  have hat : ∀ e ∈ tr, ∃ rest, RefreshInv lateness e.pre ∧
      OutcomesOf accountsApiUrl Answers e.pre ∧
      RefreshStep numbers accountsApiUrl Answers lateness e.pre e.label e.post ∧
      Run (RefreshStep numbers accountsApiUrl Answers lateness) e.pre (e :: rest) t := by
    intro e he
    obtain ⟨before, rest, rfl⟩ := List.append_of_mem he
    obtain ⟨hbefore, hstep, hrest⟩ := hrun.split_mem
    obtain ⟨hpre, hout⟩ := refreshInv_run hlate (Inv.empty now) hempty hbefore
    exact ⟨rest, hpre, hout, hstep, .cons hstep hrest⟩
  refine ⟨fun i j call call' hi hj hp hp' hkey => ?_,
    fun e he session promise i call hlabel hi hp hkey => ?_,
    fun e he i call outcome time hi hsettled => ?_,
    fun i j call call' outcome time hij hi hj hkey hsettled hok => ?_,
    fun e he session promise call outcome time hlabel hcall hsettled hfailed => ?_⟩
  · exact Inv.single hinv hlong hi hj hp hp' hkey
  · obtain ⟨_, hpre, _, hstep, _⟩ := hat e he
    rw [hlabel] at hstep
    cases hstep with
    | request hrequest => exact Inv.joins hpre hlong hrequest hi hp hkey
  · obtain ⟨rest, _, _, _, hrest⟩ := hat e he
    exact settled_run hi hsettled hrest
  · have hlate := Inv.apart hinv i j call call' hij hi hj hkey
    have hkept : (refreshPolicy numbers).keptFor outcome = some refreshMemoMs := by
      cases outcome with
      | error error => cases hok
      | ok result =>
          cases result with
          | ok session => rfl
          | failed status error description => cases hok
    rw [deadline_settled hsettled hkept] at hlate
    exact Nat.le_of_lt hlate
  · obtain ⟨_, hpre, hout, hstep, _⟩ := hat e he
    have hkept := keptFor_of_plain hplain (hout promise call outcome time hcall hsettled)
    rw [hfailed] at hkept
    rw [hlabel] at hstep
    cases hstep with
    | request hrequest =>
        have hnow := Inv.remembered hpre hrequest hcall
        rw [deadline_settled hsettled hkept] at hnow
        exact hnow

/-! ## An answer that cannot be read -/

/-- A session to refresh. -/
def sampleSession (numbers : JsNumbers) : StoredSession numbers where
  accessToken := "eyJ.access.sig"
  rt := "sar_old"
  ae := numbers.ofNat 0
  re := numbers.ofNat 86400000
  scope := .string "profile"
  acct := ⟨"nln", .carbon, "c:ada", "Ada", none, none⟩

/-- **An answer that cannot be read is answered from memory long after it came**: the promise was
rejected, and its deadline is the one it was made with. -/
theorem late_answer_of_not_plain (numbers : JsNumbers) (accountsApiUrl : String) (lateness : Nat)
    {answer : TokenAnswer} (hanswer : Answers answer) (hplain : answer.plain = false) :
    ∃ tr t, Run (RefreshStep numbers accountsApiUrl Answers lateness) (.empty 0) tr t ∧
      ¬ RefreshesOnce tr t := by
  let session := sampleSession numbers
  let made : RefreshState numbers := (refreshSession numbers session (.empty 0)).2
  let rejected := settle (refreshPolicy numbers) 0 ⟨session, 0, .pending⟩ (.error .mk) made
  let later : RefreshState numbers := { rejected with now := rejected.now + 2001 }
  have hrequest : RefreshStep numbers accountsApiUrl Answers lateness (.empty 0)
      (.request session 0) made := .request rfl
  have hsettle : RefreshStep numbers accountsApiUrl Answers lateness made
      (.settle 0 (.error .mk)) rejected :=
    .settle rfl rfl ⟨answer, hanswer, (tokenCall_eq_error_iff.mpr hplain).symm⟩
  have htick : RefreshStep numbers accountsApiUrl Answers lateness rejected (.tick 2001) later := by
    refine .tick fun call hcall hpending => ?_
    cases List.mem_singleton.mp hcall
    cases hpending
  have hmemo : later.prune.memos ((refreshPolicy numbers).key session) = 
      some ⟨0, 0 + 2 * refreshMemoMs⟩ :=
    prune_eq_some.mpr ⟨rfl, show 0 + 2001 ≤ 0 + 2 * 60000 by omega⟩
  have hagain : RefreshStep numbers accountsApiUrl Answers lateness later (.request session 0)
      later.prune := .request (by rw [SingleFlight.request, hmemo])
  have hcall : later.calls[0]? = some ⟨session, 0, .settled (.error .mk) 0⟩ := rfl
  have hnow : later.now = 0 + 2001 := rfl
  refine ⟨_, _, .cons hrequest (.cons hsettle (.cons htick (.single hagain))), fun h => ?_⟩
  have hbrief : later.now ≤ 0 + failureMemoMs :=
    h.brief ⟨later, .request session 0, later.prune⟩ (by simp) session 0 _ (.error .mk) 0 rfl hcall
      rfl rfl
  rw [hnow, failureMemoMs] at hbrief
  omega

/-- **Every run over these answers refreshes once at a time exactly when each of them can be
read.** -/
theorem refreshesOnce_iff_plain (numbers : JsNumbers) (accountsApiUrl : String) (lateness : Nat)
    (hlate : lateness ≤ 100000) (Answers : TokenAnswer → Prop) :
    (∀ now tr t, Run (RefreshStep numbers accountsApiUrl Answers lateness) (.empty now) tr t →
      RefreshesOnce tr t) ↔ ∀ answer, Answers answer → answer.plain = true := by
  constructor
  · intro h answer hanswer
    by_contra hplain
    obtain ⟨tr, t, hrun, hnot⟩ := late_answer_of_not_plain numbers accountsApiUrl lateness hanswer
      (by simpa using hplain)
    exact hnot (h 0 tr t hrun)
  · intro h now tr t hrun
    exact refreshesOnce_of_plain hlate h hrun

end Claims

/-! ## Sample answers -/

/-- Whole numbers, as the engine computes them here. -/
def sampleNumbers : JsNumbers where
  Number := Int
  ofNat := Int.ofNat
  add := (· + ·)
  sub := (· - ·)
  mul := (· * ·)
  max := max
  lt := fun a b => decide (a < b)
  isFinite := fun _ => true
  toNumber
    | .int value => value
    | _ => 0
  dateParse := fun _ => 0

/-- Tokens for half an hour, as the endpoint answers them. -/
def sampleTokens : TokenAnswer :=
  .answered 200 (some (.object [("access_token", .string "eyJ.access-2.sig"),
    ("refresh_token", .string "sar_new"), ("expires_in", .int 1800)]))

/-- An endpoint that answers tokens. -/
theorem refreshesOnce_iff_plain_tokens : sampleTokens.plain = true ∧ ∀ now tr t,
    Run (RefreshStep sampleNumbers "https://accounts.example" (· = sampleTokens) 0)
    (.empty now) tr t →
      RefreshesOnce tr t := by
  have hplain : sampleTokens.plain = true := by decide
  refine ⟨hplain, (refreshesOnce_iff_plain sampleNumbers "https://accounts.example" 0 (by decide)
    (· = sampleTokens)).mpr ?_⟩
  rintro answer rfl
  exact hplain

/-- An endpoint whose body is null: the failure is answered from memory two seconds later. -/
theorem not_forall_refreshesOnce : ¬ ∀ now tr t,
    Run (RefreshStep sampleNumbers "https://accounts.example"
      (· = TokenAnswer.answered 200 (some .null)) 0) (.empty now) tr t → RefreshesOnce tr t := by
  intro h
  obtain ⟨tr, t, hrun, hnot⟩ := @late_answer_of_not_plain
    (· = TokenAnswer.answered 200 (some .null)) sampleNumbers "https://accounts.example" 0 _ rfl rfl
  exact hnot (h 0 tr t hrun)

end Waveform.Web
