import Waveform.Library.Dialogue
import Waveform.Library.LabelledRun
import Mathlib.Logic.Function.Basic

/-!
# Programs that rely on each other

Any number of members run programs over one shared state. A step starts a member with a command,
lets one exchange a query for an answer, drops one while it waits, or is taken by the outside. What
an exchange does to the state, and how it was served, is a relation.

A member relies on the others: between two of its exchanges the state changes only as a relation
allows. `KeepsTo` says of a program that it asks only what it may, and ends as a postcondition says,
whatever the others do in between.

- `KeepsTo.after`, `KeepsTo.bind`, `KeepsTo.andThen`: what the others do, and sequences.
- `Community.run_served`: where every step of a run is one that the others may rely on, what is left
  of each program keeps to it, for the members that were served in a given way only.
- `Community.Reliable.run`: when each step of a member with such a program is one that the others
  may rely on, every step of a run is.
- `AsksAtMost.bind`, `AsksAtMost.andThen`, `Community.run_asks`: how often a member asks.
-/

set_option autoImplicit false

universe u v w x y z

namespace Dialogue

open LabelledRun

variable {Query : Type u} {Answer : Query → Type u} {α β : Type v} {State : Type w}
  {Command : Type x}
  {Service : Type y} {Pid : Type z}

/-! ## Programs -/

section Programs

variable (rely : State → State → Prop) (may : State → Query → Prop)
  (serves : State → Service → Exchange Query Answer → State → Prop)

/-- The program asks what it may and ends as the postcondition says, whatever the others do that it
relies on. -/
def KeepsTo (post : State → α → Prop) : Dialogue Query Answer α → State → Prop
  | done a, s => ∀ s', rely s s' → post s' a
  | ask q next, s => ∀ s', rely s s' → may s' q ∧
      ∀ service answer s'', serves s' service ⟨q, answer⟩ s'' → KeepsTo post (next answer) s''

variable {rely may serves} {post post' : State → α → Prop} {s s' : State}

/-- What the others do leaves a program as it is. -/
theorem KeepsTo.after (htrans : ∀ a b c : State, rely a b → rely b c → rely a c)
    {p : Dialogue Query Answer α}
    (h : KeepsTo rely may serves post p s) (hrely : rely s s') :
    KeepsTo rely may serves post p s' := by
  cases p with
  | done a => exact fun s'' h' => h s'' (htrans _ _ _ hrely h')
  | ask q next => exact fun s'' h' => h s'' (htrans _ _ _ hrely h')

/-- Fewer ways of being served. -/
theorem KeepsTo.restrict {serves' : State → Service → Exchange Query Answer → State → Prop}
    {p : Dialogue Query Answer α}
    (h : KeepsTo rely may serves post p s) (hserves : ∀ s service e s', serves' s service e s' →
      serves s service e s') :
    KeepsTo rely may serves' post p s := by
  induction p generalizing s with
  | done a => exact h
  | ask q next ih =>
      exact fun s' hrely => ⟨(h s' hrely).1, fun service answer s'' hserves' =>
        ih answer ((h s' hrely).2 service answer s'' (hserves _ _ _ _ hserves'))⟩

/-- What is true and stays so is still true at the end. -/
theorem KeepsTo.frame {F : State → Prop} {p : Dialogue Query Answer α}
    (hrely : ∀ s s', rely s s' → F s → F s')
    (hserves : ∀ s s' service e s'', rely s s' → may s' e.query → serves s' service e s'' →
      F s' → F s'')
    (hF : ∀ s', rely s s' → F s') (h : KeepsTo rely may serves post p s) :
    KeepsTo rely may serves (fun s a => F s ∧ post s a) p s := by
  induction p generalizing s with
  | done a => exact fun s' hs' => ⟨hF s' hs', h s' hs'⟩
  | ask q next ih =>
      intro s' hs'
      obtain ⟨hmay, hnext⟩ := h s' hs'
      refine ⟨hmay, fun service answer t hserved => ih answer (fun t' ht' => ?_)
        (hnext service answer t hserved)⟩
      exact hrely _ _ ht' (hserves _ _ _ _ _ hs' hmay hserved (hF s' hs'))

/-- The rule of sequences: where the first part ends, the second part starts. -/
theorem KeepsTo.bind {mid : State → α → Prop} {post : State → β → Prop}
    {p : Dialogue Query Answer α}
    {f : α → Dialogue Query Answer β} (hp : KeepsTo rely may serves mid p s)
    (hf : ∀ s a, (∀ s', rely s s' → mid s' a) → KeepsTo rely may serves post (f a) s) :
    KeepsTo rely may serves post (p.bind f) s := by
  induction p generalizing s with
  | done a => exact hf s a hp
  | ask q next ih =>
      exact fun s' hrely => ⟨(hp s' hrely).1, fun service answer s'' hserves =>
        ih answer ((hp s' hrely).2 service answer s'' hserves)⟩

/-- The rule of sequences that an error ends. -/
theorem KeepsTo.andThen {ε : Type v} {mid : State → Except ε α → Prop}
    {post : State → Except ε β → Prop}
    {p : Dialogue Query Answer (Except ε α)} {f : α → Dialogue Query Answer (Except ε β)}
    (hp : KeepsTo rely may serves mid p s)
    (herror : ∀ s error, mid s (.error error) → post s (.error error))
    (hf : ∀ s a, (∀ s', rely s s' → mid s' (.ok a)) → KeepsTo rely may serves post (f a) s) :
    KeepsTo rely may serves post (p.andThen f) s := by
  refine hp.bind fun s result hmid => ?_
  cases result with
  | error error => exact fun s' hrely => herror s' error (hmid s' hrely)
  | ok a => exact hf s a hmid

end Programs

section Counting

/-- The program asks so many times at most, whatever it is answered. -/
def AsksAtMost : Dialogue Query Answer α → Nat → Prop
  | done _, _ => True
  | ask _ next, n => ∃ m, n = m + 1 ∧ ∀ answer, AsksAtMost (next answer) m

theorem AsksAtMost.mono {p : Dialogue Query Answer α} {n m : Nat} (h : AsksAtMost p n)
    (hle : n ≤ m) : AsksAtMost p m := by
  induction p generalizing n m with
  | done a => trivial
  | ask q next ih =>
      obtain ⟨k, rfl, hnext⟩ := h
      obtain ⟨l, rfl⟩ := Nat.exists_eq_add_of_le hle
      exact ⟨k + l, by omega, fun answer => ih answer (hnext answer) (Nat.le_add_right k l)⟩

/-- What the parts of a sequence ask adds up. -/
theorem AsksAtMost.bind {p : Dialogue Query Answer α} {f : α → Dialogue Query Answer β} {n m : Nat}
    (hp : AsksAtMost p n) (hf : ∀ a, AsksAtMost (f a) m) : AsksAtMost (p.bind f) (n + m) := by
  induction p generalizing n with
  | done a => exact (hf a).mono (Nat.le_add_left m n)
  | ask q next ih =>
      obtain ⟨k, rfl, hnext⟩ := hp
      exact ⟨k + m, by omega, fun answer => ih answer (hnext answer)⟩

theorem AsksAtMost.andThen {ε : Type v} {p : Dialogue Query Answer (Except ε α)}
    {f : α → Dialogue Query Answer (Except ε β)} {n m : Nat} (hp : AsksAtMost p n)
    (hf : ∀ a, AsksAtMost (f a) m) :
    AsksAtMost (p.andThen f) (n + m) := by
  refine hp.bind fun result => ?_
  cases result with
  | error error => trivial
  | ok a => exact hf a

end Counting

/-! ## The community -/

/-- What the members run and what their steps do: the program of a command and the state it starts
in, how a query is served, what a member that is dropped leaves behind and ends with, and the steps
of the outside. -/
structure Community (Query : Type u) (Answer : Query → Type u) (α : Type v) (State : Type w)
    (Command : Type x) (Service : Type y) where
  programOf : Command → Dialogue Query Answer α
  starts : State → Command → State
  serves : State → Service → Exchange Query Answer → State → Prop
  drops : State → Query → State
  dropped : α
  outside : State → State → Prop

/-- A member: its command, what it has exchanged, what is left of its program, and whether it was
dropped. -/
structure Member (Query : Type u) (Answer : Query → Type u) (α : Type v) (Command : Type x)
    (Service : Type y) where
  command : Command
  exchanges : List (Service × Exchange Query Answer)
  left : Dialogue Query Answer α
  wasDropped : Bool

/-- The shared state and the members that have been started. -/
structure Members (Query : Type u) (Answer : Query → Type u) (α : Type v) (State : Type w)
    (Command : Type x) (Service : Type y) (Pid : Type z) where
  shared : State
  member : Pid → Option (Member Query Answer α Command Service)

/-- What happens. -/
inductive CommunityAction (Query : Type u) (Answer : Query → Type u) (Command : Type x)
    (Service : Type y)
    (Pid : Type z) where
  | start (pid : Pid) (command : Command)
  | exchange (pid : Pid) (service : Service) (exchange : Exchange Query Answer)
  | drop (pid : Pid)
  | outside

section Community

variable [DecidableEq Pid] (C : Community Query Answer α State Command Service)

/-- The members after one of them has moved. -/
def Members.withMember (s : Members Query Answer α State Command Service Pid) (pid : Pid)
    (m : Member Query Answer α Command Service) (shared : State) :
    Members Query Answer α State Command Service Pid :=
  ⟨shared, Function.update s.member pid (some m)⟩

/-- The steps. -/
inductive Community.Step : Members Query Answer α State Command Service Pid →
    CommunityAction Query Answer Command Service Pid →
    Members Query Answer α State Command Service Pid → Prop where
  | start {s : Members Query Answer α State Command Service Pid} {pid : Pid} {command : Command}
      (hfree : s.member pid = none) :
      Step s (.start pid command)
        (s.withMember pid ⟨command, [], C.programOf command, false⟩ (C.starts s.shared command))
  | exchange {s : Members Query Answer α State Command Service Pid} {pid : Pid}
      {m : Member Query Answer α Command Service} {service : Service} {q : Query}
      {next : Answer q → Dialogue Query Answer α} {answer : Answer q} {shared : State}
      (hmember : s.member pid = some m) (hleft : m.left = .ask q next)
      (hserves : C.serves s.shared service ⟨q, answer⟩ shared) :
      Step s (.exchange pid service ⟨q, answer⟩)
        (s.withMember pid { m with exchanges :=
          m.exchanges ++ [(service, ⟨q, answer⟩)], left := next answer } shared)
  | drop {s : Members Query Answer α State Command Service Pid} {pid : Pid}
      {m : Member Query Answer α Command Service} {q : Query}
      {next : Answer q → Dialogue Query Answer α}
      (hmember : s.member pid = some m) (hleft : m.left = .ask q next) :
      Step s (.drop pid)
        (s.withMember pid { m with left := .done C.dropped, wasDropped := true }
          (C.drops s.shared q))
  | outside {s : Members Query Answer α State Command Service Pid} {shared : State}
      (houtside : C.outside s.shared shared) : Step s .outside { s with shared := shared }

/-! ## Runs -/

section Runs

variable {C} {rely : State → State → Prop} {may : State → Query → Prop} {Served : Service → Prop}
  {post : Command → State → α → Prop} {s s' t : Members Query Answer α State Command Service Pid}
  {action : CommunityAction Query Answer Command Service Pid}
  {tr : List (Transition (Members Query Answer α State Command Service Pid)
    (CommunityAction Query Answer Command Service Pid))}

/-- A member that moves is the one that is found; the others are as they were. -/
theorem Members.withMember_cases {pid other : Pid}
    {m m' : Member Query Answer α Command Service} {shared : State}
    (h : (s.withMember pid m shared).member other = some m') :
    other = pid ∧ m' = m ∨ other ≠ pid ∧ s.member other = some m' := by
  change Function.update s.member pid (some m) other = some m' at h
  by_cases hother : other = pid
  · subst hother
    rw [Function.update_self] at h
    exact .inl ⟨rfl, (Option.some.inj h).symm⟩
  · rw [Function.update_of_ne hother] at h
    exact .inr ⟨hother, h⟩

theorem Members.withMember_self {pid : Pid} {m : Member Query Answer α Command Service}
    {shared : State} :
    (s.withMember pid m shared).member pid = some m := Function.update_self ..

/-- What is left of each program that was served in a given way keeps to its postcondition. -/
def Community.KeepsServed (C : Community Query Answer α State Command Service)
    (rely : State → State → Prop)
    (may : State → Query → Prop) (Served : Service → Prop) (post : Command → State → α → Prop)
    (s : Members Query Answer α State Command Service Pid) : Prop :=
  ∀ pid m, s.member pid = some m → m.wasDropped = false → (∀ x ∈ m.exchanges, Served x.1) →
    KeepsTo rely may (fun s service e s' => Served service ∧ C.serves s service e s')
    (post m.command) m.left s.shared

/-- **A step that the others may rely on.** -/
theorem Community.KeepsServed.step (htrans : ∀ a b c : State, rely a b → rely b c → rely a c)
    (hself : ∀ a b : State, rely a b → rely a a)
    (hprogram : ∀ command s, rely s (C.starts s command) →
      KeepsTo rely may (fun s service e s' => Served service ∧ C.serves s service e s')
      (post command)
        (C.programOf command) (C.starts s command))
    (h : C.KeepsServed rely may Served post s) (hstep : C.Step s action s')
      (hrely : rely s.shared s'.shared) :
    C.KeepsServed rely may Served post s' := by
  intro pid m hm hdropped hserved
  -- A member that did not move relies on the step.
  have hothers : s.member pid = some m → KeepsTo rely may _ (post m.command) m.left s'.shared :=
    fun hbefore => KeepsTo.after htrans (h pid m hbefore hdropped hserved) hrely
  cases hstep with
  | start hfree =>
      rcases Members.withMember_cases hm with ⟨rfl, rfl⟩ | ⟨_, hm⟩
      · exact hprogram _ _ hrely
      · exact hothers hm
  | exchange hmember hleft hserves =>
      rcases Members.withMember_cases hm with ⟨rfl, rfl⟩ | ⟨_, hm⟩
      · have hbefore := h pid _ hmember hdropped fun x hx => hserved x (List.mem_append_left _ hx)
        rw [hleft] at hbefore
        exact (hbefore _ (hself _ _ hrely)).2 _ _ _
          ⟨hserved _ (List.mem_append_right _ List.mem_cons_self), hserves⟩
      · exact hothers hm
  | drop hmember hleft =>
      rcases Members.withMember_cases hm with ⟨rfl, rfl⟩ | ⟨_, hm⟩
      · cases hdropped
      · exact hothers hm
  | outside houtside => exact hothers hm

/-- **What is left of each program keeps to it**, in a run whose steps may all be relied on. -/
theorem Community.run_served (htrans : ∀ a b c : State, rely a b → rely b c → rely a c)
    (hself : ∀ a b : State, rely a b → rely a a)
    (hprogram : ∀ command s, rely s (C.starts s command) →
      KeepsTo rely may (fun s service e s' => Served service ∧ C.serves s service e s')
      (post command)
        (C.programOf command) (C.starts s command))
    (hrun : Run C.Step s tr t) (hsteps : ∀ e ∈ tr, rely e.pre.shared e.post.shared)
    (h : C.KeepsServed rely may Served post s) : C.KeepsServed rely may Served post t := by
  induction hrun with
  | nil s => exact h
  | cons hstep _ ih =>
      obtain ⟨hrely, hsteps⟩ := List.forall_mem_cons.mp hsteps
      exact ih hsteps (h.step htrans hself hprogram hstep hrely)

/-- Each step keeps the state good, and is one that the others may rely on, where a member asks what
it may. -/
structure Community.Reliable (C : Community Query Answer α State Command Service)
    (Good : State → Prop)
    (rely : State → State → Prop) (may : State → Query → Prop) : Prop where
  refl : ∀ {s : State}, Good s → rely s s
  trans : ∀ {a b c : State}, rely a b → rely b c → rely a c
  good : ∀ {s s' : State}, rely s s' → Good s ∧ Good s'
  starts : ∀ {s : State} {command : Command}, Good s → rely s (C.starts s command)
  serves : ∀ {s s' : State} {service : Service} {e : Exchange Query Answer}, Good s →
    may s e.query →
    C.serves s service e s' → rely s s'
  drops : ∀ {s : State} {q : Query}, Good s → may s q → rely s (C.drops s q)
  outside : ∀ {s s' : State}, Good s → C.outside s s' → rely s s'

theorem Community.Reliable.step {Good : State → Prop} (hreliable : C.Reliable Good rely may)
    (hgood : Good s.shared)
    (h : C.KeepsServed rely may (fun _ => True) post s) (hdropped : ∀ pid m, s.member pid = some m →
      m.wasDropped = true → m.left = .done C.dropped) (hstep : C.Step s action s') :
    rely s.shared s'.shared := by
  -- A member that still asks was not dropped, so its program keeps to what it may ask.
  have hmay : ∀ {pid m q next}, s.member pid = some m → m.left = .ask q next → may s.shared q := by
    intro pid m q next hmember hleft
    cases hwas : m.wasDropped with
    | true =>
        have hdone := hdropped pid m hmember hwas
        rw [hleft] at hdone
        cases hdone
    | false =>
        have hkeeps := h pid m hmember hwas fun _ _ => trivial
        rw [hleft] at hkeeps
        exact (hkeeps _ (hreliable.refl hgood)).1
  cases hstep with
  | start hfree => exact hreliable.starts hgood
  | exchange hmember hleft hserves => exact hreliable.serves hgood (hmay hmember hleft) hserves
  | drop hmember hleft => exact hreliable.drops hgood (hmay hmember hleft)
  | outside houtside => exact hreliable.outside hgood houtside

/-- A member that was dropped has ended so. -/
theorem Community.Step.dropped (h : ∀ pid m, s.member pid = some m → m.wasDropped = true →
    m.left = .done C.dropped)
    (hstep : C.Step s action s') : ∀ pid m, s'.member pid = some m → m.wasDropped = true →
      m.left = .done C.dropped := by
  intro pid m hm hwas
  cases hstep with
  | start hfree =>
      rcases Members.withMember_cases hm with ⟨rfl, rfl⟩ | ⟨_, hm⟩
      · cases hwas
      · exact h pid m hm hwas
  | exchange hmember hleft hserves =>
      rcases Members.withMember_cases hm with ⟨rfl, rfl⟩ | ⟨_, hm⟩
      · have hdone := h pid _ hmember hwas
        rw [hleft] at hdone
        cases hdone
      · exact h pid m hm hwas
  | drop hmember hleft =>
      rcases Members.withMember_cases hm with ⟨rfl, rfl⟩ | ⟨_, hm⟩
      · rfl
      · exact h pid m hm hwas
  | outside houtside => exact h pid m hm hwas

/-- **The rule.** The programs keep to their postconditions, and every step is one that may be
relied on. -/
theorem Community.Reliable.run {Good : State → Prop} (hreliable : C.Reliable Good rely may)
    (hprogram : ∀ command s, rely s (C.starts s command) →
      KeepsTo rely may C.serves (post command) (C.programOf command) (C.starts s command))
    (hrun : Run C.Step s tr t) (hgood : Good s.shared) (hnone : ∀ pid, s.member pid = none) :
    (∀ e ∈ tr, rely e.pre.shared e.post.shared) ∧ rely s.shared t.shared ∧ Good t.shared ∧
      C.KeepsServed rely may (fun _ => True) post t ∧
        ∀ pid m, t.member pid = some m → m.wasDropped = true → m.left = .done C.dropped := by
  have hkeeps : C.KeepsServed rely may (fun _ => True) post s := by
    intro pid m hm
    cases (hnone pid).symm.trans hm
  have hwas : ∀ pid m, s.member pid = some m → m.wasDropped = true → m.left = .done C.dropped := by
    intro pid m hm
    cases (hnone pid).symm.trans hm
  -- The induction is on a run from any state that has these.
  clear hnone
  have htrans : ∀ a b c : State, rely a b → rely b c → rely a c := fun _ _ _ => hreliable.trans
  have hserved : ∀ command s, rely s (C.starts s command) →
      KeepsTo rely may (fun s service e s' => True ∧ C.serves s service e s') (post command)
      (C.programOf command)
        (C.starts s command) :=
    fun command s h => (hprogram command s h).restrict fun _ _ _ _ h => h.2
  induction hrun with
  | nil s => exact ⟨List.forall_mem_nil _, hreliable.refl hgood, hgood, hkeeps, hwas⟩
  | cons hstep _ ih =>
      have hrely := hreliable.step hgood hkeeps hwas hstep
      have hnext := hkeeps.step htrans (fun _ _ h => hreliable.refl (hreliable.good h).1)
        hserved hstep hrely
      obtain ⟨hsteps, hend, hrest⟩ := ih (hreliable.good hrely).2 hnext (hstep.dropped hwas)
      exact ⟨List.forall_mem_cons.mpr ⟨hrely, hsteps⟩, hreliable.trans hrely hend, hrest⟩

/-- What has been relied on is relied on to the end. -/
theorem Community.rely_end {x : State} (htrans : ∀ a b c : State, rely a b → rely b c → rely a c)
    (hrun : Run C.Step s tr t) (hsteps : ∀ e ∈ tr, rely e.pre.shared e.post.shared)
    (h : rely x s.shared) :
    rely x t.shared := by
  induction hrun with
  | nil s => exact h
  | cons hstep _ ih =>
      obtain ⟨hrely, hsteps⟩ := List.forall_mem_cons.mp hsteps
      exact ih hsteps (htrans _ _ _ h hrely)

/-- The state after a step is one that the end relies on. -/
theorem Community.rely_post (htrans : ∀ a b c : State, rely a b → rely b c → rely a c)
    (hself : ∀ a b : State, rely a b → rely b b) (hrun : Run C.Step s tr t)
    (hsteps : ∀ e ∈ tr, rely e.pre.shared e.post.shared) :
    ∀ e ∈ tr, rely e.post.shared t.shared := by
  induction hrun with
  | nil s => exact List.forall_mem_nil _
  | cons hstep hrest ih =>
      obtain ⟨hrely, hsteps⟩ := List.forall_mem_cons.mp hsteps
      exact List.forall_mem_cons.mpr ⟨Community.rely_end htrans hrest hsteps (hself _ _ hrely),
        ih hsteps⟩

/-- What a member has asked, and may still ask. -/
def Community.AsksWithin (n : Nat) (s : Members Query Answer α State Command Service Pid) : Prop :=
  ∀ pid m, s.member pid = some m → ∃ k, AsksAtMost m.left k ∧ m.exchanges.length + k ≤ n

/-- **A member asks no more often than its program.** -/
theorem Community.run_asks {n : Nat} (hprogram : ∀ command, AsksAtMost (C.programOf command) n)
    (hrun : Run C.Step s tr t) (hnone : ∀ pid, s.member pid = none) : Community.AsksWithin n t := by
  refine hrun.invariant (Community.AsksWithin n) (fun s action s' h hstep => ?_) fun pid m hm => ?_
  · intro pid m hm
    cases hstep with
    | start hfree =>
        rcases Members.withMember_cases hm with ⟨rfl, rfl⟩ | ⟨_, hm⟩
        · exact ⟨n, hprogram _, Nat.le_of_eq (Nat.zero_add n)⟩
        · exact h pid m hm
    | exchange hmember hleft hserves =>
        rcases Members.withMember_cases hm with ⟨rfl, rfl⟩ | ⟨_, hm⟩
        · obtain ⟨k, hasks, hle⟩ := h pid _ hmember
          rw [hleft] at hasks
          obtain ⟨l, rfl, hnext⟩ := hasks
          refine ⟨l, hnext _, ?_⟩
          rw [List.length_append]
          change _ + 1 + l ≤ n
          omega
        · exact h pid m hm
    | drop hmember hleft =>
        rcases Members.withMember_cases hm with ⟨rfl, rfl⟩ | ⟨_, hm⟩
        · obtain ⟨k, hasks, hle⟩ := h pid _ hmember
          exact ⟨k, trivial, hle⟩
        · exact h pid m hm
    | outside houtside => exact h pid m hm
  · cases (hnone pid).symm.trans hm

end Runs

end Community

end Dialogue
