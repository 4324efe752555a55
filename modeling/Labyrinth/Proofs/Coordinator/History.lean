import Labyrinth.Proofs.Coordinator.Advance
import Labyrinth.Proofs.Log
import Labyrinth.Time.Cancellation

/-!
# Histories of coordinators

A history is what a coordinator can go through with some host. The host is free: it answers each
call in any way and takes any time for it. Only naps and publications take their own course. What
holds of all histories holds whatever the host does, and whatever other coordinators do to it.
-/

namespace Labyrinth.Coordinator

/-! ## Calls -/

/-- A call to a host that has been answered. -/
structure Exchange where
  request : Request
  askedAt : Nat
  answer : Event
  answeredAt : Nat

/-- The host is asked, and not the coordinator's own clock, board or network. -/
def Request.isCall : Request → Bool
  | .join | .status | .send _ | .observe => true
  | .probe _ _ | .publish _ | .nap _ => false

namespace Exchange

variable (e : Exchange)

def isJoin : Bool :=
  match e.request with
  | .join => true
  | _ => false

def isStatus : Bool :=
  match e.request with
  | .status => true
  | _ => false

def isObservation : Bool :=
  match e.request with
  | .observe => true
  | _ => false

def token? : Option String :=
  match e.request with
  | .send token => some token
  | _ => none

def isSend : Bool := e.token?.isSome

/-- The role was let in. -/
def isAdmission : Bool :=
  match e.answer with
  | .joined (.ok ()) => true
  | _ => false

/-- The command was taken. -/
def isAccepted : Bool :=
  match e.answer with
  | .sent (.ok ()) => true
  | _ => false

def status? : Option Status :=
  match e.answer with
  | .status (.ok s) => some s
  | _ => none

def saysBegun : Bool := e.status?.any Status.hasBegun

def saysRunning : Bool := e.status?.any Status.isRunning

def saysStopped : Bool := e.status?.any fun s => !s.isRunning

def isFailure : Bool :=
  match e.answer with
  | .joined (.error _) | .status (.error _) | .sent (.error _) => true
  | _ => false

variable {e : Exchange}

theorem not_saysRunning_of_isFailure (h : e.isFailure) : ¬ e.saysRunning := by
  unfold isFailure at h
  unfold saysRunning status?
  split at h <;> simp_all

theorem not_isFailure_of_isAdmission (h : e.isAdmission) : ¬ e.isFailure := by
  unfold isAdmission at h
  unfold isFailure
  split at h <;> simp_all

theorem not_isFailure_of_saysStopped (h : e.saysStopped) : ¬ e.isFailure := by
  unfold saysStopped status? at h
  unfold isFailure
  split at h <;> simp_all

theorem not_isSend_of_isJoin (h : e.isJoin) : ¬ e.isSend := by
  obtain ⟨request, _, _, _⟩ := e
  cases request <;> simp_all [isJoin, isSend, token?]

theorem not_isSend_of_isStatus (h : e.isStatus) : ¬ e.isSend := by
  obtain ⟨request, _, _, _⟩ := e
  cases request <;> simp_all [isStatus, isSend, token?]

theorem not_isSend_of_isObservation (h : e.isObservation) : ¬ e.isSend := by
  obtain ⟨request, _, _, _⟩ := e
  cases request <;> simp_all [isObservation, isSend, token?]

theorem not_isStatus_of_isObservation (h : e.isObservation) : ¬ e.isStatus := by
  obtain ⟨request, _, _, _⟩ := e
  cases request <;> simp_all [isObservation, isStatus]

end Exchange

/-- The calls that sent a command. -/
def sends (log : List Exchange) : List Exchange := log.filter Exchange.isSend

/-- What was sent, in order. -/
def tokens (log : List Exchange) : List String := log.filterMap Exchange.token?

/-! ## What a coordinator goes through -/

/-- The answers that a request can get, with their times. -/
inductive Answers (x : Cancellation) (now : Nat) : Request → Event → Nat → Prop where
  | probe {t : Nat} (h : now ≤ t) (endpoint : Endpoint) (limit : Nat) (reachable : Bool) :
      Answers x now (.probe endpoint limit) (.probed reachable) t
  | join {t : Nat} (h : now ≤ t) (a : Except JoinError Unit) : Answers x now .join (.joined a) t
  | status {t : Nat} (h : now ≤ t) (a : Except String Status) :
      Answers x now .status (.status a) t
  | send {t : Nat} (h : now ≤ t) (token : String) (a : Except String Unit) :
      Answers x now (.send token) (.sent a) t
  | observe {t : Nat} (h : now ≤ t) (a : Option Observation) :
      Answers x now .observe (.observed a) t
  | publish (s : Snapshot) : Answers x now (.publish s) .published now
  | nap (span : Nat) :
      Answers x now (.nap span) (.woken (x.nap now span).rested) (x.nap now span).wokenAt

def moment (x : Cancellation) (now : Nat) : Moment := ⟨now, x.reached now⟩

def record (request : Request) (askedAt : Nat) (answer : Event) (answeredAt : Nat) :
    List Exchange :=
  if request.isCall then [⟨request, askedAt, answer, answeredAt⟩] else []

@[simp] theorem record_probe {endpoint : Endpoint} {limit now t : Nat} {e : Event} :
    record (.probe endpoint limit) now e t = [] := rfl

@[simp] theorem record_publish {s : Snapshot} {now t : Nat} {e : Event} :
    record (.publish s) now e t = [] := rfl

@[simp] theorem record_nap {span now t : Nat} {e : Event} : record (.nap span) now e t = [] := rfl

/-- A coordinator can have made the calls of the log, in order, when it last went on at `now`. A
call without an answer is not in the log: whatever its answer, it is in that of a longer history. -/
inductive History (b : Brief) (x : Cancellation) : List Exchange → Coordinator → Nat → Prop where
  | start (now : Nat) : History b x [] ((ofBrief b).advance (moment x now) .started) now
  | goOn {log : List Exchange} {c : Coordinator} {now t : Nat} {request : Request} {e : Event}
      (h : History b x log c now) (asked : c.request = some request)
      (answered : Answers x now request e t) :
      History b x (log ++ record request now e t) (c.advance (moment x t) e) t

/-- What a coordinator in a phase can be told, when, and what that adds to the log. -/
inductive Told (b : Brief) (x : Cancellation) (now : Nat) :
    Phase → Event → Nat → List Exchange → Prop where
  | probed {t : Nat} (h : now ≤ t) (limit : Nat) (endpoint : Endpoint) (rest : List Endpoint)
      (reachable : Bool) :
      Told b x now (.probing limit endpoint rest) (.probed reachable) t []
  | joined {t : Nat} (h : now ≤ t) (loop : Retry) (a : Except JoinError Unit) :
      Told b x now (.joining loop .answer) (.joined a) t [⟨.join, now, .joined a, t⟩]
  | joinPause (loop : Retry) :
      Told b x now (.joining loop .pause) (.woken (x.nap now loop.policy.interval).rested)
        (x.nap now loop.policy.interval).wokenAt []
  | polled {t : Nat} (h : now ≤ t) (loop : Retry) (a : Except String Status) :
      Told b x now (.awaitingBegin loop .answer) (.status a) t [⟨.status, now, .status a, t⟩]
  | beginPause (loop : Retry) :
      Told b x now (.awaitingBegin loop .pause) (.woken (x.nap now loop.policy.interval).rested)
        (x.nap now loop.policy.interval).wokenAt []
  | sent {t : Nat} (h : now ≤ t) (a : Action) (rest : List Action) (answer : Except String Unit) :
      Told b x now (.sending a rest) (.sent answer) t
        [⟨.send a.command.token, now, .sent answer, t⟩]
  | observed {t : Nat} (h : now ≤ t) (a : Action) (rest : List Action) (o : Option Observation) :
      Told b x now (.observing a rest) (.observed o) t [⟨.observe, now, .observed o, t⟩]
  | published (snapshot : Snapshot) (rest : List Action) :
      Told b x now (.publishing snapshot rest) .published now []
  | paced (rest : List Action) :
      Told b x now (.pacing rest) (.woken (x.nap now b.settings.pacing).rested)
        (x.nap now b.settings.pacing).wokenAt []
  | checked {t : Nat} (h : now ≤ t) (rest : List Action) (a : Except String Status) :
      Told b x now (.checking rest) (.status a) t [⟨.status, now, .status a, t⟩]
  | quit {t : Nat} (h : now ≤ t) (answer : Except String Unit) :
      Told b x now .quitting (.sent answer) t [⟨.send Command.quitToken, now, .sent answer, t⟩]
  | awaited {t : Nat} (h : now ≤ t) (loop : Retry) (a : Except String Status) :
      Told b x now (.awaitingEnd loop .answer) (.status a) t [⟨.status, now, .status a, t⟩]
  | endPause (loop : Retry) :
      Told b x now (.awaitingEnd loop .pause) (.woken (x.nap now loop.policy.interval).rested)
        (x.nap now loop.policy.interval).wokenAt []

theorem Answers.told {b : Brief} {x : Cancellation} {now t : Nat} {c : Coordinator}
    {request : Request} {e : Event} (h : Answers x now request e t) (hbrief : c.brief = b)
    (asked : c.request = some request) : Told b x now c.phase e t (record request now e t) := by
  subst hbrief
  unfold Coordinator.request at asked
  split at asked <;> cases asked <;> rename_i hphase <;> rw [hphase] <;> cases h
  all_goals constructor
  all_goals assumption

theorem request_send {c : Coordinator} {token : String} (h : c.request = some (.send token)) :
    (∃ a rest, c.phase = .sending a rest ∧ token = a.command.token) ∨
      c.phase = .quitting ∧ token = Command.quitToken := by
  unfold Coordinator.request at h
  split at h <;> cases h
  · exact .inl ⟨_, _, ‹_›, rfl⟩
  · exact .inr ⟨‹_›, rfl⟩

theorem eq_of_report? {c : Coordinator} {report : Report} (h : c.report? = some report) :
    report.role = c.brief.role ∧ report.commandsSent = c.commandsSent := by
  unfold report? at h
  split at h
  · obtain rfl := Option.some.inj h
    exact ⟨rfl, rfl⟩
  · cases h

/-! ## Logs that grow -/

section Logs

variable {log : List Exchange} {q : Exchange}

@[simp] theorem sends_append (log log' : List Exchange) :
    sends (log ++ log') = sends log ++ sends log' := List.filter_append ..

@[simp] theorem tokens_append (log log' : List Exchange) :
    tokens (log ++ log') = tokens log ++ tokens log' := List.filterMap_append ..

theorem length_tokens (log : List Exchange) : (tokens log).length = (sends log).length := by
  unfold tokens sends Exchange.isSend
  induction log with
  | nil => rfl
  | cons e log ih => cases h : e.token? <;> simp [h, ih]

theorem sends_eq_nil_iff : sends log = [] ↔ ∀ e ∈ log, ¬ e.isSend := List.filter_eq_nil_iff

theorem tokens_eq_nil_iff : tokens log = [] ↔ ∀ e ∈ log, ¬ e.isSend := by
  rw [← List.length_eq_zero_iff, length_tokens, List.length_eq_zero_iff, sends_eq_nil_iff]

theorem sends_append_of_not_isSend (h : ¬ q.isSend) : sends (log ++ [q]) = sends log := by
  rw [sends_append, sends_eq_nil_iff.mpr (List.forall_mem_singleton.mpr h), List.append_nil]

theorem tokens_append_of_not_isSend (h : ¬ q.isSend) : tokens (log ++ [q]) = tokens log := by
  rw [tokens_append, tokens_eq_nil_iff.mpr (List.forall_mem_singleton.mpr h), List.append_nil]

end Logs

/-! ## A short walk -/

/-- The brief of a role that walks one step. -/
def oneStep : Brief :=
  ⟨.creator, ⟨"maze"⟩, 1, .ofList [.onThisMachine 10000], .standard,
    some [⟨.moveForward, ⟨1, 2⟩⟩], false⟩

/-- The calls of a role that walks one step and quits. Each answer takes a millisecond. -/
def stepCalls : List Exchange :=
  [⟨.join, 0, .joined (.ok ()), 1⟩, ⟨.status, 1, .status (.ok ⟨true, true⟩), 2⟩,
    ⟨.send "move 1", 2, .sent (.ok ()), 3⟩, ⟨.status, 203, .status (.ok ⟨true, true⟩), 204⟩,
    ⟨.send "quit", 204, .sent (.ok ()), 205⟩, ⟨.status, 205, .status (.ok ⟨true, false⟩), 206⟩]

theorem exists_history_oneStep :
    ∃ c, History oneStep none stepCalls c 206 ∧ c.report? = some ⟨.creator, .completed,
      [.joining, .awaitingBegin, .active, .awaitingEnd, .terminated .completed], 1, 2, .ofMillis 206,
      none⟩ := by
  have h₀ : History oneStep none _ _ 0 := .start 0
  have h₁ : History oneStep none _ _ 1 := .goOn h₀ rfl (.join (Nat.le_succ 0) (.ok ()))
  have h₂ : History oneStep none _ _ 2 := .goOn h₁ rfl (.status (Nat.le_succ 1) (.ok ⟨true, true⟩))
  have h₃ : History oneStep none _ _ 3 := .goOn h₂ rfl (.send (Nat.le_succ 2) "move 1" (.ok ()))
  have h₄ : History oneStep none _ _ 203 := .goOn h₃ rfl (.nap 200)
  have h₅ : History oneStep none _ _ 204 :=
    .goOn h₄ rfl (.status (Nat.le_succ 203) (.ok ⟨true, true⟩))
  have h₆ : History oneStep none _ _ 205 := .goOn h₅ rfl (.send (Nat.le_succ 204) "quit" (.ok ()))
  have h₇ : History oneStep none _ _ 206 :=
    .goOn h₆ rfl (.status (Nat.le_succ 205) (.ok ⟨true, false⟩))
  exact ⟨_, h₇, rfl⟩

end Labyrinth.Coordinator
