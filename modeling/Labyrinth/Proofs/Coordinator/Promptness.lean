import Labyrinth.Proofs.Coordinator.Leads
import Labyrinth.Proofs.Coordinator.Lifecycle

/-!
# Cancellation

A coordinator looks for a cancellation before each attempt of a loop and in each nap, and nowhere
else. One that comes while a call is on its way is seen after at most two more calls: a command and
the observation that follows it. A pacing that ends at the very moment of the cancellation counts as
slept through. Nobody looks while endpoints are probed.
-/

namespace Labyrinth.Coordinator

/-! ## Calls after a cancellation -/

/-- The commands that were sent at a time or later. -/
def lateSends (stop : Nat) (log : List Exchange) : List Exchange :=
  log.filter fun e => e.isSend && decide (stop ≤ e.askedAt)

def lateObservations (stop : Nat) (log : List Exchange) : List Exchange :=
  log.filter fun e => e.isObservation && decide (stop ≤ e.askedAt)

/-- Since the cancellation at most so many commands were sent, and so many observations made. -/
structure Late (stop : Nat) (log : List Exchange) (s o : Nat) : Prop where
  sends : (lateSends stop log).length ≤ s
  observations : (lateObservations stop log).length ≤ o

/-- The call was made when the pacing after a command had ended. -/
def FollowsPacing (b : Brief) (log : List Exchange) (q : Exchange) : Prop :=
  ∃ before e after, log = before ++ e :: q :: after ∧ (e.isSend ∨ e.isObservation) ∧
    q.askedAt = e.answeredAt + b.settings.pacing

variable {b : Brief} {x : Cancellation} {log calls : List Exchange} {q : Exchange}
  {stop now u s o n : Nat} {c : Coordinator} {p p' : Phase} {e : Event}

theorem Late.mono {s' o' : Nat} (h : Late stop log s o) (hs : s ≤ s') (ho : o ≤ o') :
    Late stop log s' o' :=
  ⟨Nat.le_trans h.sends hs, Nat.le_trans h.observations ho⟩

theorem late_of_forall_lt (h : ∀ e ∈ log, e.askedAt < stop) : Late stop log 0 0 := by
  have hnone : ∀ f : Exchange → Bool,
      (log.filter fun e => f e && decide (stop ≤ e.askedAt)).length ≤ 0 := by
    intro f
    rw [Nat.le_zero, List.length_eq_zero_iff, List.filter_eq_nil_iff]
    intro e he
    have hlt := h e he
    simp only [Bool.and_eq_true, decide_eq_true_eq, not_and]
    omega
  exact ⟨hnone _, hnone _⟩

theorem length_filter_concat_le {α : Type} (f : α → Bool) (l : List α) (a : α) :
    ((l ++ [a]).filter f).length ≤ (l.filter f).length + 1 := by
  rw [List.filter_append, List.length_append]
  exact Nat.add_le_add_left (List.length_filter_le f [a]) _

theorem lateSends_concat (h : ¬ q.isSend) : lateSends stop (log ++ [q]) = lateSends stop log := by
  simp [lateSends, h]

theorem lateObservations_concat (h : ¬ q.isObservation) :
    lateObservations stop (log ++ [q]) = lateObservations stop log := by
  simp [lateObservations, h]

theorem Late.snoc_status (h : Late stop log s o) (hq : q.isStatus) :
    Late stop (log ++ [q]) s o := by
  constructor
  · rw [lateSends_concat (Exchange.not_isSend_of_isStatus hq)]
    exact h.sends
  · rw [lateObservations_concat fun hobservation =>
      Exchange.not_isStatus_of_isObservation hobservation hq]
    exact h.observations

theorem Late.snoc_send (h : Late stop log s o) (hq : q.isSend) :
    Late stop (log ++ [q]) (s + 1) o := by
  constructor
  · exact Nat.le_trans (length_filter_concat_le ..) (Nat.succ_le_succ h.sends)
  · rw [lateObservations_concat fun hobservation =>
      Exchange.not_isSend_of_isObservation hobservation hq]
    exact h.observations

theorem Late.snoc_observation (h : Late stop log s o) (hq : q.isObservation) :
    Late stop (log ++ [q]) s (o + 1) := by
  constructor
  · rw [lateSends_concat (Exchange.not_isSend_of_isObservation hq)]
    exact h.sends
  · exact Nat.le_trans (length_filter_concat_le ..) (Nat.succ_le_succ h.observations)

theorem FollowsPacing.append (h : FollowsPacing b log q) (calls : List Exchange) :
    FollowsPacing b (log ++ calls) q := by
  obtain ⟨before, e, after, rfl, hwork, hasked⟩ := h
  exact ⟨before, e, after ++ calls, by simp, hwork, hasked⟩

/-! ## Naps -/

theorem wokenAt_nap_le_max (stop now span : Nat) :
    (Cancellation.nap (some stop) now span).wokenAt ≤ max now stop := by
  unfold Cancellation.nap
  dsimp only
  split
  · exact Nat.le_refl _
  · dsimp only
    omega

theorem wokenAt_nap_eq (h : stop ≤ now) (span : Nat) :
    (Cancellation.nap (some stop) now span).wokenAt = now := by
  have hle := wokenAt_nap_le_max stop now span
  have hge := Cancellation.le_wokenAt_nap (some stop) now span
  omega

theorem rested_nap_eq_false {span : Nat} (hpos : 0 < span) (h : stop ≤ now) :
    (Cancellation.nap (some stop) now span).rested = false := by
  unfold Cancellation.nap
  dsimp only
  rw [if_pos (by omega)]

theorem le_of_rested {span : Nat} (h : (Cancellation.nap (some stop) now span).rested) :
    now + span ≤ stop := by
  unfold Cancellation.nap at h
  dsimp only at h
  split at h
  · cases h
  · omega

/-! ## What a cancelled coordinator does -/

/-- A loop makes an attempt. -/
def Phase.isAttempt : Phase → Bool
  | .joining _ .answer | .awaitingBegin _ .answer | .awaitingEnd _ .answer => true
  | _ => false

theorem not_isAttempt_onward (rest : List Action) : ¬ (Phase.onward rest).isAttempt := by
  cases rest <;> simp [Phase.onward, Phase.isAttempt]

theorem Leads.lt_of_isAttempt (h : Leads b (some stop) now p e p') (hp' : p'.isAttempt) :
    now < stop := by
  have hlt : Cancellation.reached (some stop) now = false → now < stop := by
    intro hfree
    exact Nat.lt_of_not_le (of_decide_eq_false hfree)
  cases h with
  | join _ free | rejoin _ _ free | admitted _ free | beginPoll _ _ free | idle _ _ _ free
  | delivered _ free | quit _ free | endPoll _ _ free => exact hlt free
  | depart _ _ plan => exact absurd hp' (not_isAttempt_onward plan)
  | proceed rest => exact absurd hp' (not_isAttempt_onward rest)
  | _ => cases hp'

/-- The last call was a command or an observation, and it was answered just now. -/
def Worked (log : List Exchange) (now : Nat) : Prop :=
  ∃ before e, log = before ++ [e] ∧ (e.isSend ∨ e.isObservation) ∧ e.answeredAt = now

/-- What was called since the cancellation, in each phase. -/
def Hurries (b : Brief) (stop : Nat) (log : List Exchange) (now : Nat) : Phase → Prop
  | .joining _ .answer | .awaitingBegin _ .answer | .awaitingEnd _ .answer => now < stop
  | .checking _ => now ≤ stop ∧ Late stop log 0 0 ∧
      ∃ before, Worked log before ∧ now = before + b.settings.pacing
  | .observing _ _ => Late stop log 1 0
  | .publishing _ _ | .pacing _ => Late stop log 1 1 ∧ Worked log now
  | .terminated _ _ => Late stop log 1 1
  | _ => Late stop log 0 0

/-- A log and a phase are those of a coordinator that heeds a cancellation. -/
structure Hurried (b : Brief) (stop : Nat) (log : List Exchange) (c : Coordinator) (now : Nat) :
    Prop where
  asked : ∀ e ∈ log, e.askedAt ≤ now
  joins : ∀ e ∈ log, e.isJoin → e.askedAt < stop
  statuses : ∀ q ∈ log, q.isStatus →
    q.askedAt < stop ∨ q.askedAt = stop ∧ FollowsPacing b log q
  late : Late stop log 1 1
  hurries : Hurries b stop log now c.phase

theorem Told.asked (h : Told b x now p e u calls) : ∀ q ∈ calls, q.askedAt = now := by
  cases h <;> simp

theorem Told.of_pacing {rest : List Action} (h : Told b x now (.pacing rest) e u calls) :
    e = .woken (x.nap now b.settings.pacing).rested ∧
      u = (x.nap now b.settings.pacing).wokenAt ∧ calls = [] := by
  cases h
  exact ⟨rfl, rfl, rfl⟩

section Told

variable (h : Hurries b stop log now p) (hasked : ∀ e ∈ log, e.askedAt ≤ now)
  (told : Told b (some stop) now p e u calls)

include h told in
theorem Hurries.joins : ∀ q ∈ calls, q.isJoin → q.askedAt < stop := by
  cases told with
  | joined _ loop a =>
    have hlt : now < stop := h
    simpa using fun _ => hlt
  | _ => simp [Exchange.isJoin]

include h told in
theorem Hurries.statuses : ∀ q ∈ calls, q.isStatus →
    q.askedAt < stop ∨ q.askedAt = stop ∧ FollowsPacing b (log ++ calls) q := by
  cases told with
  | polled _ loop a =>
    have hlt : now < stop := h
    simpa using fun _ => .inl hlt
  | awaited _ loop a =>
    have hlt : now < stop := h
    simpa using fun _ => .inl hlt
  | checked _ rest a =>
    obtain ⟨hle, -, t, ⟨before, e, rfl, hwork, hanswered⟩, hnow⟩ := h
    intro q hq _
    obtain rfl := List.mem_singleton.mp hq
    rcases Nat.lt_or_eq_of_le hle with hlt | heq
    · exact .inl hlt
    · exact .inr ⟨heq, before, e, [], by simp, hwork, by rw [hanswered]; exact hnow⟩
  | _ => simp [Exchange.isStatus]

include hasked in
theorem late_concat_of_lt (hlt : now < stop) (hq : q.askedAt = now) :
    Late stop (log ++ [q]) 0 0 := by
  refine late_of_forall_lt (forall_mem_append_singleton (fun e he => ?_) (hq ▸ hlt))
  exact Nat.lt_of_le_of_lt (hasked e he) hlt

include h hasked told in
theorem Hurries.late : Late stop (log ++ calls) 1 1 := by
  cases told with
  | probed | joinPause | beginPause | endPause =>
    rw [List.append_nil]
    exact Late.mono h (Nat.zero_le 1) (Nat.zero_le 1)
  | joined | polled | awaited =>
    exact (late_concat_of_lt hasked h rfl).mono (Nat.zero_le 1) (Nat.zero_le 1)
  | sent | quit => exact (Late.snoc_send h rfl).mono (Nat.le_refl 1) (Nat.zero_le 1)
  | observed => exact Late.snoc_observation h rfl
  | published | paced =>
    rw [List.append_nil]
    exact h.1
  | checked => exact (h.2.1.snoc_status rfl).mono (Nat.zero_le 1) (Nat.zero_le 1)

include h hasked told in
theorem Hurries.leads (hpacing : 0 < b.settings.pacing) (hleads : Leads b (some stop) u p e p') :
    Hurries b stop (log ++ calls) u p' := by
  have hattempt : p'.isAttempt → u < stop := hleads.lt_of_isAttempt
  cases hleads with
  | finish => exact h.late hasked told
  | probe => cases told
  | probeNext =>
    cases told
    rw [List.append_nil]
    exact h
  | join _ _ | rejoin _ _ _ | admitted _ _ | beginPoll _ _ _ | idle _ _ _ _
  | delivered _ _ | quit _ _ | endPoll _ _ _ => exact hattempt rfl
  | joinPause | beginPause | endPause =>
    cases told
    exact late_concat_of_lt hasked h rfl
  | depart loop a plan =>
    cases told
    have hlate := late_concat_of_lt hasked h (q := ⟨.status, now, .status a, u⟩) rfl
    cases plan <;> exact hlate
  | observe a rest answer =>
    cases told
    exact Late.snoc_send h rfl
  | pace a rest answer =>
    cases told
    refine ⟨?_, log, _, rfl, .inl rfl, rfl⟩
    exact (Late.snoc_send h rfl).mono (Nat.le_refl 1) (Nat.zero_le 1)
  | publish a rest answer snapshot =>
    cases told
    refine ⟨?_, log, _, rfl, .inr rfl, rfl⟩
    exact Late.snoc_observation h rfl
  | published snapshot rest =>
    cases told
    rw [List.append_nil]
    exact h
  | check rest =>
    obtain ⟨hrested, rfl, rfl⟩ := told.of_pacing
    have hrested : (Cancellation.nap (some stop) now b.settings.pacing).rested := by
      rw [← Event.woken.inj hrested]
    rw [List.append_nil, Cancellation.wokenAt_nap_of_rested hrested]
    refine ⟨le_of_rested hrested, late_of_forall_lt fun e he => ?_, now, h.2, rfl⟩
    have hle := le_of_rested hrested
    have hbefore := hasked e he
    omega
  | proceed rest a =>
    cases told
    have hlate := h.2.1.snoc_status (q := ⟨.status, now, .status a, u⟩) rfl
    cases rest <;> exact hlate

end Told

theorem Hurried.told (h : Hurried b stop log c now) (hbrief : c.brief = b)
    (hpacing : 0 < b.settings.pacing) (told : Told b (some stop) now c.phase e u calls) :
    Hurried b stop (log ++ calls) (c.advance (moment (some stop) u) e) u where
  asked := by
    refine List.forall_mem_append.mpr ⟨fun q hq => Nat.le_trans (h.asked q hq) told.le, ?_⟩
    exact fun q hq => (told.asked q hq).symm ▸ told.le
  joins := List.forall_mem_append.mpr ⟨h.joins, h.hurries.joins told⟩
  statuses := by
    refine List.forall_mem_append.mpr ⟨fun q hq hstatus => ?_, h.hurries.statuses told⟩
    exact (h.statuses q hq hstatus).imp_right fun ⟨heq, hpaced⟩ => ⟨heq, hpaced.append calls⟩
  late := h.hurries.late h.asked told
  hurries := h.hurries.leads h.asked told hpacing (told.leads hbrief)

theorem History.hurried (h : History b (some stop) log c now) (hpacing : 0 < b.settings.pacing) :
    Hurried b stop log c now := by
  induction h with
  | start now =>
    have hnone : Late stop [] 0 0 := late_of_forall_lt (List.forall_mem_nil _)
    refine ⟨List.forall_mem_nil _, List.forall_mem_nil _, List.forall_mem_nil _,
      hnone.mono (Nat.zero_le 1) (Nat.zero_le 1), ?_⟩
    have hleads : Leads b (some stop) now .fresh .started _ := leads_start
    have hattempt := hleads.lt_of_isAttempt
    generalize ((ofBrief b).advance (moment (some stop) now) .started).phase = p' at hleads hattempt
    cases hleads with
    | finish => exact hnone.mono (Nat.zero_le 1) (Nat.zero_le 1)
    | probe => exact hnone
    | join => exact hattempt rfl
  | goOn h asked answered ih =>
    exact ih.told h.stands.brief hpacing (answered.told h.stands.brief asked)

/-! ## The end after a cancellation -/

/-- A coordinator has its report after at most so many more answers, whatever they are and whenever
they come, and it waits for nothing else. -/
inductive EndsWithin (x : Cancellation) : Nat → Coordinator → Nat → Prop where
  | ended {n : Nat} {c : Coordinator} {now : Nat} {report : Report}
      (hreport : c.report? = some report) : EndsWithin x n c now
  | answered {n : Nat} {c : Coordinator} {now : Nat} {request : Request}
      (asked : c.request = some request)
      (h : ∀ e u, Answers x now request e u → EndsWithin x n (c.advance (moment x u) e) u) :
      EndsWithin x (n + 1) c now
  | atOnce {n : Nat} {c : Coordinator} {now : Nat} {request : Request}
      (asked : c.request = some request)
      (still : ∀ e u, Answers x now request e u → u = now)
      (h : ∀ e u, Answers x now request e u → EndsWithin x n (c.advance (moment x u) e) u) :
      EndsWithin x n c now

theorem EndsWithin.mono {n' : Nat} (h : EndsWithin x n c now) (hle : n ≤ n') :
    EndsWithin x n' c now := by
  induction h generalizing n' with
  | ended hreport => exact .ended hreport
  | answered asked _ ih =>
    obtain ⟨k, rfl⟩ : ∃ k, n' = k + 1 := ⟨n' - 1, by omega⟩
    exact .answered asked fun e u answers => ih e u answers (by omega)
  | atOnce asked still _ ih =>
    exact .atOnce asked still fun e u answers => ih e u answers hle

theorem endsWithin_of_isOver (h : c.phase.isOver) : EndsWithin x n c now := by
  cases hphase : c.phase with
  | terminated o elapsed =>
    have hreport : c.report? = some ⟨c.brief.role, o, c.stages, c.joinAttempts, c.commandsSent,
        .ofMillis elapsed, c.failure⟩ := by
      unfold report?
      rw [hphase]
    exact .ended hreport
  | _ =>
    rw [hphase] at h
    cases h

/-- A cancelled coordinator that has been given an answer. -/
structure Answered (b : Brief) (stop now : Nat) (p : Phase) (e : Event) (c : Coordinator) :
    Prop where
  brief : c.brief = b
  late : stop ≤ now
  leads : Leads b (some stop) now p e c.phase

theorem answered_of_answers {request : Request} (hbrief : c.brief = b) (hstop : stop ≤ now)
    (asked : c.request = some request) (answers : Answers (some stop) now request e u) :
    Answered b stop u c.phase e (c.advance (moment (some stop) u) e) where
  brief := (brief_advance e).trans hbrief
  late := Nat.le_trans hstop (answers.told hbrief asked).le
  leads := (answers.told hbrief asked).leads hbrief

theorem Answered.not_isAttempt (h : Answered b stop now p e c) : ¬ c.phase.isAttempt := by
  intro hattempt
  have hlt := h.leads.lt_of_isAttempt hattempt
  have hle := h.late
  omega

/-- A pause of a loop. -/
def Phase.isPause : Phase → Bool
  | .joining _ .pause | .awaitingBegin _ .pause | .awaitingEnd _ .pause => true
  | _ => false

theorem Answered.isOver (h : Answered b stop now p e c)
    (hp : p.isPause ∨ (∃ limit endpoint, p = .probing limit endpoint []) ∨ p = .quitting) :
    c.phase.isOver := by
  have hattempt := h.not_isAttempt
  have hleads := h.leads
  generalize c.phase = p' at hleads hattempt
  cases hleads with
  | finish => rfl
  | join _ _ | rejoin _ _ _ | admitted _ _ | beginPoll _ _ _ | idle _ _ _ _
  | delivered _ _ | quit _ _ | endPoll _ _ _ => exact absurd rfl hattempt
  | _ => simp [Phase.isPause] at hp

section After

variable (hbrief : c.brief = b) (hstop : stop ≤ now)

include hbrief hstop in
theorem endsWithin_pause (hphase : c.phase.isPause) : EndsWithin (some stop) 0 c now := by
  obtain ⟨span, asked⟩ : ∃ span, c.request = some (.nap span) := by
    unfold Phase.isPause at hphase
    unfold Coordinator.request
    split at hphase
    · rename_i hphase'
      exact ⟨_, by rw [hphase']⟩
    · rename_i hphase'
      exact ⟨_, by rw [hphase']⟩
    · rename_i hphase'
      exact ⟨_, by rw [hphase']⟩
    · cases hphase
  refine .atOnce asked (fun e u answers => ?_) fun e u answers => ?_
  · cases answers
    exact wokenAt_nap_eq hstop span
  · have hanswered := answered_of_answers hbrief hstop asked answers
    exact endsWithin_of_isOver (hanswered.isOver (.inl hphase))

include hbrief hstop in
theorem endsWithin_pacing (hpacing : 0 < b.settings.pacing) {rest : List Action}
    (hphase : c.phase = .pacing rest) : EndsWithin (some stop) 0 c now := by
  have asked : c.request = some (.nap b.settings.pacing) := by
    rw [Coordinator.request, hphase, ← hbrief]
  refine .atOnce asked (fun e u answers => ?_) fun e u answers => ?_
  · cases answers
    exact wokenAt_nap_eq hstop _
  · cases answers
    rw [rested_nap_eq_false hpacing hstop, advance_pacing_cut hphase]
    exact endsWithin_of_isOver rfl

include hbrief hstop in
theorem endsWithin_publishing (hpacing : 0 < b.settings.pacing) {snapshot : Snapshot}
    {rest : List Action} (hphase : c.phase = .publishing snapshot rest) :
    EndsWithin (some stop) 0 c now := by
  have asked : c.request = some (.publish snapshot) := by rw [Coordinator.request, hphase]
  refine .atOnce asked (fun e u answers => ?_) fun e u answers => ?_
  · cases answers
    rfl
  · cases answers
    rw [advance_publishing hphase]
    exact endsWithin_pacing (c := { c with phase := .pacing rest }) hbrief hstop hpacing rfl

include hbrief hstop in
theorem endsWithin_observing (hpacing : 0 < b.settings.pacing) {a : Action} {rest : List Action}
    (hphase : c.phase = .observing a rest) : EndsWithin (some stop) 1 c now := by
  have asked : c.request = some .observe := by rw [Coordinator.request, hphase]
  refine .answered asked fun e u answers => ?_
  have hanswered := answered_of_answers hbrief hstop asked answers
  cases answers with
  | observe _ o =>
    rw [advance_observing hphase] at hanswered ⊢
    exact endsWithin_publishing hanswered.brief hanswered.late hpacing rfl

include hbrief hstop in
theorem endsWithin_sending (hpacing : 0 < b.settings.pacing) {a : Action} {rest : List Action}
    (hphase : c.phase = .sending a rest) : EndsWithin (some stop) 2 c now := by
  have asked : c.request = some (.send a.command.token) := by rw [Coordinator.request, hphase]
  refine .answered asked fun e u answers => ?_
  have hanswered := answered_of_answers hbrief hstop asked answers
  generalize c.advance (moment (some stop) u) e = c' at hanswered ⊢
  have hleads := hanswered.leads
  generalize hphase' : c'.phase = p' at hleads
  rw [hphase] at hleads
  cases hleads with
  | finish => exact endsWithin_of_isOver (by rw [hphase']; rfl)
  | observe => exact endsWithin_observing hanswered.brief hanswered.late hpacing hphase'
  | pace =>
    exact (endsWithin_pacing hanswered.brief hanswered.late hpacing hphase').mono (Nat.zero_le 1)
  | join early => simp at early

include hbrief hstop in
theorem endsWithin_last {request : Request} (asked : c.request = some request)
    (hphase : (∃ limit endpoint, c.phase = .probing limit endpoint []) ∨ c.phase = .quitting) :
    EndsWithin (some stop) 1 c now := by
  refine .answered asked fun e u answers => ?_
  have hanswered := answered_of_answers hbrief hstop asked answers
  exact endsWithin_of_isOver (hanswered.isOver (.inr hphase))

include hbrief hstop in
theorem endsWithin_probing {limit : Nat} {endpoint : Endpoint} {rest : List Endpoint}
    (hphase : c.phase = .probing limit endpoint rest) :
    EndsWithin (some stop) (rest.length + 1) c now := by
  have asked : c.request = some (.probe endpoint limit) := by rw [Coordinator.request, hphase]
  induction rest generalizing c now endpoint with
  | nil => exact endsWithin_last hbrief hstop asked (.inl ⟨limit, endpoint, hphase⟩)
  | cons next rest ih =>
    refine .answered asked fun e u answers => ?_
    have hanswered := answered_of_answers hbrief hstop asked answers
    cases answers with
    | probe _ _ _ reachable =>
      rw [advance_probing hphase] at hanswered ⊢
      exact ih hanswered.brief hanswered.late rfl rfl

include hbrief hstop in
theorem endsWithin_onward (hpacing : 0 < b.settings.pacing) {rest : List Action}
    (hphase : c.phase = .onward rest) : EndsWithin (some stop) 2 c now := by
  cases rest with
  | nil =>
    have hquitting : c.phase = .quitting := hphase
    have asked : c.request = some (.send Command.quitToken) := by
      rw [Coordinator.request, hquitting]
    exact (endsWithin_last hbrief hstop asked (.inr hquitting)).mono (Nat.le_succ 1)
  | cons a rest => exact endsWithin_sending hbrief hstop hpacing hphase

include hbrief hstop in
theorem endsWithin_checking (hpacing : 0 < b.settings.pacing) {rest : List Action}
    (hphase : c.phase = .checking rest) : EndsWithin (some stop) 3 c now := by
  have asked : c.request = some .status := by rw [Coordinator.request, hphase]
  refine .answered asked fun e u answers => ?_
  have hanswered := answered_of_answers hbrief hstop asked answers
  have hattempt := hanswered.not_isAttempt
  generalize c.advance (moment (some stop) u) e = c' at hanswered hattempt ⊢
  have hleads := hanswered.leads
  generalize hphase' : c'.phase = p' at hleads
  rw [hphase'] at hattempt
  rw [hphase] at hleads
  cases hleads with
  | finish => exact endsWithin_of_isOver (by rw [hphase']; rfl)
  | proceed => exact endsWithin_onward hanswered.brief hanswered.late hpacing hphase'
  | delivered => exact absurd rfl hattempt
  | join early => simp at early

end After

/-- The endpoints whose probe has not begun. -/
def Phase.unprobed : Phase → List Endpoint
  | .probing _ _ rest => rest
  | _ => []

/-- The call that is on its way at the cancellation and at most two more are answered before the
end, and the probes that have not begun. -/
theorem History.endsWithin (h : History b (some stop) log c now) (hpacing : 0 < b.settings.pacing)
    (hstop : stop ≤ now) :
    EndsWithin (some stop) (c.phase.unprobed.length + if now = stop then 3 else 2) c now := by
  have hbrief := h.stands.brief
  have hhurries := (h.hurried hpacing).hurries
  have htwo : 2 ≤ if now = stop then 3 else 2 := by split <;> omega
  have hle : ∀ k, 2 ≤ k + if now = stop then 3 else 2 := fun k => Nat.le_add_left_of_le htwo
  cases hphase : c.phase with
  | fresh => exact ((h.staged.of_phase hphase (by simp)).2).elim
  | terminated => exact endsWithin_of_isOver (by rw [hphase]; rfl)
  | probing limit endpoint rest =>
    exact (endsWithin_probing hbrief hstop hphase).mono (Nat.add_le_add_left (by omega) _)
  | joining _ w | awaitingBegin _ w | awaitingEnd _ w =>
    cases w with
    | answer =>
      rw [hphase] at hhurries
      exact absurd hstop (Nat.not_le_of_lt hhurries)
    | pause =>
      exact (endsWithin_pause hbrief hstop (by rw [hphase]; rfl)).mono (Nat.zero_le _)
  | sending => exact (endsWithin_sending hbrief hstop hpacing hphase).mono (hle _)
  | observing =>
    exact (endsWithin_observing hbrief hstop hpacing hphase).mono (Nat.le_of_succ_le (hle _))
  | publishing => exact (endsWithin_publishing hbrief hstop hpacing hphase).mono (Nat.zero_le _)
  | pacing => exact (endsWithin_pacing hbrief hstop hpacing hphase).mono (Nat.zero_le _)
  | checking =>
    rw [hphase] at hhurries
    rw [if_pos (Nat.le_antisymm hhurries.1 hstop)]
    exact endsWithin_checking hbrief hstop hpacing hphase
  | quitting =>
    have honward : c.phase = .onward [] := hphase
    exact (endsWithin_onward hbrief hstop hpacing honward).mono (hle _)

/-! ## A cancellation before the start -/

/-- Nothing has been called, and the first attempt to join is not made either. -/
def Unstarted (b : Brief) (log : List Exchange) (c : Coordinator) : Prop :=
  log = [] ∧
    ((∃ limit endpoint rest, c.phase = .probing limit endpoint rest) ∧ c.stages = opening b ∨
      ∃ elapsed, c.phase = .terminated .cancelled elapsed ∧
        c.stages = opening b ++ [.joining, .terminated .cancelled])

theorem unstarted_join (hstages : c.stages = opening b) (h : x.reached now) :
    Unstarted b [] (c.join (moment x now)) := by
  unfold join moment Retry.start Retry.next
  rw [if_pos h]
  refine ⟨rfl, .inr ⟨now - c.startedAt, rfl, ?_⟩⟩
  simp [joinMove, Coordinator.cancel, Coordinator.terminate, Coordinator.enter, hstages]

theorem unstarted_probe (hstages : c.stages = opening b) (h : x.reached now) (limit : Nat)
    (rest : List Endpoint) : Unstarted b [] (c.probe (moment x now) limit rest) := by
  cases rest with
  | nil => exact unstarted_join hstages h
  | cons endpoint rest => exact ⟨rfl, .inl ⟨⟨limit, endpoint, rest, rfl⟩, hstages⟩⟩

theorem unstarted_start (h : x.reached now) :
    Unstarted b [] ((ofBrief b).advance (moment x now) .started) := by
  rw [advance_fresh rfl]
  unfold start
  dsimp only
  split
  · rename_i hprobe
    have hnone : b.settings.probeTimeout = none := hprobe
    exact unstarted_join (by simp [opening, hnone, ofBrief]) h
  · rename_i limit hprobe
    have hsome : b.settings.probeTimeout = some limit := hprobe
    exact unstarted_probe (by simp [opening, hsome, ofBrief, Coordinator.enter]) h limit _

theorem History.unstarted (h : History b (some stop) log c now) (hstop : stop ≤ c.startedAt) :
    Unstarted b log c := by
  induction h with
  | start now =>
    rw [startedAt_start] at hstop
    exact unstarted_start (decide_eq_true hstop)
  | goOn h asked answered ih =>
    rw [startedAt_advance asked] at hstop
    have hle := (answered.told h.stands.brief asked).le
    have hreached := Nat.le_trans hstop (Nat.le_trans h.startedAt_le hle)
    obtain ⟨rfl, ⟨⟨limit, endpoint, rest, hphase⟩, hstages⟩ | ⟨elapsed, hphase, -⟩⟩ := ih hstop
    · rw [Coordinator.request, hphase] at asked
      obtain rfl := Option.some.inj asked
      cases answered with
      | probe =>
        rw [advance_probing hphase]
        exact unstarted_probe (x := some stop) hstages (decide_eq_true hreached) limit rest
    · rw [Coordinator.request, hphase] at asked
      cases asked

/-! ## Every history -/

/-- A cancellation is heeded at once. -/
structure Prompt (b : Brief) (stop : Nat) (log : List Exchange) (c : Coordinator) (now : Nat) :
    Prop where
  joins : ∀ e ∈ log, e.isJoin → e.askedAt < stop
  /-- A role may ask at the very moment of the cancellation whether its session is running, if its
  pacing ends then. -/
  statuses : ∀ q ∈ log, q.isStatus →
    q.askedAt < stop ∨ q.askedAt = stop ∧ FollowsPacing b log q
  sends : (lateSends stop log).length ≤ 1
  observations : (lateObservations stop log).length ≤ 1
  naps : ∀ span e u, c.request = some (.nap span) → Answers (some stop) now (.nap span) e u →
    u ≤ max now stop
  ends : stop ≤ now → ∃ n, EndsWithin (some stop) n c now
  /-- The call that is on its way at the cancellation and at most two more are answered before the
  end, if no endpoint is still to be probed. -/
  soon : stop ≤ now → c.phase.unprobed = [] →
    EndsWithin (some stop) (if now = stop then 3 else 2) c now
  unstarted : stop ≤ c.startedAt → log = [] ∧ ∀ report, c.report? = some report →
    report.stages = opening b ++ [.joining, .terminated .cancelled]

/-- Whatever the host answers and however long it takes, a coordinator that is cancelled makes no
further attempt, sends at most one more command, and ends. -/
theorem History.prompt (h : History b (some stop) log c now) (hpacing : 0 < b.settings.pacing) :
    Prompt b stop log c now where
  joins := (h.hurried hpacing).joins
  statuses := (h.hurried hpacing).statuses
  sends := (h.hurried hpacing).late.sends
  observations := (h.hurried hpacing).late.observations
  naps span e u _ answers := by
    cases answers
    exact wokenAt_nap_le_max stop now span
  ends hstop := ⟨_, h.endsWithin hpacing hstop⟩
  soon hstop hprobed := by
    have hends := h.endsWithin hpacing hstop
    rwa [hprobed, List.length_nil, Nat.zero_add] at hends
  unstarted hstop := by
    obtain ⟨hlog, hends⟩ := h.unstarted hstop
    refine ⟨hlog, fun report hreport => ?_⟩
    rcases hends with ⟨⟨limit, endpoint, rest, hphase⟩, -⟩ | ⟨elapsed, hphase, hstages⟩
    · rw [report?, hphase] at hreport
      cases hreport
    · rw [report?, hphase] at hreport
      obtain rfl := Option.some.inj hreport
      exact hstages

/-- The status is asked before a cancellation that comes while the answer is on its way. The command
that follows it is sent, and the pacing after it is cut short at once. -/
theorem prompt_oneStep : 0 < oneStep.settings.pacing ∧
    ∃ c report, History oneStep (some 1) [⟨.join, 0, .joined (.ok ()), 0⟩,
      ⟨.status, 0, .status (.ok ⟨true, true⟩), 2⟩, ⟨.send "move 1", 2, .sent (.ok ()), 3⟩] c 3 ∧
      c.report? = some report ∧ report.outcome = .cancelled ∧
      Prompt oneStep 1 [⟨.join, 0, .joined (.ok ()), 0⟩,
        ⟨.status, 0, .status (.ok ⟨true, true⟩), 2⟩,
        ⟨.send "move 1", 2, .sent (.ok ()), 3⟩] c 3 := by
  have hpacing : 0 < oneStep.settings.pacing := by decide
  have h₀ : History oneStep (some 1) _ _ 0 := .start 0
  have h₁ : History oneStep (some 1) _ _ 0 := .goOn h₀ rfl (.join (Nat.le_refl 0) (.ok ()))
  have h₂ : History oneStep (some 1) _ _ 2 :=
    .goOn h₁ rfl (.status (Nat.zero_le 2) (.ok ⟨true, true⟩))
  have h₃ : History oneStep (some 1) _ _ 3 := .goOn h₂ rfl (.send (Nat.le_succ 2) "move 1" (.ok ()))
  have h₄ : History oneStep (some 1) _ _ 3 := .goOn h₃ rfl (.nap 200)
  exact ⟨hpacing, _, _, h₄, rfl, rfl, h₄.prompt hpacing⟩

/-- The brief of a role that probes two endpoints for a second each before it walks. -/
def probedStep : Brief :=
  { oneStep with
    pool := .ofList [.onThisMachine 10000, .onThisMachine 10001]
    settings := { Settings.standard with probeTimeout := some 1000 } }

/-- A role asks for the status at the very moment of a cancellation. And a role that is cancelled
while it probes an endpoint begins to probe the next one when that probe is over. -/
theorem exists_request_despite_cancellation :
    (0 < oneStep.settings.pacing ∧ ∃ log c, History oneStep (some 200) log c 200 ∧
      ¬ ∀ e ∈ log, e.isJoin ∨ e.isStatus → e.askedAt < 200) ∧
    0 < probedStep.settings.pacing ∧ ∃ c, History probedStep (some 500) [] c 1000 ∧
      c.request = some (.probe (.onThisMachine 10001) 1000) := by
  refine ⟨⟨by decide, ?_⟩, by decide, ?_⟩
  · have h₀ : History oneStep (some 200) _ _ 0 := .start 0
    have h₁ : History oneStep (some 200) _ _ 0 := .goOn h₀ rfl (.join (Nat.le_refl 0) (.ok ()))
    have h₂ : History oneStep (some 200) _ _ 0 :=
      .goOn h₁ rfl (.status (Nat.le_refl 0) (.ok ⟨true, true⟩))
    have h₃ : History oneStep (some 200) _ _ 0 :=
      .goOn h₂ rfl (.send (Nat.le_refl 0) "move 1" (.ok ()))
    have h₄ : History oneStep (some 200) _ _ 200 := .goOn h₃ rfl (.nap 200)
    have h₅ : History oneStep (some 200) _ _ 200 :=
      .goOn h₄ rfl (.status (Nat.le_refl 200) (.ok ⟨true, true⟩))
    refine ⟨_, _, h₅, fun hearly => ?_⟩
    have hlt := hearly ⟨.status, 200, .status (.ok ⟨true, true⟩), 200⟩
      (by simp [record, Request.isCall]) (.inr rfl)
    exact Nat.lt_irrefl 200 hlt
  · have h₀ : History probedStep (some 500) _ _ 0 := .start 0
    have h₁ : History probedStep (some 500) _ _ 1000 :=
      .goOn h₀ rfl (.probe (Nat.zero_le 1000) (.onThisMachine 10000) 1000 false)
    exact ⟨_, h₁, rfl⟩

end Labyrinth.Coordinator
