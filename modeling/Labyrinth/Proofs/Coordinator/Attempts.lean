import Labyrinth.Proofs.Coordinator.Leads

/-!
# The count of joins

A report counts the joins of a role that was let in, that was refused for good, or that came too
late. A role that is cancelled before it is let in forgets how often it has tried.
-/

namespace Labyrinth.Coordinator

variable {b : Brief} {x : Cancellation} {log calls : List Exchange} {now t : Nat} {c : Coordinator}
  {m : Moment} {e : Event}

/-- The calls that asked for a place in the session. -/
def joins (log : List Exchange) : List Exchange := log.filter Exchange.isJoin

theorem joins_append (log log' : List Exchange) : joins (log ++ log') = joins log ++ joins log' :=
  List.filter_append ..

/-! ## What leaves the count alone -/

@[simp] theorem joinAttempts_endMove (move : Retry.Move (Retry.Pending String) Unit) :
    (c.endMove m move).joinAttempts = c.joinAttempts := by
  unfold endMove
  split
  · rfl
  · split
    · split <;> rfl
    all_goals rfl

@[simp] theorem joinAttempts_awaitEnd : (c.awaitEnd m).joinAttempts = c.joinAttempts :=
  joinAttempts_endMove _

@[simp] theorem joinAttempts_proceed (rest : List Action) :
    (c.proceed rest).joinAttempts = c.joinAttempts := by
  cases rest <;> rfl

@[simp] theorem joinAttempts_activate : (c.activate m).joinAttempts = c.joinAttempts := by
  unfold activate
  dsimp only
  split
  · exact joinAttempts_awaitEnd
  · exact joinAttempts_proceed _

@[simp] theorem joinAttempts_beginMove (move : Retry.Move (Retry.Pending String) Unit) :
    (c.beginMove m move).joinAttempts = c.joinAttempts := by
  unfold beginMove
  split
  · rfl
  · split
    · exact joinAttempts_activate
    · exact joinAttempts_activate
    all_goals rfl

@[simp] theorem joinAttempts_awaitBegin : (c.awaitBegin m).joinAttempts = c.joinAttempts :=
  joinAttempts_beginMove _

@[simp] theorem joinAttempts_checked (rest : List Action) (s : Status) :
    (c.checked m rest s).joinAttempts = c.joinAttempts := by
  unfold checked
  dsimp only
  split
  · exact joinAttempts_proceed rest
  · split
    · exact joinAttempts_awaitEnd
    · split <;> rfl

theorem Told.joinAttempts_eq (h : Told b x now c.phase e t calls) (hbrief : c.brief = b)
    (late : c.phase.isEarly = false) : (c.advance m e).joinAttempts = c.joinAttempts := by
  subst hbrief
  generalize hphase : c.phase = p at h late
  cases h with
  | probed | joined | joinPause => cases late
  | polled => rw [advance_awaitingBegin_answer hphase, joinAttempts_beginMove]
  | beginPause => rw [advance_awaitingBegin_pause hphase, joinAttempts_beginMove]
  | sent _ a rest answer =>
    cases answer with
    | error => rw [advance_sending_failed hphase]; rfl
    | ok => rw [advance_sending hphase]; rfl
  | observed => rw [advance_observing hphase]
  | published => rw [advance_publishing hphase]
  | paced =>
    cases (x.nap now c.brief.settings.pacing).rested with
    | false => rw [advance_pacing_cut hphase]; rfl
    | true => rw [advance_pacing hphase]
  | checked _ rest a =>
    cases a with
    | error => rw [advance_checking_failed hphase]; rfl
    | ok => rw [advance_checking hphase, joinAttempts_checked]
  | quit _ answer =>
    cases answer with
    | error => rw [advance_quitting_failed hphase]; rfl
    | ok => rw [advance_quitting hphase, joinAttempts_awaitEnd]
  | awaited _ loop a =>
    cases a with
    | error => rw [advance_awaitingEnd_failed hphase, joinAttempts_endMove]
    | ok => rw [advance_awaitingEnd_answer hphase, joinAttempts_endMove]; rfl
  | endPause => rw [advance_awaitingEnd_pause hphase, joinAttempts_endMove]

theorem Told.joins_eq_nil {p : Phase} (h : Told b x now p e t calls) (late : p.isEarly = false) :
    joins calls = [] := by
  cases h with
  | joined => cases late
  | _ => rfl

/-! ## The count along a history -/

/-- How the count of a coordinator and the count of its loop stand to the joins it has made. -/
inductive Counted (log : List Exchange) (c : Coordinator) : Prop where
  | probing {limit : Nat} {endpoint : Endpoint} {rest : List Endpoint}
      (phase : c.phase = .probing limit endpoint rest) (unasked : log = [])
      (count : c.joinAttempts = 0)
  | asking {loop : Retry} (phase : c.phase = .joining loop .answer)
      (outside : ∀ e ∈ log, ¬ e.isAdmission) (count : c.joinAttempts = 0)
      (attempts : loop.attempts = (joins log).length + 1)
  | resting {loop : Retry} (phase : c.phase = .joining loop .pause)
      (outside : ∀ e ∈ log, ¬ e.isAdmission) (count : c.joinAttempts = 0)
      (attempts : loop.attempts = (joins log).length)
  | shut {o : Outcome} {elapsed : Nat} (phase : c.phase = .terminated o elapsed)
      (outside : ∀ e ∈ log, ¬ e.isAdmission)
      (count : c.joinAttempts = if o = .cancelled then 0 else (joins log).length)
  | inside (late : c.phase.isEarly = false) (admission : ∃ e ∈ log, e.isAdmission)
      (count : c.joinAttempts = (joins log).length)

theorem counted_join (hcount : c.joinAttempts = 0) : Counted [] (c.join (moment x now)) := by
  unfold join moment Retry.start Retry.next
  split
  · exact .shut rfl (List.forall_mem_nil _) hcount
  · exact .asking rfl (List.forall_mem_nil _) hcount rfl

theorem counted_probe (hcount : c.joinAttempts = 0) (limit : Nat) (rest : List Endpoint) :
    Counted [] (c.probe (moment x now) limit rest) := by
  cases rest with
  | nil => exact counted_join hcount
  | cons endpoint rest => exact .probing rfl rfl hcount

theorem counted_start : Counted [] ((ofBrief b).advance (moment x now) .started) := by
  rw [advance_fresh rfl]
  unfold start
  dsimp only
  split
  · exact counted_join rfl
  · exact counted_probe rfl _ _

theorem length_joins_concat (log : List Exchange) (now t : Nat) (a : Except JoinError Unit) :
    (joins (log ++ [⟨.join, now, .joined a, t⟩])).length = (joins log).length + 1 := by
  rw [joins_append, List.length_append]
  rfl

section Joining

variable {loop : Retry} (outside : ∀ e ∈ log, ¬ e.isAdmission) (count : c.joinAttempts = 0)

include outside count

theorem counted_joined (hphase : c.phase = .joining loop .answer)
    (attempts : loop.attempts = (joins log).length + 1) (a : Except JoinError Unit) :
    Counted (log ++ [⟨.join, now, .joined a, t⟩]) (c.advance (moment x t) (.joined a)) := by
  rw [← length_joins_concat log now t a] at attempts
  cases a with
  | ok =>
    have late : (c.advance (moment x t) (.joined (.ok ()))).phase.isEarly = false :=
      eq_false_of_ne_true fun early => ((leads_joined hphase (.ok ())).isEarly early).2 rfl
    refine .inside late ⟨_, List.mem_append_right _ (List.mem_singleton_self _), rfl⟩ ?_
    rw [advance_joining_answer hphase]
    exact joinAttempts_awaitBegin.trans attempts
  | error error =>
    rw [advance_joining_answer hphase]
    have outside' : ∀ e ∈ log ++ [⟨.join, now, .joined (.error error), t⟩], ¬ e.isAdmission :=
      List.forall_mem_append.mpr ⟨outside, List.forall_mem_singleton.mpr nofun⟩
    unfold joinAnswer
    dsimp only
    split
    · unfold Retry.answered
      dsimp only
      split
      · exact .shut rfl outside' attempts
      · exact .resting rfl outside' count attempts
    · exact .shut rfl outside' attempts

theorem counted_joinPause (hphase : c.phase = .joining loop .pause)
    (attempts : loop.attempts = (joins log).length) (span : Nat) :
    Counted log (c.advance (moment x (x.nap now span).wokenAt)
      (.woken (x.nap now span).rested)) := by
  rw [advance_joining_pause hphase]
  unfold moment
  rcases woken_nap x now loop span with ⟨-, hwoken⟩ | ⟨-, hwoken⟩
  · rw [hwoken]
    exact .shut rfl outside count
  · rw [hwoken]
    exact .asking rfl outside count (congrArg (· + 1) attempts)

end Joining

theorem Counted.told (h : Counted log c) (hbrief : c.brief = b)
    (htold : Told b x now c.phase e t calls) :
    Counted (log ++ calls) (c.advance (moment x t) e) := by
  cases h with
  | probing phase unasked count =>
    subst unasked
    rw [phase] at htold
    cases htold
    rw [advance_probing phase]
    exact counted_probe count _ _
  | asking phase outside count attempts =>
    rw [phase] at htold
    cases htold
    exact counted_joined outside count phase attempts _
  | resting phase outside count attempts =>
    rw [phase] at htold
    cases htold
    rw [List.append_nil]
    exact counted_joinPause outside count phase attempts _
  | shut phase =>
    rw [phase] at htold
    cases htold
  | inside late admission count =>
    obtain ⟨q, hmem, hq⟩ := admission
    refine .inside ?_ ⟨q, List.mem_append_left _ hmem, hq⟩ ?_
    · exact eq_false_of_ne_true fun early =>
        Bool.false_ne_true (late.symm.trans ((htold.leads hbrief).isEarly early).1)
    · rw [htold.joinAttempts_eq hbrief late, count, joins_append, htold.joins_eq_nil late,
        List.append_nil]

theorem Counted.joinAttempts_le (h : Counted log c) : c.joinAttempts ≤ (joins log).length := by
  cases h with
  | probing _ _ count | asking _ _ count | resting _ _ count => exact count ▸ Nat.zero_le _
  | shut _ _ count =>
    rw [count]
    split
    · exact Nat.zero_le _
    · exact Nat.le_refl _
  | inside _ _ count => exact Nat.le_of_eq count

theorem History.counted (h : History b x log c now) : Counted log c := by
  induction h with
  | start now => exact counted_start
  | goOn h asked answered ih =>
    exact ih.told h.stands.brief (answered.told h.stands.brief asked)

/-! ## The range of the count -/

theorem Told.joins_cases {p : Phase} (h : Told b x now p e t calls) :
    joins calls = [] ∨ (∃ loop, p = .joining loop .answer) ∧ (joins calls).length = 1 := by
  cases h with
  | joined _ loop => exact .inr ⟨⟨loop, rfl⟩, rfl⟩
  | _ => exact .inl rfl

/-- From the start on, each join but the first has come an interval after the one before. -/
structure Spaced (b : Brief) (log : List Exchange) (c : Coordinator) (now : Nat) : Prop where
  made : c.startedAt + ((joins log).length - 1) * b.settings.joining.interval ≤ now
  policy : ∀ loop wait, c.phase = .joining loop wait → loop.policy = b.settings.joining
  next : ∀ loop, c.phase = .joining loop .answer →
    c.startedAt + (joins log).length * b.settings.joining.interval ≤ now

theorem spaced_start : Spaced b [] ((ofBrief b).advance (moment x now) .started) now where
  made := by simp [joins, startedAt_start]
  policy loop wait hphase := by
    have hleads : Leads b x now .fresh .started _ := leads_start
    rw [hphase] at hleads
    exact hleads.joinPolicy nofun
  next loop hphase := by simp [joins, startedAt_start]

theorem Spaced.rejoins (h : Spaced b log c now) (hcounted : Counted log c)
    (htold : Told b x now c.phase e t calls) {loop : Retry}
    (hleads : Leads b x t c.phase e (.joining loop .answer)) :
    c.startedAt + (joins (log ++ calls)).length * b.settings.joining.interval ≤ t := by
  obtain ⟨made, policy, -⟩ := h
  have hle := htold.le
  generalize hphase : c.phase = p at htold hleads policy
  generalize hnext : Phase.joining loop .answer = p' at hleads
  cases hleads with
  | join early =>
    rcases early with ⟨rfl, -⟩ | ⟨limit, endpoint, reachable, rfl, -⟩
    · cases htold
    · cases htold
      cases hcounted with
      | probing _ unasked =>
        subst unasked
        simp only [joins, List.nil_append, List.filter_nil, List.length_nil, Nat.zero_mul] at made ⊢
        omega
      | asking phase | resting phase | shut phase =>
        rw [hphase] at phase
        cases phase
      | inside late =>
        rw [hphase] at late
        cases late
  | rejoin loop rested free =>
    cases htold
    have hwoken := Cancellation.nap_of_live_wokenAt free
    rw [hwoken, List.append_nil, policy _ _ rfl]
    have hcount : (joins log).length ≤ (joins log).length - 1 + 1 := by omega
    have hspan := Nat.mul_le_mul_right b.settings.joining.interval hcount
    rw [Nat.succ_mul] at hspan
    dsimp only
    omega
  | depart _ _ plan => cases plan <;> cases hnext
  | proceed rest => cases rest <;> cases hnext
  | _ => cases hnext

theorem Spaced.told {request : Request} (h : Spaced b log c now) (hcounted : Counted log c)
    (hbrief : c.brief = b) (asked : c.request = some request)
    (htold : Told b x now c.phase e t calls) :
    Spaced b (log ++ calls) (c.advance (moment x t) e) t where
  made := by
    rw [startedAt_advance asked, joins_append, List.length_append]
    refine Nat.le_trans ?_ htold.le
    rcases htold.joins_cases with hnone | ⟨⟨loop, hphase⟩, hone⟩
    · rw [hnone]
      exact h.made
    · rw [hone]
      exact h.next loop hphase
  policy loop wait hphase := by
    have hleads := htold.leads hbrief
    rw [hphase] at hleads
    exact hleads.joinPolicy h.policy
  next loop hphase := by
    have hleads := htold.leads hbrief
    rw [hphase] at hleads
    rw [startedAt_advance asked]
    exact h.rejoins hcounted htold hleads

theorem History.spaced (h : History b x log c now) : Spaced b log c now := by
  induction h with
  | start now => exact spaced_start
  | goOn h asked answered ih =>
    exact ih.told h.counted h.stands.brief asked (answered.told h.stands.brief asked)

/-- A 32-bit counter is enough for the joins of a role that does not live for that many intervals. -/
theorem History.joinAttempts_lt {report : Report} (h : History b x log c now)
    (hreport : c.report? = some report)
    (hfits : now < c.startedAt + (UInt32.size - 1) * b.settings.joining.interval) :
    report.joinAttempts < UInt32.size := by
  have hlength : (joins log).length < UInt32.size := by
    refine Nat.lt_of_not_le fun hle => ?_
    have hspan := Nat.mul_le_mul_right b.settings.joining.interval (Nat.sub_le_sub_right hle 1)
    have hmade := h.spaced.made
    omega
  unfold report? at hreport
  split at hreport
  · obtain rfl := Option.some.inj hreport
    exact Nat.lt_of_le_of_lt h.counted.joinAttempts_le hlength
  · cases hreport

/-! ## The report -/

/-- A report counts all joins, whatever the host answers, unless the role was cancelled before it was
let in. Then it counts none. -/
theorem History.attempts_counted {report : Report} (h : History b x log c now)
    (hreport : c.report? = some report) :
    ((∃ e ∈ log, e.isAdmission) ∨ report.outcome ≠ .cancelled →
        report.joinAttempts = (joins log).length) ∧
      ((∀ e ∈ log, ¬ e.isAdmission) → report.outcome = .cancelled → report.joinAttempts = 0) := by
  unfold report? at hreport
  split at hreport
  · rename_i o elapsed hphase
    obtain rfl := Option.some.inj hreport
    cases h.counted with
    | probing phase | asking phase | resting phase =>
      rw [hphase] at phase
      cases phase
    | shut phase outside count =>
      rw [hphase] at phase
      cases phase
      refine ⟨fun hcounted => ?_, fun _ ho => count.trans (if_pos ho)⟩
      rcases hcounted with ⟨e, he, hadmission⟩ | ho
      · exact absurd hadmission (outside e he)
      · exact count.trans (if_neg ho)
    | inside late admission count =>
      obtain ⟨e, he, hadmission⟩ := admission
      exact ⟨fun _ => count, fun outside => absurd hadmission (outside e he)⟩
  · cases hreport

/-- A walk needs one join, and it is counted. -/
theorem attempts_counted_oneStep : ∃ c report, History oneStep none stepCalls c 206 ∧
    c.report? = some report ∧ report.joinAttempts = (joins stepCalls).length ∧
    ((∀ e ∈ stepCalls, ¬ e.isAdmission) → report.outcome = .cancelled →
      report.joinAttempts = 0) := by
  obtain ⟨c, h, hreport⟩ := exists_history_oneStep
  obtain ⟨hcounted, huncounted⟩ := h.attempts_counted hreport
  exact ⟨c, _, h, hreport, hcounted (.inr nofun), huncounted⟩

/-- A role is refused twice, and cancelled before it tries a third time. Its report counts nothing. -/
theorem exists_uncounted_joins : ∃ log c report, History oneStep (some 2000) log c 2000 ∧
    c.report? = some report ∧ (joins log).length = 2 ∧ report.joinAttempts = 0 := by
  have h₀ : History oneStep (some 2000) _ _ 0 := .start 0
  have h₁ : History oneStep (some 2000) _ _ 0 :=
    .goOn h₀ rfl (.join (Nat.le_refl 0) (.error (.notYetAvailable "maze")))
  have h₂ : History oneStep (some 2000) _ _ 1500 := .goOn h₁ rfl (.nap 1500)
  have h₃ : History oneStep (some 2000) _ _ 1500 :=
    .goOn h₂ rfl (.join (Nat.le_refl 1500) (.error (.notYetAvailable "maze")))
  have h₄ : History oneStep (some 2000) _ _ 2000 := .goOn h₃ rfl (.nap 1500)
  exact ⟨_, _, _, h₄, rfl, rfl, rfl⟩

end Labyrinth.Coordinator
