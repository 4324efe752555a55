import Labyrinth.Feed.Stream

/-!
# What reaches a client of the stream

A stream looks at a slot and subscribes to it later. What is published in a slot before the look or
after the subscription is noticed, and the last of it reaches the client. What is published between
them is not, unless more is published afterwards.
-/

namespace Labyrinth

/-! ## Slots -/

theorem Board.slots_publish_self {b : Board} {s : Snapshot} {slot : Slot}
    (h : b.slots[s.role.number]? = some slot) :
    (b.publish s).slots[s.role.number]? = some (slot.publish s) := by
  simp [Board.publish, h]

theorem Board.slots_publish_of_ne {b : Board} {s : Snapshot} {i : Nat} (h : s.role.number ≠ i) :
    (b.publish s).slots[i]? = b.slots[i]? := by
  simp [Board.publish, h]

namespace Feed

/-- The slot has been looked at. -/
def Stage.hasLooked (i : Nat) : Stage → Bool
  | .looking j => decide (i < j)
  | .subscribing _ | .forwarding => true

/-- The slot has been subscribed to. -/
def Stage.hasSubscribed (i : Nat) : Stage → Bool
  | .looking _ => false
  | .subscribing j => decide (i < j)
  | .forwarding => true

theorem Stage.hasLooked_of_hasSubscribed {stage : Stage} {i : Nat} (h : stage.hasSubscribed i) :
    stage.hasLooked i := by
  cases stage with
  | looking => cases h
  | subscribing | forwarding => rfl

/-- What has been sent or waits to be sent for a role. -/
def Stream.linedUp (st : Stream) (r : Role) : List Snapshot :=
  (st.sent ++ st.queue).filter fun s => decide (s.role = r)

namespace Streaming

/-- A stream that has done nothing yet, over a board on which nothing has been published. -/
def opened (roles : Nat) : Streaming := ⟨.ofRoles roles, .fresh⟩

/-- What is published for a role. -/
def published (r : Role) (ss : List Step) : List Snapshot :=
  ss.filterMap fun
    | .publish s => if s.role = r then some s else none
    | _ => none

/-- The stream has looked at the slot of a role and has not subscribed to it. -/
def overlooks (x : Streaming) (r : Role) : Bool :=
  x.stream.stage.hasLooked r.number && !x.stream.stage.hasSubscribed r.number

/-- What a step publishes for a role while the stream does not overlook it. -/
def notices (x : Streaming) (r : Role) : Step → List Snapshot
  | .publish s => if s.role = r ∧ x.overlooks r = false then [s] else []
  | _ => []

/-- What is published for a role while the stream does not overlook it. -/
def noticed (x : Streaming) (r : Role) : List Step → List Snapshot
  | [] => []
  | e :: ss => x.notices r e ++ (x.step e).noticed r ss

/-- The stream is set up, has forwarded everything and has sent it. -/
structure AtRest (x : Streaming) : Prop where
  forwarding : x.stream.stage = .forwarding
  unchanged : ∀ sub ∈ x.stream.subscriptions, x.board.changed sub = false
  drained : x.stream.queue = []

/-- The last snapshot of a role that the client got. -/
def lastSent (x : Streaming) (r : Role) : Option Snapshot :=
  (x.stream.sent.filter fun s => decide (s.role = r)).getLast?

variable {x y : Streaming} {e : Step} {r : Role} {l : List Snapshot}

/-! ## Steps -/

/-- What a step can do. -/
inductive Moves (x : Streaming) : Step → Streaming → Prop where
  | idle (e : Step) (h : ∀ s, e ≠ .publish s) : Moves x e x
  | published (s : Snapshot) : Moves x (.publish s) { x with board := x.board.publish s }
  | looked {i : Nat} {slot : Slot} (hstage : x.stream.stage = .looking i)
      (hslot : x.board.slots[i]? = some slot) :
      Moves x .setUp
        { x with stream := { enqueue x.stream slot.latest with stage := .looking (i + 1) } }
  | lookedAll {i : Nat} (hstage : x.stream.stage = .looking i) (hend : x.board.roles ≤ i) :
      Moves x .setUp { x with stream := { x.stream with stage := .subscribing 0 } }
  | subscribed {i : Nat} {slot : Slot} (hstage : x.stream.stage = .subscribing i)
      (hslot : x.board.slots[i]? = some slot) :
      Moves x .setUp { x with stream := { x.stream with
        subscriptions := x.stream.subscriptions ++ [⟨⟨i⟩, slot.version⟩]
        stage := .subscribing (i + 1) } }
  | subscribedAll {i : Nat} (hstage : x.stream.stage = .subscribing i)
      (hend : x.board.roles ≤ i) :
      Moves x .setUp { x with stream := { x.stream with stage := .forwarding } }
  | forwarded {i : Nat} {sub : Subscription} {slot : Slot}
      (hsub : x.stream.subscriptions[i]? = some sub)
      (hslot : x.board.slots[sub.role.number]? = some slot) (hchanged : slot.version ≠ sub.seen) :
      Moves x (.forward i) { x with stream := { enqueue x.stream slot.latest with
        subscriptions := x.stream.subscriptions.set i { sub with seen := slot.version } } }
  | sent {s : Snapshot} {queue : List Snapshot} (hqueue : x.stream.queue = s :: queue) :
      Moves x .send { x with stream := { x.stream with queue, sent := x.stream.sent ++ [s] } }

theorem moves_setUp (x : Streaming) : Moves x .setUp x.setUp := by
  unfold setUp
  split
  · rename_i i hstage
    split
    · exact .looked hstage ‹_›
    · exact .lookedAll hstage (List.getElem?_eq_none_iff.mp ‹_›)
  · rename_i i hstage
    unfold Board.subscribe Board.slot?
    cases hslot : x.board.slots[i]? with
    | some slot => exact .subscribed hstage hslot
    | none => exact .subscribedAll hstage (List.getElem?_eq_none_iff.mp hslot)
  · exact .idle _ (by simp)

theorem moves_forward (x : Streaming) (i : Nat) : Moves x (.forward i) (x.forward i) := by
  unfold forward
  split
  · exact .idle _ (by simp)
  · rename_i sub hsub
    split
    · rename_i hchanged
      unfold Board.changed Board.slot? at hchanged
      cases hslot : x.board.slots[sub.role.number]? with
      | none => simp [hslot] at hchanged
      | some slot =>
        have hread : x.board.read sub = (slot.latest, { sub with seen := slot.version }) := by
          simp [Board.read, Board.slot?, hslot]
        rw [hread]
        exact .forwarded hsub hslot (by simpa [hslot] using hchanged)
    · exact .idle _ (by simp)

theorem moves_send (x : Streaming) : Moves x .send x.send := by
  unfold send
  split
  · exact .idle _ (by simp)
  · exact .sent ‹_›

theorem moves_step (x : Streaming) (e : Step) : Moves x e (x.step e) := by
  cases e with
  | publish s => exact .published s
  | setUp => exact moves_setUp x
  | forward i => exact moves_forward x i
  | send => exact moves_send x

/-! ## Slots and subscriptions -/

/-- Each slot holds snapshots of its own role. -/
def OwnSlots (b : Board) : Prop :=
  ∀ (i : Nat) (slot : Slot) (s : Snapshot), b.slots[i]? = some slot → slot.latest = some s →
    s.role.number = i

/-- The subscriptions come in role order, and there are as many of them as the stage says. -/
structure Sound (x : Streaming) : Prop where
  own : OwnSlots x.board
  subscriptions : ∀ (i : Nat) (sub : Subscription), x.stream.subscriptions[i]? = some sub →
    sub.role.number = i
  counted : match x.stream.stage with
    | .looking _ => x.stream.subscriptions.length = 0
    | .subscribing i => x.stream.subscriptions.length = i ∧ i ≤ x.board.roles
    | .forwarding => x.stream.subscriptions.length = x.board.roles

theorem ownSlots_ofRoles (roles : Nat) : OwnSlots (.ofRoles roles) := by
  intro i slot s hslot hs
  have hempty : slot = .empty := List.eq_of_mem_replicate (List.mem_of_getElem? hslot)
  rw [hempty] at hs
  cases hs

theorem OwnSlots.publish {b : Board} (h : OwnSlots b) (s : Snapshot) : OwnSlots (b.publish s) := by
  intro i slot s' hslot hs'
  by_cases hi : s.role.number = i
  · subst hi
    cases hbefore : b.slots[s.role.number]? with
    | none => simp [Board.publish, hbefore] at hslot
    | some before =>
      rw [Board.slots_publish_self hbefore] at hslot
      obtain rfl := Option.some.inj hslot
      obtain rfl := Option.some.inj hs'
      rfl
  · rw [Board.slots_publish_of_ne hi] at hslot
    exact h i slot s' hslot hs'

theorem sound_opened (roles : Nat) : (opened roles).Sound where
  own := ownSlots_ofRoles roles
  subscriptions i sub hsub := by simp [opened, Stream.fresh] at hsub
  counted := rfl

theorem Sound.move (h : x.Sound) (hmoves : Moves x e y) : y.Sound := by
  have hcounted := h.counted
  cases hmoves with
  | idle => exact h
  | published s =>
    refine ⟨h.own.publish s, h.subscriptions, ?_⟩
    dsimp only
    rw [Board.roles_publish]
    exact hcounted
  | looked hstage hslot =>
    rw [hstage] at hcounted
    exact ⟨h.own, h.subscriptions, hcounted⟩
  | lookedAll hstage hend =>
    rw [hstage] at hcounted
    exact ⟨h.own, h.subscriptions, hcounted, Nat.zero_le _⟩
  | subscribed hstage hslot =>
    rename_i i slot
    rw [hstage] at hcounted
    obtain ⟨hlength, hle⟩ := hcounted
    have hlt : i < x.board.roles := (List.getElem?_eq_some_iff.mp hslot).1
    refine ⟨h.own, fun k sub hsub => ?_, by simp [hlength], hlt⟩
    rcases Nat.lt_trichotomy k i with hk | rfl | hk
    · rw [List.getElem?_append_left (by omega)] at hsub
      exact h.subscriptions k sub hsub
    · rw [← hlength, List.getElem?_concat_length] at hsub
      obtain rfl := Option.some.inj hsub
      exact hlength
    · rw [List.getElem?_eq_none (by simp; omega)] at hsub
      cases hsub
  | subscribedAll hstage hend =>
    rw [hstage] at hcounted
    exact ⟨h.own, h.subscriptions, hcounted.1.trans (Nat.le_antisymm hcounted.2 hend)⟩
  | forwarded hsub hslot hchanged =>
    rename_i i sub slot
    refine ⟨h.own, fun k sub' hsub' => ?_, ?_⟩
    · dsimp only at hsub'
      by_cases hk : i = k
      · subst hk
        have hlt : i < x.stream.subscriptions.length := (List.getElem?_eq_some_iff.mp hsub).1
        rw [List.getElem?_set_self hlt] at hsub'
        obtain rfl := Option.some.inj hsub'
        exact h.subscriptions i sub hsub
      · rw [List.getElem?_set_ne hk] at hsub'
        exact h.subscriptions k sub' hsub'
    · dsimp only [enqueue]
      rw [List.length_set]
      exact hcounted
  | sent hqueue => exact ⟨h.own, h.subscriptions, hcounted⟩

theorem Sound.hasSubscribed {i : Nat} {sub : Subscription} (h : x.Sound)
    (hsub : x.stream.subscriptions[i]? = some sub) : x.stream.stage.hasSubscribed i := by
  have hlt : i < x.stream.subscriptions.length := (List.getElem?_eq_some_iff.mp hsub).1
  have hcounted := h.counted
  cases hstage : x.stream.stage with
  | looking j =>
    rw [hstage] at hcounted
    dsimp only at hcounted
    omega
  | subscribing j =>
    rw [hstage] at hcounted
    exact decide_eq_true (hcounted.1 ▸ hlt)
  | forwarding => rfl

/-! ## What is noticed -/

/-- What is lined up for a role ends with the last snapshot that was noticed, or that one waits in
the slot to be forwarded. -/
inductive Heeds (x : Streaming) (r : Role) (l : List Snapshot) : Prop where
  | ahead {slot : Slot} (hslot : x.board.slots[r.number]? = some slot)
      (ahead : x.stream.stage.hasLooked r.number = false) (none : x.stream.linedUp r = [])
      (latest : slot.latest = l.getLast?) : Heeds x r l
  | between {slot : Slot} (hslot : x.board.slots[r.number]? = some slot)
      (looked : x.stream.stage.hasLooked r.number)
      (unsubscribed : x.stream.stage.hasSubscribed r.number = false)
      (last : (x.stream.linedUp r).getLast? = l.getLast?) : Heeds x r l
  | after {slot : Slot} {sub : Subscription} (hslot : x.board.slots[r.number]? = some slot)
      (subscribed : x.stream.stage.hasSubscribed r.number)
      (hsub : x.stream.subscriptions[r.number]? = some sub) (hle : sub.seen ≤ slot.version)
      (last : slot.version = sub.seen → (x.stream.linedUp r).getLast? = l.getLast?)
      (pending : slot.version ≠ sub.seen → ∃ s, slot.latest = some s ∧ l.getLast? = some s) :
      Heeds x r l

theorem linedUp_enqueue (st : Stream) (s : Option Snapshot) (r : Role) :
    (enqueue st s).linedUp r = st.linedUp r ++ s.toList.filter fun s => decide (s.role = r) := by
  simp [Stream.linedUp, enqueue, List.filter_append]

theorem linedUp_enqueue_of_ne (h : OwnSlots x.board) {i : Nat} {slot : Slot}
    (hslot : x.board.slots[i]? = some slot) (hi : i ≠ r.number) :
    (enqueue x.stream slot.latest).linedUp r = x.stream.linedUp r := by
  rw [linedUp_enqueue, List.filter_eq_nil_iff.mpr, List.append_nil]
  intro s hs
  have hown := h i slot s hslot (Option.mem_toList.mp hs)
  simp only [decide_eq_true_eq]
  rintro rfl
  exact hi hown.symm

theorem linedUp_enqueue_self (h : OwnSlots x.board) {slot : Slot}
    (hslot : x.board.slots[r.number]? = some slot) :
    (enqueue x.stream slot.latest).linedUp r = x.stream.linedUp r ++ slot.latest.toList := by
  rw [linedUp_enqueue, List.filter_eq_self.mpr]
  intro s hs
  have hown := h r.number slot s hslot (Option.mem_toList.mp hs)
  exact decide_eq_true (congrArg Role.mk hown)

/-! ### One step -/

theorem Heeds.publish (h : Heeds x r l) (s : Snapshot) :
    Heeds { x with board := x.board.publish s } r (l ++ x.notices r (.publish s)) := by
  have hnotices : x.notices r (.publish s) =
      if s.role = r ∧ x.overlooks r = false then [s] else [] := rfl
  rw [hnotices]
  by_cases hs : s.role = r
  · subst hs
    cases h with
    | ahead hslot ahead none latest =>
      rw [if_pos ⟨rfl, by simp [overlooks, ahead]⟩]
      refine .ahead (Board.slots_publish_self hslot) ahead none ?_
      rw [List.getLast?_concat]
      rfl
    | between hslot looked unsubscribed last =>
      rw [if_neg (by simp [overlooks, looked, unsubscribed]), List.append_nil]
      exact .between (Board.slots_publish_self hslot) looked unsubscribed last
    | after hslot subscribed hsub hle last pending =>
      rw [if_pos ⟨rfl, by simp [overlooks, subscribed]⟩]
      refine .after (Board.slots_publish_self hslot) subscribed hsub (Nat.le_succ_of_le hle) ?_ ?_
      · intro heq
        have hlt := Nat.lt_succ_of_le hle
        exact absurd heq (Nat.ne_of_gt hlt)
      · intro _
        exact ⟨s, rfl, List.getLast?_concat⟩
  · rw [if_neg (fun h => hs h.1), List.append_nil]
    have hne : s.role.number ≠ r.number := fun heq => hs (congrArg Role.mk heq)
    have hsame := Board.slots_publish_of_ne (b := x.board) hne
    cases h with
    | ahead hslot ahead none latest => exact .ahead (hsame.trans hslot) ahead none latest
    | between hslot looked unsubscribed last =>
      exact .between (hsame.trans hslot) looked unsubscribed last
    | after hslot subscribed hsub hle last pending =>
      exact .after (hsame.trans hslot) subscribed hsub hle last pending

theorem Heeds.look (h : Heeds x r l) (own : OwnSlots x.board) {i : Nat} {slot : Slot}
    (hstage : x.stream.stage = .looking i) (hslot' : x.board.slots[i]? = some slot) :
    Heeds { x with stream := { enqueue x.stream slot.latest with stage := .looking (i + 1) } }
      r l := by
  cases h with
  | ahead hslot ahead none latest =>
    have hle : i ≤ r.number := by simpa [hstage, Stage.hasLooked] using ahead
    by_cases hi : i = r.number
    · subst hi
      obtain rfl := Option.some.inj (hslot'.symm.trans hslot)
      refine .between hslot (decide_eq_true (Nat.lt_succ_self _)) rfl ?_
      have hlined := linedUp_enqueue_self own hslot
      rw [none, List.nil_append] at hlined
      refine (congrArg List.getLast? hlined).trans ?_
      rw [← latest]
      cases slot.latest <;> rfl
    · refine .ahead hslot (decide_eq_false (by omega)) ?_ latest
      exact (linedUp_enqueue_of_ne own hslot' hi).trans none
  | between hslot looked unsubscribed last =>
    have hlt : r.number < i := by simpa [hstage, Stage.hasLooked] using looked
    refine .between hslot (decide_eq_true (by omega)) rfl ?_
    exact (congrArg List.getLast? (linedUp_enqueue_of_ne own hslot' (by omega))).trans last
  | after hslot subscribed =>
    rw [hstage] at subscribed
    cases subscribed

theorem Heeds.subscribe (h : Heeds x r l) (sound : x.Sound) {i : Nat} {slot : Slot}
    (hstage : x.stream.stage = .subscribing i) (hslot' : x.board.slots[i]? = some slot) :
    Heeds { x with stream := { x.stream with
      subscriptions := x.stream.subscriptions ++ [⟨⟨i⟩, slot.version⟩]
      stage := .subscribing (i + 1) } } r l := by
  have hlength : x.stream.subscriptions.length = i := by
    have hcounted := sound.counted
    rw [hstage] at hcounted
    exact hcounted.1
  cases h with
  | ahead hslot ahead =>
    rw [hstage] at ahead
    cases ahead
  | between hslot looked unsubscribed last =>
    have hle : i ≤ r.number := by simpa [hstage, Stage.hasSubscribed] using unsubscribed
    by_cases hi : i = r.number
    · subst hi
      obtain rfl := Option.some.inj (hslot'.symm.trans hslot)
      have hsub : (x.stream.subscriptions ++ [⟨⟨r.number⟩, slot.version⟩])[r.number]? =
          some ⟨⟨r.number⟩, slot.version⟩ := by
        rw [List.getElem?_append_right (by omega), hlength, Nat.sub_self]
        rfl
      exact .after hslot (decide_eq_true (Nat.lt_succ_self _)) hsub (Nat.le_refl _)
        (fun _ => last) (fun hne => absurd rfl hne)
    · exact .between hslot rfl (decide_eq_false (by omega)) last
  | after hslot subscribed hsub hle last pending =>
    have hlt : r.number < i := by simpa [hstage, Stage.hasSubscribed] using subscribed
    refine .after hslot (decide_eq_true (by omega)) ?_ hle last pending
    exact (List.getElem?_append_left (by omega)).trans hsub

theorem Heeds.forward (h : Heeds x r l) (sound : x.Sound) {i : Nat} {sub : Subscription}
    {slot : Slot} (hsub' : x.stream.subscriptions[i]? = some sub)
    (hslot' : x.board.slots[sub.role.number]? = some slot) (hchanged : slot.version ≠ sub.seen) :
    Heeds { x with stream := { enqueue x.stream slot.latest with
      subscriptions := x.stream.subscriptions.set i { sub with seen := slot.version } } } r l := by
  have hi : sub.role.number = i := sound.subscriptions i sub hsub'
  have hlt : i < x.stream.subscriptions.length := (List.getElem?_eq_some_iff.mp hsub').1
  have hsubscribed := sound.hasSubscribed hsub'
  by_cases hri : i = r.number
  · subst hri
    rw [hi] at hslot'
    cases h with
    | ahead hslot ahead =>
      rw [Stage.hasLooked_of_hasSubscribed hsubscribed] at ahead
      cases ahead
    | between hslot looked unsubscribed =>
      rw [hsubscribed] at unsubscribed
      cases unsubscribed
    | after hslot subscribed hsub hle last pending =>
      obtain rfl := Option.some.inj (hslot'.symm.trans hslot)
      obtain rfl := Option.some.inj (hsub'.symm.trans hsub)
      obtain ⟨s, hs, hlast⟩ := pending hchanged
      have hlined : (enqueue x.stream slot.latest).linedUp r = x.stream.linedUp r ++ [s] :=
        (linedUp_enqueue_self sound.own hslot).trans (by rw [hs]; rfl)
      refine .after hslot subscribed (List.getElem?_set_self hlt) (Nat.le_refl _) (fun _ => ?_)
        (fun hne => absurd rfl hne)
      refine (congrArg List.getLast? hlined).trans ?_
      rw [hlast]
      exact List.getLast?_concat
  · have hlined := linedUp_enqueue_of_ne sound.own hslot' (by omega : sub.role.number ≠ r.number)
    cases h with
    | ahead hslot ahead none latest => exact .ahead hslot ahead (hlined.trans none) latest
    | between hslot looked unsubscribed last =>
      exact .between hslot looked unsubscribed ((congrArg List.getLast? hlined).trans last)
    | after hslot subscribed hsub hle last pending =>
      refine .after hslot subscribed ((List.getElem?_set_ne hri).trans hsub) hle ?_ pending
      exact fun heq => (congrArg List.getLast? hlined).trans (last heq)

theorem Heeds.move (h : Heeds x r l) (sound : x.Sound) (hmoves : Moves x e y) :
    Heeds y r (l ++ x.notices r e) := by
  have hquiet : (∀ s, e ≠ .publish s) → l ++ x.notices r e = l := by
    intro hne
    cases e with
    | publish s => exact absurd rfl (hne s)
    | _ => exact List.append_nil l
  have hroles : ∀ slot, x.board.slots[r.number]? = some slot → r.number < x.board.roles :=
    fun slot hslot => (List.getElem?_eq_some_iff.mp hslot).1
  cases hmoves with
  | idle _ hne => exact (hquiet hne).symm ▸ h
  | published s => exact h.publish s
  | looked hstage hslot => exact (List.append_nil l).symm ▸ h.look sound.own hstage hslot
  | lookedAll hstage hend =>
    refine (List.append_nil l).symm ▸ ?_
    cases h with
    | ahead hslot ahead =>
      have hlt := hroles _ hslot
      rw [hstage] at ahead
      exact absurd (of_decide_eq_false ahead) (by omega)
    | between hslot looked unsubscribed last => exact .between hslot rfl rfl last
    | after hslot subscribed =>
      rw [hstage] at subscribed
      cases subscribed
  | subscribed hstage hslot => exact (List.append_nil l).symm ▸ h.subscribe sound hstage hslot
  | subscribedAll hstage hend =>
    refine (List.append_nil l).symm ▸ ?_
    cases h with
    | ahead hslot ahead =>
      rw [hstage] at ahead
      cases ahead
    | between hslot looked unsubscribed =>
      have hlt := hroles _ hslot
      rw [hstage] at unsubscribed
      exact absurd (of_decide_eq_false unsubscribed) (by omega)
    | after hslot subscribed hsub hle last pending => exact .after hslot rfl hsub hle last pending
  | forwarded hsub hslot hchanged =>
    exact (List.append_nil l).symm ▸ h.forward sound hsub hslot hchanged
  | sent hqueue =>
    rename_i s queue
    refine (List.append_nil l).symm ▸ ?_
    have hlined : Stream.linedUp { x.stream with queue, sent := x.stream.sent ++ [s] } r =
        x.stream.linedUp r := by
      simp [Stream.linedUp, hqueue]
    cases h with
    | ahead hslot ahead none latest => exact .ahead hslot ahead (hlined.trans none) latest
    | between hslot looked unsubscribed last =>
      exact .between hslot looked unsubscribed ((congrArg List.getLast? hlined).trans last)
    | after hslot subscribed hsub hle last pending =>
      refine .after hslot subscribed hsub hle ?_ pending
      exact fun heq => (congrArg List.getLast? hlined).trans (last heq)

/-! ### Every interleaving -/

theorem Heeds.steps (h : Heeds x r l) (sound : x.Sound) (ss : List Step) :
    Heeds (x.steps ss) r (l ++ x.noticed r ss) := by
  induction ss generalizing x l with
  | nil => exact (List.append_nil l).symm ▸ h
  | cons e ss ih =>
    have hstep := ih (h.move sound (moves_step x e)) (sound.move (moves_step x e))
    rw [List.append_assoc] at hstep
    exact hstep

theorem Sound.steps (h : x.Sound) (ss : List Step) : (x.steps ss).Sound := by
  induction ss generalizing x with
  | nil => exact h
  | cons e ss ih => exact ih (h.move (moves_step x e))

theorem heeds_opened {roles : Nat} (hr : r.number < roles) : Heeds (opened roles) r [] := by
  have hslot : (opened roles).board.slots[r.number]? = some .empty := by
    simp [opened, Board.ofRoles, hr]
  have hahead : (opened roles).stream.stage.hasLooked r.number = false := by
    simp [opened, Stream.fresh, Stage.hasLooked]
  exact .ahead hslot hahead rfl rfl

theorem Heeds.lastSent_eq (h : Heeds x r l) (sound : x.Sound) (hrest : x.AtRest) :
    x.lastSent r = l.getLast? := by
  have hsent : x.stream.linedUp r = x.stream.sent.filter fun s => decide (s.role = r) := by
    rw [Stream.linedUp, hrest.drained, List.append_nil]
  cases h with
  | ahead hslot ahead =>
    rw [hrest.forwarding] at ahead
    cases ahead
  | between hslot looked unsubscribed =>
    rw [hrest.forwarding] at unsubscribed
    cases unsubscribed
  | after hslot subscribed hsub hle last pending =>
    have hunchanged := hrest.unchanged _ (List.mem_of_getElem? hsub)
    have hrole := sound.subscriptions _ _ hsub
    unfold Board.changed Board.slot? at hunchanged
    rw [hrole, hslot] at hunchanged
    have heq := of_decide_eq_false hunchanged
    unfold lastSent
    rw [← hsent]
    exact last (Decidable.of_not_not heq)

theorem noticed_append (x : Streaming) (r : Role) (before after : List Step) :
    x.noticed r (before ++ after) = x.noticed r before ++ (x.steps before).noticed r after := by
  induction before generalizing x with
  | nil => rfl
  | cons e before ih =>
    rw [List.cons_append, noticed, ih, noticed, List.append_assoc]
    rfl

theorem Moves.hasSubscribed {i : Nat} (h : Moves x e y)
    (hsubscribed : x.stream.stage.hasSubscribed i) : y.stream.stage.hasSubscribed i := by
  cases h with
  | looked hstage | lookedAll hstage =>
    rw [hstage] at hsubscribed
    cases hsubscribed
  | subscribed hstage =>
    rw [hstage] at hsubscribed
    exact decide_eq_true (Nat.lt_succ_of_lt (of_decide_eq_true hsubscribed))
  | subscribedAll => rfl
  | idle | published | forwarded | sent => exact hsubscribed

/-- Nothing is overlooked in a slot that has been subscribed to. -/
theorem noticed_eq_published (h : x.stream.stage.hasSubscribed r.number) (ss : List Step) :
    x.noticed r ss = published r ss := by
  induction ss generalizing x with
  | nil => rfl
  | cons e ss ih =>
    rw [noticed, ih ((moves_step x e).hasSubscribed h)]
    cases e with
    | publish s =>
      have hnotices : x.notices r (.publish s) = if s.role = r then [s] else [] := by
        simp [notices, overlooks, h]
      rw [hnotices]
      by_cases hs : s.role = r <;> simp [published, hs]
    | setUp | forward | send => rfl

/-- However publications come in between its steps, the last snapshot of a role that a stream at
rest has sent is the last that it noticed. What is published once the slot of the role has been
subscribed to is always noticed. -/
theorem delivers {roles : Nat} {ss : List Step} (hr : r.number < roles)
    (hrest : ((opened roles).steps ss).AtRest) :
    ((opened roles).steps ss).lastSent r = ((opened roles).noticed r ss).getLast? ∧
      ∀ before after, ss = before ++ after →
        ((opened roles).steps before).stream.stage.hasSubscribed r.number →
        published r after ≠ [] →
        ((opened roles).steps ss).lastSent r = (published r after).getLast? := by
  have hsound := sound_opened roles
  have hlast := ((heeds_opened hr).steps hsound ss).lastSent_eq (hsound.steps ss) hrest
  rw [List.nil_append] at hlast
  refine ⟨hlast, fun before after hss hsubscribed hpublished => ?_⟩
  rw [hlast, hss, noticed_append, noticed_eq_published hsubscribed, List.getLast?_append,
    List.getLast?_eq_some_getLast hpublished, Option.some_or]

/-- A snapshot that is published once the stream is set up reaches the client. -/
theorem delivers_after_setUp :
    let s := Snapshot.planned .creator ⟨1, 1⟩ 0
    let x := (opened 1).steps [.setUp, .setUp, .setUp, .setUp, .publish s, .forward 0, .send]
    x.AtRest ∧ x.lastSent .creator = some s := by
  intro s x
  have hrest : x.AtRest := ⟨rfl, List.forall_mem_singleton.mpr rfl, rfl⟩
  have hdelivers := (delivers Nat.one_pos hrest).2 [.setUp, .setUp, .setUp, .setUp]
    [.publish s, .forward 0, .send] rfl rfl (by simp [published, s, Snapshot.planned, Role.creator])
  exact ⟨hrest, hdelivers⟩

/-- A snapshot that is published between the look at its slot and the subscription to it is lost. -/
theorem not_delivers_between : ¬ ∀ (roles : Nat) (ss : List Step) (r : Role), r.number < roles →
    ((opened roles).steps ss).AtRest →
    ((opened roles).steps ss).lastSent r = (published r ss).getLast? := by
  intro h
  have hlost := h 1 [.setUp, .publish (.planned .creator ⟨1, 1⟩ 0), .setUp, .setUp, .setUp] .creator
    Nat.one_pos ⟨rfl, List.forall_mem_singleton.mpr rfl, rfl⟩
  cases hlost

end Streaming

end Feed

end Labyrinth
