import Mathlib.Data.List.Basic
import Labyrinth.Position.Board
import Labyrinth.Proofs.Log

/-!
# Histories of a board

Snapshots are published on a board, looked up, subscribed to and read, in any order. The requests
made so far determine every answer: the last accepted snapshot of a role is what its slot shows, and
a subscription has something unseen if something was published since it was made and last read.
-/

namespace Labyrinth.Board

/-! ## What is asked and answered -/

/-- A request to a board. Copies of a board share its slots, so it does not matter which of them is
asked. Subscriptions are numbered in the order in which they are made. -/
inductive Request where
  | publish (s : Snapshot)
  | latest (r : Role)
  | snapshot
  | subscribe (r : Role)
  | subscribeAll
  | changed (number : Nat)
  | read (number : Nat)

inductive Answer where
  | accepted (yes : Bool)
  | latest (s : Option Snapshot)
  | snapshots (ss : List Snapshot)
  | subscribed (number : Option Nat)
  | subscribedAll (count : Nat)
  | changed (unseen : Bool)
  /-- There is no such subscription. -/
  | unknown

/-- A board and the subscriptions to it, oldest first. -/
structure Usage where
  board : Board
  subscriptions : List Subscription

namespace Usage

/-- A new board, to which nobody has subscribed. -/
def opened (roles : Nat) : Usage := ⟨.ofRoles roles, []⟩

def serve (u : Usage) : Request → Answer × Usage
  | .publish s => (.accepted (u.board.tracks s.role), { u with board := u.board.publish s })
  | .latest r => (.latest (u.board.latest r), u)
  | .snapshot => (.snapshots u.board.snapshot, u)
  | .subscribe r =>
    match u.board.subscribe r with
    | none => (.subscribed none, u)
    | some sub =>
      (.subscribed (some u.subscriptions.length),
        { u with subscriptions := u.subscriptions ++ [sub] })
  | .subscribeAll =>
    (.subscribedAll u.board.subscribeAll.length,
      { u with subscriptions := u.subscriptions ++ u.board.subscribeAll })
  | .changed i =>
    match u.subscriptions[i]? with
    | none => (.unknown, u)
    | some sub => (.changed (u.board.changed sub), u)
  | .read i =>
    match u.subscriptions[i]? with
    | none => (.unknown, u)
    | some sub =>
      let (s, sub) := u.board.read sub
      (.latest s, { u with subscriptions := u.subscriptions.set i sub })

def ask (u : Usage) (q : Request) : Answer := (u.serve q).1

def after (u : Usage) (qs : List Request) : Usage := qs.foldl (fun u q => (u.serve q).2) u

end Usage

/-! ## What the requests amount to -/

/-- The snapshots of a role that a board for so many roles has accepted. -/
def accepted (roles : Nat) (r : Role) (qs : List Request) : List Snapshot :=
  qs.filterMap fun
    | .publish s => if s.role = r ∧ r.number < roles then some s else none
    | _ => none

/-- The roles that a request subscribes to. -/
def Request.subscribes (roles : Nat) : Request → List Role
  | .subscribe r => if r.number < roles then [r] else []
  | .subscribeAll => (List.range roles).map Role.mk
  | _ => []

/-- The roles of all subscriptions, oldest first. -/
def subscribed (roles : Nat) (qs : List Request) : List Role :=
  qs.flatMap (Request.subscribes roles)

/-- A snapshot of the role was published after the subscription of this number was made, and the
subscription was not read after that. -/
def Unseen (roles number : Nat) (r : Role) (qs : List Request) : Prop :=
  ∃ before s after, qs = before ++ .publish s :: after ∧ s.role = r ∧
    number < (subscribed roles before).length ∧ ∀ q ∈ after, q ≠ .read number

variable {roles i : Nat} {r : Role} {q : Request} {qs : List Request} {u : Usage}

theorem accepted_append (roles : Nat) (r : Role) (before after : List Request) :
    accepted roles r (before ++ after) = accepted roles r before ++ accepted roles r after :=
  List.filterMap_append

theorem accepted_publish (roles : Nat) (r : Role) (s : Snapshot) :
    accepted roles r [.publish s] = if s.role = r ∧ r.number < roles then [s] else [] := by
  by_cases h : s.role = r ∧ r.number < roles <;> simp [accepted, h]

theorem accepted_concat (hq : ∀ s, q ≠ .publish s) :
    accepted roles r (qs ++ [q]) = accepted roles r qs := by
  have hnone : accepted roles r [q] = [] := by
    cases q with
    | publish s => exact absurd rfl (hq s)
    | latest | snapshot | subscribe | subscribeAll | changed | read => rfl
  rw [accepted_append, hnone, List.append_nil]

theorem accepted_eq_nil (h : roles ≤ r.number) : accepted roles r qs = [] := by
  rw [accepted, List.filterMap_eq_nil_iff]
  intro q _
  cases q with
  | publish s => exact if_neg fun hand => absurd hand.2 (Nat.not_lt.mpr h)
  | latest | snapshot | subscribe | subscribeAll | changed | read => rfl

theorem subscribed_concat :
    subscribed roles (qs ++ [q]) = subscribed roles qs ++ q.subscribes roles := by
  simp [subscribed]

theorem number_lt_of_mem_subscribed (h : r ∈ subscribed roles qs) : r.number < roles := by
  obtain ⟨q, -, hr⟩ := List.mem_flatMap.mp h
  cases q with
  | subscribe r' =>
    simp only [Request.subscribes] at hr
    split at hr
    · rwa [List.mem_singleton.mp hr]
    · cases hr
  | subscribeAll =>
    obtain ⟨i, hi, rfl⟩ := List.mem_map.mp hr
    exact List.mem_range.mp hi
  | publish | latest | snapshot | changed | read => cases hr

theorem not_unseen_of_le (h : (subscribed roles qs).length ≤ i) : ¬ Unseen roles i r qs := by
  rintro ⟨before, s, after, rfl, -, hlt, -⟩
  simp only [subscribed, List.flatMap_append, List.length_append] at h hlt
  omega

theorem unseen_concat : Unseen roles i r (qs ++ [q]) ↔
    (∃ s, q = .publish s ∧ s.role = r ∧ i < (subscribed roles qs).length) ∨
      Unseen roles i r qs ∧ q ≠ .read i := by
  constructor
  · rintro ⟨before, s, after, heq, hrole, hlt, hafter⟩
    rcases append_eq_append_cons_iff.mp heq with ⟨rfl, rfl, rfl⟩ | ⟨after', rfl, rfl⟩
    · exact .inl ⟨s, rfl, hrole, hlt⟩
    · obtain ⟨hbefore, hlast⟩ := List.forall_mem_append.mp hafter
      exact .inr ⟨⟨before, s, after', rfl, hrole, hlt, hbefore⟩, hlast q List.mem_cons_self⟩
  · rintro (⟨s, rfl, hrole, hlt⟩ | ⟨⟨before, s, after, rfl, hrole, hlt, hafter⟩, hread⟩)
    · exact ⟨qs, s, [], rfl, hrole, hlt, by simp⟩
    · refine ⟨before, s, after ++ [q], by simp, hrole, hlt, ?_⟩
      exact forall_mem_append_singleton hafter hread

theorem unseen_concat_of_quiet (hq : ∀ s, q ≠ .publish s) :
    Unseen roles i r (qs ++ [q]) ↔ Unseen roles i r qs ∧ q ≠ .read i := by
  rw [unseen_concat, or_iff_right]
  rintro ⟨s, heq, -⟩
  exact hq s heq

/-! ## One request -/

/-- What the slot of a role keeps of what was accepted. -/
def kept (roles : Nat) (r : Role) (qs : List Request) : Slot :=
  ⟨(accepted roles r qs).length, (accepted roles r qs).getLast?⟩

/-- Board and subscriptions stand as the requests made so far say. -/
structure Recorded (roles : Nat) (qs : List Request) (u : Usage) : Prop where
  slots : u.board.slots = (List.range roles).map fun i => kept roles ⟨i⟩ qs
  subscriptions : u.subscriptions.map Subscription.role = subscribed roles qs
  seen : ∀ i sub, u.subscriptions[i]? = some sub →
    sub.seen ≤ (accepted roles sub.role qs).length ∧
      (sub.seen ≠ (accepted roles sub.role qs).length ↔ Unseen roles i sub.role qs)

theorem recorded_opened (roles : Nat) : Recorded roles [] (.opened roles) where
  slots := by simp [Usage.opened, ofRoles, kept, accepted, Slot.empty]
  subscriptions := rfl
  seen i sub hsub := by simp [Usage.opened] at hsub

namespace Recorded

theorem board_roles (h : Recorded roles qs u) : u.board.roles = roles := by
  simp [Board.roles, h.slots]

theorem slot?_eq (h : Recorded roles qs u) (r : Role) :
    u.board.slot? r = if r.number < roles then some (kept roles r qs) else none := by
  by_cases hr : r.number < roles <;> simp [slot?, h.slots, hr]

theorem number_lt {sub : Subscription} (h : Recorded roles qs u)
    (hsub : u.subscriptions[i]? = some sub) : sub.role.number < roles := by
  have hmem : sub.role ∈ subscribed roles qs := by
    rw [← h.subscriptions]
    exact List.mem_map_of_mem (List.mem_of_getElem? hsub)
  exact number_lt_of_mem_subscribed hmem

theorem slot?_of_subscription {sub : Subscription} (h : Recorded roles qs u)
    (hsub : u.subscriptions[i]? = some sub) :
    u.board.slot? sub.role = some (kept roles sub.role qs) := by
  rw [h.slot?_eq, if_pos (h.number_lt hsub)]

theorem subscribe_eq (h : Recorded roles qs u) (r : Role) :
    u.board.subscribe r =
      if r.number < roles then some ⟨r, (accepted roles r qs).length⟩ else none := by
  rw [subscribe, h.slot?_eq]
  split <;> rfl

theorem subscribeAll_eq (h : Recorded roles qs u) :
    u.board.subscribeAll =
      (List.range roles).map fun i => ⟨⟨i⟩, (accepted roles ⟨i⟩ qs).length⟩ := by
  rw [subscribeAll, h.board_roles, ← List.filterMap_eq_map']
  apply List.filterMap_congr
  intro i hi
  rw [h.subscribe_eq, if_pos (List.mem_range.mp hi)]

theorem publish (h : Recorded roles qs u) (s : Snapshot) :
    Recorded roles (qs ++ [.publish s]) { u with board := u.board.publish s } where
  slots := by
    apply List.ext_getElem?
    intro i
    have hrole : s.role.number = i ↔ s.role = ⟨i⟩ := ⟨congrArg Role.mk, congrArg Role.number⟩
    by_cases hi : i < roles
    · simp only [Board.publish, h.slots, List.getElem?_modify, List.getElem?_map,
        List.getElem?_range hi, Option.map_some, kept, accepted_append, accepted_publish, hrole,
        hi, and_true]
      by_cases hs : s.role = ⟨i⟩ <;> simp [hs, Slot.publish]
    · simp [Board.publish, h.slots, hi]
  subscriptions := by
    rw [subscribed_concat, h.subscriptions]
    exact (List.append_nil _).symm
  seen i sub hsub := by
    obtain ⟨hle, hunseen⟩ := h.seen i sub hsub
    have hnumber := h.number_lt hsub
    have hi : i < (subscribed roles qs).length := by
      rw [← h.subscriptions, List.length_map]
      exact (List.getElem?_eq_some_iff.mp hsub).1
    rw [accepted_append, accepted_publish, unseen_concat]
    by_cases hs : s.role = sub.role
    · rw [if_pos ⟨hs, hnumber⟩, List.length_append, List.length_singleton]
      refine ⟨by omega, fun _ => .inl ⟨s, rfl, hs, hi⟩, fun _ => by omega⟩
    · rw [if_neg (fun hand => hs hand.1), List.append_nil]
      refine ⟨hle, fun hne => .inr ⟨hunseen.mp hne, by simp⟩, ?_⟩
      rintro (⟨s', heq, hs', -⟩ | ⟨hold, -⟩)
      · exact absurd (Request.publish.inj heq ▸ hs') hs
      · exact hunseen.mpr hold

theorem subscribe (h : Recorded roles qs u) {news : List Subscription}
    (hpublish : ∀ s, q ≠ .publish s)
    (hread : ∀ i sub, u.subscriptions[i]? = some sub → q ≠ .read i)
    (hroles : news.map Subscription.role = q.subscribes roles)
    (hnews : ∀ sub ∈ news, sub.seen = (accepted roles sub.role qs).length) :
    Recorded roles (qs ++ [q]) { u with subscriptions := u.subscriptions ++ news } where
  slots := by
    simp only [kept, accepted_concat hpublish]
    exact h.slots
  subscriptions := by
    rw [subscribed_concat, List.map_append, h.subscriptions, hroles]
  seen i sub hsub := by
    dsimp only at hsub
    rw [accepted_concat hpublish, unseen_concat_of_quiet hpublish]
    rw [List.getElem?_append] at hsub
    split at hsub
    · obtain ⟨hle, hunseen⟩ := h.seen i sub hsub
      exact ⟨hle, hunseen.trans (and_iff_left (hread i sub hsub)).symm⟩
    · have hseen := hnews sub (List.mem_of_getElem? hsub)
      have hlate : (subscribed roles qs).length ≤ i := by
        rw [← h.subscriptions, List.length_map]
        omega
      refine ⟨Nat.le_of_eq hseen, fun hne => absurd hseen hne, fun hold => ?_⟩
      exact absurd hold.1 (not_unseen_of_le hlate)

theorem idle (h : Recorded roles qs u) (hpublish : ∀ s, q ≠ .publish s)
    (hread : ∀ i sub, u.subscriptions[i]? = some sub → q ≠ .read i)
    (hnone : q.subscribes roles = []) : Recorded roles (qs ++ [q]) u := by
  have hsame : Recorded roles (qs ++ [q]) { u with subscriptions := u.subscriptions ++ [] } :=
    h.subscribe hpublish hread hnone.symm (by simp)
  rwa [List.append_nil] at hsame

theorem read {sub : Subscription} (h : Recorded roles qs u)
    (hsub : u.subscriptions[i]? = some sub) :
    Recorded roles (qs ++ [.read i]) { u with
      subscriptions :=
        u.subscriptions.set i { sub with seen := (accepted roles sub.role qs).length } } where
  slots := by
    simp only [kept, accepted_concat (q := .read i) (by simp)]
    exact h.slots
  subscriptions := by
    obtain ⟨hi, rfl⟩ := List.getElem?_eq_some_iff.mp hsub
    have hi' : i < (u.subscriptions.map Subscription.role).length := by simpa using hi
    have hsame := List.set_getElem_self hi'
    rw [List.getElem_map] at hsame
    rw [subscribed_concat, ← h.subscriptions, List.map_set, hsame]
    exact (List.append_nil _).symm
  seen j sub' hsub' := by
    dsimp only at hsub'
    rw [accepted_concat (by simp), unseen_concat_of_quiet (by simp)]
    by_cases hj : i = j
    · subst hj
      have hlt : i < u.subscriptions.length := (List.getElem?_eq_some_iff.mp hsub).1
      rw [List.getElem?_set_self hlt] at hsub'
      obtain rfl := Option.some.inj hsub'
      simp
    · rw [List.getElem?_set_ne hj] at hsub'
      obtain ⟨hle, hunseen⟩ := h.seen j sub' hsub'
      exact ⟨hle, hunseen.trans (and_iff_left (by simpa using hj)).symm⟩

theorem serve (h : Recorded roles qs u) (q : Request) :
    Recorded roles (qs ++ [q]) (u.serve q).2 := by
  cases q with
  | publish s => exact h.publish s
  | latest | snapshot => exact h.idle (by simp) (by simp) rfl
  | subscribe r =>
    simp only [Usage.serve, h.subscribe_eq]
    by_cases hr : r.number < roles
    · rw [if_pos hr]
      exact h.subscribe (by simp) (by simp) (by simp [Request.subscribes, hr]) (by simp)
    · rw [if_neg hr]
      exact h.idle (by simp) (by simp) (by simp [Request.subscribes, hr])
  | subscribeAll =>
    simp only [Usage.serve, h.subscribeAll_eq]
    refine h.subscribe (by simp) (by simp) ?_ (by simp)
    simp [Request.subscribes]
  | changed i =>
    have hidle := h.idle (q := .changed i) (by simp) (by simp) rfl
    simp only [Usage.serve]
    cases u.subscriptions[i]? with
    | none | some => exact hidle
  | read i =>
    simp only [Usage.serve]
    cases hsub : u.subscriptions[i]? with
    | none =>
      refine h.idle (q := .read i) (by simp) (fun j sub hj heq => ?_) rfl
      obtain rfl := Request.read.inj heq
      simp [hsub] at hj
    | some sub =>
      have hread : u.board.read sub =
          ((accepted roles sub.role qs).getLast?,
            { sub with seen := (accepted roles sub.role qs).length }) := by
        rw [Board.read, h.slot?_of_subscription hsub]
        rfl
      dsimp only
      rw [hread]
      exact h.read hsub

/-! ## What the next request is answered -/

theorem latest_eq (h : Recorded roles qs u) (r : Role) :
    u.board.latest r = (accepted roles r qs).getLast? := by
  rw [latest, h.slot?_eq]
  by_cases hr : r.number < roles
  · rw [if_pos hr]
    rfl
  · rw [if_neg hr, accepted_eq_nil (Nat.not_lt.mp hr)]
    rfl

theorem snapshot_eq (h : Recorded roles qs u) :
    u.board.snapshot =
      (List.range roles).filterMap fun i => (accepted roles ⟨i⟩ qs).getLast? := by
  rw [snapshot, h.slots, List.filterMap_map]
  rfl

theorem tracks_eq (h : Recorded roles qs u) (r : Role) :
    u.board.tracks r = decide (r.number < roles) :=
  congrArg (fun n => decide (r.number < n)) h.board_roles

/-- What is accepted is never without effect, for it is counted. -/
theorem publish_eq_self_iff (h : Recorded roles qs u) (s : Snapshot) :
    u.board.publish s = u.board ↔ roles ≤ s.role.number := by
  constructor
  · intro heq
    by_contra hlt
    rw [Nat.not_le] at hlt
    have hafter := (h.publish s).slot?_eq s.role
    dsimp only at hafter
    rw [heq, h.slot?_eq, if_pos hlt, if_pos hlt] at hafter
    have hversion := congrArg Slot.version (Option.some.inj hafter)
    simp [kept, accepted_append, accepted_publish, hlt] at hversion
  · intro hle
    have hlength : u.board.slots.length ≤ s.role.number := by
      rw [h.slots, List.length_map, List.length_range]
      exact hle
    rw [Board.publish, List.modify_eq_self hlength]

theorem changed_iff {sub : Subscription} (h : Recorded roles qs u)
    (hsub : u.subscriptions[i]? = some sub) :
    u.board.changed sub = true ↔ Unseen roles i sub.role qs := by
  rw [changed, h.slot?_of_subscription hsub, ← (h.seen i sub hsub).2, decide_eq_true_eq]
  exact ne_comm

theorem exists_subscription (h : Recorded roles qs u) (hr : (subscribed roles qs)[i]? = some r) :
    ∃ sub, u.subscriptions[i]? = some sub ∧ sub.role = r := by
  rw [← h.subscriptions, List.getElem?_map] at hr
  exact Option.map_eq_some_iff.mp hr

theorem length_subscriptions (h : Recorded roles qs u) :
    u.subscriptions.length = (subscribed roles qs).length := by
  rw [← h.subscriptions, List.length_map]

end Recorded

/-! ## Every history -/

theorem Recorded.after (h : Recorded roles qs u) (more : List Request) :
    Recorded roles (qs ++ more) (u.after more) := by
  induction more generalizing qs u with
  | nil => rwa [List.append_nil]
  | cons q more ih =>
    have hmore := ih (h.serve q)
    rwa [List.append_assoc] at hmore

/-- What a board answers after any requests. It shows of each role the last snapshot that it
accepted, and refuses only what is published for a role that is not on it. A subscription has
something unseen exactly if a snapshot of its role was published after it was made and last read. -/
theorem history_answers (roles : Nat) (qs : List Request) :
    let u := (Usage.opened roles).after qs
    (∀ r, u.ask (.latest r) = .latest (accepted roles r qs).getLast?) ∧
    u.ask .snapshot =
      .snapshots ((List.range roles).filterMap fun i => (accepted roles ⟨i⟩ qs).getLast?) ∧
    (∀ s, u.ask (.publish s) = .accepted (decide (s.role.number < roles)) ∧
      (u.after [.publish s] = u ↔ roles ≤ s.role.number) ∧
      ∀ r ≠ s.role, (u.after [.publish s]).board.slot? r = u.board.slot? r) ∧
    (∀ r, u.ask (.subscribe r) =
      .subscribed (if r.number < roles then some (subscribed roles qs).length else none)) ∧
    u.ask .subscribeAll = .subscribedAll roles ∧
    ∀ i r, (subscribed roles qs)[i]? = some r →
      (∃ unseen, u.ask (.changed i) = .changed unseen ∧ (unseen = true ↔ Unseen roles i r qs)) ∧
      u.ask (.read i) = .latest (accepted roles r qs).getLast? := by
  intro u
  have h : Recorded roles qs u := (recorded_opened roles).after qs
  refine ⟨fun r => ?_, ?_, fun s => ⟨?_, ?_, fun r hr => ?_⟩, fun r => ?_, ?_, fun i r hi => ?_⟩
  · simp only [Usage.ask, Usage.serve, h.latest_eq]
  · simp only [Usage.ask, Usage.serve, h.snapshot_eq]
  · simp only [Usage.ask, Usage.serve, h.tracks_eq]
  · rw [← h.publish_eq_self_iff s]
    exact ⟨congrArg Usage.board, fun heq => congrArg (Usage.mk · u.subscriptions) heq⟩
  · have hne : s.role.number ≠ r.number := fun heq => hr (congrArg Role.mk heq.symm)
    simp [Usage.after, Usage.serve, slot?, Board.publish, hne]
  · rw [← h.length_subscriptions]
    by_cases hr : r.number < roles <;> simp [Usage.ask, Usage.serve, h.subscribe_eq, hr]
  · simp [Usage.ask, Usage.serve, h.subscribeAll_eq]
  · obtain ⟨sub, hsub, rfl⟩ := h.exists_subscription hi
    simp only [Usage.ask, Usage.serve, hsub]
    refine ⟨⟨_, rfl, h.changed_iff hsub⟩, ?_⟩
    rw [Board.read, h.slot?_of_subscription hsub]
    rfl

/-- A subscription that was made between two publications has the second one to show. -/
theorem history_answers_between :
    let s := Snapshot.planned ⟨1⟩ ⟨1, 1⟩ 0
    let t := Snapshot.planned ⟨1⟩ ⟨1, 2⟩ 200
    let qs := [.publish s, .subscribe ⟨1⟩, .publish t]
    let u := (Usage.opened 2).after qs
    (subscribed 2 qs)[0]? = some ⟨1⟩ ∧ u.ask (.changed 0) = .changed true ∧
      u.ask (.read 0) = .latest (some t) := by
  intro s t qs u
  have hmade : (subscribed 2 qs)[0]? = some ⟨1⟩ := rfl
  obtain ⟨-, -, -, -, -, hanswers⟩ := history_answers 2 qs
  obtain ⟨⟨unseen, hchanged, hiff⟩, hread⟩ := hanswers 0 ⟨1⟩ hmade
  have hunseen : Unseen 2 0 ⟨1⟩ qs :=
    ⟨[.publish s, .subscribe ⟨1⟩], t, [], rfl, rfl, Nat.one_pos, by simp⟩
  rw [hiff.mpr hunseen] at hchanged
  exact ⟨hmade, hchanged, hread⟩

end Labyrinth.Board
