import Labyrinth.Proofs.Feed.Delivery

/-!
# In which order a client gets snapshots

What a client gets of a role comes from two sides: from the look at its slot, and from what is
forwarded later. Neither side repeats the other or falls behind it, whatever is published meanwhile,
because a subscription has seen all that was published when it was made.
-/

namespace Labyrinth

namespace Feed

namespace Streaming

variable {x y : Streaming} {e : Step} {r : Role} {l : List Snapshot}

theorem published_append (r : Role) (before after : List Step) :
    published r (before ++ after) = published r before ++ published r after :=
  List.filterMap_append

/-- What is lined up for a role was published for it, in the order of `l`, which lists all that was.
What the subscription has not seen yet is not lined up. -/
structure Follows (x : Streaming) (r : Role) (l : List Snapshot) : Prop where
  slot : ∀ slot, x.board.slots[r.number]? = some slot →
    slot.version = l.length ∧ slot.latest = l.getLast?
  ahead : x.stream.stage.hasLooked r.number = false → x.stream.linedUp r = []
  inOrder : (x.stream.linedUp r).Sublist l
  seen : ∀ sub, x.stream.subscriptions[r.number]? = some sub →
    sub.seen ≤ l.length ∧ (x.stream.linedUp r).Sublist (l.take sub.seen)

theorem follows_opened (roles : Nat) (r : Role) : Follows (opened roles) r [] where
  slot slot hslot := by
    have hempty : slot = .empty := List.eq_of_mem_replicate (List.mem_of_getElem? hslot)
    rw [hempty]
    exact ⟨rfl, rfl⟩
  ahead _ := rfl
  inOrder := List.nil_sublist []
  seen sub hsub := by simp [opened, Stream.fresh] at hsub

/-! ## One step -/

theorem Moves.hasLooked {i : Nat} (h : Moves x e y) (hlooked : x.stream.stage.hasLooked i) :
    y.stream.stage.hasLooked i := by
  cases h with
  | looked hstage =>
    rw [hstage] at hlooked
    exact decide_eq_true (Nat.lt_succ_of_lt (of_decide_eq_true hlooked))
  | lookedAll | subscribed | subscribedAll => rfl
  | idle | published | forwarded | sent => exact hlooked

theorem Follows.of_same (h : Follows x r l) (hmoves : Moves x e y) (hboard : y.board = x.board)
    (hsubs : y.stream.subscriptions[r.number]? = x.stream.subscriptions[r.number]?)
    (hlined : y.stream.linedUp r = x.stream.linedUp r) : Follows y r l where
  slot := hboard ▸ h.slot
  ahead hahead := by
    rw [hlined]
    apply h.ahead
    rw [← Bool.not_eq_true] at hahead ⊢
    exact fun hlooked => hahead (hmoves.hasLooked hlooked)
  inOrder := hlined ▸ h.inOrder
  seen := by
    rw [hsubs, hlined]
    exact h.seen

theorem Follows.publish (h : Follows x r l) (s : Snapshot) :
    Follows { x with board := x.board.publish s } r (l ++ published r [.publish s]) := by
  by_cases hs : s.role = r
  · have hpublished : published r [.publish s] = [s] := by simp [published, hs]
    rw [hpublished]
    refine ⟨fun slot hslot => ?_, h.ahead, h.inOrder.trans (List.sublist_append_left _ _),
      fun sub hsub => ?_⟩
    · cases hbefore : x.board.slots[r.number]? with
      | none => simp [Board.publish, hs, hbefore] at hslot
      | some before =>
        have hnow := Board.slots_publish_self (hs.symm ▸ hbefore)
        rw [hs] at hnow
        obtain rfl := Option.some.inj (hslot.symm.trans hnow)
        obtain ⟨hversion, -⟩ := h.slot before hbefore
        simp [Slot.publish, hversion]
    · obtain ⟨hle, hseen⟩ := h.seen sub hsub
      rw [List.take_append_of_le_length hle, List.length_append]
      exact ⟨by omega, hseen⟩
  · have hpublished : published r [.publish s] = [] := by simp [published, hs]
    have hne : s.role.number ≠ r.number := fun heq => hs (congrArg Role.mk heq)
    rw [hpublished, List.append_nil]
    refine ⟨fun slot hslot => h.slot slot ?_, h.ahead, h.inOrder, h.seen⟩
    rwa [Board.slots_publish_of_ne hne] at hslot

theorem Follows.look (h : Follows x r l) (sound : x.Sound) {slot : Slot}
    (hstage : x.stream.stage = .looking r.number)
    (hslot : x.board.slots[r.number]? = some slot) :
    Follows { x with stream := { enqueue x.stream slot.latest with
      stage := .looking (r.number + 1) } } r l := by
  have hnone : x.stream.linedUp r = [] := h.ahead (by simp [hstage, Stage.hasLooked])
  have hlined : (enqueue x.stream slot.latest).linedUp r = l.getLast?.toList := by
    rw [linedUp_enqueue_self sound.own hslot, hnone, (h.slot slot hslot).2, List.nil_append]
  refine ⟨h.slot, fun hahead => ?_, ?_, fun sub hsub => ?_⟩
  · simp [Stage.hasLooked] at hahead
  · refine hlined ▸ ?_
    cases hlast : l.getLast? with
    | none => exact List.nil_sublist l
    | some s => exact List.singleton_sublist.mpr (List.mem_of_getLast? hlast)
  · have hlength := sound.counted
    rw [hstage] at hlength
    have hnosubs : x.stream.subscriptions = [] := List.length_eq_zero_iff.mp hlength
    simp [enqueue, hnosubs] at hsub

theorem Follows.subscribe (h : Follows x r l) (sound : x.Sound) {slot : Slot}
    (hstage : x.stream.stage = .subscribing r.number)
    (hslot : x.board.slots[r.number]? = some slot) :
    Follows { x with stream := { x.stream with
      subscriptions := x.stream.subscriptions ++ [⟨⟨r.number⟩, slot.version⟩]
      stage := .subscribing (r.number + 1) } } r l := by
  refine ⟨h.slot, fun hahead => ?_, h.inOrder, fun sub hsub => ?_⟩
  · simp [Stage.hasLooked] at hahead
  · have hcounted := sound.counted
    rw [hstage] at hcounted
    have hnew : sub = ⟨⟨r.number⟩, slot.version⟩ := by
      simpa [← hcounted.1, eq_comm] using hsub
    subst hnew
    obtain ⟨hversion, -⟩ := h.slot slot hslot
    refine ⟨Nat.le_of_eq hversion, ?_⟩
    dsimp only
    rw [hversion, List.take_length]
    exact h.inOrder

theorem Follows.forward (h : Follows x r l) (sound : x.Sound) {sub : Subscription} {slot : Slot}
    (hsub : x.stream.subscriptions[r.number]? = some sub)
    (hslot : x.board.slots[r.number]? = some slot) (hchanged : slot.version ≠ sub.seen) :
    Follows { x with stream := { enqueue x.stream slot.latest with
      subscriptions := x.stream.subscriptions.set r.number { sub with seen := slot.version } } }
      r l := by
  obtain ⟨hversion, hlatest⟩ := h.slot slot hslot
  obtain ⟨hle, hseen⟩ := h.seen sub hsub
  obtain ⟨earlier, s, rfl⟩ : ∃ earlier s, l = earlier ++ [s] := by
    rcases List.eq_nil_or_concat l with rfl | hconcat
    · exact absurd (hversion.trans (Nat.le_zero.mp hle).symm) hchanged
    · simpa using hconcat
  have hshort : sub.seen ≤ earlier.length := by
    rw [List.length_append, List.length_singleton] at hversion hle
    omega
  rw [List.take_append_of_le_length hshort] at hseen
  rw [List.getLast?_concat] at hlatest
  have hlined : ((enqueue x.stream slot.latest).linedUp r).Sublist (earlier ++ [s]) := by
    rw [linedUp_enqueue_self sound.own hslot, hlatest]
    exact (hseen.trans (List.take_sublist _ _)).append (List.Sublist.refl [s])
  refine ⟨h.slot, fun hahead => ?_, hlined, fun sub' hsub' => ?_⟩
  · have hlooked := Stage.hasLooked_of_hasSubscribed (sound.hasSubscribed hsub)
    exact absurd hlooked (Bool.eq_false_iff.mp hahead)
  · have hlt : r.number < x.stream.subscriptions.length := (List.getElem?_eq_some_iff.mp hsub).1
    dsimp only at hsub'
    rw [List.getElem?_set_self hlt] at hsub'
    obtain rfl := Option.some.inj hsub'
    refine ⟨Nat.le_of_eq hversion, ?_⟩
    dsimp only
    rw [hversion, List.take_length]
    exact hlined

theorem Follows.move (h : Follows x r l) (sound : x.Sound) (hmoves : Moves x e y) :
    Follows y r (l ++ published r [e]) := by
  have hquiet : (∀ s, e ≠ .publish s) → l ++ published r [e] = l := by
    intro hne
    cases e with
    | publish s => exact absurd rfl (hne s)
    | setUp | forward | send => exact List.append_nil l
  cases hmoves with
  | idle _ hne => exact (hquiet hne).symm ▸ h
  | published s => exact h.publish s
  | looked hstage hslot =>
    rename_i i slot
    rw [hquiet (by simp)]
    by_cases hi : i = r.number
    · subst hi
      exact h.look sound hstage hslot
    · exact h.of_same (.looked hstage hslot) rfl rfl (linedUp_enqueue_of_ne sound.own hslot hi)
  | lookedAll hstage hend =>
    rw [hquiet (by simp)]
    exact h.of_same (.lookedAll hstage hend) rfl rfl rfl
  | subscribed hstage hslot =>
    rename_i i slot
    rw [hquiet (by simp)]
    by_cases hi : i = r.number
    · subst hi
      exact h.subscribe sound hstage hslot
    · refine h.of_same (.subscribed hstage hslot) rfl ?_ rfl
      have hcounted := sound.counted
      rw [hstage] at hcounted
      dsimp only
      rw [List.getElem?_append, ← hcounted.1]
      split
      · rfl
      · rw [List.getElem?_eq_none (by simp; omega), List.getElem?_eq_none (by omega)]
  | subscribedAll hstage hend =>
    rw [hquiet (by simp)]
    exact h.of_same (.subscribedAll hstage hend) rfl rfl rfl
  | forwarded hsub hslot hchanged =>
    rename_i i sub slot
    rw [hquiet (by simp)]
    have hrole : sub.role.number = i := sound.subscriptions i sub hsub
    by_cases hi : i = r.number
    · subst hi
      exact h.forward sound hsub (hrole ▸ hslot) hchanged
    · refine h.of_same (.forwarded hsub hslot hchanged) rfl (List.getElem?_set_ne hi) ?_
      exact linedUp_enqueue_of_ne sound.own hslot (hrole ▸ hi)
  | sent hqueue =>
    rw [hquiet (by simp)]
    refine h.of_same (.sent hqueue) rfl rfl ?_
    simp [Stream.linedUp, hqueue]

/-! ## Every interleaving -/

theorem Follows.steps (h : Follows x r l) (sound : x.Sound) (ss : List Step) :
    Follows (x.steps ss) r (l ++ published r ss) := by
  induction ss generalizing x l with
  | nil => exact (List.append_nil l).symm ▸ h
  | cons e ss ih =>
    have hstep := ih (h.move sound (moves_step x e)) (sound.move (moves_step x e))
    rw [List.append_assoc, ← published_append] at hstep
    exact hstep

/-- However publications come in between the steps of a stream, the snapshots of a role that a
client gets are among those that were published for it, in that order, and each of these is sent at
most once. -/
theorem sent_sublist (roles : Nat) (ss : List Step) (r : Role) :
    (((opened roles).steps ss).stream.sent.filter fun s => decide (s.role = r)).Sublist
      (published r ss) := by
  have hfollows := (follows_opened roles r).steps (sound_opened roles) ss
  rw [List.nil_append] at hfollows
  refine List.Sublist.trans ?_ hfollows.inOrder
  exact (List.sublist_append_left _ _).filter _

end Streaming

end Feed

end Labyrinth
