import DebugTree.Proofs.SkipBus
import DebugTree.Proofs.Skipper.Evolution

/-!
# Who listens on the bus

The bus keeps no session alive and is not asked who lives, so it might list the dead or miss the
living.  It does neither: in every reachable world the subscribers of a root are the living
sessions of that root, in the order in which they opened.

A session sits on its *seat*: its number, its root, its target and its place on the bus never
change.  Two sessions never hold the same place, and this is why a session that leaves takes
itself off the list and nobody else.
-/

namespace DebugTree

/-- What never changes about a session. -/
structure Seat where
  listener : Listener
  root : TargetId
  target : TargetId
  subscription : Subscription
  deriving DecidableEq

/-- The seat as the bus lists it. -/
def Seat.subscriber (x : Seat) : Subscriber :=
  ⟨x.subscription.number, x.target, x.listener⟩

namespace Skipper

/-- The seat of a session with this number. -/
def seat (k : Listener) (s : Skipper) : Seat :=
  ⟨k, s.root, s.target, s.subscription⟩

theorem Move.seat_eq {s t : Skipper} (h : Move s t) (k : Listener) : t.seat k = s.seat k := by
  cases h with
  | learn reply => simp only [seat, learn_root, learn_target, learn_subscription]
  | _ => rfl

theorem Moves.seat_eq {s t : Skipper} (h : Moves s t) (k : Listener) : t.seat k = s.seat k :=
  h.preserves (P := fun t => t.seat k = s.seat k) (fun _ _ hm hs => (hm.seat_eq k).trans hs) rfl

namespace World

variable {w w' : World}

/-- The seats that are taken, in the order in which they were. -/
def seats (w : World) : List Seat :=
  w.sessions.entries.map fun e => e.2.seat e.1

/-- The sessions of a root but those of one target. -/
def peers (w : World) (root origin : TargetId) : List Listener :=
  (w.seats.filter fun x => x.root = root ∧ x.target ≠ origin).map (·.listener)

theorem map_listener_seats (w : World) : w.seats.map (·.listener) = w.sessions.keys := by
  rw [seats, List.map_map]
  rfl

theorem seat_mem_of_get? {k : Listener} {s : Skipper} (h : w.sessions.get? k = some s) :
    s.seat k ∈ w.seats :=
  List.mem_map_of_mem (f := fun e : Listener × Skipper => e.2.seat e.1)
    (Index.mem_entries_of_get? h)

end World

theorem Evolves.seats_eq {w w' : World} (h : Evolves w w') : w'.seats = w.seats := by
  induction h with
  | refl => rfl
  | @update w' _ k f hf ih =>
    rw [← ih, World.seats, World.seats, World.update]
    cases hs : w'.sessions.get? k with
    | none => rw [Index.modify_of_get?_eq_none hs]
    | some s =>
      rw [Index.modify_of_get? hs]
      exact Index.map_entries_insert hs ((hf s hs).seat_eq k)
  | jobs _ _ ih => exact ih

theorem Evolves.peers_eq {w w' : World} (h : Evolves w w') (root origin : TargetId) :
    w'.peers root origin = w.peers root origin := by
  rw [World.peers, World.peers, h.seats_eq]

namespace World

variable {w w' : World}

/-- The bus lists the living sessions, and those only. -/
structure Seated (w : World) : Prop where
  nodup : w.sessions.keys.Nodup
  fresh : ∀ x ∈ w.seats, x.listener.number < w.nextListener
  enrolled : ∀ x ∈ w.seats,
    x.subscription.root = x.root ∧ x.subscription.number < w.bus.nextNumber
  distinct : (w.seats.map (·.subscription.number)).Nodup
  listed : ∀ root,
    w.bus.subscribers root = (w.seats.filter fun x => x.root = root).map Seat.subscriber

theorem seated_start : start.Seated :=
  ⟨List.nodup_nil, fun _ h => absurd h (List.not_mem_nil), fun _ h => absurd h (List.not_mem_nil),
    List.nodup_nil, fun _ => rfl⟩

theorem Seated.evolve (h : w.Seated) (he : Evolves w w') : w'.Seated where
  nodup := he.keys_eq ▸ h.nodup
  fresh := by rw [he.seats_eq, he.nextListener_eq]; exact h.fresh
  enrolled := by rw [he.seats_eq, he.bus_eq]; exact h.enrolled
  distinct := by rw [he.seats_eq]; exact h.distinct
  listed := by rw [he.seats_eq, he.bus_eq]; exact h.listed

theorem Seated.get?_nextListener (h : w.Seated) : w.sessions.get? ⟨w.nextListener⟩ = none := by
  rw [Index.get?_eq_none_iff, ← map_listener_seats, List.mem_map]
  rintro ⟨x, hx, heq⟩
  have hlt := h.fresh x hx
  rw [heq] at hlt
  exact Nat.lt_irrefl _ hlt

theorem seats_openSession (h : w.Seated) (o : Opening) :
    (w.openSession o).2.seats =
      w.seats ++ [⟨⟨w.nextListener⟩, o.root, o.target, ⟨o.root, w.bus.nextNumber⟩⟩] := by
  simp only [openSession, seats]
  rw [Index.entries_insert_of_get?_eq_none h.get?_nextListener, List.map_append]
  rfl

theorem Seated.openSession (h : w.Seated) (o : Opening) : (w.openSession o).2.Seated where
  nodup := Index.nodup_keys_insert h.nodup _ _
  fresh := by
    rw [seats_openSession h]
    intro x hx
    rcases List.mem_append.mp hx with hx | hx
    · exact Nat.lt_succ_of_lt (h.fresh x hx)
    · rw [List.mem_singleton.mp hx]
      exact Nat.lt_succ_self _
  enrolled := by
    rw [seats_openSession h]
    intro x hx
    rcases List.mem_append.mp hx with hx | hx
    · exact ⟨(h.enrolled x hx).1, Nat.lt_succ_of_lt (h.enrolled x hx).2⟩
    · rw [List.mem_singleton.mp hx]
      exact ⟨rfl, Nat.lt_succ_self _⟩
  distinct := by
    rw [seats_openSession h, List.map_append]
    refine List.Nodup.append h.distinct (List.nodup_singleton _) (List.disjoint_singleton.mpr ?_)
    intro hmem
    obtain ⟨x, hx, heq⟩ := List.mem_map.mp hmem
    have hlt := (h.enrolled x hx).2
    rw [heq] at hlt
    exact Nat.lt_irrefl _ hlt
  listed := by
    intro root
    rw [seats_openSession h, List.filter_append, List.map_append, ← h.listed root]
    refine (SkipBus.subscribers_subscribe _ _ _ _ _).trans
      (congrArg (w.bus.subscribers root ++ ·) ?_)
    by_cases hroot : o.root = root <;> simp [hroot, Seat.subscriber]

/-! ## Siblings -/

theorem Seated.mem_peers_iff (h : w.Seated) {root origin : TargetId} {k : Listener} :
    k ∈ w.peers root origin ↔
      ∃ s, w.sessions.get? k = some s ∧ s.root = root ∧ s.target ≠ origin := by
  constructor
  · intro hk
    obtain ⟨x, hx, rfl⟩ := List.mem_map.mp hk
    obtain ⟨hmem, hroot⟩ := List.mem_filter.mp hx
    obtain ⟨e, he, rfl⟩ := List.mem_map.mp hmem
    exact ⟨e.2, (Index.get?_eq_some_iff h.nodup).mpr he, of_decide_eq_true hroot⟩
  · rintro ⟨s, hs, hroot⟩
    refine List.mem_map.mpr ⟨s.seat k, ?_, rfl⟩
    exact List.mem_filter.mpr ⟨seat_mem_of_get? hs, decide_eq_true hroot⟩

theorem peers_sublist (w : World) (root origin : TargetId) :
    (w.peers root origin).Sublist w.sessions.keys :=
  map_listener_seats w ▸ List.filter_sublist.map _

theorem Seated.nodup_peers (h : w.Seated) (root origin : TargetId) :
    (w.peers root origin).Nodup :=
  (peers_sublist w root origin).nodup h.nodup

/-! ## The dead leave -/

/-- Taking subscriptions back one after the other. -/
theorem subscribers_foldl_unsubscribe (gone : List (Listener × Skipper)) (b : SkipBus)
    (root : TargetId) :
    (gone.foldl (fun b e => b.unsubscribe e.2.subscription) b).subscribers root =
      (b.subscribers root).filter fun x => !gone.any fun e =>
        decide (e.2.subscription.root = root ∧ x.number = e.2.subscription.number) := by
  induction gone generalizing b with
  | nil => simp
  | cons e gone ih =>
    rw [List.foldl_cons, ih, SkipBus.subscribers_unsubscribe, List.filter_filter]
    refine List.filter_congr fun x _ => ?_
    rw [List.any_cons, Bool.not_or, Bool.and_comm]

theorem nextNumber_foldl_unsubscribe (gone : List (Listener × Skipper)) (b : SkipBus) :
    (gone.foldl (fun b e => b.unsubscribe e.2.subscription) b).nextNumber = b.nextNumber := by
  induction gone generalizing b with
  | nil => rfl
  | cons e gone ih => rw [List.foldl_cons, ih, SkipBus.nextNumber_unsubscribe]

theorem map_subscriber_seats (w : World) (root : TargetId) :
    (w.seats.filter fun x => x.root = root).map Seat.subscriber =
      (w.sessions.entries.filter fun e => e.2.root = root).map fun e =>
        (e.2.seat e.1).subscriber := by
  rw [seats, List.filter_map, List.map_map]
  rfl

theorem seats_reap_sublist (w : World) : w.reap.seats.Sublist w.seats :=
  List.Sublist.map _ List.filter_sublist

/-- Entries with the same number on the bus are the same. -/
theorem Seated.eq_of_number_eq (h : w.Seated) {e e' : Listener × Skipper}
    (he : e ∈ w.sessions.entries) (he' : e' ∈ w.sessions.entries)
    (hnum : e.2.subscription.number = e'.2.subscription.number) : e = e' := by
  have hd := h.distinct
  rw [seats, List.map_map] at hd
  exact List.inj_on_of_nodup_map hd he he' hnum

theorem Seated.reap (h : w.Seated) : w.reap.Seated where
  nodup := Index.nodup_keys_filter h.nodup _
  fresh x hx := h.fresh x ((seats_reap_sublist w).mem hx)
  enrolled x hx := by
    have hnext : w.reap.bus.nextNumber = w.bus.nextNumber := nextNumber_foldl_unsubscribe _ _
    rw [hnext]
    exact h.enrolled x ((seats_reap_sublist w).mem hx)
  distinct := ((seats_reap_sublist w).map _).nodup h.distinct
  listed root := by
    refine (subscribers_foldl_unsubscribe _ _ _).trans ?_
    rw [h.listed root, map_subscriber_seats, map_subscriber_seats, List.filter_map,
      List.filter_filter, World.reap, List.filter_filter]
    refine congrArg (List.map _) (List.filter_congr fun e he => ?_)
    -- Somebody who is gone has the number of this entry exactly if this entry is gone.
    have hgone : ((w.sessions.entries.filter fun e => !w.isKept e.1 e.2).any fun e' =>
        decide (e'.2.subscription.root = root ∧
          e.2.subscription.number = e'.2.subscription.number)) =
        (!w.isKept e.1 e.2 && decide (e.2.subscription.root = root)) := by
      rw [Bool.eq_iff_iff, List.any_eq_true, Bool.and_eq_true, decide_eq_true_iff]
      constructor
      · rintro ⟨e', he', hroot⟩
        rw [decide_eq_true_iff] at hroot
        obtain ⟨hmem, hkept⟩ := List.mem_filter.mp he'
        rw [← h.eq_of_number_eq he hmem hroot.2] at hkept hroot
        exact ⟨hkept, hroot.1⟩
      · rintro ⟨hkept, hroot⟩
        exact ⟨e, List.mem_filter.mpr ⟨he, hkept⟩, decide_eq_true ⟨hroot, rfl⟩⟩
    have hroot : e.2.subscription.root = e.2.root :=
      (h.enrolled _ (List.mem_map_of_mem (f := fun e : Listener × Skipper => e.2.seat e.1) he)).1
    have hsubscriber : (e.2.seat e.1).subscriber.number = e.2.subscription.number := rfl
    simp only [Function.comp_apply, hsubscriber, hgone, hroot]
    cases w.isKept e.1 e.2 <;> cases decide (e.2.root = root) <;> rfl

end World

theorem World.Seated.take {w : World} (h : w.Seated) (a : Action) : (w.take a).1.Seated := by
  by_cases hopening : a.IsOpening
  · cases a with
    | openSession o => exact h.openSession o
    | _ => exact absurd hopening (by simp [Action.IsOpening])
  · exact h.evolve (World.evolves_take hopening)

/-- Numbers of sessions are given out in ascending order. -/
theorem World.nextListener_le_take (w : World) (a : Action) :
    w.nextListener ≤ (w.take a).1.nextListener := by
  by_cases hopening : a.IsOpening
  · cases a with
    | openSession o => exact Nat.le_succ _
    | _ => exact absurd hopening (by simp [Action.IsOpening])
  · exact Nat.le_of_eq (World.evolves_take hopening).nextListener_eq.symm

theorem Reachable.seated {w : World} (h : Reachable w) : w.Seated := by
  induction h with
  | start => exact World.seated_start
  | act _ _ ih => exact (ih.take _).reap

/-- **Who is told about a change**: the living sessions of the root but the one that made it. -/
theorem World.Seated.audience_eq {w : World} (h : w.Seated) (e : SkipToggled) :
    w.bus.audience w.isAlive e = w.peers e.root e.origin := by
  rw [SkipBus.audience, h.listed, List.filter_map, List.map_map, List.filter_filter, World.peers]
  refine congrArg (List.map _) (List.filter_congr fun x hx => ?_)
  have halive : w.isAlive x.listener = true := by
    rw [isAlive, Index.contains_iff, ← map_listener_seats]
    exact List.mem_map_of_mem hx
  have hlistener : x.subscriber.listener = x.listener := rfl
  have hsession : x.subscriber.session = x.target := rfl
  simp only [Function.comp_apply, hlistener, hsession, halive, Bool.and_true]
  rw [Bool.and_comm, Bool.decide_and, decide_not, bne, beq_eq_decide]

end Skipper
end DebugTree
