import DebugTree.Proofs.Index
import DebugTree.SkipBus.World

/-!
# What the skip bus lists

Subscriptions, listeners and the bus come and go independently of each other.  All the same the bus
is nothing but a flat list: the subscriptions that are held, in the order in which they were made.

The bus never keeps a root without subscribers (`Neat`), it lists exactly what is held (`Faithful`),
and whatever happens while a change is delivered, it reaches those who listened when it was
published, one after the other (`Delivery.Proceeds`).
-/

namespace DebugTree
namespace SkipBus

/-! ## Lists of subscribers -/

theorem subscribers_subscribe (b : SkipBus) (root session : TargetId) (k : Listener)
    (root' : TargetId) :
    (b.subscribe root session k).2.subscribers root' =
      b.subscribers root' ++ if root = root' then [⟨b.nextNumber, session, k⟩] else [] := by
  simp only [subscribe, subscribers, Index.get?_insert]
  split
  · next h => rw [h]; rfl
  · rw [List.append_nil]

theorem subscribers_unsubscribe (b : SkipBus) (s : Subscription) (root : TargetId) :
    (b.unsubscribe s).subscribers root =
      (b.subscribers root).filter fun x => !decide (s.root = root ∧ x.number = s.number) := by
  by_cases hroot : s.root = root
  · subst hroot
    have hfilter : ∀ l : List Subscriber,
        (l.filter fun x => !decide (s.root = s.root ∧ x.number = s.number)) =
          l.filter fun x => x.number != s.number := by
      intro l
      refine List.filter_congr fun x _ => ?_
      simp only [true_and, bne, beq_eq_decide]
    rw [hfilter, subscribers, subscribers, unsubscribe]
    cases h : b.topics.get? s.root with
    | none => simp [h]
    | some l =>
      simp only [Option.getD_some]
      split
      · next hempty =>
        rw [Index.get?_erase_self, List.isEmpty_iff.mp hempty]
        rfl
      · rw [Index.get?_insert_self, Option.getD_some]
  · simp only [hroot, false_and, decide_false, Bool.not_false, List.filter_true]
    rw [subscribers, subscribers, unsubscribe]
    cases b.topics.get? s.root with
    | none => rfl
    | some l =>
      simp only
      split
      · rw [Index.get?_erase, if_neg hroot]
      · rw [Index.get?_insert, if_neg hroot]

theorem nextNumber_unsubscribe (b : SkipBus) (s : Subscription) :
    (b.unsubscribe s).nextNumber = b.nextNumber := by
  unfold unsubscribe
  split <;> rfl

/-! ## Topics -/

/-- No root is kept without subscribers. -/
def Neat (b : SkipBus) : Prop :=
  ∀ root, b.topics.get? root ≠ some []

theorem neat_empty : empty.Neat := by
  intro root hroot
  cases hroot

theorem Neat.subscribe {b : SkipBus} (h : b.Neat) (root session : TargetId) (k : Listener) :
    (b.subscribe root session k).2.Neat := by
  intro root'
  simp only [SkipBus.subscribe, Index.get?_insert]
  split
  · rw [Ne, Option.some_inj]
    exact List.append_ne_nil_of_right_ne_nil _ (List.cons_ne_nil _ _)
  · exact h root'

theorem Neat.unsubscribe {b : SkipBus} (h : b.Neat) (s : Subscription) :
    (b.unsubscribe s).Neat := by
  intro root
  unfold SkipBus.unsubscribe
  split
  · exact h root
  · simp only
    split
    · rw [Index.get?_erase]
      split
      · exact (Option.some_ne_none _).symm
      · exact h root
    · next hrest =>
      rw [Index.get?_insert]
      split
      · rw [Ne, Option.some_inj]
        exact fun hnil => hrest (List.isEmpty_iff.mpr hnil)
      · exact h root

/-- A root is kept exactly if it has subscribers. -/
theorem Neat.mem_keys_iff {b : SkipBus} (h : b.Neat) (root : TargetId) :
    root ∈ b.topics.keys ↔ b.subscribers root ≠ [] := by
  have hroot := h root
  rw [← Index.contains_iff, Index.contains, subscribers]
  cases hget : b.topics.get? root with
  | none => simp
  | some l =>
    rw [hget, Ne, Option.some_inj] at hroot
    simpa using hroot

/-! ## Deliveries -/

namespace Delivery

/-- A delivery is with the listener after the last one that has answered. -/
structure Proceeds (d : Delivery) : Prop where
  told : d.told = d.listeners.take (d.answers.length + 1)
  answers : d.answers.length ≤ d.listeners.length

@[simp] theorem event_next (d : Delivery) : d.next.event = d.event := by
  unfold next
  split <;> rfl

@[simp] theorem listeners_next (d : Delivery) : d.next.listeners = d.listeners := by
  unfold next
  split <;> rfl

@[simp] theorem answers_next (d : Delivery) : d.next.answers = d.answers := by
  unfold next
  split <;> rfl

theorem told_next (d : Delivery) :
    d.next.told = d.told ++ d.listeners[d.told.length]?.toList := by
  unfold next
  split
  · next k hk => rw [hk, Option.toList_some]
  · next hnone => rw [hnone, Option.toList_none, List.append_nil]

/-- Whoever was told one more listener in turn was told the first ones. -/
theorem told_next_of_take {d : Delivery} {n : Nat} (h : d.told = d.listeners.take n)
    (hn : n ≤ d.listeners.length) : d.next.told = d.listeners.take (n + 1) := by
  have hlength : d.told.length = n := by rw [h, List.length_take, Nat.min_eq_left hn]
  rw [told_next, hlength, h, List.take_add_one]

theorem event_start (e : SkipToggled) (listeners : List Listener) :
    (start e listeners).event = e :=
  event_next _

theorem listeners_start (e : SkipToggled) (listeners : List Listener) :
    (start e listeners).listeners = listeners :=
  listeners_next _

theorem answers_start (e : SkipToggled) (listeners : List Listener) :
    (start e listeners).answers = [] :=
  answers_next _

theorem proceeds_start (e : SkipToggled) (listeners : List Listener) :
    (start e listeners).Proceeds where
  told := by
    rw [listeners_start, answers_start]
    exact told_next_of_take rfl (Nat.zero_le _)
  answers := by
    rw [answers_start]
    exact Nat.zero_le _

section Answers

variable {d : Delivery}

@[simp] theorem event_answer (d : Delivery) (success : Bool) :
    (d.answer success).event = d.event := by
  unfold answer
  split
  · exact event_next _
  · rfl

@[simp] theorem listeners_answer (d : Delivery) (success : Bool) :
    (d.answer success).listeners = d.listeners := by
  unfold answer
  split
  · exact listeners_next _
  · rfl

/-- Somebody is to answer as long as not all have. -/
theorem Proceeds.lt_told_iff (h : d.Proceeds) :
    d.answers.length < d.told.length ↔ d.answers.length < d.listeners.length := by
  have hanswers := h.answers
  rw [h.told, List.length_take]
  omega

theorem Proceeds.length_answers (h : d.Proceeds) (success : Bool) :
    (d.answer success).answers.length = min (d.answers.length + 1) d.listeners.length := by
  have hanswers := h.answers
  simp only [answer, h.lt_told_iff]
  split
  · rw [answers_next, List.length_append, List.length_singleton]
    omega
  · omega

/-- **Whether it has failed or not, the listener after it is told.** -/
theorem Proceeds.answer (h : d.Proceeds) (success : Bool) : (d.answer success).Proceeds where
  told := by
    have hlength := h.length_answers success
    rw [hlength, listeners_answer]
    simp only [Delivery.answer, h.lt_told_iff]
    split
    · next hlt =>
      rw [Nat.min_eq_left hlt]
      exact told_next_of_take (d := { d with answers := d.answers ++ [success] }) h.told hlt
    · next hlt =>
      have hall := h.told
      rw [List.take_of_length_le (by omega)] at hall
      rw [hall, List.take_of_length_le (by omega)]
  answers := by
    rw [h.length_answers, listeners_answer]
    exact Nat.min_le_right _ _

theorem Proceeds.foldl_answer (h : d.Proceeds) (answers : List Bool) :
    let d' := answers.foldl (fun d success => d.answer success) d
    d'.Proceeds ∧ d'.event = d.event ∧ d'.listeners = d.listeners ∧
      d'.answers.length = min (d.answers.length + answers.length) d.listeners.length := by
  induction answers generalizing d with
  | nil => exact ⟨h, rfl, rfl, (Nat.min_eq_left h.answers).symm⟩
  | cons success answers ih =>
    obtain ⟨hproceeds, hevent, hlisteners, hlength⟩ := ih (h.answer success)
    refine ⟨hproceeds, hevent.trans (event_answer _ _), hlisteners.trans (listeners_answer _ _), ?_⟩
    rw [List.foldl_cons, hlength, h.length_answers, listeners_answer, List.length_cons]
    omega

end Answers

/-- **A delivery tells one listener after the other**, whatever they answer, and it is over when all
of them have. -/
theorem foldl_answer_start (e : SkipToggled) (listeners : List Listener) (answers : List Bool) :
    let d := answers.foldl (fun d success => d.answer success) (start e listeners)
    d.event = e ∧ d.told = listeners.take (answers.length + 1) ∧
      d.result? = if listeners.length ≤ answers.length then some listeners.length else none := by
  intro d
  obtain ⟨hproceeds, hevent, hlisteners, hlength⟩ :=
    (proceeds_start e listeners).foldl_answer answers
  rw [event_start] at hevent
  rw [listeners_start] at hlisteners
  rw [listeners_start, answers_start, List.length_nil, Nat.zero_add] at hlength
  refine ⟨hevent, ?_, ?_⟩
  · rw [hproceeds.told, hlisteners, hlength]
    rcases Nat.le_total answers.length listeners.length with hle | hle
    · rw [Nat.min_eq_left hle]
    · rw [List.take_of_length_le (by omega), List.take_of_length_le (by omega)]
  · rw [result?, hlisteners, hlength]
    split <;> split <;> first | rfl | omega

end Delivery

/-! ## The flat list -/

/-- The bus lists the subscriptions that are held, and can tell them apart. -/
structure Faithful (w : World) : Prop where
  neat : ∀ b, w.bus = some b → b.Neat
  distinct : (w.guards.map (·.subscription.number)).Nodup
  below : ∀ b, w.bus = some b → ∀ g ∈ w.guards, g.subscription.number < b.nextNumber
  lists : ∀ b, w.bus = some b → ∀ root, b.subscribers root = (w.held root).map Guard.subscriber

theorem faithful_start : Faithful .start where
  neat _ hb := Option.some.inj hb ▸ neat_empty
  distinct := List.nodup_nil
  below _ _ _ hg := absurd hg List.not_mem_nil
  lists _ hb _ := Option.some.inj hb ▸ rfl

namespace Faithful

variable {w : World} {b : SkipBus} {g g' : Guard} {i : Nat}

theorem eq_of_number_eq (h : Faithful w) (hg : g ∈ w.guards) (hg' : g' ∈ w.guards)
    (heq : g.subscription.number = g'.subscription.number) : g = g' :=
  List.inj_on_of_nodup_map h.distinct hg hg' heq

theorem subscribe (h : Faithful w) (root session : TargetId) (k : Listener) :
    Faithful (w.subscribe root session k) := by
  unfold World.subscribe
  split
  case h_2 => exact h
  case h_1 b hb =>
    have hnew : ∀ g ∈ w.guards, g.subscription.number < b.nextNumber := h.below b hb
    constructor
    case neat =>
      rintro b' ⟨⟩
      exact (h.neat b hb).subscribe root session k
    case distinct =>
      rw [List.map_append]
      refine h.distinct.append (List.nodup_singleton _) (List.disjoint_singleton.mpr fun hmem => ?_)
      obtain ⟨g, hg, heq⟩ := List.mem_map.mp hmem
      exact absurd heq (Nat.ne_of_lt (hnew g hg))
    case below =>
      rintro b' ⟨⟩ g hg
      rcases List.mem_append.mp hg with hg | hg
      · exact Nat.lt_succ_of_lt (hnew g hg)
      · rw [List.mem_singleton.mp hg]
        exact Nat.lt_succ_self _
    case lists =>
      rintro b' ⟨⟩ root'
      refine (subscribers_subscribe b root session k root').trans ?_
      show _ = ((w.guards ++ [(⟨⟨root, b.nextNumber⟩, session, k, true⟩ : Guard)]).filter
        fun g => g.IsUnder root').map Guard.subscriber
      rw [List.filter_append, List.map_append, h.lists b hb, World.held]
      congr 1
      by_cases hroot : root = root' <;> simp [hroot, Guard.IsUnder, Guard.subscriber]

/-- Dropping one of the subscriptions takes just that one from those that are held. -/
theorem held_set (h : Faithful w) (hi : w.guards[i]? = some g) (root : TargetId) :
    (w.guards.set i { g with isHeld := false }).filter (fun g => g.IsUnder root) =
      (w.held root).filter fun x => !decide (x = g) := by
  obtain ⟨hlt, hget⟩ := List.getElem?_eq_some_iff.mp hi
  have hsplit : w.guards = w.guards.take i ++ g :: w.guards.drop (i + 1) := by
    rw [← hget, ← List.drop_eq_getElem_cons hlt, List.take_append_drop]
  have hnodup : w.guards.Nodup := List.Nodup.of_map _ h.distinct
  rw [hsplit, List.nodup_middle, List.nodup_cons, List.mem_append, not_or] at hnodup
  obtain ⟨⟨hbefore, hafter⟩, -⟩ := hnodup
  have hothers : ∀ l : List Guard, g ∉ l →
      (l.filter fun x => x.IsUnder root).filter (fun x => !decide (x = g)) =
        l.filter fun x => x.IsUnder root := by
    intro l hnot
    refine List.filter_eq_self.mpr fun x hx => ?_
    have hne : x ≠ g := fun heq => hnot (heq ▸ List.mem_of_mem_filter hx)
    simp [hne]
  have hself : ((g :: w.guards.drop (i + 1)).filter fun x => x.IsUnder root).filter
      (fun x => !decide (x = g)) = (w.guards.drop (i + 1)).filter fun x => x.IsUnder root := by
    rw [List.filter_cons]
    split
    · rw [List.filter_cons_of_neg (by simp)]
      exact hothers _ hafter
    · exact hothers _ hafter
  rw [World.held, List.set_eq_take_append_cons_drop, if_pos hlt]
  conv_rhs => rw [hsplit]
  rw [List.filter_append, List.filter_cons_of_neg (by simp [Guard.IsUnder]), List.filter_append,
    List.filter_append, hothers _ hbefore, hself]

/-- What the bus takes off its lists is the place of the subscription that is dropped. -/
theorem subscribers_unsubscribe_eq (h : Faithful w) (hb : w.bus = some b) (hg : g ∈ w.guards)
    (root : TargetId) : (b.unsubscribe g.subscription).subscribers root =
      ((w.held root).filter fun x => !decide (x = g)).map Guard.subscriber := by
  rw [subscribers_unsubscribe, h.lists b hb, List.filter_map]
  refine congrArg _ (List.filter_congr fun x hx => ?_)
  obtain ⟨hx, hunder⟩ := List.mem_filter.mp hx
  have hroot : x.subscription.root = root := (of_decide_eq_true hunder).2
  have hiff : (g.subscription.root = root ∧ x.subscription.number = g.subscription.number) ↔
      x = g := by
    refine ⟨fun hand => h.eq_of_number_eq hx hg hand.2, ?_⟩
    rintro rfl
    exact ⟨hroot, rfl⟩
  simp only [Function.comp_apply, Guard.subscriber, hiff]

theorem subscriber_eq_iff (h : Faithful w) (hg : g ∈ w.guards) (hg' : g' ∈ w.guards) :
    g.subscriber = g'.subscriber ↔ g = g' :=
  ⟨fun heq => h.eq_of_number_eq hg hg' (congrArg Subscriber.number heq), fun heq => heq ▸ rfl⟩

theorem nodup_subscribers (h : Faithful w) (hb : w.bus = some b) (root : TargetId) :
    (b.subscribers root).Nodup := by
  refine List.Nodup.of_map Subscriber.number ?_
  rw [h.lists b hb, List.map_map]
  exact (List.filter_sublist.map _).nodup h.distinct

/-- A subscription that is held has one place, under its own root. -/
theorem count_subscriber (h : Faithful w) (hb : w.bus = some b) (hg : g ∈ w.guards)
    (hheld : g.isHeld = true) (root : TargetId) :
    (b.subscribers root).count g.subscriber = if g.subscription.root = root then 1 else 0 := by
  have hmem : g.subscriber ∈ b.subscribers root ↔ g.subscription.root = root := by
    rw [h.lists b hb, List.mem_map]
    constructor
    · rintro ⟨x, hx, heq⟩
      obtain ⟨hx, hunder⟩ := List.mem_filter.mp hx
      rw [← (h.subscriber_eq_iff hx hg).mp heq]
      exact (of_decide_eq_true hunder).2
    · exact fun hroot => ⟨g, List.mem_filter.mpr ⟨hg, decide_eq_true ⟨hheld, hroot⟩⟩, rfl⟩
  rw [(h.nodup_subscribers hb root).count]
  simp only [hmem]

/-- **Dropping a subscription takes off its own place.** -/
theorem subscribers_unsubscribe_erase (h : Faithful w) (hb : w.bus = some b) (hg : g ∈ w.guards)
    (root : TargetId) : (b.unsubscribe g.subscription).subscribers root =
      (b.subscribers root).erase g.subscriber := by
  rw [h.subscribers_unsubscribe_eq hb hg, (h.nodup_subscribers hb root).erase_eq_filter,
    h.lists b hb, List.filter_map]
  refine congrArg _ (List.filter_congr fun x hx => ?_)
  rw [Function.comp_apply, Bool.eq_iff_iff]
  simp [h.subscriber_eq_iff (List.mem_of_mem_filter hx) hg]

theorem release (h : Faithful w) (i : Nat) : Faithful (w.release i) := by
  unfold World.release
  split
  case h_2 => exact h
  case h_1 g hi =>
    split
    case isFalse => exact h
    case isTrue hheld =>
      have hg : g ∈ w.guards := List.mem_of_getElem? hi
      have hbus : ∀ b', w.bus.map (·.unsubscribe g.subscription) = some b' →
          ∃ b, w.bus = some b ∧ b.unsubscribe g.subscription = b' :=
        fun b' hb' => Option.map_eq_some_iff.mp hb'
      have hnumbers : (w.guards.set i { g with isHeld := false }).map (·.subscription.number) =
          w.guards.map (·.subscription.number) := by
        obtain ⟨hlt, -⟩ := List.getElem?_eq_some_iff.mp hi
        refine List.ext_getElem? fun j => ?_
        rw [List.getElem?_map, List.getElem?_map]
        by_cases hij : i = j
        · subst hij
          rw [List.getElem?_set_self hlt, hi]
          rfl
        · rw [List.getElem?_set_ne hij]
      constructor
      case neat =>
        intro b' hb'
        obtain ⟨b, hb, rfl⟩ := hbus b' hb'
        exact (h.neat b hb).unsubscribe _
      case distinct => exact hnumbers.symm ▸ h.distinct
      case below =>
        intro b' hb' x hx
        obtain ⟨b, hb, rfl⟩ := hbus b' hb'
        rw [nextNumber_unsubscribe]
        rcases List.mem_or_eq_of_mem_set hx with hx | rfl
        · exact h.below b hb x hx
        · exact h.below b hb g hg
      case lists =>
        intro b' hb' root
        obtain ⟨b, hb, rfl⟩ := hbus b' hb'
        rw [h.subscribers_unsubscribe_eq hb hg, ← h.held_set hi]
        rfl

theorem act (h : Faithful w) (a : Action) : Faithful (w.act a) := by
  cases a with
  | subscribe root session k => exact h.subscribe root session k
  | dropSubscription i => exact h.release i
  | dropListener k => exact ⟨h.neat, h.distinct, h.below, h.lists⟩
  | dropBus => exact ⟨nofun, h.distinct, nofun, nofun⟩
  | publish e =>
    show Faithful (w.publish e)
    unfold World.publish
    split
    · exact ⟨h.neat, h.distinct, h.below, h.lists⟩
    · exact h
  | answer i success => exact ⟨h.neat, h.distinct, h.below, h.lists⟩

theorem run (h : Faithful w) (actions : List Action) : Faithful (w.run actions) := by
  induction actions generalizing w with
  | nil => exact h
  | cons a actions ih => exact ih (h.act a)

/-- **Who is told about a change**: those whose subscriptions are held under its root, but not by
the session that made it, and who are alive. -/
theorem audience_eq (h : Faithful w) (hb : w.bus = some b) (e : SkipToggled) :
    b.audience w.isAlive e = ((w.held e.root).filter fun g =>
      g.session != e.origin && w.isAlive g.listener).map (·.listener) := by
  rw [audience, h.lists b hb, List.filter_map, List.map_map]
  rfl

end Faithful

/-! ## What becomes of a change -/

/-- Nothing but the answers of its listeners matters to a delivery. -/
theorem deliveries_act (w : World) (a : Action) {i : Nat} {d : Delivery}
    (hd : w.deliveries[i]? = some d) : (w.act a).deliveries[i]? =
      some ((answersTo i [a]).foldl (fun d success => d.answer success) d) := by
  cases a with
  | subscribe root session k =>
    show (w.subscribe root session k).deliveries[i]? = some d
    unfold World.subscribe
    split <;> exact hd
  | dropSubscription j =>
    show (w.release j).deliveries[i]? = some d
    unfold World.release
    split
    · split <;> exact hd
    · exact hd
  | dropListener k => exact hd
  | dropBus => exact hd
  | publish e =>
    show (w.publish e).deliveries[i]? = some d
    unfold World.publish
    split
    · exact (List.getElem?_append_left (List.getElem?_eq_some_iff.mp hd).1).trans hd
    · exact hd
  | answer j success =>
    show (w.deliveries.modify j (Delivery.answer success))[i]? = _
    rw [List.getElem?_modify, hd]
    by_cases hij : j = i <;> simp [answersTo, hij]

theorem deliveries_run (w : World) (actions : List Action) {i : Nat} {d : Delivery}
    (hd : w.deliveries[i]? = some d) : (w.run actions).deliveries[i]? =
      some ((answersTo i actions).foldl (fun d success => d.answer success) d) := by
  induction actions generalizing w d with
  | nil => exact hd
  | cons a actions ih =>
    have hsplit : answersTo i (a :: actions) = answersTo i [a] ++ answersTo i actions :=
      List.filterMap_append (l := [a])
    rw [hsplit, List.foldl_append]
    exact ih _ (deliveries_act w a hd)

theorem deliveries_publish {w : World} {b : SkipBus} (hb : w.bus = some b) (e : SkipToggled) :
    (w.publish e).deliveries[w.deliveries.length]? = some (.start e (b.audience w.isAlive e)) := by
  simp only [World.publish, hb, List.getElem?_concat_length]

/-! ## Every history -/

/-- **The bus is the list of the subscriptions that are held**, whatever was done with it.  It keeps
the roots that have some; dropping a subscription takes off just this one; and a change that is
published is given to those who listen for it at this moment, to one after the other as they answer
and whatever they answer, and their number is returned when all have. -/
theorem bus_spec (actions : List Action) (b : SkipBus)
    (hb : (World.start.run actions).bus = some b) :
    let w := World.start.run actions
    (∀ root, b.subscribers root = (w.held root).map Guard.subscriber ∧
      b.count root = (w.held root).length ∧ (root ∈ b.topics.keys ↔ w.held root ≠ [])) ∧
    (∀ i g, w.guards[i]? = some g → g.isHeld = true →
      (w.act (.dropSubscription i)).bus = some (b.unsubscribe g.subscription) ∧
        ∀ root, (b.subscribers root).count g.subscriber =
            (if g.subscription.root = root then 1 else 0) ∧
          (b.unsubscribe g.subscription).subscribers root =
            (b.subscribers root).erase g.subscriber) ∧
    ∀ e later, ∃ d,
      (w.run (.publish e :: later)).deliveries[w.deliveries.length]? = some d ∧ d.event = e ∧
        d.told = (w.audience e).take ((answersTo w.deliveries.length later).length + 1) ∧
        d.result? = if (w.audience e).length ≤ (answersTo w.deliveries.length later).length then
          some (w.audience e).length else none := by
  intro w
  have h : Faithful w := faithful_start.run actions
  refine ⟨fun root => ⟨h.lists b hb root, ?_, ?_⟩, fun i g hi hheld => ⟨?_, fun root => ⟨?_, ?_⟩⟩,
    fun e later => ?_⟩
  · rw [count, h.lists b hb, List.length_map]
  · rw [(h.neat b hb).mem_keys_iff, h.lists b hb, Ne, List.map_eq_nil_iff]
  · have hbus : w.bus = some b := hb
    simp only [World.act, World.release, hi, hheld, if_true, hbus, Option.map_some]
  · exact h.count_subscriber hb (List.mem_of_getElem? hi) hheld root
  · exact h.subscribers_unsubscribe_erase hb (List.mem_of_getElem? hi) root
  · have hpublished := deliveries_publish hb e
    have hlater := deliveries_run (w.publish e) later hpublished
    refine ⟨_, hlater, ?_⟩
    rw [h.audience_eq hb]
    exact Delivery.foldl_answer_start e _ _

/-- Two subscriptions share their session and their listener.  One of them is dropped while a change
is on its way, and the first listener fails: all the same the other listeners are told, and only
this one is taken off. -/
theorem bus_spec_shared :
    let w := World.start.run [.subscribe ⟨"root"⟩ ⟨"a"⟩ ⟨0⟩, .subscribe ⟨"root"⟩ ⟨"b"⟩ ⟨1⟩,
      .subscribe ⟨"root"⟩ ⟨"b"⟩ ⟨1⟩, .subscribe ⟨"root"⟩ ⟨"c"⟩ ⟨2⟩]
    ∃ b, w.bus = some b ∧
      (b.unsubscribe ⟨⟨"root"⟩, 2⟩).subscribers ⟨"root"⟩ =
        [⟨1, ⟨"a"⟩, ⟨0⟩⟩, ⟨3, ⟨"b"⟩, ⟨1⟩⟩, ⟨4, ⟨"c"⟩, ⟨2⟩⟩] ∧
      ∃ d, (w.run [.publish ⟨⟨"root"⟩, ⟨"a"⟩, "file:///app/a.js", true⟩, .answer 0 false,
          .dropSubscription 1, .answer 0 true, .answer 0 true]).deliveries[0]? = some d ∧
        d.told = [⟨1⟩, ⟨1⟩, ⟨2⟩] ∧ d.result? = some 3 := by
  intro w
  obtain ⟨-, hdrop, hpublish⟩ := bus_spec _ _ (rfl : w.bus = some _)
  obtain ⟨-, herase⟩ := hdrop 1 ⟨⟨⟨"root"⟩, 2⟩, ⟨"b"⟩, ⟨1⟩, true⟩ rfl rfl
  obtain ⟨d, hd, -, htold, hresult⟩ := hpublish ⟨⟨"root"⟩, ⟨"a"⟩, "file:///app/a.js", true⟩
    [.answer 0 false, .dropSubscription 1, .answer 0 true, .answer 0 true]
  refine ⟨_, rfl, ?_, d, hd, ?_, ?_⟩
  · rw [(herase ⟨"root"⟩).2]
    decide +kernel
  · rw [htold]
    decide +kernel
  · rw [hresult]
    decide +kernel

end SkipBus
end DebugTree
