import DebugTree.Session.Handshake
import Mathlib.Data.List.Basic

/-!
# What a connection has kept

A connection takes requests one after the other.  What is replayed of them in the end can be read
off the requests and the answers, without regard to the connection (`script`): the numbers of
breakpoints are all that an answer adds.

What has been kept is a matter of all requests so far (`PendingConnection.Keeps`), and one more
request adds to it (`PendingConnection.Keeps.collect`).
-/

namespace DebugTree

namespace Protocol.Request

/-! ## Which requests are kept -/

def introduction? : Request → Option Initialize
  | .initialization args => some args
  | _ => none

def exceptionBreakpoints? : Request → Option SetExceptionBreakpoints
  | .setExceptionBreakpoints args => some args
  | _ => none

def breakpoints? : Request → Option SetBreakpoints
  | .setBreakpoints args => some args
  | _ => none

def customBreakpoints? : Request → Option (List String)
  | .enableCustomBreakpoints args => some args.ids
  | _ => none

end Protocol.Request

namespace Session

open Protocol

/-- The breakpoints that an editor gets as an answer. -/
def breakpointsIn? : Except Fault Collected → Option (List Breakpoint)
  | .ok (.breakpoints reply) => some reply
  | _ => none

/-- The numbers that an editor gets, one list for each of its requests for breakpoints. -/
def numbersIn (answers : List (Except Fault Collected)) : List (List BreakpointId) :=
  (answers.filterMap breakpointsIn?).map fun reply => reply.filterMap (·.id)

/-- What an adapter has to hear of requests, if the editor was given these numbers: the latest
exception filters, the breakpoints of all requests in order, the latest custom breakpoints, the
end of the configuration, the latest introduction; and then it is waited for. -/
def script (requests : List Request) (numbers : List (List BreakpointId)) : List AdapterCall :=
  ((requests.filterMap Request.exceptionBreakpoints?).getLast?.map
      AdapterCall.setExceptionBreakpoints).toList ++
    List.zipWith AdapterCall.setBreakpoints (requests.filterMap Request.breakpoints?) numbers ++
    ((requests.filterMap Request.customBreakpoints?).getLast?.map
      AdapterCall.enableCustomBreakpoints).toList ++
    [.configurationDone] ++
    ((requests.filterMap Request.introduction?).getLast?.map AdapterCall.introduction).toList ++
    [.launchBlocker]

namespace PendingConnection

variable {p : PendingConnection} {requests : List Request} {r : Request} {k : ConnectionId}

/-! ## One request -/

theorem collect_launch (p : PendingConnection) (kind : LaunchKind) (args : Launch) :
    (p.collect (.launch kind args)).2 = p ∧
      breakpointsIn? (p.collect (.launch kind args)).1 = none := by
  rw [collect]
  split <;> exact ⟨rfl, rfl⟩

theorem id_collect (p : PendingConnection) (r : Request) : (p.collect r).2.id = p.id := by
  cases r with
  | launch kind args => rw [(p.collect_launch kind args).1]
  | _ => rfl

/-- Of introductions, exception filters and custom breakpoints the latest counts. -/
theorem latest_collect (p : PendingConnection) (r : Request) :
    (p.collect r).2.traffic.introduction = r.introduction?.or p.traffic.introduction ∧
    (p.collect r).2.traffic.exceptionBreakpoints =
      r.exceptionBreakpoints?.or p.traffic.exceptionBreakpoints ∧
    (p.collect r).2.traffic.customBreakpoints =
      r.customBreakpoints?.or p.traffic.customBreakpoints := by
  cases r with
  | launch kind args => rw [(p.collect_launch kind args).1]; exact ⟨rfl, rfl, rfl⟩
  | _ => exact ⟨rfl, rfl, rfl⟩

/-- Breakpoints get the next numbers, and nothing else does. -/
theorem breakpoints_collect (p : PendingConnection) (r : Request) :
    (r.breakpoints? = none ∧ breakpointsIn? (p.collect r).1 = none ∧
      (p.collect r).2.traffic.breakpoints = p.traffic.breakpoints ∧
      (p.collect r).2.nextBreakpoint = p.nextBreakpoint) ∨
    ∃ args, r.breakpoints? = some args ∧
      breakpointsIn? (p.collect r).1 =
        some (placeholders args (p.numbers args.breakpoints.length)) ∧
      (p.collect r).2.traffic.breakpoints =
        p.traffic.breakpoints ++ [(args, p.numbers args.breakpoints.length)] ∧
      (p.collect r).2.nextBreakpoint = p.nextBreakpoint + args.breakpoints.length := by
  cases r with
  | setBreakpoints args => exact Or.inr ⟨args, rfl, rfl, rfl, rfl⟩
  | launch kind args =>
    obtain ⟨hsame, hanswer⟩ := p.collect_launch kind args
    exact Or.inl ⟨rfl, hanswer, by rw [hsame], by rw [hsame]⟩
  | _ => exact Or.inl ⟨rfl, rfl, rfl, rfl⟩

theorem filterMap_id_unverified (source : SourceDescriptor) (bs : List SourceBreakpoint)
    (ids : List BreakpointId) (hlength : ids.length = bs.length) :
    (List.zipWith (fun (b : SourceBreakpoint) id => Breakpoint.unverified id b.line source)
      bs ids).filterMap (·.id) = ids := by
  induction bs generalizing ids with
  | nil =>
    rw [List.eq_nil_of_length_eq_zero hlength]
    rfl
  | cons b bs ih =>
    obtain ⟨id, rest, rfl⟩ := List.exists_cons_of_length_eq_add_one hlength
    have hhead : (Breakpoint.unverified id b.line source).id = some id := rfl
    rw [List.zipWith_cons_cons, List.filterMap_cons_some hhead, ih rest (Nat.succ.inj hlength)]

/-- The breakpoints of an answer have the numbers that were given out for them. -/
theorem filterMap_id_placeholders {args : SetBreakpoints} {ids : List BreakpointId}
    (hlength : ids.length = args.breakpoints.length) :
    (placeholders args ids).filterMap (·.id) = ids :=
  filterMap_id_unverified args.source args.breakpoints ids hlength

theorem numbers_eq_range' (p : PendingConnection) (count : Nat) :
    p.numbers count = List.range' p.nextBreakpoint count :=
  List.range'_eq_map_range.symm

/-! ## All requests -/

/-- What a connection has kept of requests, and what it has answered. -/
structure Keeps (p : PendingConnection) (k : ConnectionId) (requests : List Request)
    (answers : List (Except Fault Collected)) : Prop where
  id : p.id = k
  introduction : p.traffic.introduction = (requests.filterMap Request.introduction?).getLast?
  exceptionBreakpoints : p.traffic.exceptionBreakpoints =
    (requests.filterMap Request.exceptionBreakpoints?).getLast?
  customBreakpoints : p.traffic.customBreakpoints =
    (requests.filterMap Request.customBreakpoints?).getLast?
  requested : p.traffic.breakpoints.map (·.1) = requests.filterMap Request.breakpoints?
  answered : answers.filterMap breakpointsIn? =
    p.traffic.breakpoints.map fun b => placeholders b.1 b.2
  counted : ∀ b ∈ p.traffic.breakpoints, b.2.length = b.1.breakpoints.length
  numbered : ∃ count, p.nextBreakpoint = 1 + count ∧
    (p.traffic.breakpoints.map (·.2)).flatten = List.range' 1 count

theorem keeps_fresh (k : ConnectionId) : (fresh k).Keeps k [] [] :=
  ⟨rfl, rfl, rfl, rfl, rfl, rfl, fun _ hb => absurd hb List.not_mem_nil, 0, rfl, rfl⟩

/-- What comes last of a request and of those before it. -/
theorem getLast?_filterMap_concat {α β : Type} (f : α → Option β) (l : List α) (x : α) :
    ((l ++ [x]).filterMap f).getLast? = (f x).or (l.filterMap f).getLast? := by
  rw [List.filterMap_append, List.getLast?_append]
  cases hx : f x <;> simp [hx]

/-- **One more request.** -/
theorem Keeps.collect {answers : List (Except Fault Collected)} (h : p.Keeps k requests answers)
    (r : Request) : (p.collect r).2.Keeps k (requests ++ [r]) (answers ++ [(p.collect r).1]) := by
  have hlast {β : Type} (f : Request → Option β) := getLast?_filterMap_concat f requests r
  obtain ⟨hintroduction, hexceptions, hcustom⟩ := p.latest_collect r
  refine ⟨(p.id_collect r).trans h.id, ?_, ?_, ?_, ?_, ?_, ?_, ?_⟩
  · rw [hintroduction, h.introduction, hlast]
  · rw [hexceptions, h.exceptionBreakpoints, hlast]
  · rw [hcustom, h.customBreakpoints, hlast]
  all_goals obtain ⟨hr, hanswer, hkept, hnext⟩ | ⟨args, hr, hanswer, hkept, hnext⟩ :=
    p.breakpoints_collect r
  · simp [hkept, hr, h.requested]
  · simp [hkept, hr, h.requested]
  · simp [hkept, hanswer, h.answered]
  · simp [hkept, hanswer, h.answered]
  · exact hkept ▸ h.counted
  · rw [hkept]
    intro b hb
    rcases List.mem_append.mp hb with hb | hb
    · exact h.counted b hb
    · rw [List.mem_singleton.mp hb, numbers_eq_range', List.length_range']
  · rw [hkept, hnext]
    exact h.numbered
  · obtain ⟨count, hcount, hnumbers⟩ := h.numbered
    refine ⟨count + args.breakpoints.length, by rw [hnext, hcount, Nat.add_assoc], ?_⟩
    rw [hkept, List.map_append, List.flatten_append, hnumbers, List.map_singleton,
      List.flatten_singleton, numbers_eq_range', hcount, List.range'_append_1]

theorem Keeps.collectAll {answers : List (Except Fault Collected)}
    (h : p.Keeps k requests answers) (more : List Request) :
    (p.collectAll more).2.Keeps k (requests ++ more) (answers ++ (p.collectAll more).1) := by
  induction more generalizing p requests answers with
  | nil => simpa [PendingConnection.collectAll] using h
  | cons r rest ih => simpa [PendingConnection.collectAll] using ih (h.collect r)

end PendingConnection

/-- **What a connection keeps.**  Every request for breakpoints is answered with one breakpoint for
each that was asked for, in order; their numbers are 1, 2, 3 and so on over the whole connection.
What is replayed are the requests, with exactly those numbers. -/
theorem collectAll_fresh (k : ConnectionId) (requests : List Request) :
    let answers := ((PendingConnection.fresh k).collectAll requests).1
    let p := ((PendingConnection.fresh k).collectAll requests).2
    p.id = k ∧
    answers.filterMap breakpointsIn? =
      List.zipWith PendingConnection.placeholders (requests.filterMap Request.breakpoints?)
        (numbersIn answers) ∧
    (numbersIn answers).map List.length =
      (requests.filterMap Request.breakpoints?).map (·.breakpoints.length) ∧
    (∃ count, (numbersIn answers).flatten = List.range' 1 count) ∧
    p.traffic.replay = script requests (numbersIn answers) := by
  intro answers p
  have h : p.Keeps k requests answers := (PendingConnection.keeps_fresh k).collectAll requests
  have hnumbers : numbersIn answers = p.traffic.breakpoints.map (·.2) := by
    rw [numbersIn, h.answered, List.map_map]
    exact List.map_congr_left fun b hb =>
      PendingConnection.filterMap_id_placeholders (h.counted b hb)
  have hzip {α : Type} (f : SetBreakpoints → List BreakpointId → α) :
      List.zipWith f (requests.filterMap Request.breakpoints?) (numbersIn answers) =
        p.traffic.breakpoints.map fun b => f b.1 b.2 := by
    rw [hnumbers, ← h.requested, List.zipWith_map, List.zipWith_self]
  refine ⟨h.id, ?_, ?_, ?_, ?_⟩
  · rw [hzip, h.answered]
  · rw [hnumbers, ← h.requested, List.map_map, List.map_map]
    exact List.map_congr_left fun b hb => h.counted b hb
  · obtain ⟨count, -, hcount⟩ := h.numbered
    exact ⟨count, hnumbers ▸ hcount⟩
  · rw [Traffic.replay, script, hzip, h.introduction, h.exceptionBreakpoints, h.customBreakpoints]

end Session
end DebugTree
