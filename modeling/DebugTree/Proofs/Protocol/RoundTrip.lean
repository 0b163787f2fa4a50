import DebugTree.Proofs.Protocol.Records
import DebugTree.Protocol.Message

/-!
# Messages are read back

Every message that is both read and written here is read back: whatever form it came in, what is
written of it is one stored value, and that value is read as the same message
(`MessageType.read_write`).  So a message may be passed on any number of times, and after the first
time it does not change any more.

The proof follows the records, from those whose fields are scalars to the requests that hold them.
Each of them opens its reader once, takes for each field what `ReadsBack` says of it, and closes the
reader again over what was written.
-/

namespace DebugTree

open Json

theorem TargetId.readsBack : ReadsBack TargetId.ofJson? TargetId.toJson := by
  intro v id h
  obtain ⟨text, rfl, hagain⟩ := readsBack_text.exists_of_map h
  exact hagain

theorem LaunchKind.readsBack : ReadsBack LaunchKind.ofJson? LaunchKind.toJson :=
  readsBack_word fun k => by cases k <;> rfl

theorem Position.readsBack : ReadsBack Position.ofJson? Position.toJson := by
  refine readsBack_record fun f p f' h => ?_
  simp only [Position.ofFields, Option.bind_eq_bind, Option.bind_eq_some_iff, Prod.exists,
    Option.some.injEq, Prod.mk.injEq] at h
  obtain ⟨line, _, hline, column, _, hcolumn, rfl, -⟩ := h
  have hline := (readsBack_unsigned 32).required hline
  have hcolumn := (readsBack_unsigned 32).required hcolumn
  have hwrites := hline.writes.append hcolumn.writes
  have hnd := hwrites.nodup (by decide)
  refine ⟨_, _, hwrites, by decide, rfl, ?_⟩
  simp (disch := simp [Index.find?_append, Index.find?]) only [Position.ofFields,
    Option.bind_eq_bind, Option.bind_some, hline.reads hnd, hcolumn.reads hnd]

namespace Protocol

/-! ## Breakpoints -/

theorem SourceDescriptor.readsBack :
    ReadsBack SourceDescriptor.ofJson? SourceDescriptor.toJson := by
  refine readsBack_record fun f s f' h => ?_
  simp only [SourceDescriptor.ofFields, Option.bind_eq_bind, Option.bind_eq_some_iff, Prod.exists,
    Option.some.injEq, Prod.mk.injEq] at h
  obtain ⟨name, _, hname, path, _, hpath, reference, _, hreference, rfl, -⟩ := h
  have hname := readsBack_text.optional rfl hname
  have hpath := readsBack_text.optional rfl hpath
  have hreference := readsBack_signed64.optional rfl hreference
  have hwrites := (hname.writes.append hpath.writes).append hreference.writes
  have hnd := hwrites.nodup (by decide)
  refine ⟨_, _, hwrites, by decide, rfl, ?_⟩
  simp (disch := simp [Index.find?_append, Index.find?]) only [SourceDescriptor.ofFields,
    Option.bind_eq_bind, Option.bind_some, hname.reads hnd, hpath.reads hnd, hreference.reads hnd]

theorem SourceBreakpoint.readsBack :
    ReadsBack SourceBreakpoint.ofJson? SourceBreakpoint.toJson := by
  refine readsBack_record fun f b f' h => ?_
  simp only [SourceBreakpoint.ofFields, Option.bind_eq_bind, Option.bind_eq_some_iff, Prod.exists,
    Option.some.injEq, Prod.mk.injEq] at h
  obtain ⟨line, _, hline, column, _, hcolumn, condition, _, hcondition, hits, _, hhits, text, _,
    htext, rfl, -⟩ := h
  have hline := readsBack_signed64.required hline
  have hcolumn := readsBack_signed64.optional rfl hcolumn
  have hcondition := readsBack_text.optional rfl hcondition
  have hhits := readsBack_text.optional rfl hhits
  have htext := readsBack_text.optional rfl htext
  have hwrites := (((hline.writes.append hcolumn.writes).append hcondition.writes).append
    hhits.writes).append htext.writes
  have hnd := hwrites.nodup (by decide)
  refine ⟨_, _, hwrites, by decide, rfl, ?_⟩
  simp (disch := simp [Index.find?_append, Index.find?]) only [SourceBreakpoint.ofFields,
    Option.bind_eq_bind, Option.bind_some, hline.reads hnd, hcolumn.reads hnd, hcondition.reads hnd,
    hhits.reads hnd, htext.reads hnd]

theorem SetBreakpoints.readsBack : ReadsBack SetBreakpoints.ofJson? SetBreakpoints.toJson := by
  refine readsBack_record fun f a f' h => ?_
  simp only [SetBreakpoints.ofFields, Option.bind_eq_bind, Option.bind_eq_some_iff, Prod.exists,
    Option.some.injEq, Prod.mk.injEq] at h
  obtain ⟨source, _, hsource, breakpoints, _, hbreakpoints, modified, _, hmodified, rfl, -⟩ := h
  have hsource := SourceDescriptor.readsBack.required hsource
  have hbreakpoints := (readsBack_list SourceBreakpoint.readsBack).defaulted hbreakpoints
    ⟨isStored_nil, rfl⟩
  have hmodified := readsBack_flag.optional rfl hmodified
  have hwrites := (hsource.writes.append hbreakpoints.writes).append hmodified.writes
  have hnd := hwrites.nodup (by decide)
  refine ⟨_, _, hwrites, by decide, rfl, ?_⟩
  simp (disch := simp [Index.find?_append, Index.find?]) only [SetBreakpoints.ofFields,
    Option.bind_eq_bind, Option.bind_some, hsource.reads hnd, hbreakpoints.reads hnd,
    hmodified.reads hnd]

theorem Breakpoint.readsBack : ReadsBack Breakpoint.ofJson? Breakpoint.toJson := by
  refine readsBack_record fun f b f' h => ?_
  simp only [Breakpoint.ofFields, Option.bind_eq_bind, Option.bind_eq_some_iff, Prod.exists,
    Option.some.injEq, Prod.mk.injEq] at h
  obtain ⟨id, _, hid, verified, _, hverified, message, _, hmessage, line, _, hline, source, _,
    hsource, rfl, -⟩ := h
  have hid := (readsBack_unsigned 64).optional rfl hid
  have hverified := readsBack_flag.required hverified
  have hmessage := readsBack_text.optional rfl hmessage
  have hline := readsBack_signed64.optional rfl hline
  have hsource := SourceDescriptor.readsBack.optional rfl hsource
  have hwrites := (((hid.writes.append hverified.writes).append hmessage.writes).append
    hline.writes).append hsource.writes
  have hnd := hwrites.nodup (by decide)
  refine ⟨_, _, hwrites, by decide, rfl, ?_⟩
  simp (disch := simp [Index.find?_append, Index.find?]) only [Breakpoint.ofFields,
    Option.bind_eq_bind, Option.bind_some, hid.reads hnd, hverified.reads hnd, hmessage.reads hnd,
    hline.reads hnd, hsource.reads hnd]

theorem ExceptionFilter.readsBack : ReadsBack ExceptionFilter.ofJson? ExceptionFilter.toJson := by
  refine readsBack_record fun f x f' h => ?_
  simp only [ExceptionFilter.ofFields, Option.bind_eq_bind, Option.bind_eq_some_iff, Prod.exists,
    Option.some.injEq, Prod.mk.injEq] at h
  obtain ⟨id, _, hid, condition, _, hcondition, rfl, -⟩ := h
  have hid := readsBack_text.required hid
  have hcondition := readsBack_text.optional rfl hcondition
  have hwrites := hid.writes.append hcondition.writes
  have hnd := hwrites.nodup (by decide)
  refine ⟨_, _, hwrites, by decide, rfl, ?_⟩
  simp (disch := simp [Index.find?_append, Index.find?]) only [ExceptionFilter.ofFields,
    Option.bind_eq_bind, Option.bind_some, hid.reads hnd, hcondition.reads hnd]

theorem SetExceptionBreakpoints.readsBack :
    ReadsBack SetExceptionBreakpoints.ofJson? SetExceptionBreakpoints.toJson := by
  refine readsBack_record fun f a f' h => ?_
  simp only [SetExceptionBreakpoints.ofFields, Option.bind_eq_bind, Option.bind_eq_some_iff,
    Prod.exists, Option.some.injEq, Prod.mk.injEq] at h
  obtain ⟨filters, _, hfilters, options, _, hoptions, rfl, -⟩ := h
  have hfilters := (readsBack_list readsBack_text).defaulted hfilters
    ⟨isStored_nil, rfl⟩
  have hoptions := (readsBack_list ExceptionFilter.readsBack).optional rfl hoptions
  have hwrites := hfilters.writes.append hoptions.writes
  have hnd := hwrites.nodup (by decide)
  refine ⟨_, _, hwrites, by decide, rfl, ?_⟩
  simp (disch := simp [Index.find?_append, Index.find?]) only [SetExceptionBreakpoints.ofFields,
    Option.bind_eq_bind, Option.bind_some, hfilters.reads hnd, hoptions.reads hnd]

theorem EnableCustomBreakpoints.readsBack :
    ReadsBack EnableCustomBreakpoints.ofJson? EnableCustomBreakpoints.toJson := by
  refine readsBack_record fun f a f' h => ?_
  simp only [EnableCustomBreakpoints.ofFields, Option.bind_eq_bind, Option.bind_eq_some_iff,
    Prod.exists, Option.some.injEq, Prod.mk.injEq] at h
  obtain ⟨ids, _, hids, rfl, -⟩ := h
  have hids := (readsBack_list readsBack_text).required hids
  have hnd := hids.writes.nodup (by decide)
  refine ⟨_, _, hids.writes, by decide, rfl, ?_⟩
  simp (disch := simp [Index.find?_append, Index.find?]) only [EnableCustomBreakpoints.ofFields,
    Option.bind_eq_bind, Option.bind_some, hids.reads hnd]

/-! ## Records that carry members along -/

variable {depth : Nat}

theorem Initialize.readsBack : ReadsBack (Initialize.ofJson? depth) Initialize.toJson := by
  intro v a h
  cases v with
  | object members =>
    simp only [Initialize.ofJson?, Option.bind_eq_bind, Option.bind_eq_some_iff, Prod.exists,
      Option.some.injEq] at h
    obtain ⟨adapter, _, hadapter, client, _, hclient, lines, _, hlines, columns, _, hcolumns,
      supports, _, hsupports, others, hothers, rfl⟩ := h
    have hadapter := readsBack_text.required hadapter
    have hclient := readsBack_text.optional rfl hclient
    have hlines := readsBack_flag.optional rfl hlines
    have hcolumns := readsBack_flag.optional rfl hcolumns
    have hsupports := readsBack_flag.optional rfl hsupports
    have hothers := areOthers_of_others? hothers
    have hknown := (((hadapter.writes.append hclient.writes).append hlines.writes).append
      hcolumns.writes).append hsupports.writes
    have hnames := hothers.nodup_append (by decide)
    have hnd := (hknown.append hothers.writes).nodup hnames
    refine ⟨(hknown.append hothers.writes).isStored hnames, ?_⟩
    simp (disch := first | decide | simp [Index.find?_append, Index.find?]) only [Initialize.toJson,
      Initialize.ofJson?, Option.bind_eq_bind, Option.bind_some, hadapter.amongOthers hothers hnd,
      hclient.amongOthers hothers hnd, hlines.amongOthers hothers hnd,
      hcolumns.amongOthers hothers hnd, hsupports.amongOthers hothers hnd,
      others?_append hothers fun _ hm => hknown.mem_names hm]
  | _ => cases h

theorem Launch.readsBack : ReadsBack (Launch.ofJson? depth) Launch.toJson := by
  intro v a h
  cases v with
  | object members =>
    simp only [Launch.ofJson?, Option.bind_eq_bind, Option.bind_eq_some_iff, Prod.exists,
      Option.some.injEq] at h
    obtain ⟨target, _, htarget, others, hothers, rfl⟩ := h
    have htarget := TargetId.readsBack.optional rfl htarget
    have hothers := areOthers_of_others? hothers
    have hwrites := htarget.writes.append hothers.writes
    have hnames := hothers.nodup_append (by decide)
    have hnd := hwrites.nodup hnames
    refine ⟨hwrites.isStored hnames, ?_⟩
    simp (disch := first | decide | simp [Index.find?]) only [Launch.toJson, Launch.ofJson?,
      Option.bind_eq_bind, Option.bind_some, htarget.amongOthers hothers hnd,
      others?_append hothers fun _ hm => htarget.writes.mem_names hm]
  | _ => cases h

theorem NestedSession.readsBack : ReadsBack (NestedSession.ofJson? depth) NestedSession.toJson := by
  intro v a h
  cases v with
  | object members =>
    simp only [NestedSession.ofJson?, Option.bind_eq_bind, Option.bind_eq_some_iff, Prod.exists,
      Option.some.injEq] at h
    obtain ⟨type, _, htype, name, _, hname, target, _, htarget, others, hothers, rfl⟩ := h
    have htype := readsBack_text.required htype
    have hname := readsBack_text.required hname
    have htarget := TargetId.readsBack.required htarget
    have hothers := areOthers_of_others? hothers
    have hknown := (htype.writes.append hname.writes).append htarget.writes
    have hnames := hothers.nodup_append (by decide)
    have hnd := (hknown.append hothers.writes).nodup hnames
    have hread : NestedSession.ofJson? depth (.object (([("type", .string type)] ++
        [("name", .string name)] ++ [(targetTag, target.toJson)]) ++ others.entries)) =
          some ⟨type, name, target, others⟩ := by
      simp (disch := first | decide | simp [Index.find?, targetTag]) only [NestedSession.ofJson?,
        Option.bind_eq_bind, Option.bind_some, htype.amongOthers hothers hnd,
        hname.amongOthers hothers hnd, htarget.amongOthers hothers hnd,
        others?_append hothers fun _ hm => hknown.mem_names hm]
    exact ⟨(hknown.append hothers.writes).isStored hnames, hread⟩
  | _ => cases h

theorem StartDebugging.readsBack :
    ReadsBack (StartDebugging.ofJson? depth) StartDebugging.toJson := by
  refine readsBack_record fun f a f' h => ?_
  simp only [StartDebugging.ofFields, Option.bind_eq_bind, Option.bind_eq_some_iff, Prod.exists,
    Option.some.injEq, Prod.mk.injEq] at h
  obtain ⟨kind, _, hkind, session, _, hsession, rfl, -⟩ := h
  have hkind := LaunchKind.readsBack.required hkind
  have hsession := NestedSession.readsBack.required hsession
  have hwrites := hkind.writes.append hsession.writes
  have hnd := hwrites.nodup (by decide)
  refine ⟨_, _, hwrites, by decide, rfl, ?_⟩
  simp (disch := simp [Index.find?_append, Index.find?]) only [StartDebugging.ofFields,
    Option.bind_eq_bind, Option.bind_some, hkind.reads hnd, hsession.reads hnd]

/-! ## Requests -/

namespace Request

variable {r : Request} {command : Command} {args : Json}

/-- The arguments of a request are written, and read as those of the same request. -/
theorem ofArguments?_again (h : ofArguments? depth args command = some r) : r.command = command ∧
    ∀ written ∈ r.arguments?, written.IsStored ∧ ofArguments? depth written command = some r := by
  cases command with
  | initialization =>
    obtain ⟨a, rfl, hagain⟩ := Initialize.readsBack.exists_of_map h
    exact ⟨rfl, by rintro _ ⟨⟩; exact hagain⟩
  | setExceptionBreakpoints =>
    obtain ⟨a, rfl, hagain⟩ := SetExceptionBreakpoints.readsBack.exists_of_map h
    exact ⟨rfl, by rintro _ ⟨⟩; exact hagain⟩
  | setBreakpoints =>
    obtain ⟨a, rfl, hagain⟩ := SetBreakpoints.readsBack.exists_of_map h
    exact ⟨rfl, by rintro _ ⟨⟩; exact hagain⟩
  | enableCustomBreakpoints =>
    obtain ⟨a, rfl, hagain⟩ := EnableCustomBreakpoints.readsBack.exists_of_map h
    exact ⟨rfl, by rintro _ ⟨⟩; exact hagain⟩
  | configurationDone =>
    cases args with
    | null => cases h; exact ⟨rfl, by rintro _ ⟨⟩⟩
    | _ => cases h
  | launch =>
    obtain ⟨a, rfl, hagain⟩ := Launch.readsBack.exists_of_map h
    exact ⟨rfl, by rintro _ ⟨⟩; exact hagain⟩
  | attach =>
    obtain ⟨a, rfl, hagain⟩ := Launch.readsBack.exists_of_map h
    exact ⟨rfl, by rintro _ ⟨⟩; exact hagain⟩

theorem ofCommand?_again (h : ofCommand? command = some r) :
    r.command = command ∧ r.arguments? = none := by
  cases command with
  | configurationDone => cases h; exact ⟨rfl, rfl⟩
  | _ => cases h

/-- A request that has no arguments is the request of its command. -/
theorem ofCommand?_command (h : r.arguments? = none) : ofCommand? r.command = some r := by
  cases r with
  | configurationDone => rfl
  | _ => cases h

theorem ofWord?_word (c : Command) : Command.ofWord? c.word = some c := by
  cases c <;> decide

/-- A request is read from its command and its arguments, if the arguments are read as its own. -/
theorem ofMembers?_again
    (h : ∀ written ∈ r.arguments?, ofArguments? depth written r.command = some r) :
    ofMembers? depth ([("command", .string r.command.word)] ++
      Json.memberOf "arguments" id r.arguments?) = some r := by
  have hword : word? Command.ofWord? (.string r.command.word) = some r.command :=
    ofWord?_word r.command
  cases hargs : r.arguments? with
  | none =>
    simp [ofMembers?, memberOf, Fields.required, Fields.optional, Fields.next,
      Fields.isExhausted, hword, ofCommand?_command hargs]
  | some written =>
    simp [ofMembers?, memberOf, Fields.required, Fields.optional, Fields.next, commandFirst, hword,
      h written hargs]

theorem readsBack : ReadsBack (Request.ofJson? depth) Request.toJson := by
  intro v r hv
  have hargs : ∀ written ∈ r.arguments?, written.IsStored ∧
      ofArguments? (depth - 1) written r.command = some r := by
    cases v with
    | object members =>
      have hv : ofMembers? (depth - 1) members = some r := hv
      simp only [ofMembers?, Option.bind_eq_bind, Option.bind_eq_some_iff, Prod.exists] at hv
      obtain ⟨command, f, -, args, f', -, hv⟩ := hv
      cases args with
      | none =>
        intro written hw
        rw [(ofCommand?_again hv).2] at hw
        cases hw
      | some args =>
        simp only at hv
        split at hv
        · obtain ⟨rfl, hagain⟩ := ofArguments?_again hv
          exact hagain
        · cases hv
    | array items =>
      rw [Request.ofJson?.eq_def] at hv
      split at hv
      · next heq => cases heq
      · next command args heq =>
        obtain ⟨command, -, hv⟩ := Option.bind_eq_some_iff.mp hv
        obtain ⟨rfl, hagain⟩ := ofArguments?_again hv
        exact hagain
      · cases hv
    | _ => cases hv
  have hwrites : Writes (["command"] ++ ["arguments"])
      ([("command", .string r.command.word)] ++ memberOf "arguments" id r.arguments?) :=
    (writes_member (isStored_string _)).append
      (writes_memberOf fun written hw => (hargs written hw).1)
  exact ⟨hwrites.isStored (by decide), ofMembers?_again fun written hw => (hargs written hw).2⟩

end Request

/-! ## Toggles -/

theorem ToggleRequest.readsBack :
    ReadsBack (ToggleRequest.ofJson? depth) ToggleRequest.toJson := by
  intro v t h
  cases v with
  | object members =>
    rw [ToggleRequest.ofJson?] at h
    split at h
    · next hstorable =>
      have hroom := (storable_object_iff.mp hstorable).1
      rw [ToggleRequest.ofMembers?] at h
      split at h
      · next name _ hname =>
        cases h
        have hname := readsBack_text.required hname
        have hagain := hname.reads (hname.writes.nodup (by decide)) rfl
        refine ⟨hname.writes.isStored (by decide), ?_⟩
        simp [ToggleRequest.toJson, ToggleRequest.ofJson?, ToggleRequest.ofMembers?, storable,
          membersStorable, hroom, hagain]
      · obtain ⟨⟨number, _⟩, hnumber, rfl⟩ := Option.map_eq_some_iff.mp h
        have hnumber := readsBack_signed64.required hnumber
        have hagain := hnumber.reads (hnumber.writes.nodup (by decide)) rfl
        have hunnamed :
            (Fields.named [("sourceReference", ofInt number)]).required "resource" text? = none :=
          rfl
        refine ⟨hnumber.writes.isStored (by decide), ?_⟩
        rw [ofInt] at hagain hunnamed
        simp [ToggleRequest.toJson, ToggleRequest.ofJson?, ToggleRequest.ofMembers?, storable,
          membersStorable, ofInt, hroom, hagain, hunnamed]
    · cases h
  | _ => cases h

theorem answers_status (status : String) :
    Answers "status" (·.required "status" text?) status [("status", .string status)] :=
  answers_required (isStored_string status) rfl

theorem ToggleOutcome.ofStatus?_again {status : String} {f : Fields Json} {t : ToggleOutcome}
    (h : ToggleOutcome.ofStatus? status f = some t) :
    t.toJson.IsStored ∧ ToggleOutcome.ofJson? depth t.toJson = some t := by
  rw [ToggleOutcome.ofStatus?.eq_def] at h
  split at h
  · simp only [Option.bind_eq_bind, Option.bind_eq_some_iff, Prod.exists] at h
    obtain ⟨url, _, hurl, skipped, _, hskipped, h⟩ := h
    split at h
    · cases h
      have hstatus := answers_status "toggled"
      have hurl := readsBack_text.required hurl
      have hskipped := readsBack_flag.required hskipped
      have hwrites := (hstatus.writes.append hurl.writes).append hskipped.writes
      have hnd := hwrites.nodup (by decide)
      have hread : ToggleOutcome.ofJson? depth (.object ([("status", .string "toggled")] ++
          [("url", .string url)] ++ [("skipped", .bool skipped)])) =
            some (.toggled url skipped) := by
        simp (disch := simp [Index.find?_append, Index.find?]) only [ToggleOutcome.ofJson?,
          ToggleOutcome.ofStatus?, Option.bind_eq_bind, Option.bind_some, hstatus.reads hnd,
          hurl.reads hnd, hskipped.reads hnd]
        rfl
      exact ⟨hwrites.isStored (by decide), hread⟩
    · cases h
  · split at h
    · cases h
      have hstatus := answers_status "notFound"
      refine ⟨hstatus.writes.isStored (by decide), ?_⟩
      simp only [ToggleOutcome.toJson, ToggleOutcome.ofJson?, ToggleOutcome.ofStatus?,
        Option.bind_eq_bind, Option.bind_some, hstatus.reads (hstatus.writes.nodup (by decide)) rfl]
      rfl
    · cases h
  · cases h

theorem ToggleOutcome.readsBack :
    ReadsBack (ToggleOutcome.ofJson? depth) ToggleOutcome.toJson := by
  intro v t h
  cases v with
  | object members =>
    simp only [ToggleOutcome.ofJson?, Option.bind_eq_bind, Option.bind_eq_some_iff,
      Prod.exists] at h
    obtain ⟨status, f, -, h⟩ := h
    split at h
    · exact ToggleOutcome.ofStatus?_again h
    · cases h
  | array items =>
    rw [ToggleOutcome.ofJson?.eq_def] at h
    split at h
    · next heq => cases heq
    · split at h
      · exact ToggleOutcome.ofStatus?_again h
      · cases h
    · cases h
  | _ => cases h

/-! ## Room for open containers -/

variable {depth' : Nat} (hle : depth ≤ depth')

include hle

theorem Initialize.ofJson?_mono {v : Json} {a : Initialize}
    (h : Initialize.ofJson? depth v = some a) : Initialize.ofJson? depth' v = some a := by
  cases v with
  | object members =>
    simp only [Initialize.ofJson?, Option.bind_eq_bind, Option.bind_eq_some_iff] at h ⊢
    obtain ⟨adapter, hadapter, client, hclient, lines, hlines, columns, hcolumns, supports,
      hsupports, others, hothers, h⟩ := h
    exact ⟨adapter, hadapter, client, hclient, lines, hlines, columns, hcolumns, supports,
      hsupports, others, others?_mono (Nat.sub_le_sub_right hle 1) hothers, h⟩
  | _ => cases h

theorem Launch.ofJson?_mono {v : Json} {a : Launch} (h : Launch.ofJson? depth v = some a) :
    Launch.ofJson? depth' v = some a := by
  cases v with
  | object members =>
    simp only [Launch.ofJson?, Option.bind_eq_bind, Option.bind_eq_some_iff] at h ⊢
    obtain ⟨target, htarget, others, hothers, h⟩ := h
    exact ⟨target, htarget, others, others?_mono (Nat.sub_le_sub_right hle 1) hothers, h⟩
  | _ => cases h

theorem NestedSession.ofJson?_mono {v : Json} {a : NestedSession}
    (h : NestedSession.ofJson? depth v = some a) : NestedSession.ofJson? depth' v = some a := by
  cases v with
  | object members =>
    simp only [NestedSession.ofJson?, Option.bind_eq_bind, Option.bind_eq_some_iff] at h ⊢
    obtain ⟨type, htype, name, hname, target, htarget, others, hothers, h⟩ := h
    exact ⟨type, htype, name, hname, target, htarget, others,
      others?_mono (Nat.sub_le_sub_right hle 1) hothers, h⟩
  | _ => cases h

theorem StartDebugging.ofJson?_mono {v : Json} {a : StartDebugging}
    (h : StartDebugging.ofJson? depth v = some a) : StartDebugging.ofJson? depth' v = some a := by
  refine record?_of_forall (fun f r hr => ?_) h
  simp only [StartDebugging.ofFields, Option.bind_eq_bind, Option.bind_eq_some_iff] at hr ⊢
  obtain ⟨kind, hkind, session, hsession, hr⟩ := hr
  exact ⟨kind, hkind, session, Fields.required_of_forall
    (fun _ _ => NestedSession.ofJson?_mono (Nat.sub_le_sub_right hle 1)) hsession, hr⟩

theorem Request.ofArguments?_mono {args : Json} {command : Command} {r : Request}
    (h : Request.ofArguments? depth args command = some r) :
    Request.ofArguments? depth' args command = some r := by
  cases command with
  | initialization =>
    obtain ⟨a, ha, rfl⟩ := Option.map_eq_some_iff.mp h
    exact Option.map_eq_some_iff.mpr ⟨a, Initialize.ofJson?_mono hle ha, rfl⟩
  | launch =>
    obtain ⟨a, ha, rfl⟩ := Option.map_eq_some_iff.mp h
    exact Option.map_eq_some_iff.mpr ⟨a, Launch.ofJson?_mono hle ha, rfl⟩
  | attach =>
    obtain ⟨a, ha, rfl⟩ := Option.map_eq_some_iff.mp h
    exact Option.map_eq_some_iff.mpr ⟨a, Launch.ofJson?_mono hle ha, rfl⟩
  | _ => exact h

theorem Request.ofJson?_mono {v : Json} {r : Request} (h : Request.ofJson? depth v = some r) :
    Request.ofJson? depth' v = some r := by
  have hle' := Nat.sub_le_sub_right hle 1
  cases v with
  | object members =>
    have h : Request.ofMembers? (depth - 1) members = some r := h
    show Request.ofMembers? (depth' - 1) members = some r
    simp only [Request.ofMembers?, Option.bind_eq_bind, Option.bind_eq_some_iff] at h ⊢
    obtain ⟨command, hcommand, ⟨args, f⟩, hargs, h⟩ := h
    refine ⟨command, hcommand, ⟨args, f⟩, hargs, ?_⟩
    cases args with
    | none => exact h
    | some args =>
      simp only at h ⊢
      split at h
      · next hkept =>
        have hkept' : (Request.commandFirst members || args.storable (depth' - 1)) = true := by
          rcases Bool.or_eq_true_iff.mp hkept with hfirst | hstorable
          · rw [hfirst, Bool.true_or]
          · rw [storable_mono hle' hstorable, Bool.or_true]
        rw [if_pos hkept']
        exact Request.ofArguments?_mono hle' h
      · cases h
  | array items =>
    rw [Request.ofJson?.eq_def] at h ⊢
    split at h
    · next heq => cases heq
    · next command args heq =>
      cases heq
      obtain ⟨command, hcommand, h⟩ := Option.bind_eq_some_iff.mp h
      exact Option.bind_eq_some_iff.mpr
        ⟨command, hcommand, Request.ofArguments?_mono hle' h⟩
    · cases h
  | _ => cases h

theorem ToggleRequest.ofJson?_mono {v : Json} {t : ToggleRequest}
    (h : ToggleRequest.ofJson? depth v = some t) : ToggleRequest.ofJson? depth' v = some t := by
  cases v with
  | object members =>
    rw [ToggleRequest.ofJson?] at h ⊢
    split at h
    · next hstorable => rwa [if_pos (storable_mono hle hstorable)]
    · cases h
  | _ => cases h

theorem ToggleOutcome.ofJson?_mono {v : Json} {t : ToggleOutcome}
    (h : ToggleOutcome.ofJson? depth v = some t) : ToggleOutcome.ofJson? depth' v = some t := by
  have hle' := Nat.sub_le_sub_right hle 1
  have hmembers : ∀ members : List (String × Json), membersStorable (depth - 1) members = true →
      membersStorable (depth' - 1) members = true := by
    simp only [membersStorable_iff]
    exact fun members hall m hm => storable_mono hle' (hall m hm)
  cases v with
  | object members =>
    simp only [ToggleOutcome.ofJson?, Option.bind_eq_bind, Option.bind_eq_some_iff] at h ⊢
    obtain ⟨status, hstatus, h⟩ := h
    refine ⟨status, hstatus, ?_⟩
    split at h
    · next hstorable => rwa [if_pos (hmembers members hstorable)]
    · cases h
  | array items =>
    rw [ToggleOutcome.ofJson?.eq_def] at h ⊢
    split at h
    · next heq => cases heq
    · next status items heq =>
      cases heq
      split at h
      · next hstorable =>
        rw [allStorable_iff] at hstorable
        rwa [if_pos (allStorable_iff.mpr fun j hj => storable_mono hle' (hstorable j hj))]
      · cases h
    · cases h
  | _ => cases h

omit hle

/-! ## All messages -/

namespace MessageType

theorem readsBack (T : MessageType) (depth : Nat) : ReadsBack (T.read depth) T.write := by
  cases T with
  | initialization => exact Initialize.readsBack
  | setBreakpoints => exact SetBreakpoints.readsBack
  | setExceptionBreakpoints => exact SetExceptionBreakpoints.readsBack
  | enableCustomBreakpoints => exact EnableCustomBreakpoints.readsBack
  | launch => exact Launch.readsBack
  | request => exact Request.readsBack
  | nestedSession => exact NestedSession.readsBack
  | startDebugging => exact StartDebugging.readsBack
  | breakpoint => exact Breakpoint.readsBack
  | toggleRequest => exact ToggleRequest.readsBack
  | toggleOutcome => exact ToggleOutcome.readsBack
  | position => exact Position.readsBack

/-- With more room the same message is read. -/
theorem read_mono (T : MessageType) {depth depth' : Nat} (hle : depth ≤ depth') {v : Json}
    {x : T.Content} (h : T.read depth v = some x) : T.read depth' v = some x := by
  cases T with
  | initialization => exact Initialize.ofJson?_mono hle h
  | launch => exact Launch.ofJson?_mono hle h
  | request => exact Request.ofJson?_mono hle h
  | nestedSession => exact NestedSession.ofJson?_mono hle h
  | startDebugging => exact StartDebugging.ofJson?_mono hle h
  | toggleRequest => exact ToggleRequest.ofJson?_mono hle h
  | toggleOutcome => exact ToggleOutcome.ofJson?_mono hle h
  | _ => exact h

/-- **Messages are read back.**  Whatever form a message was given in, what is written of it is a
stored value, and is read as the same message wherever there is as much room as there was for the
form it was given in. -/
theorem read_write (T : MessageType) (depth : Nat) {v : Json} {x : T.Content}
    (h : T.read depth v = some x) :
    (T.write x).IsStored ∧ ∀ depth', depth ≤ depth' → T.read depth' (T.write x) = some x := by
  obtain ⟨hstored, hread⟩ := T.readsBack depth v x h
  exact ⟨hstored, fun depth' hle => T.read_mono hle hread⟩

/-- A launch request as a list, with its tag given as `null` and names that come twice. -/
def jumbledLaunch : Json :=
  .array [.string "launch", .object [("env", .null), (targetTag, .null),
    ("args", .object [("v", .bool false), ("w", .null), ("v", .array [.object []])]),
    ("env", .string "dev")]]

/-- The request that this is. -/
def tidyLaunch : Request :=
  .launch .launch ⟨none, ⟨[("env", .string "dev"),
    ("args", .object [("v", .array [.object []]), ("w", .null)])]⟩⟩

theorem read_write_jumbled : request.read 5 jumbledLaunch = some tidyLaunch ∧
    request.write tidyLaunch = .object [("command", .string "launch"), ("arguments", .object
      [("env", .string "dev"),
        ("args", .object [("v", .array [.object []]), ("w", .null)])])] ∧
    (request.write tidyLaunch).IsStored ∧
    request.read 5 (request.write tidyLaunch) = some tidyLaunch := by
  have hread : request.read 5 jumbledLaunch = some tidyLaunch := by rfl
  obtain ⟨hstored, hagain⟩ := read_write request 5 hread
  exact ⟨hread, rfl, hstored, hagain 5 (Nat.le_refl 5)⟩

end MessageType
end Protocol
end DebugTree
