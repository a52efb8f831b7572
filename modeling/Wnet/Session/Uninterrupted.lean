import Wnet.Session.Schedule

/-!
# Uninterrupted calls and the order of the timeouts

Each call, run from its start to its return, keeps the order of the timeouts. The
loops of `CheckTimeout` and of the flush are followed by induction over the requests
that they take from the lists.
-/

namespace Wnet

open Foundation

variable {Body : Type*}

namespace Session

variable {config : Config Body} {session : Session Body} {call : Nat}

/-! ## The loops of `CheckTimeout` -/

/-- The call of a handler that reports the timeout of a channel. -/
def timeoutReport (config : Config Body) (session : Session Body) (channel : Ref) :
    Option (HandlerCall Body) :=
  (session.handlerOf config channel).map fun handler =>
    ⟨some (session.pool.id channel), handler, .timeout, (session.pool.mem channel).args⟩

theorem timeoutReport_eq {channel : Ref} {request : Pending} {time : Int}
    (hcontent : session.pool.content channel = request.content time) :
    session.timeoutReport config channel = request.report config := by
  have hid : session.pool.id channel = request.chid := congrArg Channel.id hcontent
  have hhandler : (session.pool.mem channel).handler = request.packetHandler :=
    congrArg Channel.handler hcontent
  have hargs : (session.pool.mem channel).args = request.args := congrArg Channel.args hcontent
  rw [timeoutReport, handlerOf, hid, hhandler, hargs]
  rfl

theorem become_calls (activity : Activity Body) :
    (session.become call activity).calls call = activity := Function.update_self ..

theorem modify_id (pool : ChannelPool) (channel : Ref) : pool.modify channel id = pool := by
  rw [ChannelPool.modify, id, Function.update_eq_self]

theorem proceeds_checkTimeout {next : Session Body} {now : Int} {stage : TimeoutStage Body}
    (hcall : session.calls call = .checkTimeout now stage)
    (hnext : session.checkTimeout config call now stage = some next) :
    Proceeds config call session next := by
  rw [Proceeds, proceed, hcall]
  exact hnext

/-- One round of the loop over the detached channels. -/
theorem walk_one {now : Int} {list channel : Ref}
    (hcall : session.calls call = .checkTimeout now (.walking list (some channel))) :
    ∃ next change, Reaches config call session next ∧
      (∀ fields : Channel, (change fields).next = fields.next ∧
        (change fields).prev = fields.prev ∧ (change fields).id = fields.id) ∧
      next.schedule = { session.schedule with pool := session.pool.modify channel change } ∧
      next.calls call = .checkTimeout now (.walking list (session.pool.next channel)) ∧
      next.handlerCalls =
        session.handlerCalls ++ (session.timeoutReport config channel).toList := by
  cases hhandler : session.handlerOf config channel with
  | none =>
      have hfirst : Proceeds config call session (session.become call
          (.checkTimeout now (.walking list (session.pool.next channel)))) := by
        apply proceeds_checkTimeout hcall
        simp only [checkTimeout, hhandler]
      refine ⟨_, id, .single hfirst, fun fields => ⟨rfl, rfl, rfl⟩, ?_, ?_, ?_⟩
      · rw [modify_id]
        rfl
      · exact Function.update_self ..
      · simp [timeoutReport, hhandler, become]
  | some handler =>
      have hfirst : Proceeds config call session ((session.invoke channel handler .timeout).become
          call (.checkTimeout now (.notified list channel))) := by
        apply proceeds_checkTimeout hcall
        simp only [checkTimeout, hhandler]
      refine ⟨_, fun fields => { fields with args := none },
        .head hfirst (.single (proceeds_checkTimeout (Function.update_self ..) rfl)),
        fun fields => ⟨rfl, rfl, rfl⟩, rfl, ?_, ?_⟩
      · simp [setArgsNull, ChannelPool.next, become, invoke]
      · simp [timeoutReport, hhandler, become, setArgsNull, invoke]

/-- One round of the loop over the detached packets. -/
theorem drain_one {now : Int} {packet : Posted Body} {packetList : List (Posted Body)}
    {channel : Ref} (hchannel : packet.channel = some channel)
    (hcall : session.calls call = .checkTimeout now (.draining (packet :: packetList))) :
    ∃ next change, Reaches config call session next ∧
      (∀ fields : Channel, (change fields).next = fields.next ∧
        (change fields).prev = fields.prev ∧ (change fields).id = fields.id) ∧
      next.schedule = { session.schedule with
        pool := ((session.pool.modify channel change).freeChannel (some channel)).1 } ∧
      next.calls call = .checkTimeout now (.draining packetList) ∧
      next.handlerCalls =
        session.handlerCalls ++ (session.timeoutReport config channel).toList := by
  cases hhandler : session.handlerOf config channel with
  | none =>
      have hfirst : Proceeds config call session
          ({ session.release packet with
            pool := (session.pool.freeChannel (some channel)).1 }.become call
              (.checkTimeout now (.draining packetList))) := by
        apply proceeds_checkTimeout hcall
        have hsame : (session.release packet).handlerOf config channel = none :=
          hhandler
        simp only [checkTimeout, hchannel, hsame]
        rfl
      refine ⟨_, id, .single hfirst, fun fields => ⟨rfl, rfl, rfl⟩, ?_, ?_, ?_⟩
      · rw [modify_id]
        rfl
      · exact Function.update_self ..
      · simp [timeoutReport, hhandler, become, release]
  | some handler =>
      have hfirst : Proceeds config call session
          (((session.release packet).invoke channel handler .timeout).become call
            (.checkTimeout now (.drained channel packetList))) := by
        apply proceeds_checkTimeout hcall
        have hsame : (session.release packet).handlerOf config channel =
          some handler := hhandler
        simp only [checkTimeout, hchannel, hsame]
      refine ⟨_, fun fields => { fields with args := none },
        .head hfirst (.single (proceeds_checkTimeout (Function.update_self ..) rfl)),
        fun fields => ⟨rfl, rfl, rfl⟩, rfl, ?_, ?_⟩
      · exact Function.update_self ..
      · simp [timeoutReport, hhandler, become, setArgsNull, invoke, release]

/-- The loop over the detached channels reports the timeout of each. -/
theorem walk {now : Int} {list : Ref} {before use : List Ref} {items : List Item}
    (hserving : Serving session.pool session.allocations use
      [before ++ items.map Item.channel])
    (hcontent : ∀ item ∈ items, ∃ time,
      session.pool.content item.channel = item.request.content time)
    (hcall : session.calls call =
      .checkTimeout now (.walking list (items.map Item.channel).head?)) :
    ∃ next, Reaches config call session next ∧
      next.calls call = .checkTimeout now (.walking list none) ∧
      next.schedule = { session.schedule with pool := next.pool } ∧
      Serving next.pool next.allocations use [before ++ items.map Item.channel] ∧
      (∀ channel ∉ items.map Item.channel,
        next.pool.content channel = session.pool.content channel) ∧
      next.handlerCalls =
        session.handlerCalls ++ items.filterMap fun item => item.request.report config := by
  induction items generalizing session before with
  | nil => exact ⟨session, .refl, hcall, rfl, hserving, fun _ _ => rfl, by simp⟩
  | cons item rest ih =>
      obtain ⟨middle, change, hreaches, hkeeps, hschedule, hmiddle, hreport⟩ := walk_one hcall
      have hpool : middle.pool = session.pool.modify item.channel change :=
        congrArg Schedule.pool hschedule
      have hallocations : middle.allocations = session.allocations :=
        congrArg Schedule.allocations hschedule
      have hchain := hserving.chain_next List.mem_cons_self
      have hnodup := hserving.nodup_chain List.mem_cons_self
      -- Only the channel at hand is written.
      have hothers : ∀ channel, channel ≠ item.channel →
          middle.pool.content channel = session.pool.content channel := by
        intro channel hne
        rw [hpool, ChannelPool.modify_content, if_neg hne]
      have hnext : session.pool.next item.channel = (rest.map Item.channel).head? := by
        simpa using (chain_append.mp hchain).2.1
      rw [hnext] at hmiddle
      have hlist : before ++ (item :: rest).map Item.channel =
          (before ++ [item.channel]) ++ rest.map Item.channel := by simp
      have hmodified := hserving.modify item.channel hkeeps
      rw [← hpool, ← hallocations, hlist] at hmodified
      have hcontent' : ∀ other ∈ rest, ∃ time,
          middle.pool.content other.channel = other.request.content time := by
        intro other hother
        rw [hothers]
        · exact hcontent other (List.mem_cons_of_mem _ hother)
        · intro heq
          rw [List.map_cons, List.nodup_middle, List.nodup_cons] at hnodup
          exact hnodup.1 (List.mem_append_right _ (heq ▸ List.mem_map_of_mem hother))
      obtain ⟨time, hitem⟩ := hcontent item List.mem_cons_self
      obtain ⟨next, hrest, hcalls, hkept, hserved, hsame, hreports⟩ :=
        ih hmodified hcontent' hmiddle
      refine ⟨next, hreaches.trans hrest, hcalls, ?_, hlist ▸ hserved, ?_, ?_⟩
      · rw [hkept, hschedule]
      · intro channel hmem
        rw [List.map_cons, List.mem_cons, not_or] at hmem
        rw [hsame channel hmem.2, hothers channel hmem.1]
      · rw [hreports, hreport, timeoutReport_eq hitem, List.append_assoc,
          List.filterMap_cons]
        cases item.request.report config <;> rfl

/-- The loop over the detached packets reports and frees the channel of each. -/
theorem drain {now : Int} {packetList : List (Posted Body)} {sent draining unsent : List Item}
    (htimely : Timely config session.schedule sent draining unsent)
    (hcount : session.allocations ≤ 2 ^ 28 - 1)
    (hpackets : packetList.map Posted.address = draining.map Item.address)
    (hcall : session.calls call = .checkTimeout now (.draining packetList)) :
    ∃ next, Reaches config call session next ∧
      next.calls call = .checkTimeout now (.draining []) ∧
      next.schedule = { session.schedule with pool := next.pool } ∧
      Timely config next.schedule sent [] unsent ∧
      next.handlerCalls =
        session.handlerCalls ++ draining.filterMap fun item => item.request.report config := by
  induction draining generalizing session packetList with
  | nil =>
      obtain rfl := List.map_eq_nil_iff.mp hpackets
      exact ⟨session, .refl, hcall, rfl, htimely, by simp⟩
  | cons item rest ih =>
      obtain ⟨packet, packetList, rfl, haddress, hrest⟩ := List.map_eq_cons_iff.mp hpackets
      have hchannel : packet.channel = some item.channel := congrArg Prod.fst haddress
      have hcontent : session.pool.content item.channel =
          item.request.content (qynetMaxTime + 1) := htimely.unsentContent item List.mem_cons_self
      obtain ⟨middle, change, hreaches, hkeeps, hschedule, hmiddle, hreport⟩ :=
        drain_one hchannel hcall
      have hfreed := htimely.free hcount hkeeps
      have hallocations : middle.allocations = session.allocations :=
        congrArg Schedule.allocations hschedule
      obtain ⟨next, hnext, hcalls, hkept, htimely', hreports⟩ :=
        ih (hschedule ▸ hfreed) (hallocations ▸ hcount) hrest hmiddle
      refine ⟨next, hreaches.trans hnext, hcalls, ?_, htimely', ?_⟩
      · rw [hkept, hschedule]
      · rw [hreports, hreport, timeoutReport_eq hcontent, List.append_assoc,
          List.filterMap_cons]
        cases item.request.report config <;> rfl

/-- When no channel is in use, the loop over the detached packets frees nothing. -/
theorem drain_unused {now : Int} {packetList : List (Posted Body)}
    (hserving : Serving session.pool session.allocations [] [])
    (hchannels : ∀ packet ∈ packetList, packet.channel ≠ none)
    (hcall : session.calls call = .checkTimeout now (.draining packetList)) :
    ∃ next, Reaches config call session next ∧
      next.calls call = .checkTimeout now (.draining []) ∧
      next.schedule = { session.schedule with pool := next.pool } ∧
      Serving next.pool session.allocations [] [] := by
  induction packetList generalizing session with
  | nil => exact ⟨session, .refl, hcall, rfl, hserving⟩
  | cons packet rest ih =>
      obtain ⟨channel, hchannel⟩ :=
        Option.ne_none_iff_exists'.mp (hchannels packet List.mem_cons_self)
      obtain ⟨middle, change, hreaches, hkeeps, hschedule, hmiddle, -⟩ :=
        drain_one hchannel hcall
      have hmodified := hserving.modify channel hkeeps
      have hnone : (session.pool.modify channel change).useMap.lookup
          ((session.pool.modify channel change).id channel) = none := by
        apply Option.eq_none_iff_forall_ne_some.mpr
        intro owner hlookup
        exact absurd (hmodified.lookup_iff.mp hlookup).1 List.not_mem_nil
      have hpool : middle.pool = session.pool.modify channel change := by
        rw [show middle.pool = _ from congrArg Schedule.pool hschedule, ChannelPool.freeChannel,
          hnone]
      have hallocations : middle.allocations = session.allocations :=
        congrArg Schedule.allocations hschedule
      obtain ⟨next, hnext, hcalls, hkept, hserving'⟩ :=
        ih (hpool ▸ hallocations ▸ hmodified)
          (fun packet hpacket => hchannels packet (List.mem_cons_of_mem _ hpacket)) hmiddle
      refine ⟨next, hreaches.trans hnext, hcalls, ?_, hallocations ▸ hserving'⟩
      rw [hkept, hschedule]

/-- The first half of `CheckTimeout`: the expired channels are detached, reported and
put on the free list. -/
theorem sweep {now : Int} {use : List Ref} {due : List Item}
    (hidle : session.calls call = .idle)
    (hserving : Serving session.pool session.allocations use [])
    (hcount : session.allocations ≤ 2 ^ 28 - 1)
    (hexpired : session.pool.expired now use = due.map Item.channel)
    (hcontent : ∀ item ∈ due, ∃ time,
      session.pool.content item.channel = item.request.content time) :
    ∃ started next, session.step config (.start call (.checkTimeout now)) = some started ∧
      Reaches config call started next ∧ next.calls call = .checkTimeout now .walked ∧
      next.schedule = { session.schedule with pool := next.pool } ∧
      Serving next.pool session.allocations (session.pool.unexpired now use) [] ∧
      (∀ channel ∉ due.map Item.channel,
        next.pool.content channel = session.pool.content channel) ∧
      next.handlerCalls =
        session.handlerCalls ++ due.filterMap fun item => item.request.report config := by
  obtain ⟨pool, hlist, hdetached, hsame⟩ := hserving.getTimeoutList hcount now
  rw [hexpired] at hlist hdetached
  cases due with
  -- Nothing expired: `GetTimeoutList` returns null and no handler is called.
  | nil =>
      refine ⟨{ session with pool := pool }.become call (.checkTimeout now .walked), _, ?_, .refl,
        Function.update_self .., rfl, hdetached.forget_nil, fun channel _ => hsame channel, ?_⟩
      · simp only [step, hidle, start, hlist]
        rfl
      · simp [become]
  | cons item rest =>
      obtain ⟨started, hstarted, hcall, hschedule, hcalls⟩ : ∃ started,
          session.step config (.start call (.checkTimeout now)) = some started ∧
          started.calls call = .checkTimeout now (.walking item.channel (some item.channel)) ∧
          started.schedule = { session.schedule with pool := pool } ∧
          started.handlerCalls = session.handlerCalls := by
        refine ⟨{ session with pool := pool }.become call
          (.checkTimeout now (.walking item.channel (some item.channel))), ?_,
          Function.update_self .., rfl, rfl⟩
        simp only [step, hidle, start, hlist]
        rfl
      obtain rfl : pool = started.pool := congrArg Schedule.pool hschedule.symm
      have hallocations : started.allocations = session.allocations :=
        congrArg Schedule.allocations hschedule
      have hchain : Serving started.pool started.allocations (session.pool.unexpired now use)
          [[] ++ (item :: rest).map Item.channel] := hallocations ▸ hdetached
      -- The walk reports every channel of the list, and then the list is freed as a whole.
      obtain ⟨middle, hreaches, hmiddle, hkept, hwalked, hothers, hreports⟩ :=
        walk hchain (fun other hother => hsame other.channel ▸ hcontent other hother) hcall
      have hmiddleAllocations : middle.allocations = session.allocations :=
        (congrArg Schedule.allocations hkept).trans hallocations
      rw [hmiddleAllocations] at hwalked
      obtain ⟨pool, happend, hreturned, hcleared⟩ :=
        hwalked.appendFreeList hcount List.mem_cons_self
      rw [List.nil_append, List.map_cons, List.erase_cons_head] at hreturned
      have hnext : Proceeds config call middle ({ middle with pool := pool }.become call
          (.checkTimeout now .walked)) := by
        apply proceeds_checkTimeout hmiddle
        simp only [checkTimeout, happend]
        rfl
      refine ⟨started, _, hstarted, hreaches.tail hnext, Function.update_self .., ?_, hreturned,
        ?_, ?_⟩
      · change { middle.schedule with pool := pool } = { session.schedule with pool := pool }
        rw [hkept, hschedule]
      · intro channel hchannel
        change pool.content channel = _
        rw [hcleared, ← List.map_cons, if_neg hchannel, hothers channel hchannel, hsame]
      · change middle.handlerCalls = _
        rw [hreports, hcalls]

/-- The end of `CheckTimeout`. -/
theorem finish_checkTimeout {now : Int} (hmutex : session.mutex = none)
    (hcall : session.calls call = .checkTimeout now (.draining [])) :
    ∃ next, Reaches config call session next ∧
      next.calls call = .checkTimeout now .returned ∧ next.schedule = session.schedule ∧
      next.handlerCalls = session.handlerCalls := by
  by_cases hlimit : config.queueLimit > 0 ∧ session.queueTotalSize > config.queueLimit
  · have hnext : Proceeds config call session
        ((session.recount config).become call (.checkTimeout now .returned)) := by
      apply proceeds_checkTimeout hcall
      simp only [checkTimeout, if_pos hlimit, if_pos hmutex]
    obtain ⟨total, htotal⟩ := recount_eq config session
    refine ⟨_, .single hnext, Function.update_self .., recount_schedule, ?_⟩
    rw [htotal]
    rfl
  · have hnext : Proceeds config call session
        (session.become call (.checkTimeout now .returned)) := by
      apply proceeds_checkTimeout hcall
      simp only [checkTimeout, if_neg hlimit]
    exact ⟨_, .single hnext, Function.update_self .., rfl, rfl⟩

/-- The second half of `CheckTimeout`: the expired packets of the queue. -/
theorem give_up {now : Int} {sent unsent : List Item}
    (htimely : Timely config session.schedule sent [] unsent) (hmutex : session.mutex = none)
    (hcount : session.allocations ≤ 2 ^ 28 - 1)
    (hcall : session.calls call = .checkTimeout now .walked) :
    ∃ final, Reaches config call session final ∧
      final.calls call = .checkTimeout now .returned ∧
      final.schedule =
        { session.schedule with pool := final.pool, outputQueue := final.outputQueue } ∧
      Timely config final.schedule sent [] (unsent.filter (now ≤ ·.deadline)) ∧
      final.handlerCalls = session.handlerCalls ++
        (unsent.filter (·.deadline < now)).filterMap fun item => item.request.report config := by
  have horder : DeadlineOrder Item.deadline unsent := htimely.order.sublist (by simp)
  obtain ⟨htaken, hleft⟩ := takeWhile_timedOut htimely.queue
    (fun item hitem => (htimely.deadlines item (by simp [hitem])).1) now
  -- In the order of deadlines the expired packets are a first part of the queue.
  rw [horder.takeWhile_due] at htaken
  rw [horder.dropWhile_due] at hleft
  have hjoin : sent ++ unsent.filter (·.deadline < now) ++ unsent.filter (now ≤ ·.deadline) =
      sent ++ [] ++ unsent := by
    rw [← horder.takeWhile_due, ← horder.dropWhile_due, List.append_assoc,
      List.takeWhile_append_dropWhile, List.append_nil]
  obtain ⟨middle, hfirst, hmiddle, hschedule, hcalls⟩ : ∃ middle,
      Proceeds config call session middle ∧
      middle.calls call = .checkTimeout now (.draining
        (session.outputQueue.takeWhile (timedOut now))) ∧
      middle.schedule = { session.schedule with
        outputQueue := session.outputQueue.dropWhile (timedOut now) } ∧
      middle.handlerCalls = session.handlerCalls := by
    refine ⟨_, proceeds_checkTimeout hcall (if_pos hmutex), Function.update_self .., rfl, rfl⟩
  have hsplit : Timely config middle.schedule sent (unsent.filter (·.deadline < now))
      (unsent.filter (now ≤ ·.deadline)) := by
    rw [hschedule]
    refine htimely.narrow (List.Subset.refl _) ?_ (hjoin ▸ List.Sublist.refl _) hleft
      (hjoin ▸ htimely.serving) fun _ _ => rfl
    exact List.append_subset.mpr ⟨List.filter_sublist.subset, List.filter_sublist.subset⟩
  have hcount' : middle.allocations ≤ 2 ^ 28 - 1 := by
    rwa [show middle.allocations = session.allocations from
      congrArg Schedule.allocations hschedule]
  obtain ⟨drained, hdrain, hdrained, hkept, htimely', hreports⟩ :=
    drain hsplit hcount' htaken hmiddle
  have hmutex' : drained.mutex = none := by
    rw [show drained.mutex = middle.mutex from congrArg Schedule.mutex hkept,
      show middle.mutex = session.mutex from congrArg Schedule.mutex hschedule, hmutex]
  obtain ⟨final, hfinal, hreturned, hsame, hlast⟩ := finish_checkTimeout hmutex' hdrained
  refine ⟨final, .head hfirst (hdrain.trans hfinal), hreturned, ?_, hsame ▸ htimely', ?_⟩
  · have hpool : final.pool = drained.pool := congrArg Schedule.pool hsame
    have hqueue : final.outputQueue = session.outputQueue.dropWhile (timedOut now) :=
      (congrArg Schedule.outputQueue hsame).trans
        ((congrArg Schedule.outputQueue hkept).trans (congrArg Schedule.outputQueue hschedule))
    rw [hsame, hkept, hschedule, hpool, hqueue]
  · rw [hlast, hreports, hcalls]

/-- The requests of a session between two calls: with a connection all of them are sent. -/
structure InTime (config : Config Body) (session : Session Body) (sent unsent : List Item) :
    Prop where
  timely : Timely config session.schedule sent [] unsent
  mutex : session.mutex = none
  flushed : session.connected = true → unsent = []

section CheckTimeout

variable {sent unsent : List Item} (hintime : session.InTime config sent unsent)
  (hcount : session.allocations ≤ 2 ^ 28 - 1)
  (hclock : expireTime session.clock config.queueTimeout ≤ qynetMaxTime + 1)
  (hidle : session.calls call = .idle) {now : Int}
include hintime hcount hclock hidle

/-- `CheckTimeout` gives up the due requests, the sent ones before the unsent ones. -/
theorem checkTimeout_completes (hnow : now ≤ qynetMaxTime + 1) :
    ∃ started final, session.step config (.start call (.checkTimeout now)) = some started ∧
      Reaches config call started final ∧ final.calls call = .checkTimeout now .returned ∧
      final.InTime config (sent.filter (now ≤ ·.deadline)) (unsent.filter (now ≤ ·.deadline)) ∧
      final.handlerCalls = session.handlerCalls ++
        ((sent ++ unsent).filter (·.deadline < now)).filterMap
          fun item => item.request.report config := by
  have htimely := hintime.timely
  have hexpired := htimely.expired_sent hclock hnow
  have hunexpired := htimely.unexpired_sent hclock hnow
  obtain ⟨started, swept, hstarted, hsweep, hwalked, hschedule, hserving, hothers, hreports⟩ :=
    @sweep _ config _ _ _ _ _ hidle htimely.serving hcount hexpired fun item hitem =>
      ⟨_, htimely.sentContent item (List.mem_of_mem_filter hitem)⟩
  have hleft : Timely config swept.schedule (sent.filter (now ≤ ·.deadline)) [] unsent := by
    rw [hschedule]
    refine htimely.narrow List.filter_sublist.subset (List.Subset.refl _) ?_ htimely.queue
      (hunexpired ▸ hserving) ?_
    · exact (List.filter_sublist.append (List.Sublist.refl _)).append (List.Sublist.refl _)
    · intro item hitem
      apply hothers
      have hnodup := htimely.serving.nodup
      have hsplit := session.schedule.pool.expired_append_unexpired now
        ((sent ++ [] ++ unsent).map Item.channel)
      rw [hexpired, hunexpired] at hsplit
      rw [← hsplit] at hnodup
      exact fun hmem => List.disjoint_of_nodup_append hnodup hmem (List.mem_map_of_mem hitem)
  have hmutex : swept.mutex = none :=
    (congrArg Schedule.mutex hschedule).trans hintime.mutex
  have hallocations : swept.allocations = session.allocations :=
    congrArg Schedule.allocations hschedule
  obtain ⟨final, hfinal, hreturned, hkept, hdone, hlast⟩ :=
    give_up hleft hmutex (hallocations ▸ hcount) hwalked
  refine ⟨started, final, hstarted, hsweep.trans hfinal, hreturned, ⟨hdone, ?_, ?_⟩, ?_⟩
  · exact (congrArg Schedule.mutex hkept).trans hmutex
  · intro hconnected
    have hsame : final.connected = session.connected :=
      (congrArg Schedule.connected hkept).trans (congrArg Schedule.connected hschedule)
    rw [hintime.flushed (hsame ▸ hconnected)]
    rfl
  · rw [hlast, hreports, List.filter_append, List.filterMap_append, List.append_assoc]

/-- Beyond the time of unsent channels `CheckTimeout` gives up everything. -/
theorem checkTimeout_completes_all (hnow : qynetMaxTime + 1 < now) :
    ∃ started final, session.step config (.start call (.checkTimeout now)) = some started ∧
      Reaches config call started final ∧ final.calls call = .checkTimeout now .returned ∧
      final.InTime config [] [] := by
  have htimely := hintime.timely
  have hunexpired : session.pool.unexpired now ((sent ++ [] ++ unsent).map Item.channel) = [] :=
    htimely.unexpired_none hclock hnow
  have hcontent : ∀ item ∈ sent ++ unsent, ∃ time,
      session.pool.content item.channel = item.request.content time := by
    intro item hitem
    rcases List.mem_append.mp hitem with hitem | hitem
    · exact ⟨_, htimely.sentContent item hitem⟩
    · exact ⟨_, htimely.unsentContent item hitem⟩
  obtain ⟨started, swept, hstarted, hsweep, hwalked, hschedule, hserving, -⟩ :=
    @sweep _ config _ _ _ _ _ hidle htimely.serving hcount (htimely.expired_all hclock hnow)
      hcontent
  rw [hunexpired] at hserving
  have hqueue : swept.outputQueue = session.outputQueue :=
    congrArg Schedule.outputQueue hschedule
  have hmutex : swept.mutex = none := (congrArg Schedule.mutex hschedule).trans hintime.mutex
  have hempty : swept.outputQueue.dropWhile (timedOut now) = [] := by
    have hleft := (takeWhile_timedOut htimely.queue
      (fun item hitem => (htimely.deadlines item (by simp [hitem])).1) now).2
    have hdue : unsent.dropWhile (·.deadline < now) = [] := by
      apply List.dropWhile_eq_nil_iff.mpr
      intro item hitem
      simpa using htimely.deadline_lt hclock hnow (List.mem_append_right _ hitem)
    rw [hdue, List.map_nil] at hleft
    rw [hqueue]
    exact List.map_eq_nil_iff.mp hleft
  have hchannels : ∀ packet ∈ swept.outputQueue.takeWhile (timedOut now),
      packet.channel ≠ none := by
    intro packet hpacket hnone
    have hmem := List.mem_map_of_mem (f := Posted.address)
      (hqueue ▸ (List.takeWhile_sublist _).subset hpacket)
    rw [show session.outputQueue.map Posted.address = _ from htimely.queue] at hmem
    obtain ⟨item, -, haddress⟩ := List.mem_map.mp hmem
    have hsome : some item.channel = packet.channel := congrArg Prod.fst haddress
    rw [hnone] at hsome
    cases hsome
  obtain ⟨middle, hfirst, hmiddle, hkept⟩ : ∃ middle, Proceeds config call swept middle ∧
      middle.calls call = .checkTimeout now (.draining
        (swept.outputQueue.takeWhile (timedOut now))) ∧
      middle.schedule = { swept.schedule with outputQueue := [] } := by
    refine ⟨_, proceeds_checkTimeout hwalked (if_pos hmutex), Function.update_self .., ?_⟩
    rw [← hempty]
    rfl
  have hallocations : middle.allocations = session.allocations :=
    (congrArg Schedule.allocations hkept).trans (congrArg Schedule.allocations hschedule)
  have hserving' : Serving middle.pool middle.allocations [] [] := by
    rw [show middle.pool = swept.pool from congrArg Schedule.pool hkept, hallocations]
    exact hserving
  obtain ⟨drained, hdrain, hdrained, hsame, hunused⟩ :=
    @drain_unused _ config _ _ _ _ hserving' hchannels hmiddle
  rw [hallocations] at hunused
  have hmutex' : drained.mutex = none :=
    (congrArg Schedule.mutex hsame).trans ((congrArg Schedule.mutex hkept).trans hmutex)
  obtain ⟨final, hfinal, hreturned, hlast, -⟩ := finish_checkTimeout hmutex' hdrained
  refine ⟨started, final, hstarted, hsweep.trans (.head hfirst (hdrain.trans hfinal)), hreturned,
    ⟨?_, ?_, fun _ => rfl⟩⟩
  · rw [hlast, hsame, hkept, hschedule]
    apply htimely.narrow (List.nil_subset _) (List.nil_subset _) (List.nil_sublist _) rfl
    · exact hunused
    · exact fun item hitem => absurd hitem List.not_mem_nil
  · exact (congrArg Schedule.mutex hlast).trans hmutex'

end CheckTimeout

/-! ## The other calls -/

theorem proceeds_onConnection {next : Session Body} {stage : FlushStage Body}
    (hcall : session.calls call = .onConnection stage)
    (hnext : session.onConnection config call stage = some next) :
    Proceeds config call session next := by
  rw [Proceeds, proceed, hcall]
  exact hnext

/-- A packet is encoded, its channel stamped, and the output sent. -/
structure Dispatches (session next : Session Body) (packet : Posted Body) : Prop where
  schedule : next.schedule = { session.schedule with
    pool := session.pool.setExpireTime packet.channel packet.expireTime
    frames := next.frames
    transmitted := next.transmitted }
  frames : ∀ chid, chid ∈ next.frames ∨ chid ∈ next.transmitted →
    (chid ∈ session.frames ∨ chid ∈ session.transmitted) ∨ chid = packet.packet.header.chid

theorem dispatch_spec (first second : Activity Body) (packet : Posted Body) :
    Dispatches session (((((session.encode config packet).become call first).stamp packet).become
      call second).send packet) packet := by
  have hencode := encode_spec config session packet
  generalize hstamped : (((session.encode config packet).become call first).stamp packet).become
    call second = stamped
  have hschedule : stamped.schedule = { session.schedule with
      pool := session.pool.setExpireTime packet.channel packet.expireTime
      frames := (session.encode config packet).frames } := by
    rw [← hstamped, ← hencode.pool]
    change { (session.encode config packet).schedule with
      pool := (session.encode config packet).pool.setExpireTime packet.channel
        packet.expireTime } = _
    rw [encode_schedule]
  have hframes : stamped.frames = (session.encode config packet).frames :=
    congrArg Schedule.frames hschedule
  have htransmitted : stamped.transmitted = session.transmitted :=
    congrArg Schedule.transmitted hschedule
  have hsend := send_spec stamped packet
  constructor
  · rw [send_schedule, hschedule]
  · intro chid hchid
    have hbefore : chid ∈ stamped.frames ∨ chid ∈ stamped.transmitted := by
      rcases hchid with hchid | hchid
      · exact Or.inl (hsend.frames chid hchid)
      · exact (hsend.transmitted chid hchid).symm
    rw [hframes, htransmitted] at hbefore
    rcases hbefore with hframe | hold
    · rcases hencode.frames chid hframe with hold | hnew
      · exact Or.inl (Or.inl hold)
      · exact Or.inr hnew
    · exact Or.inl (Or.inr hold)

/-- One round of the loop of `PostOutputQueue`. -/
theorem flush_one {packet : Posted Body} {outputQueue : List (Posted Body)}
    (hqueue : session.outputQueue = packet :: outputQueue)
    (hcall : session.calls call = .onConnection .looping) :
    ∃ next, Reaches config call session next ∧ next.calls call = .onConnection .looping ∧
      Dispatches (session.pop packet outputQueue) next packet := by
  have hfirst : Proceeds config call session
      (((session.pop packet outputQueue).encode config packet).become call
        (.onConnection (.encoded packet))) := by
    apply proceeds_onConnection hcall
    simp only [onConnection, hqueue]
  have hspec := @dispatch_spec _ config (session.pop packet outputQueue) call
    (.onConnection (.encoded packet)) (.onConnection (.stamped packet)) packet
  refine ⟨_, .head hfirst (.head (proceeds_onConnection (Function.update_self ..) rfl)
    (.single (proceeds_onConnection (Function.update_self ..) rfl))), Function.update_self .., ?_⟩
  exact ⟨hspec.schedule, hspec.frames⟩

/-- The loop of `PostOutputQueue` sends every unsent request. -/
theorem flush {sent unsent : List Item} (htimely : Timely config session.schedule sent [] unsent)
    (hcount : session.allocations ≤ 2 ^ 28 - 1)
    (hcall : session.calls call = .onConnection .looping) :
    ∃ next, Reaches config call session next ∧ next.calls call = .onConnection .looping ∧
      next.outputQueue = [] ∧ Timely config next.schedule (sent ++ unsent) [] [] := by
  induction unsent generalizing session sent with
  | nil =>
      refine ⟨session, .refl, hcall, List.map_eq_nil_iff.mp htimely.queue, ?_⟩
      rwa [List.append_nil]
  | cons item rest ih =>
      obtain ⟨packet, outputQueue, hqueue, haddress, hrest⟩ :=
        List.map_eq_cons_iff.mp htimely.queue
      obtain ⟨middle, hreaches, hmiddle, hdispatched⟩ := flush_one hqueue hcall
      have hpopped : Timely config { session.schedule with outputQueue := outputQueue }
          sent [item] rest := by
        have hlist : sent ++ [item] ++ rest = sent ++ [] ++ item :: rest := by simp
        exact htimely.narrow (List.Subset.refl _) (List.Subset.refl _)
          (hlist ▸ List.Sublist.refl _) hrest (hlist ▸ htimely.serving) fun _ _ => rfl
      have hchannel : packet.channel = some item.channel := congrArg Prod.fst haddress
      have hchid : packet.packet.header.chid = item.request.chid :=
        congrArg (fun address => address.2.1) haddress
      have htime : packet.expireTime = item.deadline :=
        congrArg (fun address => address.2.2) haddress
      have hstamped : Timely config middle.schedule (sent ++ [item]) [] rest := by
        rw [hdispatched.schedule, hchannel, htime]
        exact hpopped.stamp hcount (hchid ▸ hdispatched.frames)
      have hallocations : middle.allocations = session.allocations :=
        congrArg Schedule.allocations hdispatched.schedule
      obtain ⟨next, hnext, hcalls, hempty, hdone⟩ :=
        ih hstamped (hallocations ▸ hcount) hmiddle
      refine ⟨next, hreaches.trans hnext, hcalls, hempty, ?_⟩
      rwa [List.append_assoc, List.singleton_append] at hdone

/-- A new connection flushes the queue. -/
theorem onConnection_completes {sent unsent : List Item}
    (hintime : session.InTime config sent unsent) (hcount : session.allocations ≤ 2 ^ 28 - 1)
    (hidle : session.calls call = .idle) :
    ∃ started final, session.step config (.start call .onConnection) = some started ∧
      Reaches config call started final ∧ final.calls call = .onConnection .returned ∧
      final.InTime config (sent ++ unsent) [] := by
  obtain ⟨started, hstarted, hcall, hschedule⟩ : ∃ started,
      session.step config (.start call .onConnection) = some started ∧
      started.calls call = .onConnection .assigned ∧
      started.schedule = { session.schedule with connected := true } := by
    refine ⟨{ session with connected := true }.become call (.onConnection .assigned), ?_,
      Function.update_self .., rfl⟩
    simp only [step, hidle, start]
  have hconnected : started.connected = true := congrArg Schedule.connected hschedule
  obtain ⟨entered, hfirst, hentered, hsame⟩ : ∃ entered, Proceeds config call started entered ∧
      entered.calls call = .onConnection .entered ∧
      entered.schedule = started.schedule :=
    ⟨_, proceeds_onConnection hcall (if_pos hconnected), Function.update_self .., rfl⟩
  rw [hschedule] at hsame
  have hmutex : entered.mutex = none := (congrArg Schedule.mutex hsame).trans hintime.mutex
  have htimely : Timely config entered.schedule sent [] unsent := by
    rw [hsame]
    exact hintime.timely.around session.mutex true
  have hallocations : entered.allocations = session.allocations :=
    congrArg Schedule.allocations hsame
  by_cases hempty : entered.outputQueue = []
  · have hsecond :
        Proceeds config call entered (entered.become call (.onConnection .returned)) := by
      apply proceeds_onConnection hentered
      simp only [onConnection, if_pos hmutex, if_pos hempty]
    have hunsent : unsent = [] := by
      have hqueue := htimely.queue
      rw [show entered.schedule.outputQueue = [] from hempty] at hqueue
      exact List.map_eq_nil_iff.mp hqueue.symm
    subst hunsent
    refine ⟨started, _, hstarted, .head hfirst (.single hsecond), Function.update_self ..,
      ⟨?_, hmutex, fun _ => rfl⟩⟩
    rw [List.append_nil]
    exact htimely
  · obtain ⟨looping, hsecond, hlooping, hkept⟩ : ∃ looping, Proceeds config call entered looping ∧
        looping.calls call = .onConnection .looping ∧
        looping.schedule = { entered.schedule with mutex := some call } := by
      refine ⟨{ entered with mutex := some call }.become call (.onConnection .looping), ?_,
        Function.update_self .., rfl⟩
      apply proceeds_onConnection hentered
      simp only [onConnection, if_pos hmutex, if_neg hempty]
    have hlock : Timely config looping.schedule sent [] unsent := by
      rw [hkept]
      exact htimely.around (some call) entered.connected
    have hcount' : looping.allocations ≤ 2 ^ 28 - 1 := by
      rwa [show looping.allocations = entered.allocations from
        congrArg Schedule.allocations hkept, hallocations]
    obtain ⟨flushed, hflush, hflushed, hdrained, hdone⟩ := flush hlock hcount' hlooping
    have hlast : Proceeds config call flushed
        ({ flushed.recount config with mutex := none }.become call (.onConnection .returned)) := by
      apply proceeds_onConnection hflushed
      simp only [onConnection, hdrained]
    refine ⟨started, _, hstarted, .head hfirst (.head hsecond (hflush.tail hlast)),
      Function.update_self .., ⟨?_, rfl, fun _ => rfl⟩⟩
    change Timely config { (flushed.recount config).schedule with mutex := none } _ _ _
    rw [recount_schedule]
    exact hdone.around none flushed.connected

theorem proceeds_handlePacket {next : Session Body} {stage : ResponseStage Body}
    (hcall : session.calls call = .handlePacket stage)
    (hnext : session.handlePacket config call stage = some next) :
    Proceeds config call session next := by
  rw [Proceeds, proceed, hcall]
  exact hnext

/-- The handler of an offered channel is called and the channel given back. Without a
handler the assertion fails and the call does not return. -/
theorem answered_schedule {channel : Ref} {packet : Delivery Body} {final : Session Body}
    (hcall : session.calls call = .handlePacket (.offered channel packet))
    (hreaches : Reaches config call session final) (hfinished : (final.calls call).finished) :
    final.schedule = { session.schedule with
      pool := (session.pool.modify channel fun fields => { fields with args := none }).pushFree
        channel } := by
  cases hhandler : session.handlerOf config channel with
  | none =>
      exfalso
      rcases hreaches.cases_head with rfl | ⟨next, hnext, -⟩
      · rw [hcall] at hfinished
        cases hfinished
      · rw [Proceeds, proceed, hcall] at hnext
        simp only [handlePacket, hhandler] at hnext
        cases hnext
  | some handler =>
      have hfirst : Proceeds config call session
          ((session.invoke channel handler (.response packet)).become call
            (.handlePacket (.answered channel))) := by
        apply proceeds_handlePacket hcall
        simp only [handlePacket, hhandler]
        rfl
      have hreturned := reaches_unique
        (.head hfirst (.single (proceeds_handlePacket (become_calls _) rfl))) hreaches
        (by rw [become_calls]; rfl) hfinished
      rw [hreturned]
      rfl

/-- A response to a transmitted request takes that request off the pending ones. -/
theorem handlePacket_completes {sent unsent : List Item} {header : PacketHeader} {input : Bytes}
    {started final : Session Body} (hintime : session.InTime config sent unsent)
    (hheader : config.streamer.existPacketHeader = true)
    (hcount : session.allocations ≤ 2 ^ 28 - 1)
    (htransmitted : header.chid &&& 0xFFFFFFF ∈ session.transmitted)
    (hstarted : session.step config (.start call (.handlePacket header input)) = some started)
    (hreaches : Reaches config call started final) (hfinished : (final.calls call).finished) :
    final.InTime config (sent.filter fun item => item.request.chid ≠ header.chid &&& 0xFFFFFFF)
      unsent := by
  have htimely := hintime.timely
  simp only [step] at hstarted
  split at hstarted
  next hidle =>
    simp only [start, if_pos hheader] at hstarted
    cases hlookup : session.pool.useMap.lookup (header.chid &&& 0xFFFFFFF) with
    | none =>
        have hoffer : session.pool.offerChannel (header.chid &&& 0xFFFFFFF) =
            (session.pool, none) := by
          rw [ChannelPool.offerChannel, hlookup]
        rw [hoffer] at hstarted
        obtain rfl := Option.some.inj hstarted
        obtain rfl := eq_of_reaches (by rw [become_calls]; rfl) hreaches
        have hkeep : sent.filter (fun item => item.request.chid ≠ header.chid &&& 0xFFFFFFF) =
            sent := by
          apply List.filter_eq_self.mpr
          intro item hitem
          have hmem : item ∈ sent ++ [] ++ unsent := by simp [hitem]
          have hfound := htimely.serving.lookup_iff.mpr
            ⟨List.mem_map_of_mem hmem, htimely.id_eq hmem⟩
          have hne : item.request.chid ≠ header.chid &&& 0xFFFFFFF := by
            intro heq
            rw [heq] at hfound
            cases hfound.symm.trans hlookup
          simpa using hne
        rw [hkeep]
        exact ⟨htimely, hintime.mutex, hintime.flushed⟩
    | some channel =>
        obtain ⟨hmem, hid⟩ := htimely.serving.lookup_iff.mp hlookup
        obtain ⟨item, hitem, rfl⟩ := List.mem_map.mp hmem
        have hoffer := (htimely.serving.offerChannel hcount hmem).1
        rw [htimely.id_eq hitem] at hid hoffer
        rw [← hid] at hstarted htransmitted ⊢
        have hanswered := htimely.answer hcount (by rwa [List.append_nil] at hitem) htransmitted
        rw [show session.pool.offerChannel item.request.chid = _ from hoffer] at hstarted
        obtain rfl := Option.some.inj hstarted
        have hschedule := answered_schedule (become_calls _) hreaches hfinished
        refine ⟨?_, (congrArg Schedule.mutex hschedule).trans hintime.mutex, ?_⟩
        · rw [hschedule]
          exact hanswered
        · intro hconnected
          apply hintime.flushed
          exact (congrArg Schedule.connected hschedule).symm.trans hconnected
  next => cases hstarted

theorem proceeds_postPacket {next : Session Body} {request : Request Body}
    {stage : PostStage Body} (hcall : session.calls call = .postPacket request stage)
    (hnext : session.postPacket config call request stage = some next) :
    Proceeds config call session next := by
  rw [Proceeds, proceed, hcall]
  exact hnext

/-- `PostPacket` refuses a request, or goes on to allocate a channel. -/
theorem post_admits {request : Request Body} (hidle : session.calls call = .idle)
    (hmutex : session.mutex = none) :
    ∃ started next, session.step config (.start call (.postPacket request)) = some started ∧
      Reaches config call started next ∧ next.schedule = session.schedule ∧
      (next.calls call = .postPacket request (.returned false) ∨
        next.calls call = .postPacket request .admitted) := by
  by_cases hrefused : session.connected = false ∧
      (config.autoReconnect = false ∨ session.outputQueue.length > 10)
  · refine ⟨(session.record (.called call)).returnPost call request false, _, ?_, .refl, rfl,
      Or.inl (become_calls _)⟩
    simp only [step, hidle, start]
    exact if_pos hrefused
  · have hstarted : session.step config (.start call (.postPacket request)) =
        some ((session.record (.called call)).become call (.postPacket request .entered)) := by
      simp only [step, hidle, start]
      exact if_neg hrefused
    by_cases hlimit : config.queueLimit > 0 ∧ request.noblocking ∧
        session.queueSize ≥ config.queueLimit
    · have hfirst := @proceeds_postPacket _ config
        ((session.record (.called call)).become call (.postPacket request .entered)) call _
        request .entered (become_calls _) ((if_pos hmutex).trans (if_pos hlimit))
      exact ⟨_, _, hstarted, .single hfirst, rfl, Or.inl (become_calls _)⟩
    · have hfirst := @proceeds_postPacket _ config
        ((session.record (.called call)).become call (.postPacket request .entered)) call _
        request .entered (become_calls _) ((if_pos hmutex).trans (if_neg hlimit))
      exact ⟨_, _, hstarted, .single hfirst, rfl, Or.inr (become_calls _)⟩

/-- `PostPacket` allocates a channel and fills it and the packet. -/
theorem post_fills {request : Request Body}
    (hheader : config.streamer.existPacketHeader = true)
    (hcall : session.calls call = .postPacket request .admitted)
    {globals : Globals} {pool : ChannelPool} {channel : Ref}
    (halloc : session.pool.allocChannel session.globals = (globals, pool, channel)) :
    ∃ next packet, Reaches config call session next ∧
      next.calls call = .postPacket request (.filled packet) ∧
      next.allocated call = some (channel, pool.id channel) ∧
      next.schedule = { session.schedule with
        globals := globals
        pool := pool.modify channel fun fields =>
          { fields with handler := request.packetHandler, args := request.args }
        allocations := session.allocations + 1 } ∧
      packet.address =
        (some channel, pool.id channel, expireTime session.clock config.queueTimeout) := by
  have hfirst : Proceeds config call session ({ session with
      globals := globals
      pool := pool
      allocations := session.allocations + 1
      allocated := Function.update session.allocated call (some (channel, pool.id channel))
      accesses := session.accesses ++ [Access.touched call] }.become
        call (.postPacket request (.allocated
          ⟨call, request.packet, none, expireTime session.clock config.queueTimeout⟩
          channel))) := by
    apply proceeds_postPacket hcall
    simp only [postPacket, if_pos hheader, halloc]
  refine ⟨_, _, .head hfirst (.single (proceeds_postPacket (become_calls _) rfl)),
    become_calls _, ?_, rfl, ?_⟩
  · exact Function.update_self ..
  · simp [Posted.address, Posted.setChannel, setHandlerArgs, become, ChannelPool.id]

/-- `PostPacket` queues or sends its packet and returns true. -/
theorem post_ends {request : Request Body} {packet : Posted Body}
    (hnoblocking : request.noblocking = true) (hmutex : session.mutex = none)
    (hcall : session.calls call = .postPacket request (.filled packet)) :
    ∃ final, Reaches config call session final ∧
      final.calls call = .postPacket request (.returned true) ∧
      final.allocated = session.allocated ∧
      (session.connected = false ∧ final.schedule =
          { session.schedule with outputQueue := session.outputQueue ++ [packet] } ∨
        session.connected = true ∧ Dispatches session final packet) := by
  have hreturns : ∀ posted : Session Body, posted.calls call = .postPacket request .posted →
      Proceeds config call posted (posted.returnPost call request true) := by
    intro posted hposted
    apply proceeds_postPacket hposted
    simp only [postPacket]
    rw [if_neg (by simp [hnoblocking])]
  by_cases hconnected : session.connected = true
  · have hfirst : Proceeds config call session
        (({ session with mutex := some call }.encode config packet).become call
          (.postPacket request (.encoded packet))) := by
      apply proceeds_postPacket hcall
      simp only [postPacket, if_pos hmutex, if_pos hconnected]
    have hspec := @dispatch_spec _ config { session with mutex := some call } call
      (.postPacket request (.encoded packet)) (.postPacket request (.stamped packet)) packet
    have hencoded := encode_spec config { session with mutex := some call } packet
    refine ⟨_, .head hfirst (.head (proceeds_postPacket (become_calls _) rfl)
      (.head (proceeds_postPacket (become_calls _) rfl)
        (.single (hreturns _ (become_calls _))))), become_calls _, ?_, Or.inr ⟨hconnected, ?_, ?_⟩⟩
    · exact (send_spec _ packet).allocated.trans hencoded.allocated
    · have hunlocked : session.schedule = { session.schedule with mutex := none } := by
        rw [← hmutex]
        rfl
      rw [hunlocked]
      exact congrArg (fun schedule => { schedule with mutex := none }) hspec.schedule
    · exact hspec.frames
  · have hfirst : Proceeds config call session
        ((session.push packet).become call
          (.postPacket request .posted)) := by
      apply proceeds_postPacket hcall
      simp only [postPacket, if_pos hmutex, if_neg hconnected]
    exact ⟨_, .head hfirst (.single (hreturns _ (become_calls _))), become_calls _, rfl,
      Or.inl ⟨by simpa using hconnected, rfl⟩⟩

section PostPacket

variable {request : Request Body} {sent unsent : List Item}

/-- What an accepted `PostPacket` adds to the pending requests. -/
def requestOf (config : Config Body) (session : Session Body) (request : Request Body)
    (chid : UInt32) : Pending :=
  ⟨chid, request.packetHandler, request.args, expireTime session.clock config.queueTimeout⟩

/-- The queued or sent packet of a filled channel keeps the order of the timeouts. -/
theorem accepted_inTime {final : Session Body} {packet : Posted Body} {item : Item}
    (hpush : ∀ outputQueue : List (Posted Body),
      outputQueue.map Posted.address = (unsent ++ [item]).map Item.address →
      Timely config { session.schedule with outputQueue := outputQueue } sent []
        (unsent ++ [item]))
    (hqueue : session.outputQueue.map Posted.address = unsent.map Item.address)
    (haddress : packet.address = item.address) (hmutex : session.mutex = none)
    (hflushed : session.connected = true → unsent = [])
    (hcount : session.allocations ≤ 2 ^ 28 - 1)
    (hends : session.connected = false ∧ final.schedule =
        { session.schedule with outputQueue := session.outputQueue ++ [packet] } ∨
      session.connected = true ∧ Dispatches session final packet) :
    final.InTime config (sent ++ [item]) [] ∧ unsent = [] ∨
      final.InTime config sent (unsent ++ [item]) := by
  rcases hends with ⟨hlost, hschedule⟩ | ⟨hconnected, hdispatched⟩
  · right
    have htimely := hpush (session.outputQueue ++ [packet]) (by
      rw [List.map_append, List.map_append, hqueue, List.map_singleton, List.map_singleton,
        haddress])
    refine ⟨hschedule ▸ htimely, (congrArg Schedule.mutex hschedule).trans hmutex, ?_⟩
    intro hconnected
    have hsame : final.connected = session.connected := congrArg Schedule.connected hschedule
    rw [hsame, hlost] at hconnected
    cases hconnected
  · left
    have hunsent := hflushed hconnected
    subst hunsent
    -- The packet passes through the queue in the proof only.
    have hqueued := hpush [packet] (by rw [List.map_singleton, haddress]; rfl)
    have hlist : sent ++ [item] ++ [] = sent ++ [] ++ ([] ++ [item]) := by simp
    have hpopped : Timely config session.schedule sent [item] [] :=
      hqueued.narrow (List.Subset.refl _) (List.Subset.refl _) (hlist ▸ List.Sublist.refl _)
        hqueue (hlist ▸ hqueued.serving) fun _ _ => rfl
    have hchannel : packet.channel = some item.channel := congrArg Prod.fst haddress
    have hchid : packet.packet.header.chid = item.request.chid :=
      congrArg (fun address => address.2.1) haddress
    have htime : packet.expireTime = item.deadline :=
      congrArg (fun address => address.2.2) haddress
    refine ⟨⟨?_, (congrArg Schedule.mutex hdispatched.schedule).trans hmutex, fun _ => rfl⟩, rfl⟩
    rw [hdispatched.schedule, hchannel, htime]
    exact hpopped.stamp hcount (hchid ▸ hdispatched.frames)

/-- A `PostPacket` that does not block is refused, or its request is pending when it returns. -/
theorem postPacket_completes (hintime : session.InTime config sent unsent)
    (hheader : config.streamer.existPacketHeader = true) (htimeout : 0 < config.queueTimeout)
    (hnoblocking : request.noblocking = true) (hidle : session.calls call = .idle) :
    ∃ started final, session.step config (.start call (.postPacket request)) = some started ∧
      Reaches config call started final ∧
      (final.calls call = .postPacket request (.returned false) ∧
          final.InTime config sent unsent ∨
        ∃ item, final.calls call = .postPacket request (.returned true) ∧
          final.allocated call = some (item.channel, item.request.chid) ∧
          item.request = session.requestOf config request item.request.chid ∧
          (final.allocations ≤ 2 ^ 28 - 1 →
            final.InTime config (sent ++ [item]) [] ∧ unsent = [] ∨
            final.InTime config sent (unsent ++ [item]))) := by
  obtain ⟨started, admitted, hstarted, hfirst, hadmits, hrefused | hadmitted⟩ :=
    @post_admits _ config _ _ request hidle hintime.mutex
  · refine ⟨started, admitted, hstarted, hfirst, Or.inl ⟨hrefused, ?_, ?_, ?_⟩⟩
    · rw [hadmits]
      exact hintime.timely
    · exact (congrArg Schedule.mutex hadmits).trans hintime.mutex
    · exact fun hconnected =>
        hintime.flushed ((congrArg Schedule.connected hadmits).symm.trans hconnected)
  · rcases halloc : admitted.pool.allocChannel admitted.globals with ⟨globals, pool, channel⟩
    obtain ⟨filled, packet, hsecond, hfilled, hallocated, hfills, haddress⟩ :=
      post_fills hheader hadmitted halloc
    have hmutex : filled.mutex = none := (congrArg Schedule.mutex hfills).trans
      ((congrArg Schedule.mutex hadmits).trans hintime.mutex)
    obtain ⟨final, hthird, hreturned, hkept, hends⟩ := post_ends hnoblocking hmutex hfilled
    have hclock : admitted.clock = session.clock := congrArg Schedule.clock hadmits
    have hconnected : filled.connected = session.connected :=
      (congrArg Schedule.connected hfills).trans (congrArg Schedule.connected hadmits)
    rw [hclock] at haddress
    refine ⟨started, final, hstarted, hfirst.trans (hsecond.trans hthird),
      Or.inr ⟨⟨channel, session.requestOf config request (pool.id channel)⟩, hreturned,
        by rw [hkept, hallocated]; rfl, rfl, ?_⟩⟩
    intro hcount
    have hallocations : final.allocations = filled.allocations := by
      rcases hends with ⟨-, hschedule⟩ | ⟨-, hdispatched⟩
      · exact congrArg Schedule.allocations hschedule
      · exact congrArg Schedule.allocations hdispatched.schedule
    rw [hallocations] at hcount
    have htimely : Timely config admitted.schedule sent [] unsent := hadmits ▸ hintime.timely
    have hgrown : filled.allocations = admitted.allocations + 1 :=
      congrArg Schedule.allocations hfills
    refine accepted_inTime ?_ ?_ haddress hmutex (fun h => hintime.flushed (hconnected ▸ h))
      hcount hends
    · intro outputQueue hqueue
      rw [hfills]
      exact htimely.push htimeout (hgrown ▸ hcount) halloc (by rw [requestOf, ← hclock]; rfl)
        hqueue
    · rw [show filled.outputQueue = admitted.outputQueue from
        congrArg Schedule.outputQueue hfills]
      exact htimely.queue

end PostPacket

end Session

end Wnet
