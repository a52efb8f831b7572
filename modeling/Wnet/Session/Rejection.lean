import Wnet.Packet.Encoding
import Wnet.Server.Connection
import Wnet.Session.Uninterrupted

/-!
# Posts that cannot be encoded

Neither `PostPacket` looks at the result of `Encode`. A packet whose encoding
fails is freed and reported as posted; the session keeps the channel that was
allocated for it. The only posts that a connected session refuses are those that
find the queue at its limit.
-/

namespace Wnet

open Foundation

variable {Body : Type*}

/-- The packet's own `Encode` returns false, whatever it has appended by then. -/
def Streamer.Fails (streamer : Streamer Body) (packet : Packet Body) : Prop :=
  ∀ header output, ∃ appended,
    streamer.encodePacket { packet with header := header } output = (false, output ++ appended)

theorem Streamer.Fails.encode {streamer : Streamer Body} {packet : Packet Body}
    (hfails : streamer.Fails packet) {other : Packet Body} (hbody : other.body = packet.body)
    (output : Bytes) : (streamer.encode other output).1 = false := by
  have hsame : { packet with header := other.header } = other := by rw [← hbody]
  obtain ⟨appended, hencode⟩ := hfails other.header (output ++ streamer.preamble other.header)
  rw [hsame] at hencode
  rw [streamer.encode_eq, hencode]
  rfl

/-- Nothing of a call is left in the queue, in the output buffer and among the used channels. -/
structure LeavesNothing (before after : Session Body) : Prop where
  outputQueue : after.outputQueue = before.outputQueue
  output : after.output = before.output
  useMap : after.pool.useMap = before.pool.useMap
  useListHead : after.pool.useListHead = before.pool.useListHead
  useListTail : after.pool.useListTail = before.pool.useListTail
  next : after.pool.next = before.pool.next
  prev : after.pool.prev = before.pool.prev

namespace Session

variable {config : Config Body} {session next final : Session Body} {call : Nat}
variable {request : Request Body} {history : List Event}

/-- A post that finds the queue at its limit and must not block. -/
def AtLimit (config : Config Body) (session : Session Body) (request : Request Body) : Prop :=
  config.queueLimit > 0 ∧ request.noblocking = true ∧ session.queueSize ≥ config.queueLimit

/-- What a post that was admitted has recorded by each stage, if its encoding fails. -/
def Admitted (call : Nat) (request : Request Body) (history : List Event)
    (session : Session Body) : PostStage Body → Prop
  | .entered => False
  | .admitted => session.history = history
  | .allocated packet _ | .filled packet | .encoded packet | .stamped packet =>
      session.history = history ∧ packet.call = call ∧
        packet.packet.body = request.packet.body
  | .posted => session.history = history ++ [.freed call]
  | .returned result =>
      result = true ∧ session.history = history ++ [.freed call, .returned call true]

/-- A connected session in which an admitted post is under way. -/
def Posting (call : Nat) (request : Request Body) (history : List Event)
    (session : Session Body) : Prop :=
  session.connected = true ∧
    ∃ stage, session.calls call = .postPacket request stage ∧
      session.Admitted call request history stage

theorem returnPost_calls (result : Bool) : (session.returnPost call request result).calls call =
    .postPacket request (.returned result) :=
  become_calls _

/-- A failed encoding is not recorded. -/
theorem encode_failed {packet : Posted Body}
    (hfailed : (config.streamer.encode packet.packet session.output).1 = false) :
    (session.encode config packet).history = session.history ∧
      (session.encode config packet).connected = session.connected := by
  unfold encode
  split
  next _ _ _ hencode =>
    rw [hencode] at hfailed
    cases hfailed
  next => exact ⟨rfl, rfl⟩

theorem send_records (packet : Posted Body) :
    (session.send packet).history = session.history ++ [.freed packet.call] ∧
      (session.send packet).connected = session.connected := by
  unfold send
  dsimp only
  split <;> exact ⟨rfl, rfl⟩

theorem posting_proceeds (hfails : config.streamer.Fails request.packet)
    (hposting : session.Posting call request history)
    (hproceeds : Proceeds config call session next) : next.Posting call request history := by
  obtain ⟨hconnected, stage, hcall, hadmitted⟩ := hposting
  rw [Proceeds, proceed, hcall] at hproceeds
  have hreturned : stage = .posted → ∀ total, ({ session with
      queueTotalSize := total }.returnPost call request true).Posting call request history := by
    rintro rfl total
    refine ⟨hconnected, _, become_calls _, rfl, ?_⟩
    have hrecord : session.history = history ++ [.freed call] := hadmitted
    change session.history ++ [_] = _
    rw [hrecord, List.append_assoc]
    rfl
  cases postPacket_cases hproceeds with
  | refuse | admitted => exact hadmitted.elim
  | allocate | withoutChannel =>
      exact ⟨hconnected, _, become_calls _, hadmitted, rfl, rfl⟩
  | fill => exact ⟨hconnected, _, become_calls _, hadmitted⟩
  | @encode packet hmutex hfound =>
      obtain ⟨hhistory, hsame, hbody⟩ := hadmitted
      obtain ⟨hkept, hstill⟩ := @encode_failed _ config { session with mutex := some call } packet
        (hfails.encode hbody session.output)
      exact ⟨hstill.trans hconnected, _, become_calls _, hkept.trans hhistory, hsame, hbody⟩
  | push hmutex hlost => exact absurd (hlost.symm.trans hconnected) Bool.false_ne_true
  | stamp => exact ⟨hconnected, _, become_calls _, hadmitted⟩
  | @send packet =>
      obtain ⟨hhistory, hsame, -⟩ := hadmitted
      obtain ⟨hsent, hstill⟩ := @send_records _ session packet
      refine ⟨hstill.trans hconnected, _, become_calls _, ?_⟩
      rw [Admitted, ← hhistory, ← hsame]
      exact hsent
  | wake => exact hreturned rfl _
  | wait =>
      -- The predicate of the wait is false, and the call waits on.
      exact ⟨hconnected, _, hcall, hadmitted⟩
  | leave => exact hreturned rfl session.queueTotalSize

theorem posting_reaches (hfails : config.streamer.Fails request.packet)
    (hposting : session.Posting call request history)
    (hreaches : Reaches config call session final) : final.Posting call request history := by
  induction hreaches with
  | refl => exact hposting
  | tail _ hproceeds ih => exact posting_proceeds hfails ih hproceeds

/-- What `PostPacket` does first on a connected session. -/
theorem post_enters (hidle : session.calls call = .idle) (hconnected : session.connected = true) :
    session.step config (.start call (.postPacket request)) =
      some ((session.record (.called call)).become call (.postPacket request .entered)) := by
  simp only [step, hidle, start]
  exact if_neg fun hlost => by
    have hstill : session.connected = false := hlost.1
    rw [hconnected] at hstill
    cases hstill

/-- A post at the limit is refused, and nothing is left of it. -/
theorem atLimit_rejected (hidle : session.calls call = .idle)
    (hconnected : session.connected = true) (hmutex : session.mutex = none)
    (hlimit : session.AtLimit config request) :
    ∃ pieces final, session.perform config call (.postPacket request) pieces = some final ∧
      final.calls call = .postPacket request (.returned false) ∧ LeavesNothing session final := by
  have hproceeds := @proceeds_postPacket _ config
    ((session.record (.called call)).become call (.postPacket request .entered)) call _
    request .entered (become_calls _) ((if_pos hmutex).trans (if_pos hlimit))
  obtain ⟨pieces, hperform⟩ := exists_perform_iff.mpr ⟨_, post_enters hidle hconnected,
    .single hproceeds, congrArg Activity.finished (returnPost_calls false)⟩
  exact ⟨pieces, _, hperform, returnPost_calls false, rfl, rfl, rfl, rfl, rfl, rfl, rfl⟩

/-- Any other post on a connected session whose encoding fails returns true, if it returns. -/
theorem failed_post_reported (hidle : session.calls call = .idle)
    (hconnected : session.connected = true)
    (hlimit : ¬ session.AtLimit config request)
    (hfails : config.streamer.Fails request.packet) {pieces : Nat}
    (hperform : session.perform config call (.postPacket request) pieces = some final) :
    final.calls call = .postPacket request (.returned true) ∧
      final.history = session.history ++ [.called call, .freed call, .returned call true] := by
  obtain ⟨started, hstarted, hreaches, hfinished⟩ := exists_perform_iff.mp ⟨pieces, hperform⟩
  rw [post_enters hidle hconnected] at hstarted
  obtain rfl := Option.some.inj hstarted
  rcases hreaches.cases_head with rfl | ⟨next, hnext, hreaches⟩
  · rw [become_calls] at hfinished
    cases hfinished
  · have hposting : next.Posting call request (session.history ++ [.called call]) := by
      rw [Proceeds, proceed, become_calls] at hnext
      cases postPacket_cases hnext with
      | refuse hmutex hfull => exact absurd hfull hlimit
      | admitted hmutex hroom => exact ⟨hconnected, _, become_calls _, rfl⟩
    obtain ⟨-, stage, hcall, hadmitted⟩ := posting_reaches hfails hposting hreaches
    rw [hcall] at hfinished
    cases stage with
    | returned result =>
        obtain ⟨rfl, hhistory⟩ := hadmitted
        refine ⟨hcall, ?_⟩
        rw [hhistory, List.append_assoc]
        rfl
    | _ => cases hfinished

/-- Of the posts whose encoding fails, a connected session that no other call holds up rejects
those that find the queue at its limit; a server connection rejects those that come after it
was lost. -/
theorem failed_posts_rejected_iff (hconnected : session.connected = true)
    (hmutex : session.mutex = none) (hidle : session.calls call = .idle)
    (hfails : config.streamer.Fails request.packet) :
    ((∃ pieces final, session.perform config call (.postPacket request) pieces = some final ∧
        final.calls call = .postPacket request (.returned false) ∧
        LeavesNothing session final) ↔ session.AtLimit config request) ∧
    ∀ (streamer : Streamer Body) (packet : Packet Body) (connected : Bool) (output : Bytes),
      streamer.Fails packet →
      ((∃ sent, ServerConnection.postPacket streamer connected packet output =
        some (false, output, sent)) ↔ connected = false) := by
  constructor
  · constructor
    · rintro ⟨pieces, final, hperform, hreturned, -⟩
      by_contra hlimit
      obtain ⟨hreported, -⟩ := failed_post_reported hidle hconnected hlimit hfails hperform
      rw [hreturned] at hreported
      cases hreported
    · exact atLimit_rejected hidle hconnected hmutex
  · intro streamer packet connected output _
    constructor
    · rintro ⟨sent, hposted⟩
      by_contra hopen
      simp only [ServerConnection.postPacket, if_neg hopen] at hposted
      split at hposted
      next => cases hposted
      next => split at hposted <;> cases hposted
    · rintro rfl
      exact ⟨[], rfl⟩

/-- Packets that append a byte and then fail, and a queue for one request. -/
def failingConfig : Config Bytes where
  streamer := { byteStreamer with encodePacket := fun _ output => (false, output ++ [1]) }
  defaultPacketHandler := some 0
  autoReconnect := true
  queueTimeout := 5000
  queueLimit := 1

theorem failingConfig_fails (packet : Packet Bytes) : failingConfig.streamer.Fails packet :=
  fun _ _ => ⟨[1], rfl⟩

/-- The connection is made, and a request is posted on it. -/
def failedPost : List (Label Bytes) :=
  .start 0 .onConnection :: List.replicate 2 (.proceed 0) ++
  .start 1 (.postPacket (byteRequest 1)) :: List.replicate 7 (.proceed 1)

/-- The second post finds the channel of the first one, which is waiting for nothing. -/
theorem failed_posts_rejected_iff_full : ∃ session,
    run (step failingConfig) (new (Process.zeroMemory 0)) failedPost = some session ∧
    ∃ pieces final, session.perform failingConfig 2 (.postPacket (byteRequest 2)) pieces =
        some final ∧
      final.calls 2 = .postPacket (byteRequest 2) (.returned false) ∧
      LeavesNothing session final := by
  have hrun : (run (step failingConfig) (new (Process.zeroMemory 0)) failedPost).map
      (fun session => (session.connected, session.mutex, session.queueSize,
        (session.calls 2).isIdle)) = some (true, none, 1, true) := by
    decide
  obtain ⟨session, hsession, hvalues⟩ := Option.map_eq_some_iff.mp hrun
  simp only [Prod.mk.injEq] at hvalues
  obtain ⟨hconnected, hmutex, hsize, hcall⟩ := hvalues
  have hidle : session.calls 2 = .idle := Activity.eq_idle hcall
  refine ⟨session, hsession, ?_⟩
  have hlimit : session.AtLimit failingConfig (byteRequest 2) :=
    ⟨by decide, rfl, by rw [hsize]; decide⟩
  exact (failed_posts_rejected_iff hconnected hmutex hidle (failingConfig_fails _)).1.mpr hlimit

/-- A call of `PostPacket` that has returned true. -/
def postedBy : Activity Bytes → Option (Request Bytes)
  | .postPacket request (.returned true) => some request
  | _ => none

theorem eq_of_postedBy {activity : Activity Bytes} {request : Request Bytes}
    (hposted : postedBy activity = some request) :
    activity = .postPacket request (.returned true) := by
  unfold postedBy at hposted
  split at hposted
  next => rw [Option.some.inj hposted]
  next => cases hposted

/-- A post whose encoding fails returns true and keeps a channel in use; a server connection
reports success as well. -/
theorem failed_posts_unnoticed :
    (∃ session final, run (step failingConfig) (new (Process.zeroMemory 0))
        (failedPost.take 3) = some session ∧
      session.connected = true ∧ failingConfig.streamer.Fails (byteRequest 1).packet ∧
      session.perform failingConfig 1 (.postPacket (byteRequest 1)) 7 = some final ∧
      (∃ request, final.calls 1 = .postPacket request (.returned true)) ∧
      session.pool.useMap.keys = [] ∧ final.pool.useMap.keys = [1]) ∧
    failingConfig.streamer.Fails ⟨⟨1, 1, 0⟩, [1]⟩ ∧
    ServerConnection.postPacket failingConfig.streamer true ⟨⟨1, 1, 0⟩, [1]⟩ [] =
      some (true, [], []) := by
  refine ⟨?_, failingConfig_fails _, by decide⟩
  have hrun : ((run (step failingConfig) (new (Process.zeroMemory 0)) (failedPost.take 3)).bind
      fun session => (session.perform failingConfig 1 (.postPacket (byteRequest 1)) 7).map
        fun final => (session.connected, (postedBy (final.calls 1)).isSome,
          session.pool.useMap.keys, final.pool.useMap.keys)) = some (true, true, [], [1]) := by
    decide
  obtain ⟨session, hsession, hperforms⟩ := Option.bind_eq_some_iff.mp hrun
  obtain ⟨final, hperform, hvalues⟩ := Option.map_eq_some_iff.mp hperforms
  simp only [Prod.mk.injEq] at hvalues
  obtain ⟨hconnected, hreturned, hempty, hused⟩ := hvalues
  refine ⟨session, final, hsession, hconnected, failingConfig_fails _, hperform, ?_, hempty,
    hused⟩
  obtain ⟨request, hposted⟩ := Option.isSome_iff_exists.mp hreturned
  exact ⟨request, eq_of_postedBy hposted⟩

end Session

end Wnet
