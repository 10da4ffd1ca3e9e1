/-
# Jobs that answer a packet

A job that has taken a packet up comes to its end within six stages of its own, whatever
other threads do between them. It then has sent its client the reply to the packet, or
none to a message that is passed on and to a binary packet; it is counted as failed if that
reply is an error; and if it has failed, it has left the rooms as they were.
-/

import ChatHall.Proofs.Chat.Survival
import ChatHall.Proofs.Server.Reply

namespace ChatHall.Server

open ChatHall.Text

def Event.worksOn (q : Jobs.QueueRef) : Event → Bool
  | work k _ => k = q
  | _ => false

theorem Next.stages_pos (n : Next) : 0 < n.stages := by cases n <;> exact Nat.succ_pos _

theorem SessionTask.stages_pos (task : SessionTask) : 0 < task.stages := by
  cases task with
  | going n => exact n.stages_pos
  | _ => exact Nat.succ_pos _

/-- A job that takes a packet up is at its first stage. -/
theorem SessionTask.first_of_packet? {task : SessionTask} {p : Wire.Packet}
    (packet : task.packet? = some p) : task.stages = 6 ∧ task.destination? = none := by
  cases task with
  | packet | command => exact ⟨rfl, rfl⟩
  | _ => exact nomatch packet

namespace World

variable {w v u : World} {past : List (RoomRef × RoomTask)} {q : Jobs.QueueRef} {i j : Nat}
variable {c : ClientRef} {task t : SessionTask} {s : Standing} {here : Option String}
variable {p : Wire.Packet} {reply : Option Chat.Response} {failed : Bool} {text : String}

/-! ## Replies -/

/-- A JSON packet is not answered exactly if it is a message that is passed on. -/
theorem Told.reply_eq_none_iff (h : Told w s here (.json text) reply failed) :
    reply = none ↔ ∃ message, Chat.Command.decode text = .ok (.sendMessage message) ∧
      Chat.validateMessage message = .ok () ∧ here.isSome := by
  cases h with
  | obeyed _ _ obeyed =>
      refine ⟨nofun, fun ⟨message, said, _⟩ => ?_⟩
      cases obeyed with
      | joined _ _ decoded | left _ _ decoded =>
          rw [decoded] at said
          exact nomatch said
  | passed _ message decoded valid inside =>
      exact ⟨fun _ => ⟨message, decoded, valid, inside⟩, fun _ => rfl⟩
  | refused _ _ why =>
      refine ⟨nofun, fun ⟨message, said, valid, inside⟩ => ?_⟩
      cases why with
      | malformed _ decoded | unknown _ decoded =>
          rw [decoded] at said
          exact nomatch said
      | unfit _ _ decoded invalid =>
          rw [decoded] at said
          cases said
          rw [valid] at invalid
          exact nomatch invalid
      | outside _ _ nowhere =>
          rw [nowhere] at inside
          exact nomatch inside

/-- The job of a JSON packet fails exactly if it answers with an error. -/
theorem Told.failed_iff (h : Told w s here (.json text) reply failed) :
    failed = true ↔ ∃ message, reply = some (.error message) := by
  cases h with
  | obeyed _ _ obeyed =>
      refine ⟨nofun, fun ⟨message, same⟩ => ?_⟩
      cases obeyed <;> exact nomatch same
  | passed => exact ⟨nofun, nofun⟩
  | refused _ e _ => exact ⟨fun _ => ⟨e.message, rfl⟩, fun _ => rfl⟩

/-- Whoever leaves the room where it is is let go. -/
theorem Told.reply_of_leaveRoom {name : String} (h : Told w s (some name) (.json text) reply failed)
    (decoded : Chat.Command.decode text = .ok (.leaveRoom name)) :
    reply = some (.left true name) ∧ failed = false := by
  cases h with
  | obeyed _ _ obeyed =>
      cases obeyed with
      | joined _ _ said =>
          rw [decoded] at said
          exact nomatch said
      | left _ _ said =>
          rw [decoded] at said
          cases said
          rw [decide_eq_true rfl]
          exact ⟨rfl, rfl⟩
  | passed _ _ said =>
      rw [decoded] at said
      exact nomatch said
  | refused _ _ why =>
      cases why with
      | malformed _ said | unfit _ _ said =>
          rw [decoded] at said
          exact nomatch said
      | unknown _ said elsewhere =>
          rw [decoded] at said
          cases said
          exact absurd rfl elsewhere
      | outside _ _ nowhere => exact nomatch nowhere

theorem Told.mute {id : UInt16} {payload : Bytes}
    (h : Told w s here (.binary id payload) reply failed) : reply = none := by
  cases h with
  | obeyed _ _ obeyed => exact nomatch obeyed
  | binary => rfl

/-! ## Jobs under way -/

/-- A job that took a packet up in the world `w` is under way after `n` steps of its queue: it is
at its first stage still, or on its way to an answer. -/
structure Underway (w : World) (q : Jobs.QueueRef) (i : Nat) (c : ClientRef) (task : SessionTask)
    (p : Wire.Packet) (n : Nat) (u : World) (t : SessionTask) : Prop where
  paused : Paused w q i c u t
  few : n + t.stages ≤ 6
  course : t = task ∧ u.whereabouts? c = w.whereabouts? c ∨
    ∃ reply, Bound u c t reply ∧ Obeyed (w.whereabouts? c) p reply

/-- Only the drain that has the job in its hands works on the queue. -/
theorem drain_of_work (serial : w.pool.Serial) {job : Job}
    (phase : Jobs.Realm.phase? w q i = some (.executing job))
    (after : w.after? (.work q j) = some v) : j = i := by
  obtain ⟨queue, found, alive⟩ := phase?_eq_some.1 phase
  have step : Jobs.Realm.advance? perform w q j = some v := after
  cases other : Jobs.Realm.phase? w q j with
  | none =>
      rw [Jobs.Realm.advance?, other] at step
      contradiction
  | some at_work =>
      obtain ⟨again, known, drains⟩ := phase?_eq_some.1 other
      obtain rfl := Option.some.inj (found.symm.trans known)
      have served := serial q queue found
      exact (served.drains_eq drains).1.trans (served.drains_eq alive).1.symm

/-- Such a job comes to its end with the step from `u` to `v`; it fails at its first stage, if it
fails. -/
def Concludes (w : World) (q : Jobs.QueueRef) (c : ClientRef) (p : Wire.Packet) (n : Nat)
    (u v : World) : Prop :=
  ∃ client reply failed, u.client? c = some client ∧
    Told u client.standing (w.whereabouts? c) p reply failed ∧ Closes u q c v reply failed ∧
    (failed = true → n = 0 ∧ Untouched c u v)

section Underway

variable {n : Nat} (under : Underway w q i c task p n u t) (h : Tended past u)
include under h

/-- What other threads do leaves a job at its stage. -/
theorem Underway.other (waits : task.destination? = none) {e : Event} (other : ∀ j, e ≠ .work q j)
    (after : u.after? e = some v) : Underway w q i c task p n v t := by
  obtain ⟨paused, few, course⟩ := under
  obtain ⟨client, found, own⟩ := h.client_of_phase paused.phase
  obtain ⟨queue, known, -⟩ := phase?_eq_some.1 paused.phase
  obtain ⟨d, spared, spares⟩ := h.spares other after
  obtain ⟨seat, replies⟩ := spares.accounts found (spared c client found own)
  obtain ⟨finished, failures⟩ := spares.figures known
  have furnished := h.agreed.inOrder.furnished
  obtain ⟨deeds, change⟩ := change_of_after? furnished after
  have serial := (furnished.moves change.moves).serial
  have phase := spares.phase? furnished.serial serial paused.phase
  refine ⟨paused.trans ⟨phase, replies, finished, failures⟩, few, ?_⟩
  rcases course with ⟨rfl, same⟩ | ⟨reply, bound, obeyed⟩
  · exact .inl ⟨rfl, (h.whereabouts?_of_seat paused.phase waits (h.extends after) seat).trans same⟩
  · exact .inr ⟨reply, bound.extends (h.extends after) seat, obeyed⟩

/-- A step of its queue brings a job one stage further, or is its last. -/
theorem Underway.own (titled : Titled u) (packet : task.packet? = some p)
    (after : u.after? (.work q j) = some v) :
    (∃ t, Underway w q i c task p (n + 1) v t) ∨
      Concludes w q c p n u v := by
  obtain ⟨paused, few, course⟩ := under
  obtain rfl := drain_of_work h.agreed.inOrder.furnished.serial paused.phase after
  obtain ⟨client, found, -⟩ := h.client_of_phase paused.phase
  rcases course with ⟨rfl, same⟩ | ⟨reply, bound, obeyed⟩
  · have first : n = 0 := by
      have stages := (SessionTask.first_of_packet? packet).1
      omega
    rcases h.takes titled packet paused.phase found after with
      ⟨next, reply, bound, obeyed, below, later⟩ | ⟨reply, failed, told, closes, untouched⟩
    · rw [same] at obeyed
      exact .inl ⟨next, paused.trans later, by omega, .inr ⟨reply, bound, obeyed⟩⟩
    · rw [same] at told
      exact .inr ⟨client, reply, failed, found, told, closes, fun fails => ⟨first, untouched fails⟩⟩
  · rcases bound.step h paused.phase after with ⟨next, nearer, below, later⟩ | closes
    · exact .inl ⟨next, paused.trans later, by omega, .inr ⟨reply, nearer, obeyed⟩⟩
    · exact .inr ⟨client, some reply, false, found, .obeyed p reply obeyed, closes, nofun⟩

/-- A job that took a packet up stays under way with an event, or comes to its end. -/
theorem Underway.after (titled : Titled u) (packet : task.packet? = some p) {e : Event}
    (after : u.after? e = some v) :
    (∃ t, Underway w q i c task p (n + if e.worksOn q then 1 else 0) v t) ∨
      Concludes w q c p n u v := by
  by_cases own : ∃ j, e = .work q j
  · obtain ⟨j, rfl⟩ := own
    rw [show (Event.work q j).worksOn q = true from decide_eq_true rfl]
    exact under.own h titled packet after
  · have other : ∀ j, e ≠ .work q j := fun j same => own ⟨j, same⟩
    have elsewhere : e.worksOn q = false := by
      cases e with
      | work k j => exact decide_eq_false fun same => other j (same ▸ rfl)
      | _ => rfl
    rw [elsewhere]
    exact .inl ⟨t, under.other h (SessionTask.first_of_packet? packet).2 other after⟩

end Underway

/-! ## Answers -/

/-- What a job that took a packet up in the world `w` has come to with its last step, from `u`
to `v`. -/
structure Answered (w : World) (q : Jobs.QueueRef) (c : ClientRef) (p : Wire.Packet)
    (body : List Event) (u v : World) (reply : Option Chat.Response) (failed : Bool) : Prop where
  /-- What is told depends on the packet, and on where its client was when it was taken up. -/
  told : ∃ client, u.client? c = some client ∧
    Told u client.standing (w.whereabouts? c) p reply failed
  /-- Since the job was taken, the client has been sent this reply, and no other. -/
  replies : v.replies c = w.replies c ++ reply.toList
  /-- A reply goes out as a JSON packet. Whoever takes frames of its length receives that one
  packet, and reads the reply in it. -/
  direct : ∀ response limits, reply = some response →
    (Wire.Packet.json response.json).Within limits →
    Chat.Delivers limits (Outgoing.response response).frame (.json response.json) ∧
      ∀ id, Chat.Response.decode id (Utf8.encode response.json) = .ok response
  /-- The job is counted, as a failure or not. -/
  finished : v.finished q = w.finished q + 1
  failures : v.failures q = w.failures q + failed.toNat
  /-- A JSON packet is not answered if it is a message that is passed on, and otherwise is. -/
  unanswered : ∀ text, p = .json text →
    (reply = none ↔ ∃ message, Chat.Command.decode text = .ok (.sendMessage message) ∧
      Chat.validateMessage message = .ok () ∧ (w.whereabouts? c).isSome)
  /-- The job of a JSON packet fails exactly if it is answered with an error. -/
  fails_iff : ∀ text, p = .json text → (failed = true ↔ ∃ message, reply = some (.error message))
  /-- Whoever is told that it has joined a room is in that room. -/
  inside : ∀ name, reply = some (.joined true name) → v.whereabouts? c = some name
  /-- Whoever leaves the room where it is is let go. -/
  own : ∀ text name, p = .json text → Chat.Command.decode text = .ok (.leaveRoom name) →
    w.whereabouts? c = some name → reply = some (.left true name) ∧ failed = false
  /-- A binary packet is not answered. -/
  mute : ∀ id payload, p = .binary id payload → reply = none
  /-- A job that fails does so in a single step, which touches no room. -/
  untouched : failed = true → body.countP (Event.worksOn q) = 0 ∧ Untouched c u v

/-- What is to be said of a job that took a packet up in the world `w` and has not ended in the
world `u`, after some events. -/
structure Answers (w : World) (q : Jobs.QueueRef) (i : Nat) (c : ClientRef) (p : Wire.Packet)
    (body : List Event) (u : World) : Prop where
  /-- The packet is the oldest of those that its session has still to take up. -/
  next : ∃ later, w.pending c = p :: later
  /-- The job can go on. -/
  goes_on : ∃ v, u.after? (.work q i) = some v
  /-- It has at most five of its stages behind it, so that its sixth is the last. -/
  few : body.countP (Event.worksOn q) ≤ 5
  /-- If it ends with an event, and its client can be reached until then, the packet is
  answered. -/
  answered : ∀ e v, e.isDirect = false → u.after? e = some v → v.finished q ≠ w.finished q →
    u.reaches c = true → ∃ reply failed, Answered w q c p body u v reply failed

section Course

variable {defaultRooms : List String} {events body : List Event}

/-- A job that took a packet up is under way until it is over. -/
theorem underway_of_course (indirect : ∀ e ∈ events ++ body, e.isDirect = false)
    (course : (opened defaultRooms).afterAll? events = some w)
    (taken : Jobs.Realm.phase? w q i = some (.executing (.session c task)))
    (packet : task.packet? = some p) (during : w.afterAll? body = some u) :
    (∃ t, Underway w q i c task p (body.countP (Event.worksOn q)) u t) ∨
      w.finished q < u.finished q := by
  have later : ∀ e ∈ body, e.isDirect = false := fun e mem =>
    indirect e (List.mem_append_right _ mem)
  refine course_induction_concat w (P := fun body u =>
    (∃ t, Underway w q i c task p (body.countP (Event.worksOn q)) u t) ∨
      w.finished q < u.finished q) ?_ ?_ later during
  · intro body e u v direct next before after ih
    have earlier : (opened defaultRooms).afterAll? (events ++ body) = some u := by
      rw [afterAll?_append, course]
      exact before
    have tended := (tended_of_opened (fun d mem => (List.mem_append.1 mem).elim
      (fun old => indirect d (List.mem_append_left _ old)) (direct d)) earlier).1
    rcases ih with ⟨t, under⟩ | ended
    · rw [List.countP_append, List.countP_singleton]
      rcases under.after tended (titled_of_opened earlier) packet after with
        further | ⟨_, _, _, _, _, closes, _⟩
      · exact .inl further
      · right
        rw [closes.finished, under.paused.finished]
        exact Nat.lt_succ_self _
    · right
      cases known : u.pool.queue? q with
      | none =>
          rw [finished, finished, known] at ended
          exact absurd ended (Nat.not_lt_zero _)
      | some queue => exact Nat.lt_of_lt_of_le ended (tended.finished_le known after)
  · have few : task.stages ≤ 6 := Nat.le_of_eq (SessionTask.first_of_packet? packet).1
    rw [← Nat.zero_add task.stages] at few
    exact .inl ⟨task, ⟨taken, rfl, rfl, rfl⟩, few, .inl ⟨rfl, rfl⟩⟩

/-- A packet is taken up when its turn has come. -/
theorem Tended.pending_of_phase (h : Tended past w)
    (phase : Jobs.Realm.phase? w q i = some (.executing (.session c task)))
    (packet : task.packet? = some p) : ∃ later, w.pending c = p :: later := by
  obtain ⟨queue, known, alive⟩ := phase?_eq_some.1 phase
  obtain ⟨client, found, rfl⟩ := h.client_of_phase phase
  have busy := performing_of_alive h.agreed.inOrder.furnished.serial known alive
  have mine : packetFor c (c, task) = some p := (if_pos rfl).trans packet
  refine ⟨(w.awaiting client.queue).filterMap (packetFor c), ?_⟩
  rw [pending_of_standing (standing?_of_client found), duties_eq,
    show client.standing.queue = client.queue from rfl, busy]
  exact List.filterMap_cons_some mine

/-- In every course of events in which clients are asked in and out by the jobs of their sessions
alone, every job that takes a packet up answers it, whatever happens meanwhile. -/
theorem answers_of_course (indirect : ∀ e ∈ events ++ body, e.isDirect = false)
    (course : (opened defaultRooms).afterAll? events = some w)
    (taken : Jobs.Realm.phase? w q i = some (.executing (.session c task)))
    (packet : task.packet? = some p) (during : w.afterAll? body = some u)
    (unfinished : u.finished q = w.finished q) : Answers w q i c p body u := by
  have whole : (opened defaultRooms).afterAll? (events ++ body) = some u := by
    rw [afterAll?_append, course]
    exact during
  have tended := (tended_of_opened indirect whole).1
  have before := (tended_of_opened (fun e mem => indirect e (List.mem_append_left _ mem)) course).1
  obtain ⟨t, under⟩ : ∃ t, Underway w q i c task p (body.countP (Event.worksOn q)) u t := by
    rcases underway_of_course indirect course taken packet during with under | ended
    · exact under
    · exact absurd ended (unfinished ▸ Nat.lt_irrefl _)
  have few := under.few
  have left := t.stages_pos
  refine ⟨before.pending_of_phase taken packet, tended.exists_after under.paused.phase, by omega,
    fun e v next after ended reached => ?_⟩
  rcases under.after tended (titled_of_opened whole) packet after with
    ⟨t, further⟩ | ⟨client, reply, failed, found, told, closes, fails⟩
  · exact absurd further.paused.finished ended
  · exact ⟨reply, failed, {
      told := ⟨client, found, told⟩
      replies := by rw [closes.replies reached, under.paused.replies]
      direct := fun response limits _ within =>
        ⟨fun _ => Wire.Frame.read_ofPacket within, fun id => response.decode_json id⟩
      finished := by rw [closes.finished, unfinished]
      failures := by rw [closes.failures reached, under.paused.failures]
      unanswered := by
        rintro text rfl
        exact told.reply_eq_none_iff
      fails_iff := by
        rintro text rfl
        exact told.failed_iff
      inside := closes.inside
      own := by
        rintro text name rfl decoded here
        rw [here] at told
        exact told.reply_of_leaveRoom decoded
      mute := by
        rintro id payload rfl
        exact told.mute
      untouched := fails }⟩

end Course

/-- A client in the default room asks to move on, and its session takes that up. -/
def askingOn : List Event :=
  [.room 0 "lobby", .accept 0, .start 0 true, .arrive 0, .arrive 0, .arrive 0, .arrive 0,
    .packet 0 (.json "\x7b\"Type\":\"JoinRoom\",\"RoomId\":\"arena\"\x7d")] ++
  List.replicate 6 (.work 1 0)

/-- The default room gets on with the entrance of the client while the client moves on. -/
def meanwhile : List Event :=
  List.replicate 2 (.work 1 0) ++ List.replicate 3 (.work 0 0) ++ List.replicate 3 (.work 1 0)

/-- Whoever has moved on is told so, and is there. -/
theorem answers_of_course_askingOn : ∃ w u v : World,
    (opened ["lobby"]).afterAll? askingOn = some w ∧ w.afterAll? meanwhile = some u ∧
      Answers w 1 0 0 (.json "\x7b\"Type\":\"JoinRoom\",\"RoomId\":\"arena\"\x7d") meanwhile u ∧
      u.after? (.work 1 0) = some v ∧ u.reaches 0 = true ∧ u.finished 1 = w.finished 1 ∧
      v.finished 1 ≠ w.finished 1 ∧ v.replies 0 = w.replies 0 ++ [.joined true "arena"] ∧
      v.whereabouts? 0 = some "arena" := by
  let text := "\x7b\"Type\":\"JoinRoom\",\"RoomId\":\"arena\"\x7d"
  have indirect : ∀ e ∈ askingOn ++ meanwhile, e.isDirect = false := by decide
  have possible : ((opened ["lobby"]).afterAll? askingOn).any (fun w : World =>
      Jobs.Realm.phase? w 1 0 = some (.executing (.session 0 (.command text))) &&
      (w.afterAll? meanwhile).any fun u : World => (u.after? (.work 1 0)).any fun v : World =>
        u.reaches 0 && (u.finished 1 = w.finished 1 : Bool) &&
        (v.finished 1 ≠ w.finished 1 : Bool) &&
        v.replies 0 = w.replies 0 ++ [.joined true "arena"] && v.whereabouts? 0 = some "arena") =
      true := by
    decide +kernel
  obtain ⟨w, course, rest⟩ := (Option.any_eq_true ..).1 possible
  obtain ⟨taken, rest⟩ := (Bool.and_eq_true ..).mp rest
  obtain ⟨u, during, rest⟩ := (Option.any_eq_true ..).1 rest
  obtain ⟨v, after, rest⟩ := (Option.any_eq_true ..).1 rest
  simp only [Bool.and_eq_true, decide_eq_true_eq] at taken rest
  obtain ⟨⟨⟨⟨reached, unfinished⟩, ended⟩, replies⟩, inside⟩ := rest
  exact ⟨w, u, v, course, during,
    answers_of_course indirect course taken rfl during unfinished,
    after, reached, unfinished, ended, replies, inside⟩

end World

end ChatHall.Server
