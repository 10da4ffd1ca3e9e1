/-
# What a connection sends

While the pending flag is up there is exactly one thread that drains the send queue, and
nothing is queued while it is down. So the socket takes the accepted segments in the
order in which they were queued, and as long as the connection and the socket are good
none of their bytes is lost: it has been taken, or is in the batch of the one drain, or is
queued.
-/

import ChatHall.Proofs.Session.Outward
import ChatHall.Server.Service

namespace ChatHall.Session

namespace Operation

variable {o : Operation}

theorem isDrain_of_isPlain (plain : o.isPlain = true) : o.isDrain = false := by
  cases o with
  | collect | begin | write | complete | clearPending => contradiction
  | _ => rfl

theorem isClosing_of_isPlain (plain : o.isPlain = true) : o.isClosing = false := by
  cases o with
  | cancel | startClosing | takeWriter | clearQueue => contradiction
  | _ => rfl

theorem left_of_isDrain (other : o.isDrain = false) : o.left = [] := by
  cases o with
  | begin | write => contradiction
  | _ => rfl

theorem owed_of_isPlain (plain : o.isPlain = true) : o.owed = 0 := by
  cases o with
  | call h =>
      cases h with
      | sent n => contradiction
      | _ => rfl
  | _ => rfl

end Operation

namespace Outward

open Operation (isDrain isClosing owed)

variable {s t : Outward} {o : Operation} {first more earlier later ops : List Operation}

/-- The bytes that the socket has still to take of batches. -/
def leftOver (ops : List Operation) : Bytes := (ops.flatMap Operation.left).flatten

/-- The bytes of which the handler is still to be told. -/
def owing (ops : List Operation) : Nat := (ops.map Operation.owed).sum

theorem leftOver_append (ops more : List Operation) :
    leftOver (ops ++ more) = leftOver ops ++ leftOver more := by
  rw [leftOver, List.flatMap_append, List.flatten_append, leftOver, leftOver]

theorem leftOver_cons (o : Operation) (ops : List Operation) :
    leftOver (o :: ops) = o.left.flatten ++ leftOver ops := by
  rw [leftOver, List.flatMap_cons, List.flatten_append, leftOver]

theorem leftOver_of_isDrain (others : ∀ p ∈ ops, p.isDrain = false) : leftOver ops = [] := by
  have none_left : ops.flatMap Operation.left = [] :=
    List.flatMap_eq_nil_iff.2 fun p mem => Operation.left_of_isDrain (others p mem)
  rw [leftOver, none_left, List.flatten_nil]

theorem owing_append (ops more : List Operation) :
    owing (ops ++ more) = owing ops + owing more := by
  rw [owing, List.map_append, List.sum_append, owing, owing]

theorem owing_cons (o : Operation) (ops : List Operation) :
    owing (o :: ops) = o.owed + owing ops := by
  rw [owing, List.map_cons, List.sum_cons, owing]

theorem owing_of_owed (nothing : ∀ p ∈ ops, p.owed = 0) : owing ops = 0 := by
  rw [owing, List.sum_eq_zero_iff_forall_eq_nat]
  intro n mem
  obtain ⟨p, listed, rfl⟩ := List.mem_map.1 mem
  exact nothing p listed

theorem countP_isDrain_of_isPlain (plain : ∀ p ∈ ops, p.isPlain = true) : ops.countP isDrain = 0 :=
  List.countP_eq_zero.2 fun p mem =>
    ne_true_of_eq_false (Operation.isDrain_of_isPlain (plain p mem))

/-! ## Turns -/

/-- A drain starts and ends as the pending flag goes up and down. -/
theorem Turn.drains (turn : Turn s o t first more) (alive : o.isDrain = true → s.pending = true) :
    first.countP isDrain + more.countP isDrain + s.pending.toNat =
      [o].countP isDrain + t.pending.toNat := by
  cases turn with
  | plain _ _ plain after =>
      have other := ne_true_of_eq_false (Operation.isDrain_of_isPlain plain)
      rw [countP_isDrain_of_isPlain after, List.countP_cons_of_neg other]
      rfl
  | report n _ after =>
      rw [countP_isDrain_of_isPlain after]
      rfl
  | wake segments asleep =>
      rw [asleep]
      rfl
  | stop idle =>
      rw [alive rfl]
      rfl
  | clearPending =>
      rw [alive rfl]
      rfl
  | _ => rfl

/-- The handler is told of the bytes that are counted. -/
theorem Turn.owes (turn : Turn s o t first more) :
    t.reported + owing first + owing more + s.bytesSent = s.reported + o.owed + t.bytesSent := by
  cases turn with
  | plain _ _ plain after =>
      rw [Operation.owed_of_isPlain plain,
        owing_of_owed fun p mem => Operation.owed_of_isPlain (after p mem)]
      rfl
  | report n _ after =>
      rw [owing_of_owed fun p mem => Operation.owed_of_isPlain (after p mem)]
      rfl
  | complete n =>
      have told : owing [.call (.sent n), .collect] = n := rfl
      rw [told]
      exact Nat.add_assoc _ n _ |>.trans (congrArg _ (Nat.add_comm n _))
  | _ => rfl

/-- A connection that is disconnected stays so. -/
theorem Turn.isConnected (turn : Turn s o t first more) (gone : s.isConnected = false) :
    t.isConnected = false := by
  cases turn with
  | disconnect => rfl
  | _ => exact gone

/-- A broken socket stays so. -/
theorem Turn.isBroken (turn : Turn s o t first more) (broken : s.isBroken = true) :
    t.isBroken = true := by
  cases turn with
  | failed => rfl
  | _ => exact broken

/-! ## Invariants -/

/-- A connection is shut down, and a drain given up, only once it is disconnected or broken. -/
structure Closed (s : Outward) (ops : List Operation) : Prop where
  closing : ∀ o ∈ ops, o.isClosing = true → s.isConnected = false
  cancelled : s.isCancelled = true → s.isConnected = false
  writerless : s.hasWriter = false → s.isConnected = false
  lowering : .clearPending ∈ ops → s.isConnected = false ∨ s.isBroken = true

/-- What is queued has a drain, and is not empty. -/
structure Queued (s : Outward) (ops : List Operation) : Prop where
  awake : s.sendQueue ≠ [] → s.pending = true
  filled : [] ∉ s.sendQueue
  asked : ∀ segments, .enqueue segments ∈ ops → [] ∉ segments

/-- The socket has taken a part of the accepted bytes, which go on with what is left of a batch. -/
structure Streamed (s : Outward) (left : Bytes) : Prop where
  ordered : s.outbox <+: s.accepted.flatten
  whole : s.isBroken = false → s.outbox ++ left <+: s.accepted.flatten
  complete : s.isConnected = true → s.isBroken = false →
    s.accepted.flatten = s.outbox ++ left ++ s.sendQueue.flatten

/-- All of it, with what the threads have still to do. -/
structure Sound (s : Outward) (ops : List Operation) : Prop where
  drains : ops.countP isDrain = s.pending.toNat
  counted : s.reported + owing ops = s.bytesSent
  closed : Closed s ops
  queued : Queued s ops
  streamed : Streamed s (leftOver ops)

theorem mem_turn {p : Operation} (mem : p ∈ earlier ++ first ++ later ++ more) :
    p ∈ earlier ++ o :: later ∨ p ∈ first ∨ p ∈ more := by
  simp only [List.mem_append, List.mem_cons] at mem ⊢
  tauto

theorem Closed.turn (closed : Closed s (earlier ++ o :: later)) (turn : Turn s o t first more) :
    Closed t (earlier ++ first ++ later ++ more) := by
  have here : o ∈ earlier ++ o :: later := List.mem_append_right _ List.mem_cons_self
  have closing : ∀ p, p ∈ first ∨ p ∈ more → p.isClosing = true → t.isConnected = false := by
    cases turn with
    | plain _ _ _ after =>
        rintro p (mem | mem) closing
        · exact absurd closing (ne_true_of_eq_false (Operation.isClosing_of_isPlain (after p mem)))
        · contradiction
    | report _ _ after =>
        rintro p (mem | mem) closing
        · exact absurd closing (ne_true_of_eq_false (Operation.isClosing_of_isPlain (after p mem)))
        · contradiction
    | disconnect => exact fun _ _ _ => rfl
    | startClosing => exact fun _ _ _ => closed.closing _ here rfl
    | _ => simp [Operation.isClosing]
  have lowering : .clearPending ∈ first ∨ .clearPending ∈ more →
      t.isConnected = false ∨ t.isBroken = true := by
    cases turn with
    | plain _ _ _ after =>
        rintro (mem | mem)
        · exact Bool.noConfusion (after _ mem)
        · contradiction
    | report _ _ after =>
        rintro (mem | mem)
        · exact Bool.noConfusion (after _ mem)
        · contradiction
    | miss batch gone => exact fun _ => .inl (closed.writerless gone)
    | interrupted segments done cancelled => exact fun _ => .inl (closed.cancelled cancelled)
    | failed => exact fun _ => .inr rfl
    | _ => simp
  exact {
    closing := by
      intro p mem quits
      rcases mem_turn mem with kept | new
      · exact turn.isConnected (closed.closing p kept quits)
      · exact closing p new quits
    cancelled := by
      cases turn with
      | cancel => exact fun _ => closed.closing _ here rfl
      | disconnect => exact fun _ => rfl
      | _ => exact closed.cancelled
    writerless := by
      cases turn with
      | takeWriter => exact fun _ => closed.closing _ here rfl
      | disconnect => exact fun _ => rfl
      | _ => exact closed.writerless
    lowering := by
      intro mem
      rcases mem_turn mem with kept | new
      · exact (closed.lowering kept).imp turn.isConnected turn.isBroken
      · exact lowering new }

theorem Queued.turn (queued : Queued s (earlier ++ o :: later)) (turn : Turn s o t first more) :
    Queued t (earlier ++ first ++ later ++ more) := by
  have here : o ∈ earlier ++ o :: later := List.mem_append_right _ List.mem_cons_self
  have asked : ∀ segments, .enqueue segments ∈ first ∨ .enqueue segments ∈ more →
      [] ∉ segments := by
    cases turn with
    | plain _ _ _ after =>
        rintro segments (mem | mem)
        · exact Bool.noConfusion (after _ mem)
        · contradiction
    | report _ _ after =>
        rintro segments (mem | mem)
        · exact Bool.noConfusion (after _ mem)
        · contradiction
    | ask a segments filled =>
        rintro segments (mem | mem)
        · obtain rfl := Operation.enqueue.inj (List.mem_singleton.1 mem)
          exact filled
        · contradiction
    | _ => simp
  have filled : [] ∉ t.sendQueue := by
    cases turn with
    | enqueue segments | wake segments =>
        rintro mem
        rcases List.mem_append.1 mem with old | new
        · exact queued.filled old
        · exact queued.asked segments here new
    | clearQueue | collect | stop | clearPending => exact List.not_mem_nil
    | _ => exact queued.filled
  exact {
    awake := by
      cases turn with
      | enqueue segments awake => exact fun some => awake.resolve_right some
      | wake => exact fun _ => rfl
      | clearQueue | collect | stop | clearPending => exact fun some => absurd rfl some
      | _ => exact queued.awake
    filled
    asked := by
      intro segments mem
      rcases mem_turn mem with kept | new
      · exact queued.asked segments kept
      · exact asked segments new }

theorem leftOver_of_isPlain (plain : ∀ p ∈ ops, p.isPlain = true) : leftOver ops = [] :=
  leftOver_of_isDrain fun p mem => Operation.isDrain_of_isPlain (plain p mem)

theorem leftOver_singleton (o : Operation) : leftOver [o] = o.left.flatten := by
  rw [leftOver_cons]
  exact List.append_nil _

/-- Segments that are accepted go behind all that is queued. -/
theorem Streamed.accept {left : Bytes} (streamed : Streamed s left) (segments : List Bytes)
    (pending : Bool) :
    Streamed { s with
      pending
      sendQueue := s.sendQueue ++ segments
      accepted := s.accepted ++ segments } left where
  ordered := by
    rw [List.flatten_append]
    exact List.prefix_append_of_prefix streamed.ordered
  whole := by
    intro good
    rw [List.flatten_append]
    exact List.prefix_append_of_prefix (streamed.whole good)
  complete := by
    intro connected good
    rw [List.flatten_append, List.flatten_append, streamed.complete connected good]
    exact List.append_assoc _ _ _

/-- Once the connection is gone or the socket is broken, bytes may be lost. -/
theorem Streamed.lose {left rest : Bytes} (streamed : Streamed s left) (part : rest <+: left)
    (lost : s.isConnected = false ∨ s.isBroken = true) (pending : Bool) (queue : List Bytes) :
    Streamed { s with pending, sendQueue := queue } rest where
  ordered := streamed.ordered
  whole := by
    intro good
    exact ((List.prefix_append_right_inj _).2 part).trans (streamed.whole good)
  complete := by
    intro connected good
    rcases lost with gone | broken
    · exact Bool.noConfusion (connected.symm.trans gone)
    · exact Bool.noConfusion (good.symm.trans broken)

/-- The socket takes the next bytes of the batch. -/
theorem Streamed.take {left : Bytes} (streamed : Streamed s left) (good : s.isBroken = false)
    (n : Nat) : Streamed { s with outbox := s.outbox ++ left.take n } (left.drop n) := by
  have same : s.outbox ++ left.take n ++ left.drop n = s.outbox ++ left := by
    rw [List.append_assoc, List.take_append_drop]
  have whole := streamed.whole good
  exact {
    ordered := by
      rw [← same] at whole
      exact (List.prefix_append _ _).trans whole
    whole := fun _ => same ▸ whole
    complete := fun connected good => same ▸ streamed.complete connected good }

/-- All that is queued becomes the batch of the only drain. -/
theorem Streamed.collect (streamed : Streamed s []) (connected : s.isConnected = true) :
    Streamed { s with sendQueue := [] } s.sendQueue.flatten where
  ordered := streamed.ordered
  whole := by
    intro good
    have complete := streamed.complete connected good
    rw [List.append_nil] at complete
    exact complete ▸ List.prefix_rfl
  complete := by
    intro connected good
    have complete := streamed.complete connected good
    rw [List.append_nil] at complete
    rw [complete]
    exact (List.append_nil _).symm

/-- What the socket has to take is the batch of the only drain. -/
theorem leftOver_of_single (single : (earlier ++ o :: later).countP isDrain ≤ 1)
    (drain : o.isDrain = true) (ops : List Operation) :
    leftOver (earlier ++ ops ++ later) = leftOver ops := by
  rw [List.countP_append, List.countP_cons_of_pos drain] at single
  have none_earlier : earlier.countP isDrain = 0 := by omega
  have none_later : later.countP isDrain = 0 := by omega
  have others {ops : List Operation} (nothing : ops.countP isDrain = 0) : leftOver ops = [] :=
    leftOver_of_isDrain fun p mem => eq_false_of_ne_true (List.countP_eq_zero.1 nothing p mem)
  rw [leftOver_append, leftOver_append, others none_earlier, others none_later, List.append_nil,
    List.nil_append]

/-- No thread starts with a batch. -/
theorem Turn.leftOver_more (turn : Turn s o t first more) : leftOver more = [] := by
  cases turn with
  | _ => rfl

theorem Turn.leftOver_first (turn : Turn s o t first more) (other : o.isDrain = false) :
    leftOver first = [] := by
  cases turn with
  | plain _ _ _ after => exact leftOver_of_isPlain after
  | report _ _ after => exact leftOver_of_isPlain after
  | collect | stop | begin | miss | write | written => contradiction
  | interrupted | failed | complete | clearPending => contradiction
  | _ => rfl

/-- What is none of a drain leaves the batch alone. -/
theorem Streamed.aside {left : Bytes} (streamed : Streamed s left)
    (closed : Closed s (earlier ++ o :: later)) (other : o.isDrain = false)
    (turn : Turn s o t first more) : Streamed t left := by
  have here : o ∈ earlier ++ o :: later := List.mem_append_right _ List.mem_cons_self
  cases turn with
  | plain | ask | startClosing => exact streamed
  | enqueue segments => exact streamed.accept segments _
  | wake segments => exact streamed.accept segments _
  | disconnect => exact ⟨streamed.ordered, streamed.whole, fun gone => Bool.noConfusion gone⟩
  | cancel => exact ⟨streamed.ordered, streamed.whole, streamed.complete⟩
  | report => exact ⟨streamed.ordered, streamed.whole, streamed.complete⟩
  | takeWriter => exact ⟨streamed.ordered, streamed.whole, streamed.complete⟩
  | clearQueue =>
      exact streamed.lose List.prefix_rfl (.inl (closed.closing _ here rfl)) _ _
  | _ => contradiction

/-- What is one of a drain moves the bytes on: from the queue to its batch, and from there to the
socket. -/
theorem Streamed.drain (streamed : Streamed s o.left.flatten)
    (closed : Closed s (earlier ++ o :: later)) (drain : o.isDrain = true)
    (turn : Turn s o t first more) : Streamed t (leftOver first) := by
  have here : o ∈ earlier ++ o :: later := List.mem_append_right _ List.mem_cons_self
  cases turn with
  | collect connected =>
      rw [leftOver_singleton]
      exact streamed.collect connected
  | stop idle =>
      rcases idle with empty | gone
      · exact ⟨streamed.ordered, streamed.whole, empty ▸ streamed.complete⟩
      · exact streamed.lose List.prefix_rfl (.inl gone) _ _
  | begin batch =>
      rw [leftOver_singleton]
      exact streamed
  | miss batch gone =>
      exact streamed.lose (List.nil_prefix) (.inl (closed.writerless gone)) _ _
  | write segments later done n good rest =>
      rw [leftOver_singleton]
      have taken := streamed.take good n
      exact rest ▸ taken
  | written segments done n good all =>
      have taken : Streamed _ (segments.flatten.drop n) := streamed.take good n
      rw [all] at taken
      exact taken
  | interrupted segments done cancelled =>
      exact streamed.lose List.nil_prefix (.inl (closed.cancelled cancelled)) _ _
  | failed segments done =>
      exact ⟨streamed.ordered, fun good => Bool.noConfusion good, fun _ good => Bool.noConfusion good⟩
  | complete n => exact ⟨streamed.ordered, streamed.whole, streamed.complete⟩
  | clearPending => exact streamed.lose List.prefix_rfl (closed.lowering here) _ _
  | plain _ _ plain => exact Bool.noConfusion (drain.symm.trans (Operation.isDrain_of_isPlain plain))
  | _ => contradiction

theorem Streamed.turn (streamed : Streamed s (leftOver (earlier ++ o :: later)))
    (closed : Closed s (earlier ++ o :: later))
    (single : (earlier ++ o :: later).countP isDrain ≤ 1) (turn : Turn s o t first more) :
    Streamed t (leftOver (earlier ++ first ++ later ++ more)) := by
  rw [leftOver_append, turn.leftOver_more, List.append_nil]
  cases drain : o.isDrain with
  | true =>
      have batch := leftOver_of_single single drain [o]
      rw [List.append_assoc, List.singleton_append, leftOver_singleton] at batch
      rw [batch] at streamed
      rw [leftOver_of_single single drain]
      exact streamed.drain closed drain turn
  | false =>
      have same : leftOver (earlier ++ first ++ later) = leftOver (earlier ++ o :: later) := by
        rw [leftOver_append, leftOver_append, turn.leftOver_first drain, List.append_nil,
          leftOver_append, leftOver_cons, Operation.left_of_isDrain drain]
        rfl
      rw [same]
      exact streamed.aside closed drain turn

/-- Every turn keeps all of it. -/
theorem Sound.turn (sound : Sound s (earlier ++ o :: later)) (turn : Turn s o t first more) :
    Sound t (earlier ++ first ++ later ++ more) := by
  have drains := sound.drains
  have counted := sound.counted
  have alive : o.isDrain = true → s.pending = true := by
    intro drain
    have here : 0 < (earlier ++ o :: later).countP isDrain :=
      List.countP_pos_iff.2 ⟨o, List.mem_append_right _ List.mem_cons_self, drain⟩
    cases pending : s.pending with
    | true => rfl
    | false =>
        rw [drains, pending] at here
        contradiction
  exact {
    drains := by
      have balance := turn.drains alive
      rw [List.countP_append, ← List.singleton_append, List.countP_append] at drains
      rw [List.countP_append, List.countP_append, List.countP_append]
      omega
    counted := by
      have balance := turn.owes
      rw [owing_append, owing_cons] at counted
      rw [owing_append, owing_append, owing_append]
      omega
    closed := sound.closed.turn turn
    queued := sound.queued.turn turn
    streamed := sound.streamed.turn sound.closed (drains ▸ Bool.toNat_le _) turn }

/-- A thread may start anything that has no part in the sending. -/
theorem Sound.append (sound : Sound s ops) (plain : ∀ p ∈ more, p.isPlain = true) :
    Sound s (ops ++ more) where
  drains := by
    rw [List.countP_append, countP_isDrain_of_isPlain plain, Nat.add_zero]
    exact sound.drains
  counted := by
    rw [owing_append, owing_of_owed fun p mem => Operation.owed_of_isPlain (plain p mem)]
    exact sound.counted
  closed := by
    refine { sound.closed with closing := fun p mem closing => ?_, lowering := fun mem => ?_ }
    · rcases List.mem_append.1 mem with old | new
      · exact sound.closed.closing p old closing
      · exact absurd closing (ne_true_of_eq_false (Operation.isClosing_of_isPlain (plain p new)))
    · rcases List.mem_append.1 mem with old | new
      · exact sound.closed.lowering old
      · exact Bool.noConfusion (plain _ new)
  queued := by
    refine { sound.queued with asked := fun segments mem => ?_ }
    rcases List.mem_append.1 mem with old | new
    · exact sound.queued.asked segments old
    · exact Bool.noConfusion (plain _ new)
  streamed := by
    rw [leftOver_append, leftOver_of_isPlain plain, List.append_nil]
    exact sound.streamed

end Outward

namespace Connection

open Outward (Sound leftOver owing)

variable {σ : Type} {handler : Handler σ} {c d : Connection σ} {sent : Bytes}

/-! ## Runs -/

theorem sound_start (s : σ) (size : Nat) :
    Sound (start s size).outward (start s size).threads.flatten where
  drains := rfl
  counted := rfl
  closed := by
    refine ⟨?_, Bool.noConfusion, Bool.noConfusion, ?_⟩
    · simp [start, Operation.isClosing]
    · simp [start]
  queued := by
    refine ⟨fun some => absurd rfl some, List.not_mem_nil, ?_⟩
    simp [start]
  streamed := ⟨List.prefix_rfl, fun _ => List.prefix_rfl, fun _ _ => rfl⟩

theorem sound_of_step? {i : Nat} {choice : Choice} (sound : Sound c.outward c.threads.flatten)
    (moves : c.step? handler i choice = some d) : Sound d.outward d.threads.flatten := by
  obtain ⟨before, o, rest, after, e, first, was, performed, rfl⟩ := step?_cases moves
  obtain ⟨more, spawned, turn⟩ := (performs_of_perform? performed).turns
  obtain ⟨ops, left⟩ := flatten_threads was (d := { e with threads := _ }) (set_threads was spawned)
  rw [ops] at sound
  rw [left]
  exact sound.turn turn

theorem sound_of_run {s : σ} {size : Nat} (run : Run handler (start s size) sent c) :
    Sound c.outward c.threads.flatten := by
  induction run with
  | refl => exact sound_start s size
  | thread run i choice moves ih => exact sound_of_step? ih moves
  | caller run a ih =>
      rw [spawn, List.flatten_append, List.flatten_singleton]
      exact ih.append fun p mem => List.mem_singleton.1 mem ▸ rfl
  | peerSends run data open_ ih => exact ih
  | peerCloses run ih => exact ih

/-- The threads that drain the send queue and have not lowered the pending flag. -/
def drains (c : Connection σ) : List (List Operation) :=
  c.threads.filter fun thread => thread.any Operation.isDrain

/-- What is sure of the sending side of a connection. -/
structure Delivers (c : Connection σ) : Prop where
  /-- The socket takes the accepted segments in their order, and nothing else. -/
  ordered : c.outbox <+: c.accepted.flatten
  /-- There is one drain while the flag is up, and none while it is down. -/
  single : c.drains.length = if c.pending then 1 else 0
  /-- What is queued has a drain. -/
  awake : c.sendQueue ≠ [] → c.pending = true
  /-- Nothing gets lost on a connection and a socket that are good. -/
  complete : c.isConnected = true → c.isBroken = false → c.pending = false →
    c.outbox = c.accepted.flatten
  filled : [] ∉ c.sendQueue
  /-- The handler is told of the bytes that are sent, batch by batch. -/
  counted : (∀ o ∈ c.threads.flatten, o.isInBatch = false) → c.reported = c.bytesSent

end Connection

end ChatHall.Session
