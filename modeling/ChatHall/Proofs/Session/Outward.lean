/-
# The sending side of a connection

All that sending depends on: whether the connection and its socket are still good,
what is queued, what has been accepted, and what the socket has taken. Most
operations leave all of it alone; the others are a few turns, each of which says
what becomes of it and what is left to do.
-/

import ChatHall.Proofs.Buffer.Scatter
import ChatHall.Proofs.Session.Threads
import Mathlib.Algebra.GroupWithZero.Nat

namespace ChatHall.Session

def Notice.segments : Notice → List Bytes
  | accepted segments => segments
  | _ => []

/-- The size of the batch of which a notice tells the handler. -/
def Notice.batchSize : Notice → Nat
  | called (.sent n) => n
  | _ => 0

namespace Operation

/-- Whether an operation is one of a drain that has not lowered the pending flag. -/
def isDrain : Operation → Bool
  | collect | begin _ | write .. | complete _ | clearPending => true
  | _ => false

/-- Whether an operation comes between the taking of a batch and the end of the hook for it. -/
def isInBatch : Operation → Bool
  | begin _ | write .. | complete _ | call (.sent _) => true
  | _ => false

/-- What the socket has still to take of a batch. -/
def left : Operation → List Bytes
  | begin batch => batch
  | write left _ => left
  | _ => []

/-- The size of the batch of which the handler is still to be told. -/
def owed : Operation → Nat
  | call (.sent n) => n
  | _ => 0

/-- Whether an operation is done only for a connection that is disconnected. -/
def isClosing : Operation → Bool
  | cancel | startClosing | takeWriter | clearQueue => true
  | _ => false

/-- Whether an operation has no part in the sending. -/
def isPlain : Operation → Bool
  | act _ | complain .. | prepare | await | deliver | judge _ | lock | unlock => true
  | call (.sent _) => false
  | call _ => true
  | _ => false

end Operation

/-- What of a connection concerns its sending. -/
structure Outward where
  isConnected : Bool
  isCancelled : Bool
  hasWriter : Bool
  isBroken : Bool
  pending : Bool
  sendQueue : List Bytes
  accepted : List Bytes
  outbox : Bytes
  bytesSent : Nat
  reported : Nat
  deriving Repr, DecidableEq

namespace Connection

variable {σ : Type}

/-- All segments that have been accepted, in the order in which they were queued. -/
def accepted (c : Connection σ) : List Bytes := c.notices.flatMap Notice.segments

/-- The bytes of which the handler has been told that they were sent. -/
def reported (c : Connection σ) : Nat := (c.notices.map Notice.batchSize).sum

def outward (c : Connection σ) : Outward where
  isConnected := c.isConnected
  isCancelled := c.isCancelled
  hasWriter := c.hasWriter
  isBroken := c.isBroken
  pending := c.pending
  sendQueue := c.sendQueue
  accepted := c.accepted
  outbox := c.outbox
  bytesSent := c.bytesSent
  reported := c.reported

end Connection

/-! ## Turns -/

/-- What an operation makes of the sending side, what its thread has to do in its place, and what a
thread that it starts has to do. -/
inductive Outward.Turn : Outward → Operation → Outward → List Operation → List Operation → Prop
  | plain (s : Outward) (o : Operation) (first : List Operation) (plain : o.isPlain = true)
      (after : ∀ t ∈ first, t.isPlain = true) : Turn s o s first []
  | ask (s : Outward) (a : Action) (segments : List Bytes) (filled : [] ∉ segments) :
      Turn s (.act a) s [.enqueue segments] []
  | disconnect (s : Outward) :
      Turn s (.act .disconnect) { s with isConnected := false }
        [.call .disconnected, .cancel, .startClosing] []
  /-- A drain is alive, or nothing is queued. -/
  | enqueue (s : Outward) (segments : List Bytes)
      (awake : s.pending = true ∨ s.sendQueue ++ segments = []) :
      Turn s (.enqueue segments)
        { s with sendQueue := s.sendQueue ++ segments, accepted := s.accepted ++ segments } [] []
  | wake (s : Outward) (segments : List Bytes) (asleep : s.pending = false) :
      Turn s (.enqueue segments)
        { s with
          pending := true
          sendQueue := s.sendQueue ++ segments
          accepted := s.accepted ++ segments } [] [.lock, .collect]
  | report (s : Outward) (n : Nat) (first : List Operation)
      (after : ∀ t ∈ first, t.isPlain = true) :
      Turn s (.call (.sent n)) { s with reported := s.reported + n } first []
  | cancel (s : Outward) : Turn s .cancel { s with isCancelled := true } [] []
  | startClosing (s : Outward) :
      Turn s .startClosing s [] [.lock, .takeWriter, .unlock, .clearQueue]
  | takeWriter (s : Outward) : Turn s .takeWriter { s with hasWriter := false } [] []
  | clearQueue (s : Outward) : Turn s .clearQueue { s with sendQueue := [] } [] []
  | collect (s : Outward) (connected : s.isConnected = true) :
      Turn s .collect { s with sendQueue := [] } [.begin s.sendQueue] []
  | stop (s : Outward) (idle : s.sendQueue = [] ∨ s.isConnected = false) :
      Turn s .collect { s with pending := false, sendQueue := [] } [.unlock] []
  | begin (s : Outward) (batch : List Bytes) : Turn s (.begin batch) s [.write batch 0] []
  | miss (s : Outward) (batch : List Bytes) (gone : s.hasWriter = false) :
      Turn s (.begin batch) s [.clearPending, .unlock] []
  | write (s : Outward) (segments later : List Bytes) (done n : Nat) (whole : s.isBroken = false)
      (rest : later.flatten = segments.flatten.drop n) :
      Turn s (.write segments done) { s with outbox := s.outbox ++ segments.flatten.take n }
        [.write later (done + n)] []
  | written (s : Outward) (segments : List Bytes) (done n : Nat) (whole : s.isBroken = false)
      (all : segments.flatten.drop n = []) :
      Turn s (.write segments done) { s with outbox := s.outbox ++ segments.flatten.take n }
        [.complete (done + n)] []
  | interrupted (s : Outward) (segments : List Bytes) (done : Nat)
      (cancelled : s.isCancelled = true) :
      Turn s (.write segments done) s [.clearPending, .unlock] []
  | failed (s : Outward) (segments : List Bytes) (done : Nat) :
      Turn s (.write segments done) { s with isBroken := true }
        [.unlock, .clearPending, .act .disconnect] []
  | complete (s : Outward) (n : Nat) :
      Turn s (.complete n) { s with bytesSent := s.bytesSent + n } [.call (.sent n), .collect] []
  | clearPending (s : Outward) :
      Turn s .clearPending { s with pending := false, sendQueue := [] } [] []

namespace Connection

variable {σ : Type} {handler : Handler σ} {c d : Connection σ} {o : Operation} {choice : Choice}
variable {first : List Operation}

theorem accepted_note (c : Connection σ) (n : Notice) :
    (c.note n).accepted = c.accepted ++ n.segments := by
  rw [accepted, note, List.flatMap_append, List.flatMap_singleton, accepted]

theorem reported_note (c : Connection σ) (n : Notice) :
    (c.note n).reported = c.reported + n.batchSize := by
  rw [reported, note, List.map_append, List.sum_append, List.map_singleton, List.sum_singleton,
    reported]

/-- A notice that tells of no bytes leaves the sending side alone. -/
theorem outward_note (c : Connection σ) {n : Notice} (segments : n.segments = [])
    (batchSize : n.batchSize = 0) : (c.note n).outward = c.outward := by
  have accepted := accepted_note c n
  have reported := reported_note c n
  rw [segments, List.append_nil] at accepted
  rw [batchSize, Nat.add_zero] at reported
  rw [outward, accepted, reported]
  rfl

theorem outward_endLoop (c : Connection σ) (e : Ending) : (c.endLoop e).1.outward = c.outward := by
  rw [endLoop]
  split <;> rfl

/-- An operation is a turn of the sending side. -/
def Turns (c : Connection σ) (o : Operation) (result : Connection σ × List Operation) : Prop :=
  ∃ more, result.1.threads = c.threads ++ more ∧
    Outward.Turn c.outward o result.1.outward result.2 more.flatten

theorem turns_spawn {s : Outward} {thread : List Operation}
    (threads : d.threads = c.threads ++ [thread]) (outward : d.outward = s)
    (turn : Outward.Turn c.outward o s first thread) : Turns c o (d, first) := by
  refine ⟨[thread], threads, ?_⟩
  rw [outward, List.flatten_singleton]
  exact turn

/-- An operation that starts no thread. -/
theorem turns_alone {s : Outward} (threads : d.threads = c.threads) (outward : d.outward = s)
    (turn : Outward.Turn c.outward o s first []) : Turns c o (d, first) := by
  refine ⟨[], threads.trans (List.append_nil _).symm, ?_⟩
  rw [outward, List.flatten_nil]
  exact turn

theorem turns_plain (plain : o.isPlain = true) (threads : d.threads = c.threads)
    (outward : d.outward = c.outward) (after : ∀ t ∈ first, t.isPlain = true) :
    Turns c o (d, first) :=
  turns_alone threads outward (.plain _ o first plain after)

theorem isPlain_acts (actions : List Action) :
    ∀ t ∈ actions.map Operation.act, t.isPlain = true := by
  intro t mem
  obtain ⟨a, -, rfl⟩ := List.mem_map.1 mem
  rfl

theorem turns_act (c : Connection σ) (a : Action) : Turns c (.act a) (c.act a) := by
  have nothing : ∀ t ∈ ([] : List Operation), t.isPlain = true := fun _ mem => nomatch mem
  cases a with
  | send segment =>
      rw [act]
      split
      · exact turns_plain rfl rfl (outward_note c rfl rfl) nothing
      · split
        · exact turns_plain rfl rfl (outward_note c rfl rfl) nothing
        · next filled =>
            refine turns_alone rfl rfl (.ask _ _ _ fun mem => filled ?_)
            rw [← List.mem_singleton.1 mem]
            rfl
  | sendMany segments =>
      rw [act]
      split
      · exact turns_plain rfl rfl (outward_note c rfl rfl) nothing
      · refine turns_alone rfl rfl (.ask _ _ _ fun mem => ?_)
        exact Bool.noConfusion (List.mem_filter.1 mem).2
  | disconnect =>
      rw [act]
      split
      · exact turns_alone rfl rfl (.disconnect _)
      · exact turns_plain rfl rfl rfl nothing

theorem turns_enqueue (c : Connection σ) (segments : List Bytes) :
    Turns c (.enqueue segments) (c.enqueue segments, []) := by
  have accepted := accepted_note { c with sendQueue := c.sendQueue ++ segments } (.accepted segments)
  have reported := reported_note { c with sendQueue := c.sendQueue ++ segments } (.accepted segments)
  have queued : ({ c with sendQueue := c.sendQueue ++ segments }.note
      (.accepted segments)).outward = { c.outward with
        sendQueue := c.sendQueue ++ segments
        accepted := c.accepted ++ segments } := by
    rw [outward, accepted, reported]
    rfl
  rw [enqueue]
  split
  · next asleep =>
      rw [Bool.and_eq_true, Bool.not_eq_true'] at asleep
      have raised := congrArg (fun s : Outward => { s with pending := true }) queued
      exact turns_spawn rfl raised (.wake _ segments asleep.1)
  · next awake =>
      rw [Bool.and_eq_true, Bool.not_eq_true', Bool.not_eq_true', not_and_or, Bool.not_eq_false,
        Bool.not_eq_false, List.isEmpty_iff] at awake
      exact turns_alone rfl queued (.enqueue _ segments awake)

theorem turns_call (c : Connection σ) (h : Hook) : Turns c (.call h) (c.call handler h) := by
  have after : ∀ t ∈ (c.call handler h).2, t.isPlain = true := by
    intro t mem
    rw [call.eq_def] at mem
    rcases List.mem_append.1 mem with acts | complains
    · exact isPlain_acts _ t acts
    · split at complains
      · rw [List.mem_singleton.1 complains]
        rfl
      · contradiction
  have noted : ((c.call handler h).1).outward = (c.note (.called h)).outward := rfl
  cases h with
  | connected => exact turns_plain rfl rfl (noted.trans (outward_note c rfl rfl)) after
  | disconnected => exact turns_plain rfl rfl (noted.trans (outward_note c rfl rfl)) after
  | sent n =>
      have accepted := accepted_note c (.called (.sent n))
      have reported := reported_note c (.called (.sent n))
      have told : (c.note (.called (.sent n))).outward =
          { c.outward with reported := c.reported + n } := by
        rw [outward, accepted, reported]
        exact congrArg (fun a => { c.outward with accepted := a, reported := c.reported + n })
          (List.append_nil c.accepted)
      exact turns_alone rfl (noted.trans told) (.report _ n _ after)

theorem turns_endLoop (c : Connection σ) (plain : o.isPlain = true) (e : Ending) :
    Turns c o (c.endLoop e) := by
  have asks : ∀ t ∈ [Operation.act .disconnect], t.isPlain = true := by decide
  exact turns_plain plain (threads_endLoop c e) (outward_endLoop c e) asks

/-- Every operation is a turn of the sending side. -/
theorem Performs.turns {result : Connection σ × List Operation}
    (performs : Performs handler c o result) : Turns c o result := by
  have nothing : ∀ t ∈ ([] : List Operation), t.isPlain = true := fun _ mem => nomatch mem
  cases performs with
  | act a => exact turns_act c a
  | enqueue segments => exact turns_enqueue c segments
  | call h => exact turns_call c h
  | cancel => exact turns_alone rfl rfl (.cancel _)
  | startClosing => exact turns_spawn rfl rfl (.startClosing _)
  | takeWriter => exact turns_alone rfl rfl (.takeWriter _)
  | clearQueue => exact turns_alone rfl rfl (.clearQueue _)
  | collect busy connected => exact turns_alone rfl rfl (.collect _ connected)
  | retire idle => exact turns_alone rfl rfl (.stop _ idle)
  | begin batch writer => exact turns_alone rfl rfl (.begin _ batch)
  | miss batch gone => exact turns_alone rfl rfl (.miss _ batch gone)
  | write segments done n possible whole unfinished =>
      have rest := Buffer.Scatter.flatten_advance segments n
      exact turns_alone rfl rfl (.write _ segments _ done n whole rest)
  | written segments done n possible whole finished =>
      have rest := Buffer.Scatter.flatten_advance segments n
      rw [finished] at rest
      exact turns_alone rfl rfl (.written _ segments done n whole rest.symm)
  | interrupted segments done cancelled =>
      exact turns_alone rfl rfl (.interrupted _ _ _ cancelled)
  | failed segments done => exact turns_alone rfl rfl (.failed _ _ _)
  | complete n => exact turns_alone rfl rfl (.complete _ n)
  | clearPending => exact turns_alone rfl rfl (.clearPending _)
  | choke e | condemn verdict e => exact turns_endLoop c rfl e
  | refuse n e possible refused =>
      exact turns_plain rfl (threads_endLoop _ e) (outward_endLoop _ e) (by decide)
  | deliver =>
      refine turns_plain rfl rfl (outward_note _ rfl rfl) fun t mem => ?_
      rcases List.mem_append.1 mem with acts | judges
      · exact isPlain_acts _ t acts
      · rw [List.mem_singleton.1 judges]
        rfl
  | complain | lock | unlock => exact turns_plain rfl rfl rfl nothing
  | prepare | quit | read | judge => exact turns_plain rfl rfl rfl (by decide)

end Connection

end ChatHall.Session
