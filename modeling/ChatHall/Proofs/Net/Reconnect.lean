/-
# How long a connection is tried

Attempts go on until one succeeds or there have been as many as the policy allows,
which is at least one. What is told of a series follows from its number of attempts:
the last one decides about the result, between two of them there is the delay for the
first of the two, and a handler is built for each connection that was made.
-/

import ChatHall.Net.Reconnect
import Mathlib.Data.List.Basic

namespace ChatHall.Net

variable {α : Type}

/-! ## What is asked of a series -/

namespace Attempt

def isStarted : Attempt α → Bool
  | started _ => true
  | _ => false

/-- Whether there was a connection, for which a handler is built. -/
def isConnected : Attempt α → Bool
  | refused _ => false
  | _ => true

/-- What an attempt comes to if no other one follows. -/
def result (address : String) : Attempt α → Except Error α
  | started session => .ok session
  | refused reason => .error (.connect address reason)
  | unstarted e => .error e

def shown : Attempt α → List DialEvent
  | started _ => [.connected]
  | refused reason => [.failed reason]
  | unstarted _ => []

end Attempt

def Policy.cap (p : Policy) : Nat := max p.maxAttempts 1

/-- The number that is counted in an event. -/
def DialEvent.count? : DialEvent → Option Nat
  | retrying _ attempt _ => some attempt
  | gaveUp attempts => some attempts
  | _ => none

/-- What is seen of attempt `k` and of what follows it: nothing behind a success, giving up behind
the last attempt that is allowed, and a delay behind any other. -/
def Policy.episode (p : Policy) (drawn : Nat → Nat) (outcome : Nat → Attempt α) (k : Nat) :
    List DialEvent :=
  (outcome k).shown ++
    if (outcome k).isStarted then []
    else if k + 1 = p.cap then [.gaveUp (k + 1)]
    else [.retrying (p.delay (drawn k) k) (k + 1) p.cap]

/-- What the record of a series of attempts from number `first` on says. -/
structure DialRun.Follows (address : String) (p : Policy) (drawn : Nat → Nat)
    (outcome : Nat → Attempt α) (first : Nat) (run : DialRun α) : Prop where
  some_attempt : 0 < run.attempts
  within : first + run.attempts ≤ p.cap
  /-- Nothing follows upon a success. -/
  failed : ∀ k, first ≤ k → k + 1 < first + run.attempts → (outcome k).isStarted = false
  ended : (outcome (first + run.attempts - 1)).isStarted = true ∨ first + run.attempts = p.cap
  result : run.result = (outcome (first + run.attempts - 1)).result address
  built : run.built = (List.range' first run.attempts).countP fun k => (outcome k).isConnected
  delays : run.delays = (List.range' first (run.attempts - 1)).map fun k => p.delay (drawn k) k
  events : run.events = (List.range' first run.attempts).flatMap (p.episode drawn outcome)

/-! ## Attempt by attempt -/

section Attempts

variable {address : String} {p : Policy} {drawn : Nat → Nat} {outcome : Nat → Attempt α}
variable {left first : Nat}

theorem dialFrom_of_started (started : (outcome first).isStarted = true) :
    dialFrom address p drawn outcome p.cap left first =
      ⟨(outcome first).result address, 1, (outcome first).isConnected.toNat, [],
        (outcome first).shown⟩ := by
  rw [dialFrom]
  cases h : outcome first with
  | started session => rfl
  | refused reason =>
      rw [h] at started
      contradiction
  | unstarted e =>
      rw [h] at started
      contradiction

/-- The last attempt that is allowed fails. -/
theorem dialFrom_zero_of_failed (failed : (outcome first).isStarted = false) :
    dialFrom address p drawn outcome p.cap 0 first =
      ⟨(outcome first).result address, 1, (outcome first).isConnected.toNat, [],
        (outcome first).shown ++ [.gaveUp (first + 1)]⟩ := by
  rw [dialFrom]
  cases h : outcome first with
  | started session =>
      rw [h] at failed
      contradiction
  | refused reason => rfl
  | unstarted e => rfl

/-- An attempt fails that is not the last one. -/
theorem dialFrom_succ_of_failed (failed : (outcome first).isStarted = false) :
    dialFrom address p drawn outcome p.cap (left + 1) first =
      (dialFrom address p drawn outcome p.cap left (first + 1)).after
        (outcome first).isConnected.toNat [p.delay (drawn first) first]
        ((outcome first).shown ++ [.retrying (p.delay (drawn first) first) (first + 1) p.cap]) := by
  rw [dialFrom]
  cases h : outcome first with
  | started session =>
      rw [h] at failed
      contradiction
  | refused reason => rfl
  | unstarted e => rfl

/-- A series of one attempt. -/
theorem follows_single {run : DialRun α} (attempts : run.attempts = 1) (within : first + 1 ≤ p.cap)
    (ended : (outcome first).isStarted = true ∨ first + 1 = p.cap)
    (result : run.result = (outcome first).result address)
    (built : run.built = (outcome first).isConnected.toNat) (delays : run.delays = [])
    (events : run.events = p.episode drawn outcome first) :
    run.Follows address p drawn outcome first where
  some_attempt := attempts ▸ Nat.one_pos
  within := by rwa [attempts]
  failed k low high := by
    rw [attempts] at high
    omega
  ended := by rwa [attempts, Nat.add_sub_cancel]
  result := by rwa [attempts, Nat.add_sub_cancel]
  built := by
    rw [built, attempts]
    cases h : (outcome first).isConnected <;> simp [h]
  delays := by rw [delays, attempts, Nat.sub_self, List.range'_zero, List.map_nil]
  events := by rw [events, attempts, List.range'_one, List.flatMap_singleton]

/-- A failed attempt in front of a series. -/
theorem DialRun.Follows.after {run : DialRun α}
    (h : run.Follows address p drawn outcome (first + 1))
    (failed : (outcome first).isStarted = false) :
    (run.after (outcome first).isConnected.toNat [p.delay (drawn first) first]
      ((outcome first).shown ++ [.retrying (p.delay (drawn first) first) (first + 1) p.cap])).Follows
        address p drawn outcome first := by
  have total : first + (run.attempts + 1) = first + 1 + run.attempts := by omega
  have some_attempt := h.some_attempt
  refine ⟨Nat.succ_pos _, ?_, ?_, ?_, ?_, ?_, ?_, ?_⟩
  all_goals simp only [DialRun.after, total]
  · exact h.within
  · intro k low high
    rcases Nat.eq_or_lt_of_le low with rfl | later
    · exact failed
    · exact h.failed k later high
  · exact h.ended
  · exact h.result
  · rw [h.built, List.range'_succ, List.countP_cons, Nat.add_comm]
    cases (outcome first).isConnected <;> rfl
  · obtain ⟨n, hn⟩ := Nat.exists_eq_add_of_lt some_attempt
    rw [h.delays, hn, Nat.zero_add, Nat.add_sub_cancel, Nat.add_sub_cancel, List.range'_succ,
      List.map_cons, List.singleton_append]
  · have within := h.within
    have not_last : first + 1 ≠ p.cap := by omega
    rw [h.events, List.range'_succ, List.flatMap_cons, Policy.episode, failed, if_neg not_last]
    rfl

/-- The record of a series says what has happened, whatever the number of its first attempt. -/
theorem follows_dialFrom (total : first + left + 1 = p.cap) :
    (dialFrom address p drawn outcome p.cap left first).Follows address p drawn outcome first := by
  induction left generalizing first with
  | zero =>
      have last : first + 1 = p.cap := total
      cases started : (outcome first).isStarted with
      | false =>
          rw [dialFrom_zero_of_failed started]
          refine follows_single rfl (Nat.le_of_eq last) (.inr last) rfl rfl rfl ?_
          rw [Policy.episode, started, if_pos last]
          rfl
      | true =>
          rw [dialFrom_of_started started]
          refine follows_single rfl (Nat.le_of_eq last) (.inl started) rfl rfl rfl ?_
          rw [Policy.episode, started, if_pos rfl, List.append_nil]
  | succ left ih =>
      cases started : (outcome first).isStarted with
      | false =>
          rw [dialFrom_succ_of_failed started]
          exact (ih (by omega)).after started
      | true =>
          rw [dialFrom_of_started started]
          refine follows_single rfl (by omega) (.inl started) rfl rfl rfl ?_
          rw [Policy.episode, started, if_pos rfl, List.append_nil]

end Attempts

/-! ## The whole series -/

/-- The first attempt that succeeds, if all were made. -/
structure IsFirstStart (outcome : Nat → Attempt α) (i : Nat) : Prop where
  started : (outcome i).isStarted = true
  failed : ∀ k < i, (outcome k).isStarted = false

/-- What is promised of a series of attempts. -/
structure DialRun.KeepsTo (address : String) (p : Policy) (drawn : Nat → Nat)
    (outcome : Nat → Attempt α) (run : DialRun α) : Prop where
  attempts_of_start : ∀ i, IsFirstStart outcome i → run.attempts = min (i + 1) p.cap
  attempts_of_failures : (∀ k, (outcome k).isStarted = false) → run.attempts = p.cap
  /-- The first success is the answer, if it comes in time. -/
  succeeds : ∀ i session, IsFirstStart outcome i → i < p.cap → outcome i = .started session →
    run.result = .ok session
  /-- If none does, the failure of the last attempt is. -/
  fails : (∀ k < p.cap, (outcome k).isStarted = false) →
    ∃ e, (outcome (run.attempts - 1)).result address = .error e ∧ run.result = .error e
  /-- There is a delay behind each attempt but the last, and nothing that is waited is beyond
  sixty-four bits. -/
  delays : run.delays = (List.range (run.attempts - 1)).map fun k => p.delay (drawn k) k
  sized : ∀ d ∈ run.delays, d < UInt64.size
  /-- Each attempt shows itself and what follows it, in order. -/
  events : run.events = (List.range run.attempts).flatMap (p.episode drawn outcome)
  /-- A handler is built for each connection, and for nothing else. -/
  built : run.built = (List.range run.attempts).countP fun k => (outcome k).isConnected
  /-- Failures are counted in thirty-two bits. -/
  counted : ∀ e ∈ run.events, ∀ n ∈ e.count?, n < UInt32.size

theorem Attempt.exists_result_eq_error {a : Attempt α} (failed : a.isStarted = false)
    (address : String) : ∃ e, a.result address = .error e := by
  cases a with
  | started session => contradiction
  | refused reason => exact ⟨_, rfl⟩
  | unstarted e => exact ⟨_, rfl⟩

/-- An attempt itself is not counted. -/
theorem Attempt.count?_of_mem_shown {a : Attempt α} {e : DialEvent} (mem : e ∈ a.shown) :
    e.count? = none := by
  cases a with
  | started session => exact List.mem_singleton.1 mem ▸ rfl
  | refused reason => exact List.mem_singleton.1 mem ▸ rfl
  | unstarted e => exact absurd mem List.not_mem_nil

/-- However long the delay and the jitter are, their sum wraps around. -/
theorem Policy.delay_lt (p : Policy) (drawn attempt : Nat) :
    p.delay drawn attempt < UInt64.size := by
  rw [delay]
  exact UInt64.toNat_lt_size _

/-- The counter shows the number of the attempt, which is one more than its index. -/
theorem Policy.count_of_mem_episode {p : Policy} {drawn : Nat → Nat} {outcome : Nat → Attempt α}
    {k n : Nat} {e : DialEvent} (mem : e ∈ p.episode drawn outcome k) (counts : n ∈ e.count?) :
    n = k + 1 := by
  rw [episode, List.mem_append] at mem
  rcases mem with own | behind
  · rw [Attempt.count?_of_mem_shown own] at counts
    contradiction
  · split_ifs at behind with started last
    · contradiction
    · obtain rfl := List.mem_singleton.1 behind
      exact (Option.some.inj counts).symm
    · obtain rfl := List.mem_singleton.1 behind
      exact (Option.some.inj counts).symm

section Series

variable {address : String} {p : Policy} {drawn : Nat → Nat} {outcome : Nat → Attempt α}
variable {run : DialRun α}

/-- The first success is the last attempt, or the limit comes before it. -/
theorem DialRun.Follows.attempts_eq (h : run.Follows address p drawn outcome 0) {i : Nat}
    (first : IsFirstStart outcome i) : run.attempts = min (i + 1) p.cap := by
  have some_attempt := h.some_attempt
  have within := h.within
  have before : run.attempts ≤ i + 1 := by
    by_contra beyond
    have failed := h.failed i (Nat.zero_le i) (by omega)
    rw [first.started] at failed
    contradiction
  rcases h.ended with started | last
  · have reached : ¬ 0 + run.attempts - 1 < i := fun early => by
      rw [first.failed _ early] at started
      contradiction
    omega
  · omega

theorem DialRun.Follows.attempts_eq_cap (h : run.Follows address p drawn outcome 0)
    (failed : ∀ k < p.cap, (outcome k).isStarted = false) : run.attempts = p.cap := by
  have some_attempt := h.some_attempt
  have within := h.within
  rcases h.ended with started | last
  · rw [failed _ (by omega)] at started
    contradiction
  · rwa [Nat.zero_add] at last

end Series

/-- A series of attempts keeps to its policy, whatever they come to and whatever the limit. -/
theorem keepsTo_dialWithRetry (address : String) (p : Policy) (drawn : Nat → Nat)
    (outcome : Nat → Attempt α) (limited : p.maxAttempts < UInt32.size) :
    (dialWithRetry address p drawn outcome).KeepsTo address p drawn outcome := by
  have allowed : 0 < p.cap := Nat.lt_of_lt_of_le Nat.one_pos (Nat.le_max_right _ _)
  have total : 0 + (p.cap - 1) + 1 = p.cap := by omega
  have follows : (dialWithRetry address p drawn outcome).Follows address p drawn outcome 0 :=
    follows_dialFrom total
  generalize dialWithRetry address p drawn outcome = run at follows
  have delays := follows.delays
  have events := follows.events
  have built := follows.built
  have result := follows.result
  rw [← List.range_eq_range'] at delays events built
  rw [Nat.zero_add] at result
  exact {
    attempts_of_start := fun i first => follows.attempts_eq first
    attempts_of_failures := fun failed => follows.attempts_eq_cap fun k _ => failed k
    succeeds := fun i session first early started => by
      have last : run.attempts - 1 = i := by
        have attempts := follows.attempts_eq first
        omega
      rw [result, last, started]
      rfl
    fails := fun failed => by
      have attempts := follows.attempts_eq_cap failed
      obtain ⟨e, failure⟩ := Attempt.exists_result_eq_error
        (failed (run.attempts - 1) (by omega)) address
      exact ⟨e, failure, result.trans failure⟩
    delays
    sized := fun d waited => by
      rw [delays, List.mem_map] at waited
      obtain ⟨k, -, rfl⟩ := waited
      exact p.delay_lt (drawn k) k
    events
    built
    counted := fun e shown n counts => by
      rw [events, List.mem_flatMap] at shown
      obtain ⟨k, inside, mem⟩ := shown
      have within := follows.within
      have capped : p.cap < UInt32.size := Nat.max_lt.2 ⟨limited, by decide⟩
      rw [Policy.count_of_mem_episode mem counts]
      rw [List.mem_range] at inside
      omega }

/-- Refused first, then without a session in spite of a connection, and started from then on. -/
def thirdTime : Nat → Attempt String
  | 0 => .refused .connectionRefused
  | 1 => .unstarted (.config "recv_buffer_size" "")
  | _ => .started "session"

theorem keepsTo_dialWithRetry_thirdTime :
    let p : Policy := { maxAttempts := UInt32.size - 1 }
    let run := dialWithRetry "127.0.0.1:4000" p (fun _ => 0) thirdTime
    p.maxAttempts < UInt32.size ∧ run.attempts = 3 ∧ run.result = .ok "session" ∧ run.built = 2 ∧
      run.delays = [p.delay 0 0, p.delay 0 1] := by
  intro p run
  have limited : p.maxAttempts < UInt32.size := by decide
  have keeps := keepsTo_dialWithRetry "127.0.0.1:4000" p (fun _ => 0) thirdTime limited
  have first : IsFirstStart thirdTime 2 := ⟨rfl, by decide⟩
  have attempts : run.attempts = 3 := keeps.attempts_of_start 2 first
  have built := keeps.built
  have delays := keeps.delays
  rw [attempts] at built delays
  exact ⟨limited, attempts, keeps.succeeds 2 "session" first (by decide) rfl, built, delays⟩

end ChatHall.Net
