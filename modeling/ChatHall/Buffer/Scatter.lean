/-
# Writing many segments at once

A socket takes some of the bytes it is offered and says how many. What it took
is dropped from the front of the segments, and the rest is offered again.
-/

import ChatHall.Bytes

namespace ChatHall.Buffer.Scatter

/-- The segments without their first `n` bytes. -/
def advance : List Bytes → Nat → List Bytes
  | [], _ => []
  | s :: rest, 0 => s :: rest
  | s :: rest, n + 1 =>
    if s.length ≤ n + 1 then advance rest (n + 1 - s.length) else s.drop (n + 1) :: rest

/-- What a socket answers to an offer. -/
inductive Answer
  /-- So many bytes were taken, from the front. -/
  | took (n : Nat)
  | failed
  deriving Repr, DecidableEq

/-- How far the writing of some segments has come. -/
inductive Outcome
  /-- All was taken: `total` bytes. -/
  | written (total : Nat)
  /-- The socket took nothing of what it was offered. -/
  | stalled
  /-- The socket failed. -/
  | failed
  /-- These segments are on offer, `done` bytes were taken before. -/
  | waiting (left : List Bytes) (done : Nat)
  deriving Repr, DecidableEq

/-- Offers segments to a socket, which has taken `done` bytes before, until none is
left. There is an answer for each offer; the second part of the result is what the
socket has taken, in order. -/
def writeFrom : (done : Nat) → (answers : List Answer) → (left : List Bytes) → Outcome × Bytes
  | done, _, [] => (.written done, [])
  | done, [], left => (.waiting left done, [])
  | _, .failed :: _, _ => (.failed, [])
  | _, .took 0 :: _, _ => (.stalled, [])
  | done, .took (n + 1) :: answers, left =>
    let (outcome, later) := writeFrom (done + (n + 1)) answers (advance left (n + 1))
    (outcome, left.flatten.take (n + 1) ++ later)

def writeAll (answers : List Answer) (segments : List Bytes) : Outcome × Bytes :=
  writeFrom 0 answers segments

end ChatHall.Buffer.Scatter
