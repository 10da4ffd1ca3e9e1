/-
# Resuming a read

Frames can be read off a stream piece by piece. Reading what is there, keeping
the rest, and going on when more has come hands over the same packets as
reading everything at once, and a read that was stopped stays stopped. The
judge of the packets may look at all packets so far, wherever the cuts lie.
-/

import ChatHall.Proofs.Wire.Front

namespace ChatHall.Wire

variable {ε : Type}

/-- An intake as it looks behind earlier packets, latest last, that took `done` bytes. -/
def Intake.after (earlier : List Packet) (done : Nat) (i : Intake ε) : Intake ε :=
  ⟨earlier ++ i.packets, i.outcome.map (done + ·)⟩

namespace Frame

variable {limits : Limits} {accept : List Packet → Except ε Unit}

/-- Reading on after some packets is reading afresh with a judge who remembers them. -/
theorem readFrom_append_seen (new seen : List Packet) (done k : Nat) (s : Bytes) :
    readFrom limits accept (new ++ seen) (done + k) s =
      (readFrom limits (fun l => accept (l ++ seen)) new k s).after seen.reverse done := by
  fun_induction readFrom limits (fun l => accept (l ++ seen)) new k s with
  | case1 new k s hf =>
      rw [readFrom, hf]
      simp [Intake.after, Except.map]
  | case2 new k s f hf =>
      rw [readFrom, hf]
      simp [Intake.after, Except.map]
  | case3 new k s p size rest _ hf e he =>
      rw [readFrom, hf]
      rw [List.cons_append] at he
      simp [Intake.after, Except.map, he]
  | case4 new k s p size rest _ hf he ih =>
      rw [readFrom, hf]
      rw [List.cons_append] at he
      simp only [he]
      rw [Nat.add_assoc, ← List.cons_append, ih]

/-- Going on is reading afresh what is left. -/
theorem readFrom_eq_after_read (seen : List Packet) (done : Nat) (s : Bytes) :
    readFrom limits accept seen done s =
      (read limits (fun new => accept (new ++ seen)) s).after seen.reverse done :=
  readFrom_append_seen [] seen done 0 s

/-- What is left when a read has come to its end cannot be judged yet. -/
theorem front_drop_of_readFrom_ok {seen : List Packet} {done n : Nat} {s : Bytes}
    (h : (readFrom limits accept seen done s).outcome = .ok n) :
    done ≤ n ∧ n ≤ done + s.length ∧ front limits (s.drop (n - done)) = .incomplete := by
  fun_induction readFrom limits accept seen done s with
  | case1 seen done s hf =>
      cases h
      rw [Nat.sub_self]
      exact ⟨Nat.le_refl _, Nat.le_add_right .., hf⟩
  | case2 => cases h
  | case3 => cases h
  | case4 seen done s p size rest hlength hf _ ih =>
      obtain ⟨hle, hn, hfront⟩ := ih h
      have hdrop : rest.drop (n - (done + size)) = s.drop (n - done) := by
        rw [rest_eq_drop hf, List.drop_drop]
        congr 1
        omega
      refine ⟨by omega, by omega, ?_⟩
      rw [← hdrop]
      exact hfront

/-- A read that was stopped is stopped by the same bytes when more of them come. -/
theorem readFrom_append_of_error {seen : List Packet} {done : Nat} {s : Bytes} {e : Halt ε}
    (h : (readFrom limits accept seen done s).outcome = .error e) (t : Bytes) :
    readFrom limits accept seen done (s ++ t) = readFrom limits accept seen done s := by
  fun_induction readFrom limits accept seen done s with
  | case1 => cases h
  | case2 seen done s f hf =>
      rw [readFrom, front_append_of_invalid hf t]
  | case3 seen done s p size rest _ hf e he =>
      obtain ⟨_, hf'⟩ := front_append_of_packet hf t
      rw [readFrom, hf']
      simp only [he]
  | case4 seen done s p size rest _ hf he ih =>
      obtain ⟨_, hf'⟩ := front_append_of_packet hf t
      rw [readFrom, hf']
      simp only [he]
      exact ih h

/-- A read that came to its end goes on with what it left when more bytes come. -/
theorem readFrom_append_of_ok {seen packets : List Packet} {done n : Nat} {s : Bytes}
    (h : readFrom limits accept seen done s = ⟨packets, .ok n⟩) (t : Bytes) :
    readFrom limits accept seen done (s ++ t) =
      readFrom limits accept packets.reverse n (s.drop (n - done) ++ t) := by
  fun_induction readFrom limits accept seen done s with
  | case1 seen done s hf =>
      cases h
      rw [List.reverse_reverse, Nat.sub_self, List.drop_zero]
  | case2 => cases h
  | case3 => cases h
  | case4 seen done s p size rest hlength hf he ih =>
      obtain ⟨_, hf'⟩ := front_append_of_packet hf t
      have hdone := (front_drop_of_readFrom_ok (congrArg Intake.outcome h)).1
      have hdrop : rest.drop (n - (done + size)) = s.drop (n - done) := by
        rw [rest_eq_drop hf, List.drop_drop]
        congr 1
        omega
      rw [readFrom, hf']
      simp only [he]
      rw [← hdrop]
      exact ih h

/-- Reading a stream at once is reading a part of it and then, with a judge who remembers,
what that left together with the bytes that came since. -/
theorem read_append {seen : List Packet} {n : Nat} {s : Bytes}
    (h : read limits accept s = ⟨seen.reverse, .ok n⟩) (t : Bytes) :
    read limits accept (s ++ t) =
      (read limits (fun new => accept (new ++ seen)) (s.drop n ++ t)).after seen.reverse n := by
  calc
    read limits accept (s ++ t) = readFrom limits accept seen n (s.drop n ++ t) := by
      have resumed := readFrom_append_of_ok h t
      rw [List.reverse_reverse, Nat.sub_zero] at resumed
      exact resumed
    _ = _ := readFrom_eq_after_read seen n (s.drop n ++ t)

end Frame

end ChatHall.Wire
