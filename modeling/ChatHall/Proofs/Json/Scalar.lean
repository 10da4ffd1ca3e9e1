/-
# Reading printed scalars

Every printed scalar is found at the front of what is read, and the readers for values
of one type take it from there. What follows must not go on with a number; commas and
closing brackets do not.
-/

import ChatHall.Json.Value
import ChatHall.Proofs.Json.Number

namespace ChatHall.Json

open Printer (bytes)

namespace Reader

/-- Whether a reader takes some printed characters for this, when the value is over behind
them. -/
def Reads {α : Type} (reader : Reader α) (printed : List Char) (a : α) : Prop :=
  ∀ rest, Ends rest → reader (bytes printed ++ rest) = .ok (a, rest)

theorem Reads.map {α β : Type} {reader : Reader α} {printed : List Char} {a : α}
    (reads : reader.Reads printed a) (f : α → β) :
    Reader.Reads (fun s => (reader s).map fun (a, rest) => (f a, rest)) printed (f a) := by
  intro rest ends
  show (reader _).map _ = _
  rw [reads rest ends]
  rfl

variable {b : UInt8} {s rest : Bytes}

theorem skipBlanks_of_not_isBlank (notBlank : isBlank b = false) :
    skipBlanks (b :: s) = b :: s :=
  List.dropWhile_cons_of_neg (ne_true_of_eq_false notBlank)

end Reader

/-- Whether some printed characters are read as this scalar. -/
def Prints (printed : List Char) (x : Scalar) : Prop := Reader.front.Reads printed (.scalar x)

open Reader

theorem bytes_text (s : String) (rest : Bytes) :
    bytes (Printer.text s) ++ rest =
      0x22 :: (bytes (s.toList.flatMap Printer.textChar) ++ 0x22 :: rest) := by
  have ends : bytes ['"'] = [0x22] := rfl
  show 0x22 :: (List.flatMap _ _ ++ rest) = _
  rw [List.flatMap_append]
  show 0x22 :: (bytes _ ++ bytes ['"'] ++ rest) = _
  rw [ends, List.append_assoc]
  rfl

theorem prints_text (s : String) : Prints (Printer.text s) (.text s) := by
  intro rest _
  have read := Text.read_text rest s
  rw [bytes_text, front, skipBlanks_of_not_isBlank rfl]
  show (Text.read _).map _ = _
  rw [read]
  rfl

/-- Where a digit stands, no byte stands that is no digit. -/
theorem Literal.beq_eq_false_of_isDigit {b other : UInt8} (digit : isDigit b = true)
    (notDigit : isDigit other = false) : (b == other) = false := by
  rw [beq_eq_false_iff_ne]
  rintro rfl
  rw [digit] at notDigit
  contradiction

theorem front_of_isDigit {b : UInt8} {s : Bytes} (digit : Literal.isDigit b = true) :
    front (b :: s) = (Number.read (b :: s)).map fun (n, rest) => (.scalar n.scalar, rest) := by
  have other {x : UInt8} (notDigit : Literal.isDigit x = false) : (b == x) = false :=
    Literal.beq_eq_false_of_isDigit digit notDigit
  have notBlank : isBlank b = false := by
    rw [isBlank, other rfl, other rfl, other rfl, other rfl]
    rfl
  simp [front, skipBlanks_of_not_isBlank notBlank, other (x := 0x5B) rfl, other (x := 0x7B) rfl,
    other (x := 0x22) rfl, other (x := 0x6E) rfl, other (x := 0x74) rfl, other (x := 0x66) rfl, digit]

theorem prints_natural {n : Nat} (fits : n < UInt64.size) :
    Prints (Printer.natural n) (.integer n) := by
  intro rest ends
  have read := Number.read_natural fits ends
  obtain ⟨b, later, first, digit⟩ := Literal.exists_digit_eq n
  rw [first, List.cons_append] at read ⊢
  rw [front_of_isDigit digit, read]
  rfl

theorem prints_integer {n : Int} (least : -(UInt64.size / 2 : Nat) ≤ n)
    (greatest : n < UInt64.size) : Prints (Printer.integer n) (.integer n) := by
  by_cases negative : n < 0
  · intro rest ends
    have read := Number.read_integer least greatest ends
    rw [Printer.integer, if_pos negative] at read ⊢
    show front (0x2D :: (bytes _ ++ rest)) = _
    rw [front, skipBlanks_of_not_isBlank rfl]
    show (Number.read _).map _ = _
    rw [show (0x2D :: (bytes (Printer.natural n.natAbs) ++ rest) : Bytes) =
      bytes ('-' :: Printer.natural n.natAbs) ++ rest from rfl, read]
    rfl
  · have fits : n.natAbs < UInt64.size := by omega
    have back : (n.natAbs : Int) = n := by omega
    have prints := prints_natural fits
    rw [back] at prints
    rwa [Printer.integer, if_neg negative]

theorem prints_boolean (b : Bool) : Prints (Printer.boolean b) (.boolean b) := by
  intro rest _
  cases b <;> rfl

theorem prints_null : Prints "null".toList .null := by
  intro rest _
  rfl

/-! ## Readers for one type -/

variable {printed : List Char} {x : Scalar}

theorem Prints.scalar {α : Type} {pick : Found → Except Cause α} {a : α}
    (prints : Prints printed x) (expected : String) (picks : pick (.scalar x) = .ok a) :
    (scalar expected pick).Reads printed a := by
  intro rest ends
  simp only [Reader.scalar, prints rest ends, bind, Except.bind, picks]

theorem Prints.value (prints : Prints printed x) (depth : Nat) :
    (Value.read depth).Reads printed (.scalar x) := by
  intro rest ends
  cases depth <;> simp only [Value.read, prints rest ends, bind, Except.bind]

theorem reads_text (s : String) : Reader.text.Reads (Printer.text s) s :=
  (prints_text s).scalar _ rfl

theorem integer?_of_within (expected : String) {least greatest n : Int} (low : least ≤ n)
    (high : n ≤ greatest) :
    Found.integer? expected least greatest (.scalar (.integer n)) = .ok n := by
  simp [Found.integer?, low, high]

theorem natural_le (n : UInt64) : (n.toNat : Int) ≤ UInt64.size - 1 := by
  have small := n.toNat_lt
  have size : (UInt64.size : Int) = 2 ^ 64 := rfl
  omega

theorem reads_natural (expected : String) (n : UInt64) :
    (natural expected).Reads (Printer.natural n.toNat) n := by
  have picks := integer?_of_within expected (Int.natCast_nonneg n.toNat) (natural_le n)
  have reads := ((prints_natural n.toNat_lt).scalar expected picks).map fun n => UInt64.ofNat n.toNat
  rwa [Int.toNat_natCast, UInt64.ofNat_toNat] at reads

theorem reads_integer (expected : String) (n : Int64) :
    (integer expected).Reads (Printer.integer n.toInt) n := by
  have least := n.le_toInt
  have greatest := n.toInt_lt
  have half : ((UInt64.size / 2 : Nat) : Int) = 2 ^ 63 := rfl
  have size : (UInt64.size : Int) = 2 ^ 64 := rfl
  have prints := prints_integer (n := n.toInt) (by omega) (by omega)
  have picks := integer?_of_within expected n.minValue_le_toInt n.toInt_le
  have reads := (prints.scalar expected picks).map Int64.ofInt
  rwa [Int64.ofInt_toInt] at reads

theorem reads_naturalOrNull (expected : String) (n : Option UInt64) :
    (naturalOrNull expected).Reads (Printer.naturalOrNull (n.map UInt64.toNat)) n := by
  cases n with
  | none => exact prints_null.scalar expected rfl
  | some n =>
      have found := integer?_of_within expected (Int.natCast_nonneg n.toNat) (natural_le n)
      refine (prints_natural n.toNat_lt).scalar expected ?_
      show (Found.integer? _ _ _ _).map _ = _
      rw [found]
      show Except.ok (some (UInt64.ofNat (n.toNat : Int).toNat)) = _
      rw [Int.toNat_natCast, UInt64.ofNat_toNat]

theorem Found.name?_of_lookup {α : Type} {names : List (String × α)} {name : String} {a : α}
    (known : names.lookup name = some a) : Found.name? names (.scalar (.text name)) = .ok a := by
  have read : Found.text? "variant identifier" (.scalar (.text name)) = .ok name := rfl
  rw [Found.name?, read]
  dsimp only [bind, Except.bind]
  rw [known]

/-- A printed name is read as what it stands for. -/
theorem reads_choice {α : Type} {names : List (String × α)} {name : String} {a : α}
    (known : names.lookup name = some a) : (choice names).Reads (Printer.text name) a := by
  intro rest ends
  have read := (prints_text name).scalar "variant identifier" (Found.name?_of_lookup known) rest ends
  rw [bytes_text] at read ⊢
  rw [choice, skipBlanks_of_not_isBlank rfl]
  exact read

end ChatHall.Json
