import SolanaRfq.Format.LittleEndian
import Mathlib.Data.Vector.Basic

/-!
# Readers over a byte cursor

A reader consumes a prefix of the unread bytes and returns a value, or fails. A reader that runs
out of bytes fails with the error `EofError.eof expected actual`, where `expected` is the position
it needed and `actual` the length of the input.

* `Cursor`: the position and the unread bytes; `Reader ε α`: a fallible cursor transformer.
* `take`, `byte`, `peek`, `word`, `failIf`, `many`: the primitives.
* `expectEnd`: fail unless every byte was read.
* `runReader`, `consumed`: run a reader on a whole byte string.
-/

namespace ByteFormat

/-- A position in a byte string, with the bytes still unread. -/
@[ext]
structure Cursor where
  pos : ℕ
  rest : List UInt8
deriving DecidableEq, Repr

/-- The cursor at the start of `bytes`. -/
def Cursor.new (bytes : List UInt8) : Cursor := ⟨0, bytes⟩

/-- The length of the whole input. -/
def Cursor.len (c : Cursor) : ℕ := c.pos + c.rest.length

/-- Error types with a value for an input that ended too early. -/
class EofError (ε : Type) where
  eof : (expected actual : ℕ) → ε

/-- Fallible cursor transformers. -/
abbrev Reader (ε α : Type) : Type := StateT Cursor (Except ε) α

variable {ε α β : Type}

/-- Fail with `e` when `p` holds. -/
def failIf (p : Prop) [Decidable p] (e : ε) : Reader ε Unit := if p then throw e else pure ()

/-- Fail with `e` unless every byte was read. -/
def expectEnd (e : ε) : Reader ε Unit := fun c =>
  if c.rest = [] then .ok ((), c) else .error e

section Eof

variable [EofError ε]

/-- Read `n` bytes. -/
def take (n : ℕ) : Reader ε (List UInt8) := fun c =>
  if n ≤ c.rest.length then .ok (c.rest.take n, ⟨c.pos + n, c.rest.drop n⟩)
  else .error (EofError.eof (c.pos + n) c.len)

/-- Read one byte. -/
def byte : Reader ε UInt8 := fun c =>
  match c.rest with
  | [] => .error (EofError.eof (c.pos + 1) c.len)
  | b :: rest => .ok (b, ⟨c.pos + 1, rest⟩)

/-- Look at the next byte. -/
def peek : Reader ε UInt8 := fun c =>
  match c.rest with
  | [] => .error (EofError.eof (c.pos + 1) c.len)
  | b :: _ => .ok (b, c)

/-- Read `n` bytes into a fixed-size array. -/
def array (n : ℕ) : Reader ε (List.Vector UInt8 n) := fun c =>
  if h : n ≤ c.rest.length then
    .ok (⟨c.rest.take n, List.length_take_of_le h⟩, ⟨c.pos + n, c.rest.drop n⟩)
  else .error (EofError.eof (c.pos + n) c.len)

/-- Read an `n`-byte little-endian number and convert it. -/
def word (n : ℕ) (f : ℕ → α) : Reader ε α := do
  let w ← take n
  return f (ofLE w)

end Eof

/-- Run `r` for each of `n` turns of a loop, collecting the results. -/
def many (r : Reader ε α) : ℕ → Reader ε (List α)
  | 0 => return []
  | n + 1 => do
    let a ← r
    let as ← many r n
    return a :: as

/-- Run a reader on a whole byte string, discarding the final cursor. -/
def runReader (r : Reader ε α) (bytes : List UInt8) : Except ε α :=
  (r.run (Cursor.new bytes)).map Prod.fst

/-- Run a reader on a whole byte string, with the bytes it consumed. -/
def consumed (r : Reader ε α) (bytes : List UInt8) : Except ε (α × List UInt8) :=
  (r.run (Cursor.new bytes)).map fun p => (p.1, bytes.take p.2.pos)

end ByteFormat
