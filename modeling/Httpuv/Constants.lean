import Mathlib.Algebra.Group.Nat.Defs
import Mathlib.Data.List.Basic

/-! Constants and small types shared by the HTTP and WebSocket halves. -/
namespace Httpuv

/-- Contents of a buffer, of a `std::string` or of a `std::vector<char>`. -/
abbrev Bytes := List UInt8

/-- The bytes of an ASCII literal of the source. -/
def ascii (literal : String) : Bytes :=
  literal.toList.map (fun c => c.toNat.toUInt8)

inductive Opcode where
  | continuation
  | text
  | binary
  | close
  | ping
  | pong
  | reserved
  deriving DecidableEq, Repr

/-- Maximum possible byte length for a WebSocket header. -/
def maxHeaderBytes : Nat := 14

inductive WSParseState where
  | inHeader
  | inPayload
  deriving DecidableEq, Repr

/-- The machine the server runs on. The source asks for its byte order at run
time and lays integers out in memory accordingly. -/
class Host where
  isBigEndian : Bool

@[reducible] def littleEndianHost : Host where
  isBigEndian := false

/-- The object representation of an unsigned integer of `width` bytes. -/
def memoryBytes [Host] (width value : Nat) : Bytes :=
  let littleEndian := (List.range width).map (fun i => (value / 256 ^ i % 256).toUInt8)
  if Host.isBigEndian then littleEndian.reverse else littleEndian

/-- Swaps the whole byte range. -/
def swapByteOrder (range : Bytes) : Bytes := range.reverse

/-- `tolower` in the C locale. -/
def tolower (b : UInt8) : UInt8 :=
  if 65 ≤ b ∧ b ≤ 90 then b + 32 else b

/-- What `strcasecmp(a.c_str(), b.c_str()) == 0` compares: a C string ends at
its first NUL, and letters are compared without their case. -/
def caseFold (s : Bytes) : Bytes :=
  (s.takeWhile (· ≠ 0)).map tolower

def strcaseEq (a b : Bytes) : Bool := caseFold a == caseFold b

/-- The `std::map` with `compare_ci`: at most one entry for each name, where
names are the same when neither is smaller than the other. -/
abbrev RequestHeaders := List (Bytes × Bytes)

abbrev ResponseHeaders := List (Bytes × Bytes)

namespace RequestHeaders

def find (headers : RequestHeaders) (name : Bytes) : Option Bytes :=
  (List.find? (fun entry => strcaseEq entry.1 name) headers).map Prod.snd

def has (headers : RequestHeaders) (name : Bytes) : Bool := (find headers name).isSome

/-- Assignment through `operator[]`: the entry of an existing name keeps its
key and place, a new name is inserted. -/
def assign (headers : RequestHeaders) (name value : Bytes) : RequestHeaders :=
  if has headers name then
    headers.map (fun entry => if strcaseEq entry.1 name then (entry.1, value) else entry)
  else headers ++ [(name, value)]

end RequestHeaders

end Httpuv
