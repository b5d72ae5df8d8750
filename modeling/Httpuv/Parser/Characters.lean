import Httpuv.Constants

/-! The character classes of `http_parser` in strict mode. -/
namespace Httpuv.RequestParser

/-- A character literal of the source. -/
def chr (c : Char) : UInt8 := c.toNat.toUInt8

def CR : UInt8 := 13

def LF : UInt8 := 10

/-- `LOWER` -/
def lower (c : UInt8) : UInt8 := c ||| 0x20

def isAlpha (c : UInt8) : Bool := chr 'a' ≤ lower c && lower c ≤ chr 'z'

def isNum (c : UInt8) : Bool := chr '0' ≤ c && c ≤ chr '9'

def isAlphanum (c : UInt8) : Bool := isAlpha c || isNum c

def isMark (c : UInt8) : Bool := (ascii "-_.!~*'()").contains c

def isUserinfoChar (c : UInt8) : Bool :=
  isAlphanum c || isMark c || (ascii "%;:&=+$,").contains c

/-- The table `tokens`: zero for a byte that is no token character, which include
the back quote, and letters in lower case. -/
def tokens (c : UInt8) : UInt8 :=
  if chr 'A' ≤ c ∧ c ≤ chr 'Z' then c + 32
  else if isNum c ∨ 96 ≤ c ∧ c ≤ chr 'z' ∨ (ascii "!#$%&'*+-.^_|~").contains c then c
  else 0

/-- `TOKEN(c)`, which is `STRICT_TOKEN(c)`, as a condition. -/
def isToken (c : UInt8) : Bool := tokens c ≠ 0

/-- The value of a hexadecimal digit. The initializer of `unhex` covers the bytes
below 128 only, so the others are digits of value zero. -/
def unhex (c : UInt8) : Option Nat :=
  if isNum c then some (c.toNat - 48)
  else if chr 'A' ≤ c ∧ c ≤ chr 'F' then some (c.toNat - 55)
  else if chr 'a' ≤ c ∧ c ≤ chr 'f' then some (c.toNat - 87)
  else if 128 ≤ c then some 0
  else none

/-- The bits of `normal_url_char`. -/
def isUrlChar (c : UInt8) : Bool := 33 ≤ c && c ≤ 126 && c ≠ chr '#' && c ≠ chr '?'

def isHeaderChar (c : UInt8) : Bool := c = CR || c = LF || c = 9 || 31 < c && c ≠ 127

/-- The digit that a byte stands for, `ch - '0'`. -/
def digit (c : UInt8) : Nat := c.toNat - 48

end Httpuv.RequestParser
