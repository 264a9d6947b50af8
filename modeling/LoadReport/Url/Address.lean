/-!
# Numeric addresses

The written forms of IPv4 and IPv6 addresses, as predicates on characters.

An IPv4 address is four decimal numbers up to 255 without leading zeros,
separated by points. An IPv6 address is eight groups of one to four
hexadecimal digits, separated by colons, where

- the last two groups may be written as an IPv4 address;
- one run of groups, at least one, may be left out between two colons;
- a zone may follow after a percent sign.
-/

namespace LoadReport
namespace Url

/-- One number of an IPv4 address. -/
def isOctet (digits : List Char) : Bool :=
  !digits.isEmpty && digits.all Char.isDigit && decide (digits.length ≤ 3)
    && (digits == ['0'] || digits.head? != some '0')
    && decide (Nat.ofDigitChars 10 digits 0 ≤ 255)

/-- The written form of an IPv4 address. -/
def isIPv4 (text : List Char) : Bool :=
  let octets := text.splitOn '.'
  octets.length == 4 && octets.all isOctet

def isHexDigit (c : Char) : Bool :=
  c.isDigit || ('a' ≤ c && c ≤ 'f') || ('A' ≤ c && c ≤ 'F')

/-- One group of an IPv6 address. -/
def isGroup (digits : List Char) : Bool :=
  !digits.isEmpty && digits.all isHexDigit && decide (digits.length ≤ 4)

/-- Replaces an IPv4 address at the end by two groups. -/
def expandTail (parts : List (List Char)) : Option (List (List Char)) :=
  match parts.getLast? with
  | none => some parts
  | some last =>
      if last.contains '.' then
        if isIPv4 last then some (parts.dropLast ++ [['0'], ['0']]) else none
      else
        some parts

/-- The groups on one side of the omitted run; nothing at all may stand
there. -/
def sideGroups (parts : List (List Char)) : List (List Char) :=
  if parts = [[]] then [] else parts

/-- Whether the parts between colons make an address. A part that is empty,
other than at the ends, stands for the omitted run. -/
def isGroupList (parts : List (List Char)) : Bool :=
  let inner := (parts.drop 1).dropLast
  match inner.countP List.isEmpty with
  | 0 => parts.length == 8 && parts.all isGroup
  | 1 =>
      let skipped := 1 + inner.findIdx List.isEmpty
      let high := sideGroups (parts.take skipped)
      let low := sideGroups (parts.drop (skipped + 1))
      decide (high.length + low.length ≤ 7) && high.all isGroup && low.all isGroup
  | _ => false

/-- Splits off a zone. It may not be empty, nor hold another percent
sign. -/
def dropZone (text : List Char) : Option (List Char) :=
  match text.dropWhile (· ≠ '%') with
  | [] => some text
  | _ :: zone =>
      if zone.isEmpty || zone.contains '%' then none else some (text.takeWhile (· ≠ '%'))

/-- The written form of an IPv6 address. -/
def isIPv6 (text : List Char) : Bool :=
  match dropZone text with
  | none => false
  | some address =>
      let parts := address.splitOn ':'
      if parts.length < 3 then false
      else
        match expandTail parts with
        | none => false
        | some parts => decide (parts.length ≤ 9) && isGroupList parts

end Url
end LoadReport
