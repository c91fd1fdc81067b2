import GhostBridge.Ecma.Numeric

/-!
# Addresses of the Internet protocols

`net.isIP`, and the block lists of `net.BlockList`.
-/

namespace Ecma

inductive IpFamily where
  | ipv4
  | ipv6
deriving DecidableEq

def isAddressUnit (u : UInt16) : Bool :=
  isDigit u || 0x61 ≤ u && u ≤ 0x7a || 0x41 ≤ u && u ≤ 0x5a || (ascii ":.%-").contains u

def ipv4Octet (part : Text) : Option ℕ :=
  if part.all isDigit && part ≠ [] && part.length ≤ 3 && digitsValue part < 256 &&
      (part.length == 1 || part.head? != some 0x30) then
    some (digitsValue part)
  else none

def ipv4Value (text : Text) : Option ℕ :=
  match (text.splitOn 0x2e).mapM ipv4Octet with
  | some [a, b, c, d] => some (((a * 256 + b) * 256 + c) * 256 + d)
  | _ => none

def ipv6Word (part : Text) : Option ℕ :=
  if part ≠ [] ∧ part.length ≤ 4 then
    (part.mapM digitValue?).map fun digits => digits.foldl (· * 16 + ·) 0
  else none

def ipv6Words (endsWithIpv4 : Bool) : List Text → Option (List ℕ)
  | [] => some []
  | [part] =>
    match ipv6Word part with
    | some word => some [word]
    | none => if endsWithIpv4 then (ipv4Value part).map fun n => [n / 65536, n % 65536] else none
  | part :: parts => do
    let word ← ipv6Word part
    let words ← ipv6Words endsWithIpv4 parts
    pure (word :: words)

def splitAtDoubleColon : Text → Option (Text × Text)
  | 0x3a :: 0x3a :: rest => some ([], rest)
  | u :: rest => (splitAtDoubleColon rest).map fun halves => (u :: halves.1, halves.2)
  | [] => none

private def partsOf (half : Text) : List Text := if half.isEmpty then [] else half.splitOn 0x3a

def ipv6AllWords (address : Text) : Option (List ℕ) :=
  match splitAtDoubleColon address with
  | none => (ipv6Words true (partsOf address)).filter (·.length == 8)
  | some (left, right) => do
    let before ← ipv6Words false (partsOf left)
    let behind ← ipv6Words true (partsOf right)
    if before.length + behind.length ≤ 7 then
      some (before ++ List.replicate (8 - before.length - behind.length) 0 ++ behind)
    else none

/-- The zone, `%` and a name, does not belong to the number. -/
def ipv6Value (text : Text) : Option ℕ :=
  let zone := text.dropWhile (· != 0x25)
  if zone = [0x25] ∨ 0x25 ∈ zone.tail then none
  else (ipv6AllWords (text.takeWhile (· != 0x25))).map fun words => words.foldl (· * 65536 + ·) 0

/-- `net.isIP(text)`, with `none` for 0. -/
def isIP (text : Text) : Option IpFamily :=
  if !text.all isAddressUnit then none
  else if (ipv4Value text).isSome then some .ipv4
  else if (ipv6Value text).isSome then some .ipv6
  else none

theorem isIP_units {text : Text} (h : isIP text ≠ none) : ∀ u ∈ text, isAddressUnit u = true := by
  unfold isIP at h
  split at h
  · exact absurd rfl h
  next hunits =>
    intro u hu
    have hall : text.all isAddressUnit = true := by simpa using hunits
    exact List.all_eq_true.mp hall u hu

/-- A network, and the number of bits in front that its addresses share. -/
structure Subnet where
  network : Text
  prefixLength : ℕ
  family : IpFamily

def ipValue (family : IpFamily) (text : Text) : Option ℕ :=
  match family with
  | .ipv4 => ipv4Value text
  | .ipv6 => ipv6Value text

def IpFamily.bits : IpFamily → ℕ
  | .ipv4 => 32
  | .ipv6 => 128

def Subnet.contains (subnet : Subnet) (address : ℕ) : Bool :=
  match ipValue subnet.family subnet.network with
  | none => false
  | some network =>
    let rest := 2 ^ (subnet.family.bits - subnet.prefixLength)
    network / rest == address / rest

/-- `blockList.check(address, family)`. An address of the sixth version that stands for one of the
fourth is looked up as both. -/
def checkBlockList (subnets : List Subnet) (address : Text) (family : IpFamily) : Bool :=
  match ipValue family address with
  | none => false
  | some value =>
    subnets.any fun subnet =>
      match family, subnet.family with
      | .ipv4, .ipv4 | .ipv6, .ipv6 => subnet.contains value
      | .ipv6, .ipv4 => value / 2 ^ 32 == 0xffff && subnet.contains (value % 2 ^ 32)
      | .ipv4, .ipv6 => subnet.contains (0xffff * 2 ^ 32 + value)

example : isIP (ascii "::ffff:10.0.0.1") = some .ipv6 := by decide

example : isIP (ascii "10.0.0.01") = none := by decide

end Ecma
