import Mathlib.Algebra.Order.Ring.Int
import UnemployCoin.Bytes
/-!
# Network addresses

`CNetAddr`, `CService` and `CAddress` of `netaddress.cpp` and `protocol.h`, as far as the address
manager reads them.
-/

namespace UnemployCoin

/-- An IP address as 16 bytes, an IPv4 address in its mapped form. -/
structure CNetAddr where
  ip : Bytes
  length_ip : ip.length = 16
  deriving DecidableEq

structure CService extends CNetAddr where
  port : UInt16
  deriving DecidableEq

structure CAddress extends CService where
  nServices : UInt64
  /-- When the address was last seen, in seconds. -/
  nTime : UInt32
  deriving DecidableEq

def pchIPv4 : Bytes := [0, 0, 0, 0, 0, 0, 0, 0, 0, 0, 0xff, 0xff]

def pchOnionCat : Bytes := [0xFD, 0x87, 0xD8, 0x7E, 0xEB, 0x43]

def g_internal_prefix : Bytes := [0xFD, 0x6B, 0x88, 0xC0, 0x87, 0x24]

def NET_UNROUTABLE : UInt8 := 0

def NET_IPV4 : UInt8 := 1

def NET_IPV6 : UInt8 := 2

def NET_TOR : UInt8 := 3

def NET_INTERNAL : UInt8 := 4

namespace CNetAddr

variable (addr : CNetAddr)

def getByte (n : ℕ) : UInt8 := addr.ip.at (15 - n)

/-- `memcmp(ip, pch, sizeof(pch)) == 0`. -/
def startsWith (pch : Bytes) : Bool := decide (addr.ip.take pch.length = pch)

def isIPv4 : Bool := addr.startsWith pchIPv4

def isTor : Bool := addr.startsWith pchOnionCat

def isInternal : Bool := addr.startsWith g_internal_prefix

def isRFC1918 : Bool :=
  addr.isIPv4 && (addr.getByte 3 == 10 || (addr.getByte 3 == 192 && addr.getByte 2 == 168) ||
    (addr.getByte 3 == 172 && decide (16 ≤ addr.getByte 2 ∧ addr.getByte 2 ≤ 31)))

def isRFC2544 : Bool :=
  addr.isIPv4 && addr.getByte 3 == 198 && (addr.getByte 2 == 18 || addr.getByte 2 == 19)

def isRFC3927 : Bool := addr.isIPv4 && (addr.getByte 3 == 169 && addr.getByte 2 == 254)

def isRFC6598 : Bool :=
  addr.isIPv4 && addr.getByte 3 == 100 && decide (64 ≤ addr.getByte 2 ∧ addr.getByte 2 ≤ 127)

def isRFC5737 : Bool :=
  addr.isIPv4 && ((addr.getByte 3 == 192 && addr.getByte 2 == 0 && addr.getByte 1 == 2) ||
    (addr.getByte 3 == 198 && addr.getByte 2 == 51 && addr.getByte 1 == 100) ||
    (addr.getByte 3 == 203 && addr.getByte 2 == 0 && addr.getByte 1 == 113))

def isRFC3849 : Bool := addr.startsWith [0x20, 0x01, 0x0D, 0xB8]

def isRFC3964 : Bool := addr.startsWith [0x20, 0x02]

def isRFC6052 : Bool := addr.startsWith [0, 0x64, 0xFF, 0x9B, 0, 0, 0, 0, 0, 0, 0, 0]

def isRFC4380 : Bool := addr.startsWith [0x20, 0x01, 0, 0]

def isRFC4862 : Bool := addr.startsWith [0xFE, 0x80, 0, 0, 0, 0, 0, 0]

def isRFC4193 : Bool := addr.getByte 15 &&& 0xFE == 0xFC

def isRFC6145 : Bool := addr.startsWith [0, 0, 0, 0, 0, 0, 0, 0, 0xFF, 0xFF, 0, 0]

def isRFC4843 : Bool := addr.startsWith [0x20, 0x01, 0x00] && addr.getByte 12 &&& 0xF0 == 0x10

def isLocal : Bool :=
  (addr.isIPv4 && (addr.getByte 3 == 127 || addr.getByte 3 == 0)) ||
    addr.startsWith [0, 0, 0, 0, 0, 0, 0, 0, 0, 0, 0, 0, 0, 0, 0, 1]

def isValid : Bool :=
  -- Addresses that garbage in a size field has shifted by three bytes.
  !addr.startsWith (pchIPv4.drop 3) &&
    !addr.startsWith [0, 0, 0, 0, 0, 0, 0, 0, 0, 0, 0, 0, 0, 0, 0, 0] &&
    !addr.isRFC3849 && !addr.isInternal &&
    !(addr.isIPv4 && decide (addr.ip.drop 12 = [0xff, 0xff, 0xff, 0xff])) &&
    !(addr.isIPv4 && decide (addr.ip.drop 12 = [0, 0, 0, 0]))

def isRoutable : Bool :=
  addr.isValid && !(addr.isRFC1918 || addr.isRFC2544 || addr.isRFC3927 || addr.isRFC4862 ||
    addr.isRFC6598 || addr.isRFC5737 || (addr.isRFC4193 && !addr.isTor) || addr.isRFC4843 ||
    addr.isLocal || addr.isInternal)

/-- The class, the first byte and the number of bits that `GetGroup` takes of an address. -/
def groupBits : UInt8 × ℕ × ℕ :=
  -- A local address is given the class 255 first, which is then overwritten: it is not routable.
  if addr.isInternal then (NET_INTERNAL, 6, 80)
  else if !addr.isRoutable then (NET_UNROUTABLE, 0, 0)
  else if addr.isIPv4 || addr.isRFC6145 || addr.isRFC6052 then (NET_IPV4, 12, 16)
  else if addr.isRFC3964 then (NET_IPV4, 2, 16)
  else if addr.isTor then (NET_TOR, 6, 4)
  -- For he.net, groups of 36 bits.
  else if addr.startsWith [0x20, 0x01, 0x04, 0x70] then (NET_IPV6, 0, 36)
  else (NET_IPV6, 0, 32)

/-- `GetGroup`: addresses of one group are taken to be of one owner. -/
def getGroup : Bytes :=
  -- The IPv4 address in a Teredo address is inverted.
  if !addr.isInternal && addr.isRoutable && !(addr.isIPv4 || addr.isRFC6145 || addr.isRFC6052) &&
      !addr.isRFC3964 && addr.isRFC4380 then
    [NET_IPV4, addr.getByte 3 ^^^ 0xFF, addr.getByte 2 ^^^ 0xFF]
  else
    let (nClass, nStartByte, nBits) := addr.groupBits
    let whole := addr.ip.substr nStartByte (nBits / 8)
    let part := if nBits % 8 = 0 then [] else
      [addr.ip.at (nStartByte + nBits / 8) ||| UInt8.ofNat (2 ^ (8 - nBits % 8) - 1)]
    nClass :: whole ++ part

end CNetAddr

def CService.getKey (addr : CService) : Bytes :=
  addr.ip ++ [UInt8.ofNat (addr.port.toNat / 0x100), UInt8.ofNat (addr.port.toNat % 0x100)]

end UnemployCoin
