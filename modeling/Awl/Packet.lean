import Awl.NetIP

/-!
Packets and their buffers.

`Packet`, `Src` and `Dst` are slices of the packet's own buffer. `Packet` always starts at
`tunPacketOffset`, so its length is enough to know it; `Src` and `Dst` are kept as an offset
and a length. `CopyTo` leaves the copy's `Src` and `Dst` pointing at the original's buffer,
which holds the same bytes at that moment; nothing reads them through the copy.
-/

namespace Awl

open NetIP

def interfaceMTU : ℕ := 3500
def maxContentSize : ℕ := interfaceMTU + 100
def tunPacketOffset : ℕ := 14

/-- A slice of a packet's buffer; the empty one is `nil`. -/
structure Slice where
  off : ℕ := 0
  len : ℕ := 0
  deriving DecidableEq

structure Packet where
  buffer : List UInt8
  length_buffer : buffer.length = maxContentSize
  /-- the length of `Packet`, which starts at `tunPacketOffset` -/
  len : ℕ
  src : Slice
  dst : Slice
  isIPv6 : Bool
  ipProtocol : UInt8
  deriving DecidableEq

namespace Packet

/-- `new(Packet)`. -/
def new : Packet where
  buffer := List.replicate maxContentSize 0
  length_buffer := List.length_replicate
  len := 0
  src := {}
  dst := {}
  isIPv6 := false
  ipProtocol := 0

def slice (p : Packet) (s : Slice) : List UInt8 := (p.buffer.drop s.off).take s.len

/-- The bytes of `Packet`. -/
def content (p : Packet) : List UInt8 := p.slice ⟨tunPacketOffset, p.len⟩

def dstIP (p : Packet) : IP := p.slice p.dst

def srcIP (p : Packet) : IP := p.slice p.src

def clear (p : Packet) : Packet :=
  { p with len := 0, src := {}, dst := {}, isIPv6 := false, ipProtocol := 0 }

/-- `Parse`: the packet with its addresses set, `none` when it is rejected. -/
def parse (p : Packet) : Option Packet :=
  match p.content with
  | [] => none
  | b :: _ =>
    if b >>> 4 = 4 then
      if p.content.length < 20 then none
      else some { p with
        src := ⟨tunPacketOffset + 12, 4⟩
        dst := ⟨tunPacketOffset + 16, 4⟩
        isIPv6 := false
        ipProtocol := p.content.getD 9 0 }
    else if b >>> 4 = 6 then
      if p.content.length < 40 then none
      else some { p with
        src := ⟨tunPacketOffset + 8, 16⟩
        dst := ⟨tunPacketOffset + 24, 16⟩
        isIPv6 := true }
    else none

end Packet

/-- `GetIPv4BroadcastAddress`: the address with the host bits set. -/
def getIPv4BroadcastAddress (ipNet : IPNet) : IP :=
  (List.range (to4 ipNet.ip).length).map fun i => ipNet.ip.getD i 0 ||| ~~~(ipNet.mask.getD i 0)

end Awl
