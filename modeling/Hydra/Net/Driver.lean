import Hydra.Lib.ByteMem

/-!
# The network driver

Packets, counters and the transmit side of `kernal/net_driver.c`, with the system calls of
`kernal/syscall.c` that servers use to reach it. The driver only counts what it sends. A received
packet is what `net_receive` gives to the system call, if anything.
-/

namespace Hydra.Net
open ByteMem

/-- `struct net_packet`, without its link. -/
structure Packet where
  data : Mem
  length : UInt16

/-- `struct net_stats`. -/
structure NetStats where
  txPackets : UInt32
  rxPackets : UInt32
  txBytes : UInt32
  rxBytes : UInt32
  txErrors : UInt32
  rxErrors : UInt32

/-- C `net_send`. -/
def netSend (stats : NetStats) (len : UInt16) : Int × NetStats :=
  if 1514 < len then (-1, { stats with txErrors := stats.txErrors + 1 })
  else
    (0, { stats with
      txPackets := stats.txPackets + 1
      txBytes := stats.txBytes + UInt32.ofNat len.toNat })

/-- C `syscall_net_send`: the size is passed to the 16-bit parameter of `net_send`. -/
def syscallNetSend (stats : NetStats) (size : Int) : Int × NetStats :=
  netSend stats (UInt16.ofNat (size % 2 ^ 16).toNat)

/-- C `syscall_net_recv` with the packet that `net_receive` returns: the return value and the
buffer. -/
def syscallNetRecv (pkt : Option Packet) (buffer : Mem) (maxSize : Int) : Int × Mem :=
  match pkt with
  | none => (0, buffer)
  | some pkt =>
    let copyLen : Int := if (pkt.length.toNat : Int) < maxSize then pkt.length.toNat else maxSize
    (pkt.length.toNat, copy pkt.data copyLen.toNat buffer)

end Hydra.Net
