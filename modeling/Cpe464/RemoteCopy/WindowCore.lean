import Cpe464.RemoteCopy.PacketCore

/-!
The sliding window of `window.c`: a ring of packet slots with valid flags, addressed by
packet number modulo the window size. An operation is `none` where the C code has no
defined result, that is on a division by zero, on an index outside the arrays and when the
loop counter of `empty_buffer` overflows.
-/

namespace RemoteCopy

def asInt32 (value : Int) : Int := (value + 2 ^ 31) % 2 ^ 32 - 2 ^ 31

def asUInt32 (value : Int) : Int := value % 2 ^ 32

def Packet.number (packet : Packet) : Int := (packet.seqNum.toNat : Int)

structure Window where
  bottom : Int
  middle : Int
  top : Int
  size : Int
  buffer : List Packet
  valid : List Bool
deriving DecidableEq

def initWindow (size : Int) : Window where
  bottom := 1
  middle := 1
  top := size
  size := size
  buffer := List.replicate size.toNat Packet.zero
  valid := List.replicate size.toNat false

def isClosed (window : Window) : Bool := window.middle > window.top

/-- `(seq_num - 1) % window->size` for a signed number, as an index into both arrays. -/
def slotIndex (window : Window) (seqNum : Int) : Option Nat :=
  let index := (asInt32 (seqNum - 1)).tmod window.size
  if window.size = 0 ∨ index < 0 ∨ window.buffer.length ≤ index then none else some index.toNat

/-- `(packet->seq_num - 1) % window->size`, where both operands are unsigned. -/
def packetIndex (window : Window) (packet : Packet) : Option Nat :=
  let index := asUInt32 (packet.number - 1) % asUInt32 window.size
  if window.size = 0 ∨ window.buffer.length ≤ index then none else some index.toNat

def addToBuffer (window : Window) (packet : Packet) : Option Window := do
  let index ← packetIndex window packet
  some { window with
    buffer := window.buffer.set index packet
    valid := window.valid.set index true }

def getFromBuffer (window : Window) (seqNum : Int) : Option Packet := do
  let index ← slotIndex window seqNum
  window.buffer[index]?

def removeFromBuffer (window : Window) (seqNum : Int) : Option (Packet × Window) := do
  let index ← slotIndex window seqNum
  let packet ← window.buffer[index]?
  some (packet, { window with valid := window.valid.set index false })

/-- The loop of `slide` that clears the flags of `count` numbers from `i` on. -/
def clearValid (window : Window) : Nat → Int → Option Window
  | 0, _ => some window
  | count + 1, i => do
      let index ← slotIndex window i
      clearValid { window with valid := window.valid.set index false } count (i + 1)

def slide (window : Window) (newBottom : Int) : Option Window := do
  let window ← clearValid window (newBottom - window.bottom).toNat window.bottom
  let window := { window with
    bottom := newBottom
    top := asInt32 (newBottom + window.size - 1) }
  some { window with
    middle := if window.middle < window.bottom then window.bottom else window.middle }

def isValid (window : Window) (seqNum : Int) : Option Bool := do
  let index ← slotIndex window seqNum
  window.valid[index]?

/-- The loop of `empty_buffer` over `count` numbers from `i` on. -/
def emptyFrom (window : Window) : Nat → Int → Option Bool
  | 0, _ => some true
  | count + 1, i => do
      if ← isValid window i then some false
      else if i + 1 < 2 ^ 31 then emptyFrom window count (i + 1) else none

def emptyBuffer (window : Window) : Option Bool :=
  emptyFrom window (window.top - window.bottom + 1).toNat window.bottom

def isInWindow (window : Window) (seqNum : Int) : Bool :=
  seqNum ≥ window.bottom && seqNum ≤ window.top

end RemoteCopy
