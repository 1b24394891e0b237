import Cpe464.RemoteCopy.WindowCore

/-!
The receiving side, `rcopy.c`, from RECV_DATA on. Every state function takes the
outcome of `select_call` and `recv_packet`, `none` being the timeout, and returns the
next state, the window and the calls it makes, in their order. The result is `none`
where a window operation is, and when the loop counter `i` overflows.
-/

namespace RemoteCopy

open Bytes

inductive ClientState
  | done
  | filename
  | recvData
  | fileOk
  | missing
  | close
deriving DecidableEq

inductive ClientAction
  | write (payload : Buffer maxPacketLength) (length : Int)
  | rr (seqNum : Int)
  | srej (seqNum : Int)
deriving DecidableEq

abbrev ClientStep := ClientState × Window × List ClientAction

def recvData (window : Window) : Option (Int × Packet) → Option ClientStep
  | none => some (.done, window, [])
  | some (dataLen, dataPacket) =>
      if dataLen = crcError then
        some (.missing, { window with middle := window.bottom }, [.srej window.bottom])
      else if dataPacket.flag = Flag.endOfFile.code then
        some (.done, window, [.rr (asInt32 (dataPacket.number + 1))])
      else if dataPacket.number = asUInt32 window.bottom then do
        let window ← slide window (asInt32 (window.bottom + 1))
        some (.recvData, window, [.write dataPacket.payload dataLen, .rr window.bottom])
      else if dataPacket.number < asUInt32 window.bottom then
        some (.recvData, window, [.rr window.bottom])
      else if dataPacket.number > asUInt32 window.top then
        some (.done, window, [])
      else do
        let window ← addToBuffer window dataPacket
        some (.missing, { window with middle := window.bottom }, [.rr window.bottom])

/-- The first loop of `missing`, over `count` numbers from `i` on. -/
def scanMissing (window : Window) : Nat → Int → Option (Window × List ClientAction)
  | 0, _ => some (window, [])
  | count + 1, i => do
      let window := { window with middle := i }
      if ← isValid window i then
        if i + 1 < 2 ^ 31 then scanMissing window count (i + 1) else none
      else if window.middle ≠ window.bottom ∧ window.middle ≠ asInt32 (window.top + 1) then
        some (window, [.srej window.middle])
      else some (window, [])

/-- The second loop of `missing`, over `count` numbers from `i` on. -/
def flushMissing (dataLen : Int) (window : Window) : Nat → Int → Option (Window × List ClientAction)
  | 0, _ => some (window, [])
  | count + 1, i =>
      if i ≤ window.top then do
        let (toWrite, window) ← removeFromBuffer window i
        let (window, writes) ← flushMissing dataLen window count (i + 1)
        some (window, .write toWrite.payload dataLen :: writes)
      else flushMissing dataLen window count (i + 1)

def allAccounted (window : Window) : Option Bool :=
  if isClosed window then some true else emptyBuffer window

def leaveMissing (window : Window) (actions : List ClientAction) : Option ClientStep := do
  if ← allAccounted window then do
    let window ← slide window window.middle
    some (.recvData, window, actions)
  else if window.middle > window.bottom then do
    let window ← slide window window.middle
    some (.missing, window, actions)
  else some (.missing, window, actions)

def storeMissing (window : Window) (dataLen : Int) (dataPacket : Packet) : Option ClientStep := do
  let window ← addToBuffer window dataPacket
  let (window, srej) ← scanMissing window
    (asInt32 (window.top + 1) - window.bottom + 1).toNat window.bottom
  let (window, writes) ← flushMissing dataLen window
    (window.middle - window.bottom).toNat window.bottom
  leaveMissing window (srej ++ writes ++ [.rr window.middle])

def missing (window : Window) : Option (Int × Packet) → Option ClientStep
  | none => some (.done, window, [])
  | some (dataLen, dataPacket) =>
      if dataLen = crcError then some (.missing, window, [])
      else if dataPacket.flag = Flag.endOfFile.code then
        if asUInt32 window.bottom = dataPacket.number then
          some (.done, window, [.rr (asInt32 (window.bottom + 1))])
        else some (.missing, window, [])
      else if isInWindow window (asInt32 dataPacket.number) then
        storeMissing window dataLen dataPacket
      else some (.missing, window, [.rr window.middle])

def clientStep (window : Window) (outcome : Option (Int × Packet)) :
    ClientState → Option ClientStep
  | .recvData => recvData window outcome
  | .missing => missing window outcome
  | _ => none

/-- `send_rr`; everything else in `rr` is what the stack holds. -/
def sendRr (host : ByteOrder) (rr : Packet) (seqNum : Int) : Option (List UInt8) :=
  sendPacket2 (construct host { rr with
    seqNum := UInt32.ofInt seqNum
    flag := Flag.rr.code
    size := UInt32.ofNat headerLength })

def sendSrej (host : ByteOrder) (srej : Packet) (seqNum : Int) : Option (List UInt8) :=
  sendPacket2 (construct host { srej with
    seqNum := UInt32.ofInt seqNum
    flag := Flag.srej.code
    size := UInt32.ofNat headerLength })

end RemoteCopy
