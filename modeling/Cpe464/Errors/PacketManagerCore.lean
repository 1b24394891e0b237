import Cpe464.RemoteCopy.PacketCore

/-!
The library `libcpe464` between the programs and the socket: `sendtoErr` and the events that
`PacketManager` runs on what is sent. The numbers of `drand48` come from outside.
-/

namespace Errors

open Bytes

abbrev Draw := Fin (2 ^ 48)

/-- The nearest number with 53 bits, as a `double` has, and of two of them the even one. -/
def roundDouble (value : Nat) : Nat :=
  let unit := 2 ^ (Nat.log2 value - 52)
  let quotient := value / unit
  let remainder := value % unit
  if 2 * remainder > unit ∨ 2 * remainder = unit ∧ quotient % 2 = 1 then (quotient + 1) * unit
  else quotient * unit

def Draw.pick (draw : Draw) (count : Nat) : Nat := roundDouble (count * draw.val) / 2 ^ 48

abbrev Draws := Nat → Draw

def Draws.rest (draws : Draws) : Draws := fun index => draws (index + 1)

/-- What `run` of an event returns, without the error for a pointer that is NULL. -/
inductive Outcome
  | unchanged
  | changed
  | dropped
deriving DecidableEq

structure SeqNoInfo where
  history : List UInt32
  count : List (UInt32 × UInt32)

def SeqNoInfo.report (info : SeqNoInfo) : Nat × Nat := (info.history.length, info.count.length)

def increment (seqNo : UInt32) : List (UInt32 × UInt32) → List (UInt32 × UInt32)
  | [] => [(seqNo, 1)]
  | (other, number) :: rest =>
      if other = seqNo then (other, number + 1) :: rest
      else (other, number) :: increment seqNo rest

/-- The classes behind `IMsgEvent`, with their fields. -/
inductive MsgEvent
  | errorDrop (dropAll : Bool) (dropList : List UInt32)
  | errorFlipBits
  | infoSeqNo (info : SeqNoInfo)

abbrev EventRun := MsgEvent × Outcome × List UInt8 × Draws

def seqNo (buf : List UInt8) : UInt32 :=
  ntohl (buf.getD 0 0) (buf.getD 1 0) (buf.getD 2 0) (buf.getD 3 0)

/-- `run`. There is no result when the bytes that it looks at are not there. -/
def MsgEvent.run (draws : Draws) (buf : List UInt8) (msgNo : UInt32) :
    MsgEvent → Option EventRun
  | errorDrop dropAll dropList =>
      if dropAll ∨ msgNo ∈ dropList then
        if 4 ≤ buf.length then some (errorDrop dropAll dropList, .dropped, buf, draws) else none
      else some (errorDrop dropAll dropList, .unchanged, buf, draws)
  | errorFlipBits =>
      if 4 ≤ buf.length then
        let byteToFlip := (draws 0).pick buf.length
        some (errorFlipBits, .changed, RemoteCopy.errorFlipBits buf byteToFlip, draws.rest)
      else none
  | infoSeqNo info =>
      if 4 ≤ buf.length then
        let seqNo := seqNo buf
        let info := ⟨info.history ++ [seqNo], increment seqNo info.count⟩
        some (infoSeqNo info, .unchanged, buf, draws)
      else none

/-- `runMsgEvents`, with `hasChanged` so far. An event that drops the message is the last one. -/
def runMsgEvents (msgNo : UInt32) : List MsgEvent → Draws → List UInt8 → Bool →
    Option (List MsgEvent × Outcome × List UInt8 × Draws)
  | [], draws, buf, hasChanged =>
      some ([], if hasChanged then .changed else .unchanged, buf, draws)
  | event :: rest, draws, buf, hasChanged => do
      let (event, outcome, buf, draws) ← event.run draws buf msgNo
      if outcome = .dropped then some (event :: rest, .dropped, buf, draws)
      else
        let (rest, outcome, buf, draws) ←
          runMsgEvents msgNo rest draws buf (hasChanged || outcome = .changed)
        some (event :: rest, outcome, buf, draws)

/-- The error rate is a number that is only compared with what `drand48` draws. -/
structure PacketManager (Rate : Type) where
  errorRate : Rate
  msgNo : UInt32
  constant : List MsgEvent
  chance : List MsgEvent

variable {Rate : Type} (atMost : Draw → Rate → Bool)

def runChance (manager : PacketManager Rate) (draws : Draws) (buf : List UInt8) :
    Option (List MsgEvent × Outcome × List UInt8) :=
  let randCase := (draws 0).pick manager.chance.length
  do
    let event ← manager.chance[randCase]?
    let (event, outcome, buf, _) ← event.run draws.rest buf manager.msgNo
    some (manager.chance.set randCase event, outcome, buf)

/-- `processEvents`. There is no random event on the first message. -/
def processEvents (manager : PacketManager Rate) (draws : Draws) (buf : List UInt8) :
    Option (PacketManager Rate × Outcome × List UInt8) := do
  let (constant, outcome, buf, draws) ← runMsgEvents manager.msgNo manager.constant draws buf false
  let hasDropped := outcome = .dropped
  let manager := { manager with constant }
  if manager.msgNo > 1 ∧ manager.chance ≠ [] ∧ atMost (draws 0) manager.errorRate then
    let (chance, outcome, buf) ← runChance manager draws.rest buf
    some ({ manager with chance }, if hasDropped then .dropped else outcome, buf)
  else some (manager, outcome, buf)

/-- `sendto_Err`: the manager afterwards and the datagram for `sendto`, if there is one. There is no
result when the program exits on an empty message, or looks at a byte behind the message. -/
def sendtoErr (manager : PacketManager Rate) (draws : Draws) (buf : List UInt8) :
    Option (PacketManager Rate × Option (List UInt8)) :=
  if buf.length < 7 then none
  else do
    let manager := { manager with msgNo := manager.msgNo + 1 }
    let (manager, outcome, sent) ← processEvents atMost manager draws buf
    some (manager, if outcome = .dropped then none else some sent)

def sendAll : PacketManager Rate → List (Draws × List UInt8) →
    Option (PacketManager Rate × List (Option (List UInt8)))
  | manager, [] => some (manager, [])
  | manager, (draws, buf) :: rest => do
      let (manager, sent) ← sendtoErr atMost manager draws buf
      let (manager, others) ← sendAll manager rest
      some (manager, sent :: others)

end Errors
