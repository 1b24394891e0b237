import Cpe464.Library.Transition
import Cpe464.RemoteCopy.RcopyCore
import Cpe464.RemoteCopy.ServerCore

/-!
One server child after FNAME_OK and one rcopy after FILE_OK, with the datagrams in flight
between them. Datagrams are received from the front of a channel; the network may lose,
duplicate and reorder them, and may corrupt them so that `recv_packet` notices.
-/

namespace RemoteCopy

open Bytes

structure Setup where
  file : List UInt8
  bufSize : Nat
  windowSize : Int
  serverHost : ByteOrder
  clientHost : ByteOrder
  bufSize_pos : 1 ≤ bufSize
  bufSize_le : bufSize ≤ maxPacketLength
  windowSize_pos : 1 ≤ windowSize

def Setup.numChunks (setup : Setup) : Nat :=
  (setup.file.length + setup.bufSize - 1) / setup.bufSize

def Setup.chunk (setup : Setup) (number : Nat) : List UInt8 :=
  (setup.file.drop ((number - 1) * setup.bufSize)).take setup.bufSize

def Setup.dataFrame (setup : Setup) (number : Nat) : List UInt8 :=
  frame setup.serverHost (UInt32.ofNat number) Flag.data.code (setup.chunk number)

inductive Flight
  | intact (datagram : List UInt8)
  | corrupted
deriving DecidableEq

/-- The two parties, the two channels, and what has happened: the data packets in the order
they were first sent, the blocks written by rcopy, whether `read` has returned 0, the numbers
of the RRs the server has received, and whether rcopy has accepted END_OF_FILE. -/
structure Transfer where
  server : Server
  client : ClientState
  window : Window
  toServer : List Flight
  toClient : List Flight
  sent : List (List UInt8)
  output : List (List UInt8)
  readZero : Bool
  rrReceived : List Int
  ended : Bool

inductive Direction
  | toServer
  | toClient
deriving DecidableEq

/-- The steps of the server, of rcopy and of the network. Where a function leaves a local
packet uninitialised, `stack` is what it holds. -/
inductive Event
  | serverSend (readFails arrived : Bool)
  | serverProcess (stack : Packet)
  | serverWait (arrived : Bool)
  | serverBye (packet : Packet)
  | serverReceive (stack : Packet)
  | clientReceive (stack control : Packet)
  | clientTimeout
  | lose (direction : Direction) (index : Nat)
  | duplicate (direction : Direction) (index : Nat)
  | overtake (direction : Direction) (index : Nat)
  | corrupt (direction : Direction) (index : Nat)

/-- `recv_packet` on the datagram at the front of a channel. -/
def receive (host : ByteOrder) (stack : Packet) : List Flight → Option ((Int × Packet) × List Flight)
  | [] => none
  | .corrupted :: rest => some ((crcError, stack), rest)
  | .intact datagram :: rest => do
      let received ← recvPacket host stack datagram
      some (received, rest)

def readFile (setup : Setup) (readFails : Bool) (offset : Nat) : Option (List UInt8) :=
  if readFails then none else some ((setup.file.drop offset).take setup.bufSize)

def perform (host : ByteOrder) (control : Packet) :
    List ClientAction → Option (List (List UInt8) × List Flight)
  | [] => some ([], [])
  | action :: rest => do
      let (written, datagrams) ← perform host control rest
      match action with
      | .write payload length => some (payload.bytes.take length.toNat :: written, datagrams)
      | .rr seqNum =>
          let datagram ← sendRr host control seqNum
          some (written, .intact datagram :: datagrams)
      | .srej seqNum =>
          let datagram ← sendSrej host control seqNum
          some (written, .intact datagram :: datagrams)

def afterServer (transfer : Transfer) (toServer : List Flight) (step : ServerStep) : Transfer :=
  { transfer with
    server := step.1
    toServer
    toClient := transfer.toClient ++ step.2.map .intact }

def serverSend (setup : Setup) (readFails arrived : Bool) (transfer : Transfer) :
    Option Transfer := do
  let server := transfer.server
  let chunk := readFile setup readFails server.offset
  let step ← sendData setup.serverHost chunk arrived server
  some { afterServer transfer transfer.toServer step with
    sent := transfer.sent ++ step.2
    readZero := transfer.readZero || (!isClosed server.window && chunk == some []) }

def acceptedRr (received : Int × Packet) : List Int :=
  if received.1 ≠ crcError ∧ received.2.flag = Flag.rr.code then [received.2.number] else []

def serverProcess (setup : Setup) (stack : Packet) (transfer : Transfer) : Option Transfer := do
  let (received, rest) ← receive setup.serverHost stack transfer.toServer
  let step ← process received transfer.server
  some { afterServer transfer rest step with
    rrReceived := transfer.rrReceived ++ acceptedRr received }

def serverWait (arrived : Bool) (transfer : Transfer) : Option Transfer := do
  let step ← waitOnAck arrived transfer.server
  some (afterServer transfer transfer.toServer step)

/-- `bye` up to `select_call`, which times out unless `serverReceive` comes next. -/
def serverBye (setup : Setup) (packet : Packet) (transfer : Transfer) : Option Transfer := do
  let step ← bye setup.serverHost packet none transfer.server
  some (afterServer transfer transfer.toServer step)

def serverReceive (setup : Setup) (stack : Packet) (transfer : Transfer) : Option Transfer := do
  let (received, rest) ← receive setup.serverHost stack transfer.toServer
  some (afterServer transfer rest (byeReceive received transfer.server, []))

def acceptsEnd (received : Int × Packet) (next : ClientState) : Bool :=
  received.1 ≠ crcError && received.2.flag == Flag.endOfFile.code && next == .done

def clientReceive (setup : Setup) (stack control : Packet) (transfer : Transfer) :
    Option Transfer := do
  let (received, rest) ← receive setup.clientHost stack transfer.toClient
  let (client, window, actions) ← clientStep transfer.window (some received) transfer.client
  let (written, datagrams) ← perform setup.clientHost control actions
  some { transfer with
    client
    window
    toClient := rest
    toServer := transfer.toServer ++ datagrams
    output := transfer.output ++ written
    ended := transfer.ended || acceptsEnd received client }

def clientTimeout (transfer : Transfer) : Option Transfer := do
  let (client, window, _) ← clientStep transfer.window none transfer.client
  some { transfer with client, window }

def disturb (event : Event) (channel : List Flight) : Option (List Flight) :=
  match event with
  | .lose _ index => if index < channel.length then some (channel.eraseIdx index) else none
  | .duplicate _ index => do
      let flight ← channel[index]?
      some (channel.insertIdx index flight)
  | .overtake _ index => do
      let flight ← channel[index + 1]?
      some ((channel.eraseIdx (index + 1)).insertIdx index flight)
  | .corrupt _ index => if index < channel.length then some (channel.set index .corrupted) else none
  | _ => none

def disturbed (direction : Direction) (event : Event) (transfer : Transfer) : Option Transfer :=
  match direction with
  | .toServer => (disturb event transfer.toServer).map ({ transfer with toServer := · })
  | .toClient => (disturb event transfer.toClient).map ({ transfer with toClient := · })

/-- A party only takes the steps of the state it is in. What `select_call` of `send_data` reports
may arrive behind the send. `bye` receives only behind a send, which its counter tells. -/
def step (setup : Setup) (event : Event) (transfer : Transfer) : Option Transfer :=
  match event with
  | .serverSend readFails arrived =>
      if transfer.server.state = .sendData then serverSend setup readFails arrived transfer
      else none
  | .serverProcess stack =>
      if transfer.server.state = .process then serverProcess setup stack transfer else none
  | .serverWait arrived =>
      if transfer.server.state = .waitOnAck ∧ (arrived → transfer.toServer ≠ []) then
        serverWait arrived transfer
      else none
  | .serverBye packet =>
      if transfer.server.state = .bye then serverBye setup packet transfer else none
  | .serverReceive stack =>
      if transfer.server.state = .bye ∧ 0 < transfer.server.byeCount then
        serverReceive setup stack transfer
      else none
  | .clientReceive stack control => clientReceive setup stack control transfer
  | .clientTimeout => clientTimeout transfer
  | .lose direction _ => disturbed direction event transfer
  | .duplicate direction _ => disturbed direction event transfer
  | .overtake direction _ => disturbed direction event transfer
  | .corrupt direction _ => disturbed direction event transfer

/-- The state after FNAME_OK and FILE_OK. `process_client` sets neither `packet` nor
`eof_index`, and duplicates of FNAME_OK may still be on their way. -/
def started (setup : Setup) (packet : Packet) (eofIndex : Int) (duplicates : Nat) : Transfer where
  server := {
    state := .sendData
    window := initWindow setup.windowSize
    packet
    offset := 0
    eofIndex
    waitCount := 0
    byeCount := 0 }
  client := .recvData
  window := initWindow setup.windowSize
  toServer := []
  toClient := List.replicate duplicates (.intact (frame setup.serverHost 0 Flag.fnameOk.code []))
  sent := []
  output := []
  readZero := false
  rrReceived := []
  ended := false

def Initial (setup : Setup) (transfer : Transfer) : Prop :=
  ∃ packet eofIndex duplicates, transfer = started setup packet eofIndex duplicates

end RemoteCopy
