import Cpe464.Library.Effect
import Cpe464.Chat.MessageCore

/-!
The chat server, `server.cpp`. The tables `open_sockets` and `clients` are lists of
`capacity` entries; an entry of `clients` is `none` where the pointer is NULL, and reading
such an entry as a string is undefined. `fails` says which calls of `send` return -1.
-/

namespace Chat

open Bytes Effects

abbrev bufferSize : Nat := 1024

def cString (bytes : List UInt8) : List UInt8 := bytes.takeWhile (· ≠ 0)

/-- The memory behind an entry of `clients`: the size asked of `calloc`, and what is written. -/
structure HandleBuffer where
  allocated : Nat
  bytes : List UInt8
deriving DecidableEq

def HandleBuffer.string (buffer : HandleBuffer) : List UInt8 := cString buffer.bytes

structure Server where
  openSockets : List Int
  clients : List (Option HandleBuffer)
  numOpen : Nat
  numClients : Nat
  capacity : Nat
  highestFd : Int
  sequenceNumber : UInt32
deriving DecidableEq

def setup (answeringMachine : Int) : Server where
  openSockets := List.replicate bufferSize 0
  clients := List.replicate bufferSize none
  numOpen := 0
  numClients := 0
  capacity := bufferSize
  highestFd := answeringMachine
  sequenceNumber := 0

def Server.listed (server : Server) : List Int := server.openSockets.take server.numOpen

def Server.client (server : Server) (i : Nat) : Option HandleBuffer := (server.clients[i]?).join

structure Machine where
  server : Server
  sends : List (Int × List UInt8)
deriving DecidableEq

abbrev Handler : Type → Type := Effect Machine Exception

def send (fails : Int → Bool) (fd : Int) (bytes : List UInt8) : Handler Unit := do
  modify fun machine => { machine with sends := machine.sends ++ [(fd, bytes)] }
  if fails fd then throw .sendEx else pure ()

def nextNumber : Handler UInt32 := do
  let machine ← get
  modify fun machine => { machine with
    server.sequenceNumber := machine.server.sequenceNumber + 1 }
  pure machine.server.sequenceNumber

/-! Utility functions. -/

/-- The loop of `find_by_handle` and `handle_exists` over `count` entries from `i` on. -/
def searchHandle (server : Server) (handle : List UInt8) : Nat → Nat → Option (Option Nat)
  | 0, _ => some none
  | count + 1, i => do
      let client ← server.client i
      if client.string = cString handle then some (some i)
      else searchHandle server handle count (i + 1)

def findByHandle (handle : List UInt8) : Handler Int := do
  let machine ← get
  let found ← defined (searchHandle machine.server handle machine.server.numClients 0)
  match found with
  | some i => defined machine.server.openSockets[i]?
  | none => throw .handleEx

def handleExists (handle : List UInt8) : Handler Bool := do
  let machine ← get
  let found ← defined (searchHandle machine.server handle machine.server.numClients 0)
  pure found.isSome

/-- `resize`; `memcpy` copies `capacity` bytes, not entries, of 4 and of 8 bytes each. -/
def resize (server : Server) : Server :=
  if server.numOpen + 2 = server.capacity then
    { server with
      openSockets := server.openSockets.take (server.capacity / 4) ++
        List.replicate (2 * server.capacity - server.capacity / 4) 0
      clients := server.clients.take (server.capacity / 8) ++
        List.replicate (2 * server.capacity - server.capacity / 8) none
      capacity := 2 * server.capacity }
  else server

/-! Workflow functions. -/

def answer (accepted : Int) : Handler Unit := do
  modify fun machine => { machine with server := resize machine.server }
  let machine ← get
  let server := machine.server
  if server.numOpen < server.capacity then
    modify fun machine => { machine with
      server.openSockets := server.openSockets.set server.numOpen accepted
      server.clients := server.clients.set server.numOpen (some ⟨1, [0]⟩) }
    if accepted = -1 then throw .acceptEx
    else modify fun machine => { machine with
      server.highestFd := max server.highestFd accepted
      server.numOpen := server.numOpen + 1
      server.numClients := server.numClients + 1 }
  else defined none

/-- The last index of `fd` in `open_sockets`, as the first loop of `learn_handle` finds it. -/
def lastIndex (fd : Int) : List Int → Nat → Nat → Nat
  | [], _, index => index
  | socket :: rest, i, index => lastIndex fd rest (i + 1) (if socket = fd then i else index)

/-- `learn_handle`. The first byte is read before the length is looked at. -/
def learnHandle (fd : Int) (handle : List UInt8) : Handler Unit := do
  let machine ← get
  let server := machine.server
  let index := lastIndex fd (server.openSockets.take server.numOpen) 0 0
  let first ← defined handle.head?
  if first = 0 then throw .handleEx
  else do
    let taken ← handleExists handle
    if taken then throw .handleEx
    else modify fun machine => { machine with
      server.clients := server.clients.set index (some ⟨handle.length + 1, handle ++ [0]⟩) }

/-- The loop of `broadcast` over `count` entries from `i` on. -/
def broadcastFrom (fails : Int → Bool) (sender bytes : List UInt8) : Nat → Nat → Handler Unit
  | 0, _ => pure ()
  | count + 1, i => do
      let machine ← get
      let client ← defined (machine.server.client i)
      if client.string = sender then broadcastFrom fails sender bytes count (i + 1)
      else do
        let socket ← defined machine.server.openSockets[i]?
        send fails socket bytes
        broadcastFrom fails sender bytes count (i + 1)

def broadcast (fails : Int → Bool) (message : Message) (bytes : List UInt8) : Handler Unit := do
  let machine ← get
  broadcastFrom fails (cString message.fromHandle.bytes) bytes machine.server.numOpen 0

/-- The allocator behind `calloc`: how many bytes a block has when `size` bytes are asked for. What
is written behind them belongs to others. -/
class Allocator where
  usable : Nat → Nat
  le_usable : ∀ size, size ≤ usable size

@[reducible] def roundedBlocks : Allocator where
  usable size := max 24 ((size + 23) / 16 * 16 - 8)
  le_usable size := by omega

section

variable [Allocator]

/-- The tables after the connection at `index` is closed. The string of the last entry moves
into a buffer of `strlen` bytes, one less than `strcpy` writes. -/
def Server.remove (server : Server) (index : Nat) : Option Server := do
  let last := server.numOpen - 1
  if index = last then
    some { server with
      openSockets := server.openSockets.set index 0
      clients := server.clients.set last none
      numOpen := last
      numClients := server.numClients - 1 }
  else do
    let socket ← server.openSockets[last]?
    let moved ← server.client last
    if moved.string.length < Allocator.usable moved.string.length then
      let copied := ⟨moved.string.length, moved.string ++ [0]⟩
      some { server with
        openSockets := server.openSockets.set index socket
        clients := (server.clients.set index (some copied)).set last none
        numOpen := last
        numClients := server.numClients - 1 }
    else none

/-- `close_connection`; the index is only set when the descriptor is found. -/
def closeConnection (fd : Int) : Handler Unit := do
  let machine ← get
  let server := machine.server
  let index ← defined ((server.openSockets.take server.numOpen).findIdx? (· == fd))
  let server ← defined (server.remove index)
  modify fun machine => { machine with server }

end

/-! Responses to the client. -/

/-- What the responses share: the next sequence number, `pack` and `send`. -/
def respond (fails : Int → Bool) (fd : Int) (message : Message) : Handler Unit := do
  let sequenceNumber ← nextNumber
  send fails fd { message with sequenceNumber }.bytes

def confirmHandle (fails : Int → Bool) (handle : Handle) : Handler Unit := do
  let sequenceNumber ← nextNumber
  let clientFd ← findByHandle handle.bytes
  send fails clientFd { Message.new with sequenceNumber, flag := 2, toHandle := handle }.bytes

def badHandleResponse [Allocator] (fails : Int → Bool) (fd : Int) (handle : Handle) :
    Handler Unit := do
  respond fails fd { Message.new with flag := 3, toHandle := handle }
  closeConnection fd

def listLengthResponse (fails : Int → Bool) (fd : Int) : Handler Unit := do
  let machine ← get
  respond fails fd { Message.new with flag := 11, text := intText machine.server.numOpen }

def serverHandle : Handle := ⟨[83, 101, 114, 118, 101, 114], by decide⟩

/-- `handle_request_response`. The local array has room for a handle of `MAX_HANDLE_SIZE`. -/
def handleRequestResponse (fails : Int → Bool) (fd : Int) (request : Message) :
    Handler Unit := do
  let machine ← get
  let server := machine.server
  let value ← defined (loadInt request.text)
  let index := asInt value
  if index < 0 ∨ index > server.numOpen then throw .listEx
  else do
    let client ← defined (server.client index.toNat)
    if client.string.length ≤ maxHandleSize then
      respond fails fd { Message.new with
        flag := 13
        fromHandle := serverHandle
        text := UInt8.ofNat client.string.length :: client.string }
    else defined none

def badHandleRequestResponse (fails : Int → Bool) (fd : Int) : Handler Unit :=
  respond fails fd { Message.new with flag := 14 }

def badDestinationResponse (fails : Int → Bool) (fd : Int) (handle : Handle) : Handler Unit :=
  respond fails fd { Message.new with flag := 7, toHandle := handle }

def exitResponse [Allocator] (fails : Int → Bool) (fd : Int) : Handler Unit := do
  respond fails fd { Message.new with flag := 9 }
  closeConnection fd

/-! Packet processing functions. -/

def initialPacket [Allocator] (fails : Int → Bool) (fd : Int) (message : Message) : Handler Unit :=
  tryCatch (do
    learnHandle fd message.fromHandle.bytes
    confirmHandle fails message.fromHandle) fun exception =>
      if exception = .handleEx then badHandleResponse fails fd message.fromHandle else pure ()

def messagePacket (fails : Int → Bool) (fd : Int) (message : Message) (bytes : List UInt8) :
    Handler Unit :=
  tryCatch (do
    if message.toHandle.bytes.length = 0 then broadcast fails message bytes
    else do
      let route ← findByHandle message.toHandle.bytes
      send fails route bytes) fun exception =>
        if exception = .handleEx then badDestinationResponse fails fd message.toHandle
        else throw exception

inductive Dispatch
  | initialPacket
  | messagePacket
  | exitResponse
  | listLengthResponse
  | handleRequestResponse
  | ignored
deriving DecidableEq

def dispatch (flag : UInt8) : Dispatch :=
  if flag = 1 then .initialPacket
  else if flag = 6 then .messagePacket
  else if flag = 8 then .exitResponse
  else if flag = 10 then .listLengthResponse
  else if flag = 12 then .handleRequestResponse
  else .ignored

/-- What `process_packet` does with a message and its bytes. -/
def handleMessage [Allocator] (fails : Int → Bool) (fd : Int) (message : Message)
    (bytes : List UInt8) : Handler Unit :=
  match dispatch message.flag with
  | .initialPacket => initialPacket fails fd message
  | .messagePacket => messagePacket fails fd message bytes
  | .exitResponse => exitResponse fails fd
  | .listLengthResponse => listLengthResponse fails fd
  | .handleRequestResponse =>
      tryCatch (handleRequestResponse fails fd message) fun exception =>
        if exception = .listEx then badHandleRequestResponse fails fd else throw exception
  | .ignored => pure ()

/-- `process_packet`, on the bytes that `recv` returned. With the result -1, `none` here, the
message is copied from -1 bytes. -/
def processPacket [Allocator] (fails : Int → Bool) (fd : Int) : Option (List UInt8) → Handler Unit
  | none => defined none
  | some [] => closeConnection fd
  | some bytes => do
      let message ← defined (unpack bytes)
      handleMessage fails fd message bytes

end Chat
