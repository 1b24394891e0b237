import Cpe464.Chat.ServerCore

/-!
The chat client, `cclient.cpp`. Its functions are cut at the calls of `recv`: a `Mode` says
which call the client waits in, and a `Turn` is what it does from one call to the next.
-/

namespace Chat

open Bytes

abbrev maxMessageSize : Nat := 1000

/-- Where the client is: in `confirm_handle`, `communicate`, `request_list_length`,
`request_handle` within the loop of `list_handles`, or `janitor`; or how it has ended. -/
inductive Mode
  | confirmHandle
  | communicate
  | requestListLength
  | requestHandle (index length : Int)
  | janitor
  | closed
  | failed (exception : Exception)
deriving DecidableEq

structure Client where
  handle : Handle
  sequenceNumber : Int
  mode : Mode
deriving DecidableEq

inductive Output
  | message (sender text : List UInt8)
  | unknownHandle (handle : List UInt8)
  | handle (bytes : List UInt8)
deriving DecidableEq

structure Turn where
  client : Client
  sends : List (List UInt8)
  shown : List Output
deriving DecidableEq

def Client.enter (client : Client) (mode : Mode) (shown : List Output) : Turn :=
  ⟨{ client with mode }, [], shown⟩

def Client.fail (client : Client) (exception : Exception) : Turn :=
  client.enter (.failed exception) []

def Client.send (client : Client) (fails : Bool) (mode : Mode) (bytes : List UInt8) : Turn :=
  let mode := if fails then .failed .sendEx else mode
  ⟨{ client with mode, sequenceNumber := client.sequenceNumber + 1 }, [bytes], []⟩

def Client.fill (client : Client) (message : Message) : Message :=
  { message with
    sequenceNumber := UInt32.ofInt client.sequenceNumber
    fromHandle := client.handle }

def Client.post (client : Client) (fails : Bool) (mode : Mode) (message : Message) : Turn :=
  client.send fails mode (client.fill message).bytes

def Client.init (client : Client) (fails : Bool) : Turn :=
  client.post fails .confirmHandle { Message.new with flag := 1 }

def Client.confirmHandle (client : Client) (message : Message) : Turn :=
  if message.flag = 2 then client.enter .communicate []
  else if message.flag = 3 then client.fail .handleEx
  else client.fail .mysteryEx

/-- `process_message`. The local array has room for a handle of 100 bytes. -/
def Client.processMessage (client : Client) (message : Message) : Option Turn :=
  if message.flag = 6 then
    some (client.enter .communicate [.message message.fromHandle.bytes message.text])
  else if message.flag = 7 then
    if message.toHandle.bytes.length ≤ 100 then
      some (client.enter .communicate [.unknownHandle (cString message.toHandle.bytes)])
    else none
  else some (client.enter .communicate [])

/-- What `send_message` and `broadcast` do with the text of a line. A text that is too long is
refused in `process_user_input`; the size that is sent counts the terminating NUL. -/
def Client.sendText (client : Client) (fails : Bool) (toHandle : Handle) (text : List UInt8) :
    Turn :=
  if text.length > maxMessageSize then client.enter .communicate []
  else client.post fails .communicate
    { Message.new with flag := 6, toHandle, text := text ++ [0] }

def Client.requestListLength (client : Client) (fails : Bool) : Turn :=
  client.post fails .requestListLength { Message.new with flag := 10 }

def Client.requestHandle (client : Client) (fails : Bool) (index length : Int) : Turn :=
  client.post fails (.requestHandle index length)
    { Message.new with flag := 12, text := intText index }

def Client.listHandles (client : Client) (fails : Bool) (index length : Int) : Turn :=
  if index < length then client.requestHandle fails index length
  else client.enter .communicate []

/-- `request_list_length`, from `recv` on. The length is read before the flag is checked. -/
def Client.receiveListLength (client : Client) (fails : Bool) (message : Message) :
    Option Turn := do
  let value ← loadInt message.text
  if message.flag ≠ 11 then some (client.fail .listEx)
  else some (client.listHandles fails 0 (asInt value))

def Client.receiveHandle (client : Client) (fails : Bool) (index length : Int)
    (message : Message) : Option Turn :=
  if message.flag = 13 then do
    let handleLength ← message.text.head?
    if handleLength.toNat < message.text.length then
      let turn := client.listHandles fails (index + 1) length
      let printed := (message.text.drop 1).take handleLength.toNat
      some { turn with shown := .handle printed :: turn.shown }
    else none
  else if message.flag = 14 then some (client.listHandles fails (index + 1) length)
  else some (client.fail .listEx)

/-- `janitor`, up to `recv`. The message is packed before its sequence number is set. -/
def Client.janitor (client : Client) (fails : Bool) : Turn :=
  client.send fails .janitor { Message.new with flag := 8, fromHandle := client.handle }.bytes

def Client.receiveExit (client : Client) (message : Message) : Turn :=
  if message.flag = 9 then client.enter .closed []
  else client.fail .exitEx

def Client.handleMessage (client : Client) (fails : Bool) (message : Message) : Option Turn :=
  match client.mode with
  | .confirmHandle => some (client.confirmHandle message)
  | .communicate => client.processMessage message
  | .requestListLength => client.receiveListLength fails message
  | .requestHandle index length => client.receiveHandle fails index length message
  | .janitor => some (client.receiveExit message)
  | .closed => none
  | .failed _ => none

/-- The receiving half of each function, on the bytes that `recv` returned. With the result -1,
`none` here, the message is copied from -1 bytes. -/
def Client.receive (client : Client) (fails : Bool) : Option (List UInt8) → Option Turn
  | none => none
  | some [] => some (client.fail .connectEx)
  | some bytes => do
      let message ← unpack bytes
      client.handleMessage fails message

structure Destination where
  handle : Handle
  short : handle.bytes.length ≤ 100
deriving DecidableEq

inductive Command
  | message (destination : Destination) (text : List UInt8)
  | broadcast (text : List UInt8)
  | list
  | exit
  | help
deriving DecidableEq

/-- `process_user_input`, on a line that is parsed. The command to exit ends the loop of
`communicate`, and `main` calls `janitor`. -/
def Client.processUserInput (client : Client) (fails : Bool) : Command → Turn
  | .message destination text => client.sendText fails destination.handle text
  | .broadcast text => client.sendText fails Handle.empty text
  | .list => client.requestListLength fails
  | .exit => client.janitor fails
  | .help => client.enter .communicate []

end Chat
