import Cpe464.RemoteCopy.WindowCore

/-!
The sending side, `server.c`, after FNAME_OK. The state functions work on the variables
of `process_client` and return the datagrams they hand to `sendtoErr`. What they get from
outside is a parameter: the bytes of `read`, the answer of `select_call`, the packet of
`recv_packet`. The result is `none` where a window operation is.
-/

namespace RemoteCopy

open Bytes

/-- `enum State` of `server.c`, and the end of the process in `exit`. -/
inductive ServerState
  | start
  | done
  | filename
  | sendData
  | process
  | waitOnAck
  | bye
  | exited
deriving DecidableEq

/-- The variables of `process_client`, the offset of `data_file`, and the counters that
`wait_on_ack` and `bye` keep. -/
structure Server where
  state : ServerState
  window : Window
  packet : Packet
  offset : Nat
  eofIndex : Int
  waitCount : Int
  byeCount : Int

abbrev ServerStep := Server × List (List UInt8)

/-- `chunk` is what `read` stored, `none` for its error. -/
def sendData (host : ByteOrder) (chunk : Option (List UInt8)) (arrived : Bool) (server : Server) :
    Option ServerStep :=
  if isClosed server.window then some ({ server with state := .waitOnAck }, [])
  else match chunk with
  | none =>
      let packet := { server.packet with
        seqNum := UInt32.ofInt server.window.middle
        size := UInt32.ofNat (headerLength - 1) }
      some ({ server with state := .done, packet }, [])
  | some data =>
      let packet := { server.packet with
        payload := server.packet.payload.store 0 data
        seqNum := UInt32.ofInt server.window.middle
        size := UInt32.ofNat (headerLength + data.length) }
      if data.length = 0 then
        some ({ server with state := .waitOnAck, packet, eofIndex := asInt32 packet.number }, [])
      else
        let packet := construct host { packet with flag := Flag.data.code }
        match sendPacket2 packet with
        | none => some ({ server with state := .exited, packet }, [])
        | some datagram => do
            let window := { server.window with middle := asInt32 (server.window.middle + 1) }
            let window ← addToBuffer window packet
            let state := if arrived then .process else .sendData
            let offset := server.offset + data.length
            some ({ server with state, window, packet, offset }, [datagram])

def process (received : Int × Packet) (server : Server) : Option ServerStep :=
  let (crcCheck, incoming) := received
  if crcCheck = crcError then some ({ server with state := .waitOnAck }, [])
  else if incoming.flag = Flag.rr.code then do
    let rr := asInt32 incoming.number
    let window ← if rr > server.window.bottom then slide server.window rr else some server.window
    let state := if rr = server.eofIndex then .bye else .sendData
    some ({ server with state, window }, [])
  else if incoming.flag = Flag.srej.code then do
    let resend ← getFromBuffer server.window (asInt32 incoming.number)
    match sendPacket2 { resend with flag := Flag.resend.code } with
    | none => some ({ server with state := .exited }, [])
    | some datagram => some ({ server with state := .sendData }, [datagram])
  else some ({ server with state := .sendData }, [])

def waitOnAck (arrived : Bool) (server : Server) : Option ServerStep :=
  let waitCount := server.waitCount + 1
  if waitCount > 10 then some ({ server with state := .done, waitCount }, [])
  else if arrived then some ({ server with state := .process, waitCount := 0 }, [])
  else do
    let packet ← getFromBuffer server.window server.window.bottom
    match sendPacket2 { packet with flag := Flag.resend.code } with
    | none => some ({ server with state := .exited, waitCount }, [])
    | some datagram => some ({ server with state := .waitOnAck, waitCount }, [datagram])

def byeReceive (received : Int × Packet) (server : Server) : Server :=
  let (crcCheck, incoming) := received
  let state := if crcCheck ≠ crcError ∧ incoming.flag = Flag.rr.code ∧
      incoming.number = asUInt32 (server.eofIndex + 1) then .done else .bye
  { server with state, byeCount := 0 }

/-- `bye`; `packet` is what the stack holds, `received` is `none` for the timeout. -/
def bye (host : ByteOrder) (packet : Packet) (received : Option (Int × Packet))
    (server : Server) : Option ServerStep :=
  let packet := construct host { packet with
    flag := Flag.endOfFile.code
    size := UInt32.ofNat headerLength
    seqNum := UInt32.ofInt server.eofIndex }
  match sendPacket2 packet with
  | none => some ({ server with state := .exited }, [])
  | some datagram =>
      let server := { server with byeCount := server.byeCount + 1 }
      if server.byeCount > 10 then some ({ server with state := .done }, [datagram])
      else match received with
      | none => some ({ server with state := .bye }, [datagram])
      | some received => some (byeReceive received server, [datagram])

end RemoteCopy
